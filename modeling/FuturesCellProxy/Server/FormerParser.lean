import FuturesCellProxy.Server.Fragmentation
import FuturesCellProxy.Server.RequestGrammar

/-! What `prase_http` and `consume` make of the same POST request. -/
namespace FuturesCellProxy.Server
open Foundation

/-- Both parsers treat the headers that give the length alike. -/
theorem readLengths_eq (headers : List Header) (req : Request) :
    (readContentLength headers req).1 = (readLengths headers req.contentLength).1 ∧
      (readContentLength headers req).2.contentLength = (readLengths headers req.contentLength).2 := by
  induction headers generalizing req with
  | nil => exact ⟨rfl,rfl⟩
  | cons header rest ih =>
    rw [readContentLength,readLengths]
    by_cases named : headersEqual header.name contentLengthName
    · rw [if_pos named,if_pos named]
      cases lexicalCastSize header.value with
      | none => exact ⟨rfl,rfl⟩
      | some n => exact ih {req with contentLength := n,bheader := true}
    · rw [if_neg named,if_neg named]
      exact ih req

theorem trim_solid {text : Bytes} (solid : ∀ c ∈ text, isSpace c = false) : trim text = text := by
  have right : text.rdropWhile isSpace = text := by
    rw [List.rdropWhile_eq_self_iff]
    intro some
    simp [solid _ (List.getLast_mem some)]
  rw [trim,right]
  cases text with
  | nil => rfl
  | cons c text => rw [List.dropWhile_cons_of_neg (by simp [solid c List.mem_cons_self])]

theorem token_solid {c : UInt8} (token : isToken c = true) : isSpace c = false := by
  have visible : isSpace c = true → c = 32 ∨ isCtl c = true := by
    simp only [isSpace,isCtl,Bool.or_eq_true,Bool.and_eq_true,decide_eq_true_iff,beq_iff_eq,UInt8.le_iff_toNat_le]
    intro blank
    rcases blank with ⟨_,low⟩ | same
    · right
      left
      exact low.trans (by decide)
    · exact .inl same
  by_contra blank
  rcases visible (Bool.of_not_eq_false blank) with same | control
  · rw [same] at token
    exact absurd token (by decide)
  · simp [isToken,control] at token

namespace PostText

/-- The characters are those that `consume` takes, and the values are not padded. -/
structure Plain (post : PostText) : Prop where
  uri : post.uri.all isTarget = true
  names : ∀ field ∈ post.fields, field.name ≠ [] ∧ field.name.all isToken = true
  values : ∀ field ∈ post.fields, field.value.all isText = true ∧ trim field.value = field.value

theorem Plain.headers {post : PostText} (plain : post.Plain) : post.headers = post.fields := by
  have same : ∀ field ∈ post.fields, field.trimmed = field := by
    intro field member
    have name := trim_solid fun c inside => token_solid (List.all_eq_true.mp (plain.names field member).2 c inside)
    rw [Header.trimmed,name,(plain.values field member).2]
  rw [PostText.headers,List.map_congr_left same]
  exact List.map_id post.fields

def headLines (post : PostText) : List HeadLine := post.fields.map fun field => .field field.name field.value

theorem headLines_headers (fields headers : List Header) :
    (fields.map fun field => HeadLine.field field.name field.value).foldl HeadLine.add headers = headers ++ fields := by
  induction fields generalizing headers with
  | nil => simp
  | cons field fields ih => simp [HeadLine.add,ih]

theorem headLines_bytes (fields : List Header) :
    ((fields.map fun field => HeadLine.field field.name field.value).map HeadLine.bytes).flatten =
      (fields.map Header.line).flatten := by
  have same : HeadLine.bytes ∘ (fun field : Header => HeadLine.field field.name field.value) = Header.line := by
    funext field
    simp [HeadLine.bytes,Header.line,ascii,colon,space]
  rw [List.map_map,same]

end PostText

namespace PostRequest
variable (post : PostRequest)

/-- The request as `consume` reads it. -/
def message (plain : post.Plain) : Message where
  method := ascii "POST"
  uri := slash :: post.uri
  major := ascii "1"
  minor := ascii "1"
  lines := post.headLines
  body := post.body
  methodToken := by decide
  uriTarget := ⟨List.cons_ne_nil _ _,Bool.and_eq_true_iff.mpr ⟨by decide,plain.uri⟩⟩
  majorDigits := by decide
  minorDigits := by decide
  wellFormed := by
    intro line member
    obtain ⟨field,inside,rfl⟩ := List.mem_map.mp member
    obtain ⟨some,tokens⟩ := plain.names field inside
    exact ⟨some,tokens,(plain.values field inside).1⟩
  opens := by
    rw [PostText.headLines]
    cases post.fields <;> rfl
  length := by
    have value := lexicalCastSize_of_decimal post.lengthValue post.bodySize
    have only : post.fields.filter (fun h => headersEqual h.name contentLengthName) = [post.length] := by
      rw [← plain.headers]
      exact post.lengthOnly
    have read := readContentLength_only post.fields Request.reset post.length post.body.length only value
    have same := readLengths_eq post.fields Request.reset
    rw [read] at same
    rw [PostText.headLines,PostText.headLines_headers]
    exact Prod.ext same.1.symm same.2.symm

theorem message_bytes (plain : post.Plain) : (post.message plain).bytes = post.bytes := by
  have start : ascii "POST /" = ascii "POST" ++ [space,slash] ∧
      ascii " HTTP/1.1" = space :: (ascii "HTTP/" ++ (ascii "1" ++ 46 :: ascii "1")) := by decide
  simp only [message,Message.bytes,Message.startLine,PostText.bytes,PostText.head,PostText.lines,PostText.startLine,
    PostText.headLines,PostText.headLines_bytes,start.1,start.2]
  simp

end PostRequest

/-- What one parser has made of these reads, and the other of their bytes. -/
structure SameReading (post : PostRequest) (reads : Nat) (out : List Verdict × RequestParser × Request) (former : Request) :
    Prop where
  verdicts : out.1 = List.replicate (reads - 1) .indeterminate ++ [.complete]
  method : out.2.2.method = former.method
  headers : out.2.2.headers = former.headers
  content : out.2.2.content = former.content
  /-- `TrimUri` is applied to what follows the first slash. -/
  uri : former.uri = slash :: post.uri ∧ out.2.2.uri = trimUri post.uri

/-- A POST request of plain characters, in whatever pieces it comes: `prase_http` decides with the
last piece as `consume` with the last character, and both have read the same. -/
theorem parsers_agree (post : PostRequest) (plain : post.Plain) (cut : Cut post.bytes) (initial : Request) (length : Nat)
    (small : (arrival (cut.reads.map Received.chunk)).length < 2^31) :
    ∃ former, Accepts Consumer.take (.more (⟨.start,length⟩,initial)) post.bytes former ∧
      SameReading post cut.reads.length (feed {} Request.reset cut.reads) former := by
  have unfinished : cut.reads ≠ [] := by
    intro empty
    have joined := cut.joined
    rw [empty] at joined
    have length := congrArg List.length joined
    rw [PostText.bytes,List.length_append,post.head_length,List.map_nil,List.flatten_nil,
      List.length_nil] at length
    omega
  obtain ⟨verdicts,result⟩ := post.feed_part Request.reset cut.reads ⟨rfl,rfl⟩ .fresh
    cut.joined cut.nonempty cut.terminated small unfinished
  refine ⟨(post.message plain).request initial,?_,verdicts,?_,?_,?_,rfl,?_⟩
  · rw [← post.message_bytes plain]
    exact (post.message plain).accepted initial length
  · rw [result]
    exact post.accepted_method _
  · have headers : (post.message plain).headers = post.fields := PostText.headLines_headers post.fields []
    rw [result,Message.request,headers,← plain.headers]
    exact post.accepted_headers _
  · rw [result]
    rfl
  · rw [result]
    exact post.accepted_uri _

def plainPost : PostRequest where
  uri := ascii "quotes?id=1"
  fields := [⟨ascii "CONTENT-length",ascii "006"⟩,⟨ascii "Accept",ascii "text/plain"⟩]
  body := ascii "latest"
  uriInline := by decide
  uriNoSpace := by decide
  uriTrims := by decide
  wellFormed := by decide
  length := ⟨ascii "CONTENT-length",ascii "006"⟩
  lengthOnly := by decide
  lengthValue := by decide
  bodySize := by decide
  headSize := by decide

def plainCut : Cut plainPost.bytes where
  reads := [⟨plainPost.bytes.take 30,[nul]⟩,⟨plainPost.bytes.drop 30,[]⟩]
  nonempty := by decide
  joined := by decide
  terminated := by decide

theorem parsers_agree_quotes : ∃ former,
    Accepts Consumer.take (.more (⟨.start,7⟩,Request.reset)) plainPost.bytes former ∧
      SameReading plainPost plainCut.reads.length (feed {} Request.reset plainCut.reads) former :=
  parsers_agree plainPost ⟨by decide,by decide,by decide⟩ plainCut Request.reset 7 (by decide)

end FuturesCellProxy.Server

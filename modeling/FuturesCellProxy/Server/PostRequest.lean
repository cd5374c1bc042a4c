import FuturesCellProxy.Server.Stages

/-! A well-formed POST request as a client writes it, and what the parser's functions
on lines make of its head. -/
namespace FuturesCellProxy.Server
open Foundation

structure Inline (text : Bytes) : Prop where
  noCr : cr ∉ text
  noLf : lf ∉ text
  noNul : nul ∉ text

instance (text : Bytes) : Decidable (Inline text) :=
  decidable_of_iff (cr ∉ text ∧ lf ∉ text ∧ nul ∉ text)
    ⟨fun ⟨noCr,noLf,noNul⟩ => ⟨noCr,noLf,noNul⟩,fun inside => ⟨inside.noCr,inside.noLf,inside.noNul⟩⟩

namespace Header

def line (header : Header) : Bytes := header.name ++ ascii ": " ++ header.value ++ crlf

def trimmed (header : Header) : Header := ⟨trim header.name,trim header.value⟩

structure WellFormed (header : Header) : Prop where
  name : Inline header.name
  noColon : colon ∉ header.name
  value : Inline header.value
  notStart : ¬ ascii "POST " <+: header.line

instance (header : Header) : Decidable header.WellFormed :=
  decidable_of_iff (Inline header.name ∧ colon ∉ header.name ∧ Inline header.value ∧
      ¬ ascii "POST " <+: header.line)
    ⟨fun ⟨name,noColon,value,notStart⟩ => ⟨name,noColon,value,notStart⟩,
      fun wellFormed => ⟨wellFormed.name,wellFormed.noColon,wellFormed.value,wellFormed.notStart⟩⟩

end Header

structure PostText where
  uri : Bytes
  fields : List Header
  body : Bytes

namespace PostText
variable (post : PostText)

def startLine : Bytes := ascii "POST /" ++ post.uri ++ ascii " HTTP/1.1" ++ crlf
def lines : List Bytes := post.startLine :: post.fields.map Header.line
def head : Bytes := post.lines.flatten ++ crlf
def bytes : Bytes := post.head ++ post.body
def headers : List Header := post.fields.map Header.trimmed

end PostText

/-- A POST request, with exactly one header that gives the length of its body. -/
structure PostRequest extends PostText where
  uriInline : Inline uri
  uriNoSpace : space ∉ uri
  uriTrims : trimUri uri ≠ []
  wellFormed : ∀ field ∈ fields, field.WellFormed
  length : Header
  lengthOnly : (fields.map Header.trimmed).filter (fun h => headersEqual h.name contentLengthName) = [length]
  lengthValue : readDecimal length.value = some body.length
  bodySize : body.length < sizeBound
  headSize : toPostText.head.length < 2^31

theorem isLine_of_inline {text : Bytes} (inside : Inline text) (nonempty : text ≠ []) :
    IsLine (text ++ crlf) := by
  have long := List.length_pos_iff.mpr nonempty
  have size : (text ++ crlf).length - 2 = text.length := by simp [crlf]
  have noNul : nul ∉ text ++ crlf := by
    rw [List.mem_append,not_or]
    exact ⟨inside.noNul,by decide⟩
  refine ⟨noNul,?_,by simp [crlf]; omega⟩
  rw [size]
  refine findFirst_skip (by decide : findFirst crlf crlf = some 0) fun j small => ?_
  -- the first byte of CRLF would be a carriage return inside the text
  rintro ⟨tail,here⟩
  rw [List.drop_append_of_le_length (by omega)] at here
  have some : text.drop j ≠ [] := by simp; omega
  obtain ⟨b,rest,split⟩ := List.exists_cons_of_ne_nil some
  rw [split] at here
  have same : cr = b := (List.cons.inj here).1
  have member : cr ∈ text.drop j := by rw [split,same]; exact List.mem_cons_self
  exact inside.noCr (List.mem_of_mem_drop member)

theorem IsLine.split {line : Bytes} (isLine : IsLine line) :
    line = line.take (line.length - 2) ++ crlf := by
  have ends := findFirst_split isLine.2.1
  have size : line.length - 2 + crlf.length = line.length := by
    have := isLine.2.2
    simp only [crlf,List.length_cons,List.length_nil]
    omega
  rwa [size,List.drop_length,List.append_nil] at ends

theorem IsLine.httpEnd_drop {line : Bytes} (isLine : IsLine line) (tail : Bytes) {j : Nat}
    (inside : j < line.length) (here : httpEnd <+: (line ++ tail).drop j) :
    j = line.length - 2 ∧ crlf <+: tail := by
  obtain ⟨_,_,least⟩ := (findFirst_eq_some _ _ _).mp isLine.2.1
  have long := isLine.2.2
  have two : crlf <+: httpEnd := by decide
  have last : line.length - 2 ≤ j := by
    by_contra early
    refine least j (by omega) ((prefix_drop_append tail ?_).mp (two.trans here))
    simp only [crlf,List.length_cons,List.length_nil]
    omega
  have whole : (line ++ tail).drop (line.length - 2) = crlf ++ tail := by
    conv_lhs => rw [isLine.split,List.append_assoc]
    exact List.drop_left' (by simp [crlf])
  by_cases same : j = line.length - 2
  · refine ⟨same,?_⟩
    rw [same,whole] at here
    exact (List.prefix_append_right_inj crlf).mp here
  · have next : j = line.length - 2 + 1 := by omega
    rw [next,← List.drop_drop,whole] at here
    obtain ⟨rest,absurd⟩ := here
    simp [httpEnd,crlf,cr,lf] at absurd

theorem findFirst_httpEnd (lines : List Bytes) (all : ∀ line ∈ lines, IsLine line)
    (nonempty : lines ≠ []) :
    findFirst httpEnd (lines.flatten ++ crlf) = some (lines.flatten.length - 2) := by
  induction lines with
  | nil => exact absurd rfl nonempty
  | cons line rest ih =>
    have isLine := all line (by simp)
    have long := isLine.2.2
    rw [List.flatten_cons,List.append_assoc]
    by_cases last : rest = []
    · subst last
      refine (findFirst_eq_some _ _ _).mpr ⟨by simp; omega,?_,fun j small here => ?_⟩
      · simp only [List.flatten_nil,List.append_nil,List.nil_append]
        conv_rhs => rw [isLine.split,List.append_assoc]
        rw [List.drop_left' (by simp [crlf])]
        decide
      · simp only [List.flatten_nil,List.append_nil] at small
        have := (isLine.httpEnd_drop _ (by omega) here).1
        omega
    · have found := ih (fun l member => all l (by simp [member])) last
      obtain ⟨next,others,rfl⟩ := List.exists_cons_of_ne_nil last
      have nextLine := all next (by simp)
      have index : (line ++ (next :: others).flatten).length - 2 =
          line.length + ((next :: others).flatten.length - 2) := by
        have := nextLine.2.2
        rw [List.length_append,List.flatten_cons,List.length_append]
        omega
      rw [index]
      refine findFirst_skip found fun j inside starts => ?_
      -- the next line would be empty
      have empty := (isLine.httpEnd_drop _ inside starts).2
      rw [List.flatten_cons,List.append_assoc] at empty
      have first := (findFirst_eq_some _ _ _).mp nextLine.2.1
      refine first.2.2 0 (by have := nextLine.2.2; omega) ?_
      rw [List.drop_zero]
      exact List.prefix_of_prefix_length_le empty (List.prefix_append _ _)
        (by have := nextLine.2.2; simp [crlf]; omega)

theorem Inline.append {first second : Bytes} (left : Inline first) (right : Inline second) :
    Inline (first ++ second) := by
  refine ⟨?_,?_,?_⟩ <;> rw [List.mem_append,not_or]
  · exact ⟨left.noCr,right.noCr⟩
  · exact ⟨left.noLf,right.noLf⟩
  · exact ⟨left.noNul,right.noNul⟩

namespace PostText

/-- No line of the head breaks off early or goes on behind its end. -/
def Lined (post : PostText) : Prop := ∀ line ∈ post.lines, IsLine line

namespace Lined
variable {post : PostText} (lined : post.Lined)
include lined

theorem head_noNul : nul ∉ post.head := by
  rw [PostText.head,List.mem_append,not_or,List.mem_flatten]
  refine ⟨?_,by decide⟩
  rintro ⟨line,member,inside⟩
  exact (lined line member).1 inside

theorem head_found : findFirst httpEnd post.head = some (post.lines.flatten.length - 2) :=
  findFirst_httpEnd _ lined (by simp [PostText.lines])

theorem head_length : post.head.length = post.lines.flatten.length - 2 + 4 := by
  have fits := findFirst_bound lined.head_found
  simp only [show httpEnd.length = 4 from rfl] at fits
  rw [PostText.head,List.length_append] at fits ⊢
  simp only [crlf,List.length_cons,List.length_nil] at fits ⊢
  omega

theorem readLines_eq (initial : Request) (tail : Bytes) (len : Nat) :
    readLines (post.head ++ tail) len (post.head ++ tail).length 0 initial =
      takeLines (reached (toInt32 len) 0 post.lines) initial := by
  have room := length_le_flatten post.lines lined
  refine Server.readLines_eq (post.head ++ tail) tail len post.lines lined _ 0 initial ?_ ?_
  · rw [List.drop_zero,PostText.head]
  · rw [PostText.head]
    simp only [List.length_append,crlf,List.length_cons,List.length_nil]
    omega

end Lined

end PostText

namespace PostRequest
variable (post : PostRequest)

theorem uri_ne_nil : post.uri ≠ [] := by
  intro empty
  exact post.uriTrims (by rw [empty]; rfl)

theorem startLine_isLine : IsLine post.startLine := by
  refine isLine_of_inline (Inline.append (Inline.append ?_ post.uriInline) ?_) (by simp [ascii])
  · exact ⟨by decide,by decide,by decide⟩
  · exact ⟨by decide,by decide,by decide⟩

end PostRequest

theorem Header.WellFormed.isLine {header : Header} (wellFormed : header.WellFormed) :
    IsLine header.line := by
  refine isLine_of_inline (Inline.append (Inline.append wellFormed.name ?_) wellFormed.value)
    (by simp [ascii])
  exact ⟨by decide,by decide,by decide⟩

namespace PostRequest
variable (post : PostRequest)

theorem lined : post.Lined := by
  intro line member
  rcases List.mem_cons.mp member with rfl | field
  · exact post.startLine_isLine
  · obtain ⟨header,inside,rfl⟩ := List.mem_map.mp field
    exact (post.wellFormed header inside).isLine

theorem head_length : post.head.length = post.lines.flatten.length - 2 + 4 := post.lined.head_length

end PostRequest

theorem scanWhile_eq (test : UInt8 → Bool) (before inside : Bytes) (stop : UInt8) (after : Bytes)
    (pass : ∀ b ∈ inside, test b) (fail : test stop = false) :
    scanWhile test (before ++ (inside ++ stop :: after)) before.length =
      before.length + inside.length := by
  rw [scanWhile,List.drop_left,List.takeWhile_append_of_pos pass]
  simp [fail]

theorem takeWhile_stop {test : UInt8 → Bool} (text : Bytes) {stop : UInt8} (tail : Bytes) (fails : test stop = false) :
    (text ++ stop :: tail).takeWhile test = text.takeWhile test := by
  induction text with
  | nil => simp [fails]
  | cons b text ih => rw [List.cons_append,List.takeWhile_cons,List.takeWhile_cons,ih]

/-- The function skips the blanks and one slash, if there is one. -/
theorem scan_start {line blanks lead behind : Bytes} {c : UInt8}
    (shape : line = ascii "POST" ++ (space :: blanks) ++ lead ++ c :: behind) (blank : ∀ b ∈ blanks, b = space)
    (slashed : lead = [slash] ∨ lead = [] ∧ c ≠ slash ∧ c ≠ space) :
    scanWhile (· ≠ space) line 0 = 4 ∧ scanWhile (· = space) line 4 = 5 + blanks.length ∧
    (if byteAt line (5 + blanks.length) = slash then 5 + blanks.length + 1 else 5 + blanks.length) =
      5 + blanks.length + lead.length := by
  obtain ⟨next,rest,first,solid,skipped⟩ : ∃ next rest, lead ++ c :: behind = next :: rest ∧
      next ≠ space ∧ (if next = slash then 1 else 0) = lead.length := by
    rcases slashed with rfl | ⟨rfl,noSlash,solid⟩
    · exact ⟨slash,_,rfl,by decide,rfl⟩
    · exact ⟨c,_,rfl,solid,by simp [noSlash]⟩
  have bytes : line = ascii "POST" ++ ((space :: blanks) ++ next :: rest) := by
    rw [shape,← first]
    simp
  have method : scanWhile (· ≠ space) line 0 = 4 := by
    rw [bytes]
    exact scanWhile_eq _ [] (ascii "POST") space _ (by decide +kernel) (by decide)
  have skips := scanWhile_eq (· = space) (ascii "POST") (space :: blanks) next rest (by simpa using blank)
    (by simpa using solid)
  rw [← bytes,show (ascii "POST").length = 4 from rfl,List.length_cons] at skips
  have here : byteAt line (5 + blanks.length) = next := by
    have whole : line = (ascii "POST" ++ (space :: blanks)) ++ next :: rest := by
      rw [bytes]
      simp
    have size : 5 + blanks.length = (ascii "POST" ++ (space :: blanks)).length := by
      simp [ascii]
      omega
    rw [byteAt,size,whole]
    simp
  refine ⟨method,by omega,?_⟩
  rw [here,← skipped]
  split <;> rfl

/-- Behind that, it takes the next byte as it is, and all up to the next blank. -/
theorem getHttpUri_word {line blanks lead u tail : Bytes} {c : UInt8}
    (shape : line = ascii "POST" ++ (space :: blanks) ++ lead ++ c :: (u ++ space :: tail))
    (blank : ∀ b ∈ blanks, b = space) (slashed : lead = [slash] ∨ lead = [] ∧ c ≠ slash ∧ c ≠ space)
    (req : Request) :
    getHttpUri req line =
      (true,{req with method := req.method ++ ascii "POST",uri := trimUri (c :: u.takeWhile (· ≠ space))}) := by
  obtain ⟨method,skips,start⟩ := scan_start shape blank slashed
  have front : (ascii "POST" ++ (space :: blanks) ++ lead).length = 5 + blanks.length + lead.length := by
    simp [ascii]
    omega
  have ends : scanWhile (· ≠ space) line (5 + blanks.length + lead.length + 1) =
      5 + blanks.length + lead.length + 1 + (u.takeWhile (· ≠ space)).length := by
    have whole : line = (ascii "POST" ++ (space :: blanks) ++ lead ++ [c]) ++ (u ++ space :: tail) := by
      rw [shape]
      simp
    have size : 5 + blanks.length + lead.length + 1 = (ascii "POST" ++ (space :: blanks) ++ lead ++ [c]).length := by
      rw [List.length_append,front]
      rfl
    rw [scanWhile,size,whole,List.drop_left,takeWhile_stop u tail (by decide)]
  have short : (u.takeWhile (· ≠ space)).length ≤ u.length := (List.takeWhile_prefix _).length_le
  have inside : 5 + blanks.length + lead.length + 1 + (u.takeWhile (· ≠ space)).length ≠ line.length := by
    rw [shape,List.length_append,front]
    simp only [List.length_append,List.length_cons]
    omega
  have taken : line.take 4 = ascii "POST" := by
    rw [shape,List.append_assoc,List.append_assoc]
    exact List.take_left' rfl
  have cut : (line.drop (5 + blanks.length + lead.length)).take
      (5 + blanks.length + lead.length + 1 + (u.takeWhile (· ≠ space)).length - (5 + blanks.length + lead.length)) =
      c :: u.takeWhile (· ≠ space) := by
    have part : u.takeWhile (· ≠ space) <+: u ++ space :: tail :=
      (List.takeWhile_prefix _).trans (List.prefix_append _ _)
    have count : 5 + blanks.length + lead.length + 1 + (u.takeWhile (· ≠ space)).length -
        (5 + blanks.length + lead.length) = (u.takeWhile (· ≠ space)).length + 1 := by omega
    rw [count,shape,List.drop_left' front,List.take_succ_cons,← List.prefix_iff_eq_take.mp part]
  rw [getHttpUri]
  simp only [method,skips]
  rw [start]
  simp only [ends]
  rw [if_neg inside,taken,cut]

theorem getHttpUri_line {lead uri : Bytes} (ending : Bytes)
    (shape : lead = [slash] ∨ lead = [] ∧ uri.head? ≠ some slash) (nonempty : uri ≠ [])
    (noSpace : space ∉ uri) (req : Request) :
    getHttpUri req (ascii "POST " ++ (lead ++ uri) ++ ascii " HTTP/1.1" ++ ending) =
      (true,{req with method := req.method ++ ascii "POST",uri := trimUri uri}) := by
  obtain ⟨c,rest,rfl⟩ := List.exists_cons_of_ne_nil nonempty
  have solid : ∀ b ∈ c :: rest, b ≠ space := by
    rintro b member rfl
    exact noSpace member
  have all : rest.takeWhile (· ≠ space) = rest :=
    List.takeWhile_eq_self_iff.mpr fun b member => by simpa using solid b (List.mem_cons_of_mem _ member)
  have word := @getHttpUri_word (ascii "POST " ++ (lead ++ c :: rest) ++ ascii " HTTP/1.1" ++ ending) [] lead rest
    (ascii "HTTP/1.1" ++ ending) c (by simp [ascii,space]) (by simp)
    (shape.imp id fun bare => ⟨bare.1,by simpa using bare.2,solid c List.mem_cons_self⟩) req
  rwa [all] at word

theorem getHttpUri_startLine {uri : Bytes} (nonempty : uri ≠ []) (noSpace : space ∉ uri) (req : Request) :
    getHttpUri req (ascii "POST /" ++ uri ++ ascii " HTTP/1.1" ++ crlf) =
      (true,{req with method := req.method ++ ascii "POST",uri := trimUri uri}) :=
  getHttpUri_line crlf (.inl rfl) nonempty noSpace req

theorem takeLine_startLine (post : PostRequest) (req : Request) :
    takeLine req post.startLine =
      (true,{req with method := req.method ++ ascii "POST",uri := trimUri post.uri}) := by
  have word : ncmp post.startLine (ascii "POST ") 5 = true := rfl
  rw [takeLine,if_pos word]
  exact getHttpUri_startLine post.uri_ne_nil post.uriNoSpace req

theorem ncmp_loop_start {string1 string2 : Bytes} (bytes : Nat) (fits : bytes = string2.length)
    (same : ncmp.loop string1 string2 bytes = true) : string2 <+: string1 := by
  induction bytes generalizing string1 string2 with
  | zero =>
    obtain rfl := List.length_eq_zero_iff.mp fits.symm
    exact List.nil_prefix
  | succ bytes ih =>
    cases string2 with
    | nil => simp at fits
    | cons b string2 =>
      cases string1 with
      | nil => simp [ncmp.loop] at same
      | cons a string1 =>
        rw [ncmp.loop] at same
        split at same
        · contradiction
        · split at same
          · contradiction
          next equal =>
            rw [not_not,List.headD_cons] at equal
            rw [equal]
            exact (List.cons_prefix_cons).mpr ⟨rfl,ih (by simpa using fits) same⟩

namespace Request

def addHeader (req : Request) (header : Header) : Request :=
  let req := {req with headers := req.headers ++ [header]}
  if header.name = ascii "User-cmd" then {req with reqCmd := header.value} else req

section AddHeader
variable (headers : List Header) (req : Request)

theorem addHeaders_headers : (headers.foldl addHeader req).headers = req.headers ++ headers := by
  induction headers generalizing req with
  | nil => simp
  | cons header rest ih =>
    rw [List.foldl_cons,ih,addHeader]
    split <;> simp

theorem addHeaders_uri : (headers.foldl addHeader req).uri = req.uri := by
  induction headers generalizing req with
  | nil => rfl
  | cons header rest ih =>
    rw [List.foldl_cons,ih,addHeader]
    split <;> rfl

theorem addHeaders_method : (headers.foldl addHeader req).method = req.method := by
  induction headers generalizing req with
  | nil => rfl
  | cons header rest ih =>
    rw [List.foldl_cons,ih,addHeader]
    split <;> rfl

end AddHeader

end Request

def userCmd (headers : List Header) (old : Bytes) : Bytes :=
  headers.foldl (fun command header => if header.name = ascii "User-cmd" then header.value else command) old

theorem userCmd_cons (header : Header) (rest : List Header) (old : Bytes) : userCmd (header :: rest) old =
    userCmd rest (if header.name = ascii "User-cmd" then header.value else old) := rfl

theorem addHeaders_eq (headers : List Header) (req : Request) :
    headers.foldl Request.addHeader req =
      {req with headers := req.headers ++ headers,reqCmd := userCmd headers req.reqCmd} := by
  induction headers generalizing req with
  | nil => simp [userCmd]
  | cons header rest ih =>
    rw [List.foldl_cons,ih,userCmd_cons,Request.addHeader]
    split <;> simp

theorem getMimeHeader_line {header : Header} (wellFormed : header.WellFormed) (req : Request) :
    getMimeHeader req header.line = (true,req.addHeader header.trimmed) := by
  have nameTest : ∀ b ∈ header.name, (b ≠ nul && b ≠ colon) = true := by
    intro b member
    have noNul : b ≠ nul := fun same => wellFormed.name.noNul (same ▸ member)
    have noColon : b ≠ colon := fun same => wellFormed.noColon (same ▸ member)
    simp [noNul,noColon]
  have valueTest : ∀ b ∈ space :: header.value ++ [cr], (b ≠ nul && b ≠ lf) = true := by
    intro b member
    simp only [List.cons_append,List.mem_cons,List.mem_append,List.not_mem_nil,or_false] at member
    rcases member with rfl | member | rfl
    · decide
    · have noNul : b ≠ nul := fun same => wellFormed.value.noNul (same ▸ member)
      have noLf : b ≠ lf := fun same => wellFormed.value.noLf (same ▸ member)
      simp [noNul,noLf]
    · decide
  have whole : header.line = header.name ++ colon :: (space :: header.value ++ crlf) := by
    simp [Header.line,ascii,colon,space]
  have colonAt : scanWhile (fun b => b ≠ nul && b ≠ colon) header.line 0 = header.name.length := by
    have := scanWhile_eq _ [] header.name colon (space :: header.value ++ crlf) nameTest (by decide)
    rwa [List.nil_append,← whole,List.length_nil,Nat.zero_add] at this
  have endAt : scanWhile (fun b => b ≠ nul && b ≠ lf) header.line (header.name.length + 1) =
      header.name.length + 1 + (header.value.length + 2) := by
    have := scanWhile_eq _ (header.name ++ [colon]) (space :: header.value ++ [cr]) lf [] valueTest
      (by decide)
    simpa [whole,crlf] using this
  have hasColon : byteAt header.line header.name.length = colon := by
    simp [byteAt,whole]
  have hasEnd : byteAt header.line (header.name.length + 1 + (header.value.length + 2)) = lf := by
    have split : header.line = (header.name ++ colon :: space :: header.value ++ [cr]) ++ [lf] := by
      simp [whole,crlf]
    have size : (header.name ++ colon :: space :: header.value ++ [cr]).length =
        header.name.length + 1 + (header.value.length + 2) := by
      simp
      omega
    rw [byteAt,split,← size]
    simp
  have name : header.line.take header.name.length = header.name := by simp [whole]
  have value : (header.line.drop (header.name.length + 1)).take
      (header.name.length + 1 + (header.value.length + 2) - header.name.length) =
      space :: header.value ++ crlf := by
    have rest : header.line.drop (header.name.length + 1) = space :: header.value ++ crlf := by
      simp [whole,← List.drop_drop]
    rw [rest]
    exact List.take_of_length_le (by simp [crlf]; omega)
  have trims : trim (space :: header.value ++ crlf) = trim header.value := by
    rw [trim_append_crlf,trim_cons_of_isSpace _ (by decide)]
  unfold getMimeHeader
  simp only [colonAt,hasColon,endAt,hasEnd,name,value,trims]
  rfl

theorem takeLine_line {header : Header} (wellFormed : header.WellFormed) (req : Request)
    (started : req.uri ≠ []) : takeLine req header.line = (true,req.addHeader header.trimmed) := by
  have notStart : ¬ ncmp header.line (ascii "POST ") 5 = true :=
    fun same => wellFormed.notStart (ncmp_loop_start 5 rfl same)
  have someUri : ¬ req.uri.isEmpty = true := by simpa using started
  rw [takeLine,if_neg notStart,if_neg someUri]
  exact getMimeHeader_line wellFormed req

theorem takeLines_fields (fields : List Header) (wellFormed : ∀ field ∈ fields, field.WellFormed)
    (req : Request) (started : req.uri ≠ []) :
    takeLines (fields.map Header.line) req =
      (true,(fields.map Header.trimmed).foldl Request.addHeader req) := by
  induction fields generalizing req with
  | nil => rfl
  | cons field rest ih =>
    have same : (req.addHeader field.trimmed).uri = req.uri := Request.addHeaders_uri [field.trimmed] req
    rw [List.map_cons,takeLines,takeLine_line (wellFormed field (by simp)) req started]
    exact ih (fun f member => wellFormed f (by simp [member])) _ (by rwa [same])

theorem readContentLength_only (headers : List Header) (req : Request) (length : Header) (n : Nat)
    (only : headers.filter (fun h => headersEqual h.name contentLengthName) = [length])
    (value : lexicalCastSize length.value = some n) :
    readContentLength headers req = (true,{req with contentLength := n,bheader := true}) := by
  induction headers with
  | nil => contradiction
  | cons header rest ih =>
    rw [List.filter_cons] at only
    split at only
    next same =>
      obtain ⟨rfl,absent⟩ := List.cons.inj only
      rw [readContentLength,if_pos same,value]
      exact readContentLength_absent rest _ absent
    next other => rw [readContentLength,if_neg other,ih only]

namespace PostRequest
variable (post : PostRequest)

def accepted (initial : Request) : Request :=
  let started := {initial with method := initial.method ++ ascii "POST",uri := trimUri post.uri}
  {post.headers.foldl Request.addHeader started with contentLength := post.body.length,bheader := true}

section Accepted
variable (initial : Request)

theorem accepted_method : (post.accepted initial).method = initial.method ++ ascii "POST" :=
  Request.addHeaders_method post.headers _

theorem accepted_uri : (post.accepted initial).uri = trimUri post.uri :=
  Request.addHeaders_uri post.headers _

theorem accepted_headers : (post.accepted initial).headers = initial.headers ++ post.headers :=
  Request.addHeaders_headers post.headers _

theorem accepted_reqCmd : (post.accepted initial).reqCmd = userCmd post.headers initial.reqCmd :=
  congrArg Request.reqCmd (addHeaders_eq post.headers _)

@[simp] theorem accepted_contentLength : (post.accepted initial).contentLength = post.body.length := rfl

end Accepted

theorem readHead_post (initial : Request) (tail : Bytes) (len : Nat) (blank : initial.headers = [])
    (below : (post.lines.flatten.length : Int) < toInt32 len) :
    readHead (post.head ++ tail) len initial = (true,post.accepted initial) := by
  have all : reached (toInt32 len) 0 post.lines = post.lines :=
    reached_all _ _ _ (by simpa using below)
  let started := {initial with method := initial.method ++ ascii "POST",uri := trimUri post.uri}
  have fields := takeLines_fields post.fields post.wellFormed started post.uriTrims
  have headers : (post.headers.foldl Request.addHeader started).headers = post.headers := by
    rw [Request.addHeaders_headers]
    exact congrArg (· ++ post.headers) blank
  have value := lexicalCastSize_of_decimal post.lengthValue post.bodySize
  have found := readContentLength_only post.headers (post.headers.foldl Request.addHeader started)
    post.length _ post.lengthOnly value
  rw [readHead,post.lined.readLines_eq,all,PostText.lines,takeLines,takeLine_startLine]
  dsimp only
  rw [fields]
  dsimp only
  rw [← PostText.headers,headers,found]
  rfl

/-- When the number of bytes received is negative as a 32-bit integer, no line is looked at. -/
theorem readHead_post_neg (initial : Request) (tail : Bytes) (len : Nat) (blank : initial.headers = [])
    (negative : toInt32 len < 0) :
    readHead (post.head ++ tail) len initial = (initial.bheader,initial) := by
  rw [readHead,post.lined.readLines_eq,reached_neg _ _ _ negative,takeLines]
  dsimp only
  rw [blank]
  rfl

end PostRequest

end FuturesCellProxy.Server

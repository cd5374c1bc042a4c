import FuturesCellProxy.Server.PostRequest

/-! A POST request reaches the handler's input whole, whatever reads its bytes come in. -/
namespace FuturesCellProxy.Server
open Foundation

/-- How a sequence of bytes may come in: memory behind each read begins with NUL. -/
structure Cut (bytes : Bytes) where
  reads : List Received
  nonempty : ∀ read ∈ reads, read.chunk ≠ []
  joined : (reads.map Received.chunk).flatten = bytes
  terminated : ∀ read ∈ reads, read.rest.headD nul = nul

structure Delivered (post : PostRequest) (reads : Nat)
    (out : List Verdict × RequestParser × Request) : Prop where
  verdicts : out.1 = List.replicate (reads - 1) .indeterminate ++ [.complete]
  method : out.2.2.method = ascii "POST"
  uri : out.2.2.uri = trimUri post.uri
  headers : out.2.2.headers = post.headers
  content : out.2.2.content = post.body

namespace PostText.Lined
variable {post : PostText} (lined : post.Lined)
include lined

theorem strstr_part {bytes : Bytes} (part : bytes <+: post.bytes) :
    strstr bytes httpEnd =
      if post.head.length ≤ bytes.length then some (post.head.length - 4) else none := by
  have size := lined.head_length
  have whole : post.head <+: post.bytes := List.prefix_append _ _
  have found : strstr post.head httpEnd = some (post.head.length - 4) := by
    rw [strstr,upTo_eq_self lined.head_noNul,lined.head_found,size]
    simp
  split
  next complete =>
    obtain ⟨tail,rfl⟩ := List.prefix_of_prefix_length_le whole part complete
    exact strstr_append_some tail found
  next incomplete =>
    obtain ⟨tail,split⟩ := List.prefix_of_prefix_length_le part whole (by omega)
    cases early : strstr bytes httpEnd with
    | none => rfl
    | some i =>
      have fits := strstr_bound early
      have same := strstr_append_some tail early
      simp only [split,found,Option.some.injEq,show httpEnd.length = 4 from rfl] at same fits
      omega

theorem found_part {bytes : Bytes} {i : Nat} (part : bytes <+: post.bytes)
    (found : strstr bytes httpEnd = some i) :
    i + 4 = post.head.length ∧ ∃ tail, bytes = post.head ++ tail := by
  have size := lined.head_length
  rw [lined.strstr_part part] at found
  split at found
  next complete =>
    have index := Option.some.inj found
    obtain ⟨tail,split⟩ := List.prefix_of_prefix_length_le (List.prefix_append _ _) part complete
    exact ⟨by omega,tail,split.symm⟩
  next => contradiction

end PostText.Lined

namespace PostRequest
variable (post : PostRequest)

theorem readHead_part {initial : Request} {bytes : Bytes} {i : Nat} (part : bytes <+: post.bytes)
    (blank : initial.headers = []) (found : strstr bytes httpEnd = some i)
    (small : bytes.length < 2^31) :
    readHead bytes bytes.length initial = (true,post.accepted initial) := by
  obtain ⟨_,tail,split⟩ := post.lined.found_part part found
  have size := post.head_length
  have fits : post.head.length ≤ bytes.length := by simp [split]
  have below : (post.lines.flatten.length : Int) < toInt32 bytes.length := by
    have lines : post.head.length = post.lines.flatten.length + 2 := by
      rw [PostText.head,List.length_append]
      rfl
    rw [toInt32_of_lt small]
    omega
  have read := post.readHead_post initial tail _ blank below
  rwa [← split] at read

theorem arrived_part {initial head : Request} {bytes : Bytes} {i : Nat} (part : bytes <+: post.bytes)
    (blank : initial.headers = []) (small : bytes.length < 2^31)
    (arrived : Arrived initial bytes i head) :
    i + 4 = post.head.length ∧ head = post.accepted initial := by
  have read := arrived.read
  rw [post.readHead_part part blank arrived.found small] at read
  exact ⟨(post.lined.found_part part arrived.found).1,(Prod.mk.inj read).2.symm⟩

theorem called_part {initial req : Request} {reads : List Bytes} {verdict : Verdict}
    {parser : RequestParser} (called : Called initial reads verdict parser req)
    (part : reads.flatten <+: post.bytes) (blank : initial.headers = [])
    (small : (arrival reads).length < 2^31) :
    (reads.flatten.length < post.bytes.length → verdict = .indeterminate ∧ Stage initial reads parser req) ∧
    (reads.flatten = post.bytes → verdict = .complete ∧
      req = (post.accepted initial).store (initial.httpReqData ++ post.bytes) post.body) := by
  have first : arrival reads <+: post.bytes := (arrival_start reads).trans part
  have total : post.bytes.length = post.head.length + post.body.length := by
    rw [PostText.bytes,List.length_append]
  have body : post.bytes.drop post.head.length = post.body := by
    rw [PostText.bytes,List.drop_left]
  have size := post.head_length
  cases called with
  | more parser req stage =>
    refine ⟨fun _ => ⟨rfl,stage⟩,fun all => ?_⟩
    exfalso
    cases stage with
    | fresh =>
      rw [List.flatten_nil] at all
      rw [← all,List.length_nil] at total
      omega
    | header reads missing =>
      rw [all,post.lined.strstr_part (List.prefix_refl _),if_pos (by omega)] at missing
      contradiction
    | content reads i head kept arrived short =>
      obtain ⟨index,rfl⟩ := post.arrived_part first blank small arrived
      rw [all,accepted_contentLength] at short
      omega
  | refused i parser req here found why =>
    exfalso
    rw [here] at small
    rw [post.readHead_part part blank found small,maxSize] at why
    rcases why with refused | long
    · contradiction
    · omega
  | atOnce i head kept here arrived enough =>
    obtain ⟨index,rfl⟩ := post.arrived_part first blank small arrived
    rw [accepted_contentLength] at enough
    refine ⟨fun _ => by omega,fun all => ⟨rfl,?_⟩⟩
    rw [all,index,body]
  | later i head kept arrived short enough =>
    obtain ⟨index,rfl⟩ := post.arrived_part first blank small arrived
    rw [accepted_contentLength] at enough
    refine ⟨fun _ => by omega,fun all => ⟨rfl,?_⟩⟩
    rw [all,index,body,accepted_contentLength,List.take_length]

theorem feed_part {req : Request} {before : List Bytes} {parser : RequestParser}
    (initial : Request) (reads : List Received) (fresh : initial.headers = [] ∧ initial.content = [])
    (stage : Stage initial before parser req)
    (joined : (before ++ reads.map Received.chunk).flatten = post.bytes)
    (nonempty : ∀ read ∈ reads, read.chunk ≠ [])
    (terminated : ∀ read ∈ reads, read.rest.headD nul = nul)
    (small : (arrival (before ++ reads.map Received.chunk)).length < 2^31)
    (unfinished : reads ≠ []) :
    (feed parser req reads).1 = List.replicate (reads.length - 1) .indeterminate ++ [.complete] ∧
    (feed parser req reads).2.2 =
      (post.accepted initial).store (initial.httpReqData ++ post.bytes) post.body := by
  induction reads generalizing before parser req with
  | nil => exact absurd rfl unfinished
  | cons read rest ih =>
    have called := parse_called read.chunk read.rest fresh.2 stage
      (fun _ => closed_of_terminated _ _ (terminated read (by simp)))
    rw [List.map_cons,List.append_cons] at joined small
    have split : (before ++ [read.chunk]).flatten ++ (rest.map Received.chunk).flatten = post.bytes := by
      rw [← joined]
      exact List.flatten_append.symm
    have part : (before ++ [read.chunk]).flatten <+: post.bytes := ⟨_,split⟩
    have early := (arrival_mono (before ++ [read.chunk]) (rest.map Received.chunk)).length_le
    obtain ⟨going,done⟩ := post.called_part called part fresh.1 (by omega)
    cases rest with
    | nil =>
      obtain ⟨complete,result⟩ := done (by simpa using joined)
      rw [feed_decided [] (by rw [complete]; decide),complete]
      exact ⟨rfl,result⟩
    | cons next others =>
      have more : (before ++ [read.chunk]).flatten.length < post.bytes.length := by
        have long := List.length_pos_iff.mpr (nonempty next (by simp))
        rw [← split,List.length_append,List.map_cons,List.flatten_cons,List.length_append]
        omega
      obtain ⟨answer,stage⟩ := going more
      obtain ⟨verdicts,result⟩ := ih stage joined (fun r member => nonempty r (by simp [member]))
        (fun r member => terminated r (by simp [member])) small (by simp)
      rw [feed_undecided _ answer]
      refine ⟨?_,result⟩
      dsimp only
      rw [verdicts]
      rfl

end PostRequest

/-- Every cut of a POST request is delivered, if the bytes received by the end of the
read that completes its head number fewer than `2^31`. -/
theorem fragmentation (post : PostRequest) (cut : Cut post.bytes)
    (small : (arrival (cut.reads.map Received.chunk)).length < 2^31) :
    Delivered post cut.reads.length (feed {} Request.reset cut.reads) := by
  have unfinished : cut.reads ≠ [] := by
    intro empty
    have joined := cut.joined
    rw [empty] at joined
    have length := congrArg List.length joined
    rw [PostText.bytes,List.length_append,post.head_length,List.map_nil,List.flatten_nil,
      List.length_nil] at length
    omega
  obtain ⟨verdicts,result⟩ := post.feed_part Request.reset cut.reads ⟨rfl,rfl⟩ .fresh
    cut.joined cut.nonempty cut.terminated small unfinished
  refine ⟨verdicts,?_,?_,?_,?_⟩ <;> rw [result]
  · exact post.accepted_method _
  · exact post.accepted_uri _
  · exact post.accepted_headers _
  · rfl

def notePost : PostRequest where
  uri := ascii "notes?id=1"
  fields := [⟨ascii "content-LENGTH",ascii " 04"⟩,⟨ascii "Connection",ascii "keep-alive"⟩]
  body := httpEnd
  uriInline := by decide
  uriNoSpace := by decide
  uriTrims := by decide
  wellFormed := by decide
  length := ⟨ascii "content-LENGTH",ascii "04"⟩
  lengthOnly := by decide
  lengthValue := by decide
  bodySize := by decide
  headSize := by decide

def noteCut : Cut notePost.bytes where
  reads := [⟨notePost.bytes.take 72,[nul]⟩,⟨(notePost.bytes.drop 72).take 4,[]⟩,⟨notePost.bytes.drop 76,[]⟩]
  nonempty := by decide
  joined := by decide
  terminated := by decide

theorem fragmentation_note : Delivered notePost noteCut.reads.length (feed {} Request.reset noteCut.reads) :=
  fragmentation notePost noteCut (by decide)

/-- From `2^31` bytes on with the head, their number turns negative and no line is read. -/
theorem feed_large (post : PostRequest) (negative : toInt32 post.bytes.length < 0) :
    (feed {} Request.reset [⟨post.bytes,[]⟩]).1 = [.invalid] := by
  have whole : [post.bytes].flatten = post.bytes := by simp
  have here : arrival [post.bytes] = post.bytes := by
    simpa using @arrival_of_missing [] post.bytes rfl
  have refused : readHead post.bytes post.bytes.length Request.reset = (false,Request.reset) :=
    post.readHead_post_neg Request.reset post.body _ rfl negative
  have notArrived : ∀ i head, ¬ Arrived Request.reset (arrival [post.bytes]) i head := by
    intro i head arrived
    have read := arrived.read
    rw [here,refused] at read
    exact Bool.false_ne_true (Prod.mk.inj read).1
  have called := parse_called post.bytes [] rfl (.fresh : Stage Request.reset [] {} Request.reset)
    (fun _ => closed_of_terminated _ _ rfl)
  dsimp only [List.nil_append] at called
  have answer : (RequestParser.parse {} Request.reset post.bytes []).1 = .invalid := by
    revert called
    generalize RequestParser.parse {} Request.reset post.bytes [] = out
    obtain ⟨verdict,parser,req⟩ := out
    intro called
    cases called with
    | more _ _ stage =>
      cases stage with
      | header _ missing =>
        rw [whole,post.lined.strstr_part (List.prefix_refl _),if_pos (by simp [PostText.bytes])] at missing
        exact absurd missing (Option.some_ne_none _)
      | content _ i head kept arrived => exact absurd arrived (notArrived i head)
    | refused => rfl
    | atOnce i head kept _ arrived => exact absurd arrived (notArrived i head)
    | later i head kept arrived => exact absurd arrived (notArrived i head)
  rw [feed_decided [] (by rw [answer]; decide)]
  exact congrArg (fun verdict => [verdict]) answer

section Large
variable (body : Bytes) (size : body.length = 2^31)

def largePost : PostRequest where
  uri := ascii "a"
  fields := [⟨ascii "Content-Length",ascii "2147483648"⟩]
  body := body
  uriInline := by decide
  uriNoSpace := by decide
  uriTrims := by decide
  wellFormed := by decide
  length := ⟨ascii "Content-Length",ascii "2147483648"⟩
  lengthOnly := by decide
  lengthValue := by rw [size]; decide
  bodySize := by rw [size]; decide
  headSize := by simp [PostText.head,PostText.lines,PostText.startLine,Header.line,ascii,crlf]

theorem largePost_length : (largePost body size).bytes.length = 48 + 2^31 := by
  have head : (largePost body size).head.length = 48 := by
    simp [largePost,PostText.head,PostText.lines,PostText.startLine,Header.line,ascii,crlf]
  rw [PostText.bytes,List.length_append,head]
  exact congrArg (48 + ·) size

def largeCut : Cut (largePost body size).bytes where
  reads := [⟨(largePost body size).bytes,[]⟩]
  nonempty := by
    intro read member
    rw [List.mem_singleton] at member
    subst member
    refine List.ne_nil_of_length_pos ?_
    rw [largePost_length]
    omega
  joined := by simp
  terminated := by
    intro read member
    rw [List.mem_singleton] at member
    subst member
    rfl

theorem large_refused :
    (feed {} Request.reset (largeCut body size).reads).1 = [.invalid] := by
  refine feed_large _ ?_
  rw [largePost_length]
  exact toInt32_neg (by omega) (by omega)

end Large

theorem fragmentation_large :
    let body := List.replicate (2^31) nul
    let size := List.length_replicate
    ¬ Delivered (largePost body size) (largeCut body size).reads.length
      (feed {} Request.reset (largeCut body size).reads) := by
  intro body size delivered
  have verdicts := delivered.verdicts
  rw [large_refused body size,largeCut] at verdicts
  simp at verdicts

end FuturesCellProxy.Server

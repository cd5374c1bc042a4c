import FuturesCellProxy.Server.Stages

/-! The first request of a connection. Two runs on the same reads start with different
values in the members that the constructor leaves unset; they stay together until a
head without a content length comes to the test of `bheader`. -/
namespace FuturesCellProxy.Server
open Foundation

namespace Request

def constructed (httpReqData : Bytes) (bheader : Bool) (contentLength : Nat) : Request :=
  Request.reset.carry httpReqData [] bheader contentLength

def initialised (req : Request) : Request := {req with bheader := false,contentLength := 0}

end Request

/-- Two runs give the same verdicts and the same request, up to the two members as long
as the request is not complete. -/
structure SameJudgement (out out' : List Verdict × RequestParser × Request) : Prop where
  verdicts : out.1 = out'.1
  request : out.2.2.initialised = out'.2.2.initialised
  complete : .complete ∈ out.1 → out.2.2 = out'.2.2

theorem SameJudgement.refl (out : List Verdict × RequestParser × Request) : SameJudgement out out :=
  ⟨rfl,rfl,fun _ => rfl⟩

def JudgedByBytes (reads : List Received) : Prop :=
  ∀ (bheader bheader' : Bool) (contentLength contentLength' : Nat),
    SameJudgement (feed {} {bheader,contentLength} reads)
      (feed {} {bheader := bheader',contentLength := contentLength'} reads)

/-- A head arrives whose lines are accepted and hold no content length. -/
structure Headless (before : Bytes) (chunks : List Bytes) (i : Nat) (req : Request) : Prop where
  found : strstr (arrivalFrom before chunks) httpEnd = some i
  lines : readLines (arrivalFrom before chunks) (arrivalFrom before chunks).length
    (arrivalFrom before chunks).length 0 .reset = (true,req)
  absent : req.headers.filter (fun h => headersEqual h.name contentLengthName) = []
  fits : (arrivalFrom before chunks).length - (i+4) ≤ maxSize

namespace Headless
variable {before chunk : Bytes} {rest : List Bytes} {i : Nat} {req : Request}

theorem later (missing : strstr (before ++ chunk) httpEnd = none) :
    Headless before (chunk :: rest) i req ↔ Headless (before ++ chunk) rest i req := by
  have same : arrivalFrom before (chunk :: rest) = arrivalFrom (before ++ chunk) rest := by
    rw [arrivalFrom,missing]
    rfl
  constructor
  · rintro ⟨found,lines,absent,fits⟩
    rw [same] at found lines fits
    exact ⟨found,lines,absent,fits⟩
  · rintro ⟨found,lines,absent,fits⟩
    rw [← same] at found lines fits
    exact ⟨found,lines,absent,fits⟩

theorem here {j : Nat} (ends : strstr (before ++ chunk) httpEnd = some j) :
    Headless before (chunk :: rest) i req ↔
      i = j ∧ readLines (before ++ chunk) (before ++ chunk).length (before ++ chunk).length 0 .reset = (true,req) ∧
        req.headers.filter (fun h => headersEqual h.name contentLengthName) = [] ∧
        (before ++ chunk).length - (i+4) ≤ maxSize := by
  have same : arrivalFrom before (chunk :: rest) = before ++ chunk := by
    rw [arrivalFrom,ends]
    rfl
  constructor
  · rintro ⟨found,lines,absent,fits⟩
    rw [same] at found lines fits
    exact ⟨Option.some.inj (found.symm.trans ends),lines,absent,fits⟩
  · rintro ⟨rfl,lines,absent,fits⟩
    rw [← same] at ends lines fits
    exact ⟨ends,lines,absent,fits⟩

end Headless

section Carry
variable (data : Bytes)

theorem readContentLength_present (headers : List Header) (req : Request)
    (present : headers.filter (fun h => headersEqual h.name contentLengthName) ≠ []) :
    (∃ m, ∀ b n, readContentLength headers (req.carry data [] b n) = (true,req.carry data [] true m)) ∨
    (∀ b n, ∃ b' n', readContentLength headers (req.carry data [] b n) = (false,req.carry data [] b' n')) := by
  induction headers with
  | nil => exact absurd rfl present
  | cons header rest ih =>
    rw [List.filter_cons] at present
    simp only [readContentLength]
    split at present
    next same =>
      simp only [same,if_true]
      cases value : lexicalCastSize header.value with
      | none => exact .inr fun b n => ⟨b,n,rfl⟩
      | some m =>
        have carried (b : Bool) (n : Nat) :
            {req.carry data [] b n with contentLength := m,bheader := true} = req.carry data [] true m := rfl
        simp only [carried]
        by_cases others : rest.filter (fun h => headersEqual h.name contentLengthName) = []
        · exact .inl ⟨m,fun _ _ => readContentLength_absent rest _ others⟩
        · rcases ih others with ⟨k,all⟩ | failed
          · exact .inl ⟨k,fun _ _ => all true m⟩
          · exact .inr fun _ _ => failed true m
    next other =>
      simp only [other]
      exact ih present

end Carry

theorem readHead_constructed (src data : Bytes) (len : Nat) (b : Bool) (n : Nat) :
    readHead src len (.constructed data b n) =
      match readLines src len src.length 0 .reset with
      | (false,req) => (false,req.carry data [] b n)
      | (true,req) =>
        match readContentLength req.headers (req.carry data [] b n) with
        | (false,req) => (false,req)
        | (true,req) => (req.bheader,req) := by
  rw [readHead,Request.constructed,readLines_carry]
  cases readLines src len src.length 0 .reset with
  | mk accepted req => cases accepted <;> rfl

theorem finishHead_congr {req req' : Request} {src : Bytes} {len : Nat} (pend : Nat)
    (same : readHead src len req = readHead src len req') :
    finishHead req src pend len = finishHead req' src pend len := by
  rw [finishHead,finishHead,same]

/-- Two outcomes at the end of a head that no later call tells apart. -/
structure SameOutcome (out out' : Verdict × Resume × Request) : Prop where
  verdict : out.1 = out'.1
  resume : out.2.1 = out'.2.1
  request : out.2.2.initialised = out'.2.2.initialised
  accepted : out.1 ≠ .invalid → out = out'

theorem SameOutcome.of_invalid {req req' : Request} (same : req.initialised = req'.initialised) :
    SameOutcome (.invalid,.done,req) (.invalid,.done,req') :=
  ⟨rfl,rfl,same,fun accepted => absurd rfl accepted⟩

theorem finishHead_same (src data : Bytes) (pend len : Nat) (b b' : Bool) (n n' : Nat)
    (settled : ∀ req, readLines src len src.length 0 .reset = (true,req) →
      req.headers.filter (fun h => headersEqual h.name contentLengthName) = [] →
      maxSize < contentSize len pend) :
    SameOutcome (finishHead (.constructed data b n) src pend len)
      (finishHead (.constructed data b' n') src pend len) := by
  have left := readHead_constructed src data len b n
  have right := readHead_constructed src data len b' n'
  cases lines : readLines src len src.length 0 .reset with
  | mk accepted req =>
    rw [lines] at left right
    cases accepted with
    | false =>
      dsimp only at left right
      rw [finishHead_invalid (.inl (by rw [left])),finishHead_invalid (.inl (by rw [right])),left,right]
      exact .of_invalid rfl
    | true =>
      dsimp only at left right
      by_cases present : req.headers.filter (fun h => headersEqual h.name contentLengthName) = []
      · have long := settled req lines present
        rw [readContentLength_absent _ _ present] at left right
        rw [finishHead_invalid (.inr long),finishHead_invalid (.inr long),left,right]
        exact .of_invalid rfl
      · rcases readContentLength_present data req.headers req present with ⟨m,all⟩ | failed
        · rw [all] at left right
          rw [finishHead_congr pend (left.trans right.symm)]
          exact ⟨rfl,rfl,rfl,fun _ => rfl⟩
        · obtain ⟨c,k,fails⟩ := failed b n
          obtain ⟨c',k',fails'⟩ := failed b' n'
          rw [fails] at left
          rw [fails'] at right
          rw [finishHead_invalid (.inl (by rw [left])),finishHead_invalid (.inl (by rw [right])),left,right]
          exact .of_invalid rfl

/-- Without a content length, the initial members decide: one head is refused, the other
waits for `n` bytes of content. -/
theorem finishHead_apart {src : Bytes} {pend : Nat} {req : Request} (data : Bytes) (n : Nat)
    (fits : contentSize src.length pend ≤ maxSize) (hungry : src.length < n)
    (lines : readLines src src.length src.length 0 .reset = (true,req))
    (absent : req.headers.filter (fun h => headersEqual h.name contentLengthName) = []) :
    (finishHead (.constructed data false 0) src pend src.length).1 = .invalid ∧
    ∃ after : Request, finishHead (.constructed data true n) src pend src.length = (.indeterminate,.content,after) ∧
      after.contentLength = n ∧ after.content.length ≤ src.length := by
  have left := readHead_constructed src data src.length false 0
  have right := readHead_constructed src data src.length true n
  rw [lines] at left right
  dsimp only at left right
  rw [readContentLength_absent _ _ absent] at left right
  replace right : readHead src src.length (.constructed data true n) = (true,req.carry data [] true n) := right
  let content := (src.drop pend).take (contentSize src.length pend)
  have short : content.length ≤ src.length := by
    simp only [content,List.length_take,List.length_drop]
    omega
  refine ⟨?_,{req.carry data [] true n with content},?_,rfl,short⟩
  · rw [finishHead_invalid (.inl (by rw [left]; rfl))]
  · rw [finishHead,right]
    have empty : (req.carry data [] true n).content = [] := rfl
    have missing : ¬ n ≤ content.length := by omega
    simp only [empty,List.length_nil,List.nil_append,Nat.zero_add,Nat.not_lt.mpr fits,if_false]
    exact if_neg missing

theorem feed_hungry (kept : Bytes) (req : Request) (reads : List Received)
    (hungry : req.content.length + (reads.map Received.chunk).flatten.length < req.contentLength) :
    ∀ verdict ∈ (feed ⟨.content,kept⟩ req reads).1, verdict = .indeterminate := by
  induction reads generalizing kept req with
  | nil => simp [feed]
  | cons read rest ih =>
    rw [List.map_cons,List.flatten_cons,List.length_append] at hungry
    let after : Request := {req.received read.chunk with content := req.content ++ read.chunk}
    have content : after.content.length = req.content.length + read.chunk.length := by simp [after]
    have length : after.contentLength = req.contentLength := rfl
    have collected : collectContent (req.received read.chunk) read.chunk = (.indeterminate,.content,after) := by
      have some : read.chunk.length < (req.received read.chunk).contentLength -
          (req.received read.chunk).content.length := by
        simp only [Request.received,Request.store_contentLength,Request.store_content]
        omega
      have missing : ¬ after.contentLength ≤ after.content.length := by omega
      rw [collectContent]
      simp only [some,if_true]
      exact if_neg missing
    have call : RequestParser.parse ⟨.content,kept⟩ req read.chunk read.rest = (.indeterminate,⟨.content,kept⟩,after) := by
      have step : RequestParser.parse ⟨.content,kept⟩ req read.chunk read.rest =
          RequestParser.leave ⟨.content,kept⟩ (collectContent (req.received read.chunk) read.chunk) := rfl
      rw [step,collected]
      rfl
    rw [feed_undecided rest (by rw [call]),call]
    have more := ih kept after (by omega)
    simpa using more

theorem Request.received_constructed (data chunk : Bytes) (b : Bool) (n : Nat) :
    (Request.constructed data b n).received chunk = .constructed (data ++ chunk) b n := rfl

theorem feed_same {before : Bytes} {parser : RequestParser} (reads : List Received) (data : Bytes)
    (b b' : Bool) (n n' : Nat) (atHead : parser = {} ∧ before = [] ∨ parser = ⟨.header,before⟩)
    (closed : ∀ read ∈ reads.head?, parser.resume = .start → Closed read.chunk read.rest)
    (covered : ¬ ∃ i req, Headless before (reads.map Received.chunk) i req) :
    SameJudgement (feed parser (.constructed data b n) reads) (feed parser (.constructed data b' n') reads) := by
  induction reads generalizing before parser data with
  | nil => exact ⟨rfl,rfl,by simp [feed]⟩
  | cons read rest ih =>
    obtain ⟨kept,spec⟩ := parse_head read.chunk read.rest atHead (closed read rfl)
    have left := spec (.constructed data b n)
    have right := spec (.constructed data b' n')
    rw [Request.received_constructed] at left right
    cases found : strstr (before ++ read.chunk) httpEnd with
    | none =>
      rw [found] at left right
      dsimp only at left right
      have later : ¬ ∃ i req, Headless (before ++ read.chunk) (rest.map Received.chunk) i req := by
        rintro ⟨i,req,headless⟩
        exact covered ⟨i,req,(Headless.later found).mpr headless⟩
      have more := ih (data ++ read.chunk) (.inr rfl) (by simp) later
      rw [feed_undecided rest (by rw [left]),feed_undecided rest (by rw [right]),left,right]
      exact ⟨congrArg (List.cons _) more.verdicts,more.request,fun member => more.complete (by simpa using member)⟩
    | some i =>
      rw [found] at left right
      dsimp only at left right
      have fits : i + 4 ≤ (before ++ read.chunk).length := strstr_bound found
      have long : ∀ req, readLines (before ++ read.chunk) (before ++ read.chunk).length
          (before ++ read.chunk).length 0 .reset = (true,req) →
          req.headers.filter (fun h => headersEqual h.name contentLengthName) = [] →
          maxSize < contentSize (before ++ read.chunk).length (i+4) := by
        intro req lines absent
        rw [contentSize,if_pos fits]
        by_contra short
        exact covered ⟨i,req,(Headless.here found).mpr ⟨rfl,lines,absent,Nat.le_of_not_lt short⟩⟩
      have same := finishHead_same (before ++ read.chunk) (data ++ read.chunk) (i+4)
        (before ++ read.chunk).length b b' n n' long
      by_cases refused : (finishHead (.constructed (data ++ read.chunk) b n) (before ++ read.chunk) (i+4)
          (before ++ read.chunk).length).1 = .invalid
      · rw [feed_decided rest (by rw [left,refused]; decide),
          feed_decided rest (by rw [right,← same.verdict,refused]; decide),left,right]
        refine ⟨?_,same.request,?_⟩
        · rw [same.verdict]
        · rw [refused]
          simp
      · rw [same.accepted refused] at left
        rw [feed,feed,left,right]
        exact .refl _

theorem feed_headless {before : Bytes} {parser : RequestParser} {i : Nat} {req : Request}
    (reads : List Received) (data : Bytes) (n : Nat)
    (atHead : parser = {} ∧ before = [] ∨ parser = ⟨.header,before⟩)
    (missing : strstr before httpEnd = none)
    (closed : ∀ read ∈ reads.head?, parser.resume = .start → Closed read.chunk read.rest)
    (hungry : before.length + (reads.map Received.chunk).flatten.length < n)
    (headless : Headless before (reads.map Received.chunk) i req) :
    .invalid ∈ (feed parser (.constructed data false 0) reads).1 ∧
    ∀ verdict ∈ (feed parser (.constructed data true n) reads).1, verdict = .indeterminate := by
  induction reads generalizing before parser data with
  | nil =>
    have found := headless.found
    rw [List.map_nil,arrivalFrom,missing] at found
    contradiction
  | cons read rest ih =>
    obtain ⟨kept,spec⟩ := parse_head read.chunk read.rest atHead (closed read rfl)
    have left := spec (.constructed data false 0)
    have right := spec (.constructed data true n)
    rw [Request.received_constructed] at left right
    rw [List.map_cons] at headless
    rw [List.map_cons,List.flatten_cons,List.length_append] at hungry
    have length : (before ++ read.chunk).length = before.length + read.chunk.length := List.length_append
    cases found : strstr (before ++ read.chunk) httpEnd with
    | none =>
      rw [found] at left right
      obtain ⟨refused,waiting⟩ := ih (data ++ read.chunk) (.inr rfl) found (by simp) (by omega)
        ((Headless.later found).mp headless)
      rw [feed_undecided rest (by rw [left]),feed_undecided rest (by rw [right]),left,right]
      exact ⟨List.mem_cons_of_mem _ refused,by simpa using waiting⟩
    | some j =>
      rw [found] at left right
      obtain ⟨rfl,lines,absent,fits⟩ := (Headless.here found).mp headless
      have inside : i + 4 ≤ (before ++ read.chunk).length := strstr_bound found
      obtain ⟨refused,after,waiting,content,short⟩ := finishHead_apart (data ++ read.chunk) n
        (by rw [contentSize,if_pos inside]; exact fits) (by omega) lines absent
      dsimp only at left right
      rw [waiting] at right
      rw [feed_decided rest (by rw [left,refused]; decide),feed_undecided rest (by rw [right]),left,right,refused]
      have more := feed_hungry kept after rest (by omega)
      exact ⟨List.mem_cons_self,by simpa using more⟩

/-- Where memory behind the first read completes the head, both runs refuse at once. -/
theorem feed_same_opened {read : Received} (rest : List Received) (b b' : Bool) (n n' : Nat)
    (opened : ¬ Closed read.chunk read.rest) :
    SameJudgement (feed {} (.constructed [] b n) (read :: rest)) (feed {} (.constructed [] b' n') (read :: rest)) := by
  have start : (({} : RequestParser)).resume = .start := rfl
  obtain ⟨i,long,spec⟩ := parse_opened start opened
  have same := finishHead_same (read.chunk ++ read.rest) ([] ++ read.chunk) (i+4) read.chunk.length
    b b' n n' fun _ _ _ => long
  have run (b : Bool) (n : Nat) : feed {} (.constructed [] b n) (read :: rest) =
      ([.invalid],(RequestParser.parse {} (.constructed [] b n) read.chunk read.rest).2) := by
    have refused : (RequestParser.parse {} (.constructed [] b n) read.chunk read.rest).1 = .invalid :=
      parse_invalid_of_not_closed start opened
    rw [feed_decided rest (by rw [refused]; decide),refused]
  rw [run,run,spec,spec,Request.received_constructed,Request.received_constructed]
  exact ⟨rfl,same.request,by simp⟩

theorem SameJudgement.trans {out out' out'' : List Verdict × RequestParser × Request}
    (first : SameJudgement out out') (second : SameJudgement out' out'') : SameJudgement out out'' where
  verdicts := first.verdicts.trans second.verdicts
  request := first.request.trans second.request
  complete member := (first.complete member).trans (second.complete (first.verdicts ▸ member))

theorem SameJudgement.cons {out out' : List Verdict × RequestParser × Request} (same : SameJudgement out out') :
    SameJudgement (.indeterminate :: out.1,out.2) (.indeterminate :: out'.1,out'.2) :=
  ⟨congrArg (List.cons _) same.verdicts,same.request,fun member => same.complete (by simpa using member)⟩

def Received.bare (read : Received) : Received := ⟨read.chunk,[]⟩

theorem feed_content_bare (kept kept' : Bytes) (req : Request) (reads : List Received) :
    SameJudgement (feed ⟨.content,kept⟩ req reads) (feed ⟨.content,kept'⟩ req (reads.map Received.bare)) := by
  induction reads generalizing kept kept' req with
  | nil => exact ⟨rfl,rfl,fun _ => rfl⟩
  | cons read rest ih =>
    have left : RequestParser.parse ⟨.content,kept⟩ req read.chunk read.rest =
        RequestParser.leave ⟨.content,kept⟩ (collectContent (req.received read.chunk) read.chunk) := rfl
    have right : RequestParser.parse ⟨.content,kept'⟩ req read.bare.chunk read.bare.rest =
        RequestParser.leave ⟨.content,kept'⟩ (collectContent (req.received read.chunk) read.chunk) := rfl
    rw [List.map_cons]
    by_cases more : (collectContent (req.received read.chunk) read.chunk).1 = .indeterminate
    · have resume := collectContent_more more
      rw [feed_undecided rest (by rw [left]; exact more),feed_undecided _ (by rw [right]; exact more),left,right]
      dsimp only [RequestParser.leave]
      rw [resume]
      exact (ih kept kept' _).cons
    · rw [feed_decided rest (by rw [left]; exact more),feed_decided _ (by rw [right]; exact more),left,right]
      exact ⟨rfl,rfl,fun _ => rfl⟩

/-- What memory holds behind the reads has no say, where it completes no head. -/
theorem feed_bare {before : Bytes} {parser : RequestParser} (req : Request) (reads : List Received)
    (atHead : parser = {} ∧ before = [] ∨ parser = ⟨.header,before⟩)
    (closed : ∀ read ∈ reads.head?, parser.resume = .start → Closed read.chunk read.rest) :
    SameJudgement (feed parser req reads) (feed parser req (reads.map Received.bare)) := by
  induction reads generalizing before parser req with
  | nil => exact .refl _
  | cons read rest ih =>
    obtain ⟨kept,left⟩ := parse_head read.chunk read.rest atHead (closed read rfl)
    obtain ⟨kept',right⟩ := parse_head read.bare.chunk read.bare.rest atHead
      fun _ => closed_of_terminated read.chunk [] rfl
    replace left := left req
    replace right := right req
    have chunk : read.bare.chunk = read.chunk := rfl
    rw [chunk] at right
    rw [List.map_cons]
    cases found : strstr (before ++ read.chunk) httpEnd with
    | none =>
      rw [found] at left right
      rw [feed_undecided rest (by rw [left]),feed_undecided _ (by rw [chunk,right]),left,chunk,right]
      exact (ih _ (.inr rfl) (by simp)).cons
    | some i =>
      rw [found] at left right
      dsimp only at left right
      by_cases more : (finishHead (req.received read.chunk) (before ++ read.chunk) (i+4)
          (before ++ read.chunk).length).1 = .indeterminate
      · have resume := finishHead_more more
        rw [resume] at left right
        rw [feed_undecided rest (by rw [left]; exact more),feed_undecided _ (by rw [chunk,right]; exact more),
          left,chunk,right]
        exact (feed_content_bare kept kept' _ rest).cons
      · rw [feed_decided rest (by rw [left]; exact more),feed_decided _ (by rw [chunk,right]; exact more),
          left,chunk,right]
        exact ⟨rfl,rfl,fun _ => rfl⟩

/-- The first request is judged by its bytes exactly when no head arrives that has no
content length. -/
theorem first_request (reads : List Received) :
    JudgedByBytes reads ↔
      ¬ ((∀ read ∈ reads.head?, Closed read.chunk read.rest) ∧
        ∃ i req, Headless [] (reads.map Received.chunk) i req) := by
  constructor
  · rintro judged ⟨closed,i,req,headless⟩
    let n := (reads.map Received.chunk).flatten.length + 1
    obtain ⟨refused,waiting⟩ := feed_headless reads [] n (.inl ⟨rfl,rfl⟩) rfl
      (fun read first _ => closed read first) (by simp [n]) headless
    have verdicts : (feed {} (.constructed [] false 0) reads).1 = (feed {} (.constructed [] true n) reads).1 :=
      (judged false true 0 n).verdicts
    rw [verdicts] at refused
    exact absurd (waiting _ refused) (by decide)
  · intro covered b b' n n'
    by_cases closed : ∀ read ∈ reads.head?, Closed read.chunk read.rest
    · exact feed_same reads [] b b' n n' (.inl ⟨rfl,rfl⟩) (fun read first _ => closed read first)
        fun headless => covered ⟨closed,headless⟩
    · cases reads with
      | nil => exact absurd (by simp) closed
      | cons read rest => exact feed_same_opened rest b b' n n' (by simpa using closed)

def bareHead : Bytes := ascii "POST /a HTTP/1.1" ++ crlf ++ ascii "Host: b" ++ httpEnd

theorem bareHead_not_judged : ¬ JudgedByBytes [⟨bareHead,[]⟩] := by
  intro judged
  have verdicts := (judged false true 0 0).verdicts
  revert verdicts
  decide +kernel

end FuturesCellProxy.Server

import FuturesCellProxy.Server.HeadLines

/-! The parser between two calls. What it holds after some reads, while it has not
decided, is computed from their bytes alone, and one call takes it from there to the
next such state or to a verdict. -/
namespace FuturesCellProxy.Server
open Foundation

section Frame
variable (httpReqData content : Bytes) (bheader : Bool) (contentLength : Nat)

theorem getHttpUri_carry (req : Request) (line : Bytes) :
    getHttpUri (req.carry httpReqData content bheader contentLength) line =
      ((getHttpUri req line).1,(getHttpUri req line).2.carry httpReqData content bheader contentLength) := by
  unfold getHttpUri
  dsimp only
  by_cases last : scanWhile (· ≠ space) line ((if byteAt line (scanWhile (· = space) line
      (scanWhile (· ≠ space) line 0)) = slash then scanWhile (· = space) line
      (scanWhile (· ≠ space) line 0) + 1 else scanWhile (· = space) line
      (scanWhile (· ≠ space) line 0)) + 1) = line.length
  · rw [if_pos last,if_pos last]
    rfl
  · rw [if_neg last,if_neg last]
    rfl

theorem getMimeHeader_carry (req : Request) (buffer : Bytes) :
    getMimeHeader (req.carry httpReqData content bheader contentLength) buffer =
      ((getMimeHeader req buffer).1,
        (getMimeHeader req buffer).2.carry httpReqData content bheader contentLength) := by
  unfold getMimeHeader
  dsimp only
  split
  · rfl
  · split
    · rfl
    · split <;> rfl

theorem takeLine_carry (req : Request) (line : Bytes) :
    takeLine (req.carry httpReqData content bheader contentLength) line =
      ((takeLine req line).1,(takeLine req line).2.carry httpReqData content bheader contentLength) := by
  have uri : (req.carry httpReqData content bheader contentLength).uri = req.uri := rfl
  unfold takeLine
  rw [getHttpUri_carry,getMimeHeader_carry,uri]
  split
  · rfl
  · split <;> rfl

theorem readLines_carry (src : Bytes) (len fuel offset : Nat) (req : Request) :
    readLines src len fuel offset (req.carry httpReqData content bheader contentLength) =
      ((readLines src len fuel offset req).1,
        (readLines src len fuel offset req).2.carry httpReqData content bheader contentLength) := by
  induction fuel generalizing offset req with
  | zero => rfl
  | succ fuel ih =>
    simp only [readLines]
    split
    · rfl
    · split
      · rfl
      · split
        · rfl
        · rename_i line _ _ _ _
          rw [takeLine_carry]
          cases takeLine req line with
          | mk accepted next =>
            cases accepted with
            | false => rfl
            | true => exact ih _ next

end Frame

theorem readLines_kept (src : Bytes) (len fuel offset : Nat) (req : Request) :
    (readLines src len fuel offset req).2 = (readLines src len fuel offset req).2.carry
      req.httpReqData req.content req.bheader req.contentLength :=
  congrArg Prod.snd (readLines_carry req.httpReqData req.content req.bheader req.contentLength
    src len fuel offset req)

theorem readContentLength_absent (headers : List Header) (req : Request)
    (absent : headers.filter (fun h => headersEqual h.name contentLengthName) = []) :
    readContentLength headers req = (true,req) := by
  induction headers with
  | nil => rfl
  | cons header rest ih =>
    rw [List.filter_cons] at absent
    split at absent
    · contradiction
    next other => rw [readContentLength,if_neg other,ih absent]

theorem readContentLength_store (headers : List Header) (req : Request) (data content : Bytes) :
    readContentLength headers (req.store data content) =
      ((readContentLength headers req).1,(readContentLength headers req).2.store data content) := by
  induction headers generalizing req with
  | nil => rfl
  | cons header rest ih =>
    simp only [readContentLength]
    split
    · split
      · rfl
      next n _ => exact ih {req with contentLength := n,bheader := true}
    · exact ih req

theorem readHead_store (src : Bytes) (len : Nat) (req : Request) (data content : Bytes) :
    readHead src len (req.store data content) =
      ((readHead src len req).1,(readHead src len req).2.store data content) := by
  have lines := readLines_carry data content req.bheader req.contentLength src len src.length 0 req
  have kept := readLines_kept src len src.length 0 req
  rw [Request.carry_eq_store] at lines
  unfold readHead
  rw [lines]
  cases read : readLines src len src.length 0 req with
  | mk accepted next =>
    rw [read] at kept
    have same : next.carry data content req.bheader req.contentLength = next.store data content := by
      dsimp only at kept
      rw [kept]
      rfl
    dsimp only
    rw [same]
    cases accepted with
    | false => rfl
    | true =>
      have headers : (next.store data content).headers = next.headers := rfl
      dsimp only
      rw [headers,readContentLength_store]
      cases readContentLength next.headers next with
      | mk found last => cases found <;> rfl

namespace Request

def received (req : Request) (bytes : Bytes) : Request :=
  req.store (req.httpReqData ++ bytes) req.content

end Request

theorem RequestParser.parse_eq (parser : RequestParser) (req : Request) (chunk rest : Bytes) :
    parser.parse req chunk rest = parser.praseHttp (req.received chunk) chunk rest := rfl

/-- The bytes received by the end of the read that completes a CRLFCRLF. -/
def arrivalFrom : (before : Bytes) → List Bytes → Bytes
  | before, [] => before
  | before, chunk :: rest =>
    if (strstr (before ++ chunk) httpEnd).isSome then before ++ chunk
    else arrivalFrom (before ++ chunk) rest

def arrival (reads : List Bytes) : Bytes := arrivalFrom [] reads

theorem strstr_append_some {text pattern : Bytes} {i : Nat} (tail : Bytes)
    (found : strstr text pattern = some i) : strstr (text ++ tail) pattern = some i := by
  by_cases member : nul ∈ text
  · rwa [strstr,upTo_append_of_mem tail member]
  · rw [strstr,upTo_eq_self member] at found
    exact strstr_append tail member found

theorem strstr_none_of_append {text tail pattern : Bytes} (missing : strstr (text ++ tail) pattern = none) :
    strstr text pattern = none := by
  cases found : strstr text pattern with
  | none => rfl
  | some i => simp [strstr_append_some tail found] at missing

theorem arrivalFrom_of_missing (reads : List Bytes) (before chunk : Bytes)
    (missing : strstr (before ++ reads.flatten) httpEnd = none) :
    arrivalFrom before (reads ++ [chunk]) = before ++ (reads ++ [chunk]).flatten := by
  induction reads generalizing before with
  | nil => simp [arrivalFrom]
  | cons first rest ih =>
    rw [List.flatten_cons,← List.append_assoc] at missing
    rw [List.cons_append,arrivalFrom,strstr_none_of_append missing]
    simpa using ih (before ++ first) missing

theorem arrivalFrom_of_found (reads : List Bytes) (before : Bytes) (more : List Bytes)
    (unfinished : strstr before httpEnd = none)
    (found : (strstr (arrivalFrom before reads) httpEnd).isSome) :
    arrivalFrom before (reads ++ more) = arrivalFrom before reads := by
  induction reads generalizing before with
  | nil => simp [arrivalFrom,unfinished] at found
  | cons first rest ih =>
    simp only [List.cons_append,arrivalFrom] at found ⊢
    split
    · rfl
    next still =>
      rw [if_neg still] at found
      exact ih (before ++ first) (by simpa using still) found

theorem arrivalFrom_start (reads : List Bytes) (before : Bytes) :
    arrivalFrom before reads <+: before ++ reads.flatten := by
  induction reads generalizing before with
  | nil => simp [arrivalFrom]
  | cons first rest ih =>
    rw [arrivalFrom,List.flatten_cons,← List.append_assoc]
    split
    · exact List.prefix_append _ _
    · exact ih _

theorem before_start_arrivalFrom (reads : List Bytes) (before : Bytes) :
    before <+: arrivalFrom before reads := by
  induction reads generalizing before with
  | nil => exact List.prefix_refl _
  | cons first rest ih =>
    rw [arrivalFrom]
    split
    · exact List.prefix_append _ _
    · exact (List.prefix_append _ _).trans (ih _)

theorem arrivalFrom_mono (reads more : List Bytes) (before : Bytes) :
    arrivalFrom before reads <+: arrivalFrom before (reads ++ more) := by
  induction reads generalizing before with
  | nil => exact before_start_arrivalFrom more before
  | cons first rest ih =>
    simp only [List.cons_append,arrivalFrom]
    split
    · exact List.prefix_refl _
    · exact ih _

theorem arrival_of_missing {reads : List Bytes} (chunk : Bytes)
    (missing : strstr reads.flatten httpEnd = none) :
    arrival (reads ++ [chunk]) = (reads ++ [chunk]).flatten := by
  simpa [arrival] using arrivalFrom_of_missing reads [] chunk (by simpa using missing)

theorem arrival_of_found {reads : List Bytes} {i : Nat} (more : List Bytes)
    (found : strstr (arrival reads) httpEnd = some i) : arrival (reads ++ more) = arrival reads :=
  arrivalFrom_of_found reads [] more rfl (by rw [← arrival,found]; rfl)

theorem arrival_start (reads : List Bytes) : arrival reads <+: reads.flatten := by
  simpa [arrival] using arrivalFrom_start reads []

theorem arrival_mono (reads more : List Bytes) : arrival reads <+: arrival (reads ++ more) :=
  arrivalFrom_mono reads more []

/-- The head is complete in `bytes`, with CRLFCRLF at index `i`, and its lines and its
content length were accepted with the result `head`. -/
structure Arrived (initial : Request) (bytes : Bytes) (i : Nat) (head : Request) : Prop where
  found : strstr bytes httpEnd = some i
  read : readHead bytes bytes.length initial = (true,head)

inductive Stage (initial : Request) : List Bytes → RequestParser → Request → Prop
  | fresh : Stage initial [] {} initial
  | header (reads : List Bytes) (missing : strstr reads.flatten httpEnd = none) :
      Stage initial reads ⟨.header,reads.flatten⟩ (initial.received reads.flatten)
  | content (reads : List Bytes) (i : Nat) (head : Request) (kept : Bytes)
      (arrived : Arrived initial (arrival reads) i head)
      (short : reads.flatten.length < i + 4 + head.contentLength) :
      Stage initial reads ⟨.content,kept⟩
        (head.store (initial.httpReqData ++ reads.flatten) (reads.flatten.drop (i+4)))

theorem Stage.started {initial req : Request} {reads : List Bytes} {chunk : Bytes} {parser : RequestParser}
    (stage : Stage initial (reads ++ [chunk]) parser req) : parser.resume ≠ .start := by
  generalize all : reads ++ [chunk] = total at stage
  cases stage with
  | fresh => simp at all
  | header => simp
  | content => simp

/-- What the last call of `parse` did, given all `reads`. When the head and the end of
the content come with one read, the content is all that the read holds behind the head. -/
inductive Called (initial : Request) (reads : List Bytes) : Verdict → RequestParser → Request → Prop
  | more (parser : RequestParser) (req : Request) (stage : Stage initial reads parser req) :
      Called initial reads .indeterminate parser req
  | refused (i : Nat) (parser : RequestParser) (req : Request)
      (here : arrival reads = reads.flatten) (found : strstr reads.flatten httpEnd = some i)
      (why : (readHead reads.flatten reads.flatten.length initial).1 = false ∨
        maxSize < reads.flatten.length - (i+4)) :
      Called initial reads .invalid parser req
  | atOnce (i : Nat) (head : Request) (kept : Bytes) (here : arrival reads = reads.flatten)
      (arrived : Arrived initial (arrival reads) i head)
      (enough : i + 4 + head.contentLength ≤ reads.flatten.length) :
      Called initial reads .complete ⟨.done,kept⟩
        (head.store (initial.httpReqData ++ reads.flatten) (reads.flatten.drop (i+4)))
  | later (i : Nat) (head : Request) (kept : Bytes)
      (arrived : Arrived initial (arrival reads) i head)
      (short : (arrival reads).length < i + 4 + head.contentLength)
      (enough : i + 4 + head.contentLength ≤ reads.flatten.length) :
      Called initial reads .complete ⟨.done,kept⟩
        (head.store (initial.httpReqData ++ reads.flatten)
          ((reads.flatten.drop (i+4)).take head.contentLength))

theorem strstr_bound {memory pattern : Bytes} {i : Nat} (found : strstr memory pattern = some i) :
    i + pattern.length ≤ memory.length :=
  (findFirst_bound found).trans (upTo_start nul memory).length_le

theorem head_of_strstr {bytes : Bytes} {i : Nat} (found : strstr bytes httpEnd = some i) :
    nul ∉ bytes.take (i+4) ∧ findFirst httpEnd (bytes.take (i+4)) = some i := by
  obtain ⟨tail,seen⟩ := upTo_start nul bytes
  have fits := findFirst_bound found
  simp only [show httpEnd.length = 4 from rfl] at fits
  have same : bytes.take (i+4) = (upTo nul bytes).take (i+4) := by
    conv_lhs => rw [← seen]
    exact List.take_append_of_le_length fits
  rw [same]
  refine ⟨fun member => not_mem_upTo nul bytes (List.mem_of_mem_take member),?_⟩
  rw [strstr,← List.take_append_drop (i+4) (upTo nul bytes)] at found
  exact findFirst_of_append found (by simp [httpEnd]; omega)

theorem finishHead_tail (req : Request) (bytes tail : Bytes) (i : Nat)
    (found : strstr bytes httpEnd = some i) :
    finishHead req (bytes ++ tail) (i+4) bytes.length = finishHead req bytes (i+4) bytes.length := by
  obtain ⟨noNul,first⟩ := head_of_strstr found
  have fits : i + 4 ≤ bytes.length := strstr_bound found
  have same := readHead_append (bytes.take (i+4)) (bytes.drop (i+4) ++ tail) (bytes.drop (i+4)) i
    bytes.length req noNul first
  rw [← List.append_assoc,List.take_append_drop] at same
  have content : ((bytes ++ tail).drop (i+4)).take (contentSize bytes.length (i+4)) =
      (bytes.drop (i+4)).take (contentSize bytes.length (i+4)) := by
    rw [contentSize,if_pos fits,List.drop_append_of_le_length fits,
      List.take_append_of_le_length (by simp)]
  simp only [finishHead,same,content]

theorem finishHead_called (initial : Request) (reads : List Bytes) (kept : Bytes) (i : Nat)
    (empty : initial.content = []) (here : arrival reads = reads.flatten)
    (found : strstr reads.flatten httpEnd = some i) :
    let out := finishHead (initial.received reads.flatten) reads.flatten (i+4) reads.flatten.length
    Called initial reads out.1 ⟨out.2.1,kept⟩ out.2.2 := by
  have fits : i + 4 ≤ reads.flatten.length := strstr_bound found
  have size : contentSize reads.flatten.length (i+4) = reads.flatten.length - (i+4) := if_pos fits
  have all : (reads.flatten.drop (i+4)).take (reads.flatten.length - (i+4)) =
      reads.flatten.drop (i+4) := List.take_of_length_le (by simp)
  rw [Request.received,empty,finishHead,readHead_store]
  cases read : readHead reads.flatten reads.flatten.length initial with
  | mk accepted head =>
    cases accepted with
    | false => exact .refused i _ _ here found (.inl (by rw [read]))
    | true =>
      have arrived : Arrived initial (arrival reads) i head := by
        rw [here]
        exact ⟨found,read⟩
      simp only [size,all,Request.store_content,Request.store_contentLength,List.length_nil,
        Nat.zero_add,List.nil_append,List.length_drop]
      split
      next long => exact .refused i _ _ here found (.inr long)
      next =>
        split
        next enough => exact .atOnce i head kept here arrived (by omega)
        next short => exact .more _ _ (.content reads i head kept arrived (by omega))

/-- Memory behind the first read cannot complete a CRLFCRLF that begins in the read. -/
def Closed (chunk rest : Bytes) : Prop :=
  ∀ i, strstr (chunk ++ rest) httpEnd = some i → (i : Int) < toInt32 chunk.length →
    i + 4 ≤ chunk.length

instance (chunk rest : Bytes) : Decidable (Closed chunk rest) :=
  match found : strstr (chunk ++ rest) httpEnd with
  | none => isTrue fun i other => by rw [found] at other; contradiction
  | some j => decidable_of_iff ((j : Int) < toInt32 chunk.length → j + 4 ≤ chunk.length) (by
      constructor
      · intro fits i other
        obtain rfl := Option.some.inj (found.symm.trans other)
        exact fits
      · exact fun closed => closed j found)

theorem strstr_of_append {text tail pattern : Bytes} {i : Nat}
    (found : strstr (text ++ tail) pattern = some i) (fits : i + pattern.length ≤ text.length) :
    strstr text pattern = some i := by
  by_cases member : nul ∈ text
  · rwa [strstr,upTo_append_of_mem tail member] at found
  · rw [strstr,upTo_append_of_not_mem tail member] at found
    rw [strstr,upTo_eq_self member]
    exact findFirst_of_append found fits

theorem strstr_terminated (chunk rest pattern : Bytes) (terminated : rest.headD nul = nul) :
    strstr (chunk ++ rest) pattern = strstr chunk pattern := by
  have empty : upTo nul rest = [] := by
    cases rest with
    | nil => rfl
    | cons b rest =>
      obtain rfl : b = nul := terminated
      simp [upTo]
  by_cases member : nul ∈ chunk
  · rw [strstr,upTo_append_of_mem rest member,strstr]
  · rw [strstr,upTo_append_of_not_mem rest member,empty,List.append_nil,strstr,upTo_eq_self member]

theorem closed_of_terminated (chunk rest : Bytes) (terminated : rest.headD nul = nul) :
    Closed chunk rest := by
  intro i found _
  rw [strstr_terminated chunk rest _ terminated] at found
  exact strstr_bound found

theorem parse_head {before : Bytes} {parser : RequestParser} (chunk rest : Bytes)
    (atHead : parser = {} ∧ before = [] ∨ parser = ⟨.header,before⟩)
    (closed : parser.resume = .start → Closed chunk rest) :
    ∃ kept, ∀ req, parser.parse req chunk rest =
      match strstr (before ++ chunk) httpEnd with
      | some i =>
        let out := finishHead (req.received chunk) (before ++ chunk) (i+4) (before ++ chunk).length
        (out.1,⟨out.2.1,kept⟩,out.2.2)
      | none => (.indeterminate,⟨.header,before ++ chunk⟩,req.received chunk) := by
  have slow (resume : Resume) (req : Request) :
      RequestParser.collectHead ⟨resume,before⟩ (req.received chunk) chunk =
      match strstr (before ++ chunk) httpEnd with
      | some i =>
        let out := finishHead (req.received chunk) (before ++ chunk) (i+4) (before ++ chunk).length
        (out.1,⟨out.2.1,before ++ chunk⟩,out.2.2)
      | none => (.indeterminate,⟨.header,before ++ chunk⟩,req.received chunk) := by
    rw [RequestParser.collectHead]
    dsimp only
    cases strstr (before ++ chunk) httpEnd <;> rfl
  rcases atHead with ⟨rfl,rfl⟩ | rfl
  · by_cases fast : ∃ i, strstr (chunk ++ rest) httpEnd = some i ∧ (i : Int) < toInt32 chunk.length
    · obtain ⟨i,found,inside⟩ := fast
      have here := strstr_of_append found (closed rfl i found inside)
      refine ⟨[],fun req => ?_⟩
      rw [RequestParser.parse_eq,RequestParser.praseHttp]
      simp only [found,inside,if_true,List.nil_append,here,finishHead_tail _ _ _ _ here]
      rfl
    · refine ⟨chunk,fun req => ?_⟩
      rw [RequestParser.parse_eq,RequestParser.praseHttp]
      dsimp only
      split
      next i found =>
        rw [if_neg fun inside => fast ⟨i,found,inside⟩]
        exact slow .start req
      next => exact slow .start req
  · exact ⟨before ++ chunk,slow .header⟩

theorem head_called {initial : Request} {reads : List Bytes} {parser : RequestParser}
    (chunk rest : Bytes) (empty : initial.content = [])
    (atHead : parser = {} ∧ reads.flatten = [] ∨ parser = ⟨.header,reads.flatten⟩)
    (missing : strstr reads.flatten httpEnd = none)
    (closed : parser.resume = .start → Closed chunk rest) :
    let out := parser.parse (initial.received reads.flatten) chunk rest
    Called initial (reads ++ [chunk]) out.1 out.2.1 out.2.2 := by
  obtain ⟨kept,spec⟩ := parse_head chunk rest atHead closed
  have joined : reads.flatten ++ chunk = (reads ++ [chunk]).flatten := by simp
  have received : (initial.received reads.flatten).received chunk =
      initial.received (reads ++ [chunk]).flatten := by
    rw [← joined]
    simp only [Request.received,Request.store_httpReqData,Request.store_content,Request.store_store,
      List.append_assoc]
  dsimp only
  rw [spec,received,joined]
  cases found : strstr (reads ++ [chunk]).flatten httpEnd with
  | some i => exact finishHead_called initial _ kept i empty (arrival_of_missing chunk missing) found
  | none => exact .more _ _ (.header _ found)

theorem content_called (initial : Request) (reads : List Bytes) (chunk kept : Bytes) (i : Nat)
    (head : Request) (arrived : Arrived initial (arrival reads) i head)
    (short : reads.flatten.length < i + 4 + head.contentLength) :
    let out := collectContent
      (head.store (initial.httpReqData ++ (reads ++ [chunk]).flatten) (reads.flatten.drop (i+4))) chunk
    Called initial (reads ++ [chunk]) out.1 ⟨out.2.1,kept⟩ out.2.2 := by
  have first : (arrival reads).length ≤ reads.flatten.length := (arrival_start reads).length_le
  have fits : i + 4 ≤ (arrival reads).length := strstr_bound arrived.found
  have same := arrival_of_found [chunk] arrived.found
  have size : (reads ++ [chunk]).flatten.length = reads.flatten.length + chunk.length := by simp
  have joined : reads.flatten.drop (i+4) ++ chunk = (reads ++ [chunk]).flatten.drop (i+4) := by
    rw [List.flatten_append,List.flatten_singleton,List.drop_append_of_le_length (by omega)]
  have missing : head.contentLength - (reads.flatten.drop (i+4)).length =
      i + 4 + head.contentLength - reads.flatten.length := by
    rw [List.length_drop]
    omega
  unfold collectContent
  simp only [Request.store_content,Request.store_contentLength,missing]
  split
  next less =>
    have small : (reads ++ [chunk]).flatten.length < i + 4 + head.contentLength := by omega
    simp only [joined]
    rw [if_neg (by rw [List.length_drop]; omega)]
    exact .more _ _ (.content _ i head kept (by rwa [same]) small)
  next enough =>
    have clipped : reads.flatten.drop (i+4) ++
        chunk.take (i + 4 + head.contentLength - reads.flatten.length) =
        ((reads ++ [chunk]).flatten.drop (i+4)).take head.contentLength := by
      have held : (reads.flatten.drop (i+4)).length ≤ head.contentLength := by
        rw [List.length_drop]
        omega
      rw [← joined,List.take_append,missing,List.take_of_length_le held]
    simp only [clipped]
    rw [if_pos (by rw [List.length_take,List.length_drop]; omega)]
    exact .later i head kept (by rwa [same]) (by rw [same]; omega) (by omega)

theorem parse_called {initial req : Request} {reads : List Bytes} {parser : RequestParser}
    (chunk rest : Bytes) (empty : initial.content = []) (stage : Stage initial reads parser req)
    (closed : parser.resume = .start → Closed chunk rest) :
    let out := parser.parse req chunk rest
    Called initial (reads ++ [chunk]) out.1 out.2.1 out.2.2 := by
  cases stage with
  | fresh =>
    have first := @head_called initial [] {} chunk rest empty (.inl ⟨rfl,rfl⟩) rfl closed
    rw [List.flatten_nil,Request.received,List.append_nil,Request.store_self] at first
    exact first
  | header reads missing => exact head_called chunk rest empty (.inr rfl) missing closed
  | content reads i head kept arrived short =>
    have joined : reads.flatten ++ chunk = (reads ++ [chunk]).flatten := by simp
    have more := content_called initial reads chunk kept i head arrived short
    rw [← joined,← List.append_assoc] at more
    exact more

theorem finishHead_invalid {req : Request} {src : Bytes} {pend len : Nat}
    (why : (readHead src len req).1 = false ∨ maxSize < contentSize len pend) :
    finishHead req src pend len = (.invalid,.done,(readHead src len req).2) := by
  rw [finishHead]
  cases read : readHead src len req with
  | mk accepted head =>
    cases accepted with
    | false => rfl
    | true =>
      dsimp only
      rw [if_pos]
      rw [read] at why
      rcases why with absurd | long
      · contradiction
      · omega

/-- When the memory behind the first read does complete a CRLFCRLF, the length of the
content wraps. -/
theorem parse_opened {parser : RequestParser} {chunk rest : Bytes} (start : parser.resume = .start)
    (opened : ¬ Closed chunk rest) :
    ∃ i, maxSize < contentSize chunk.length (i+4) ∧ ∀ req, parser.parse req chunk rest =
      parser.leave (finishHead (req.received chunk) (chunk ++ rest) (i+4) chunk.length) := by
  simp only [Closed,not_forall] at opened
  obtain ⟨i,found,inside,beyond⟩ := opened
  refine ⟨i,?_,fun req => ?_⟩
  · have below : i < chunk.length := by
      have := toInt32_le chunk.length
      omega
    rw [contentSize,if_neg beyond,maxSize,sizeBound]
    omega
  · rw [RequestParser.parse_eq,RequestParser.praseHttp]
    simp only [start,found,inside,if_true]

theorem parse_invalid_of_not_closed {parser : RequestParser} {req : Request} {chunk rest : Bytes}
    (start : parser.resume = .start) (opened : ¬ Closed chunk rest) :
    (parser.parse req chunk rest).1 = .invalid := by
  obtain ⟨i,long,spec⟩ := parse_opened start opened
  rw [spec,RequestParser.leave,finishHead_invalid (.inr long)]

theorem finishHead_more {req : Request} {src : Bytes} {pend len : Nat}
    (more : (finishHead req src pend len).1 = .indeterminate) : (finishHead req src pend len).2.1 = .content := by
  revert more
  unfold finishHead
  cases readHead src len req with
  | mk accepted after =>
    cases accepted with
    | false => exact nofun
    | true =>
      dsimp only
      split
      · exact nofun
      · split
        · exact nofun
        · exact fun _ => rfl

theorem collectContent_more {req : Request} {chunk : Bytes}
    (more : (collectContent req chunk).1 = .indeterminate) : (collectContent req chunk).2.1 = .content := by
  revert more
  unfold collectContent
  dsimp only
  generalize (if chunk.length < req.contentLength - req.content.length then _ else _ : Request) = after
  split
  · exact nofun
  · exact fun _ => rfl

theorem parse_more {parser : RequestParser} {req : Request} {chunk rest : Bytes}
    (more : (parser.parse req chunk rest).1 = .indeterminate) :
    (parser.parse req chunk rest).2.1.resume = .header ∨ (parser.parse req chunk rest).2.1.resume = .content := by
  have collected (parser : RequestParser) (req : Request)
      (more : (parser.collectHead req chunk).1 = .indeterminate) :
      (parser.collectHead req chunk).2.1.resume = .header ∨
        (parser.collectHead req chunk).2.1.resume = .content := by
    revert more
    unfold RequestParser.collectHead
    dsimp only
    split
    · exact fun more => .inr (finishHead_more more)
    · exact fun _ => .inl rfl
  rw [RequestParser.parse_eq] at more ⊢
  revert more
  unfold RequestParser.praseHttp
  cases parser.resume with
  | start =>
    dsimp only
    split
    · split
      · exact fun more => .inr (finishHead_more more)
      · exact collected parser _
    · exact collected parser _
  | header => exact collected parser _
  | content => exact fun more => .inr (collectContent_more more)
  | done => exact nofun

end FuturesCellProxy.Server

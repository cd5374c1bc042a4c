import FuturesCellProxy.Server.Stages

/-! How much content a request holds once the parser has accepted it. -/
namespace FuturesCellProxy.Server
open Foundation

/-- The content is what `Content-Length` says of the bytes behind the head. -/
structure Exact (req : Request) (behind : Bytes) : Prop where
  content : req.content = behind.take req.contentLength
  size : req.content.length = req.contentLength

def declaredLength (initial : Request) (bytes : Bytes) : Nat :=
  (readHead bytes bytes.length initial).2.contentLength

theorem feed_cons_called {initial req : Request} {before : List Bytes} {parser : RequestParser}
    (read : Received) (empty : initial.content = []) (stage : Stage initial before parser req)
    (accepted : (parser.parse req read.chunk read.rest).1 ≠ .invalid) :
    Called initial (before ++ [read.chunk]) (parser.parse req read.chunk read.rest).1
      (parser.parse req read.chunk read.rest).2.1 (parser.parse req read.chunk read.rest).2.2 := by
  refine parse_called read.chunk read.rest empty stage fun start => ?_
  by_contra opened
  exact accepted (parse_invalid_of_not_closed start opened)

theorem feed_called {initial req : Request} {before : List Bytes} {parser : RequestParser}
    (reads : List Received) (empty : initial.content = []) (stage : Stage initial before parser req)
    (answer : (feed parser req reads).1 = List.replicate (reads.length - 1) .indeterminate ++ [.complete]) :
    Called initial (before ++ reads.map Received.chunk) .complete (feed parser req reads).2.1
      (feed parser req reads).2.2 := by
  induction reads generalizing before parser req with
  | nil => simp [feed] at answer
  | cons read rest ih =>
    have called := feed_cons_called read empty stage
    cases verdict : (parser.parse req read.chunk read.rest).1 with
    | invalid =>
      rw [feed_decided rest (by rw [verdict]; decide),verdict] at answer
      cases rest with
      | nil => simp at answer
      | cons => simp [List.replicate_succ] at answer
    | complete =>
      rw [feed_decided rest (by rw [verdict]; decide),verdict] at answer
      cases rest with
      | nil =>
        rw [feed_decided [] (by rw [verdict]; decide)]
        have done := called (by rw [verdict]; decide)
        rwa [verdict] at done
      | cons => simp [List.replicate_succ] at answer
    | indeterminate =>
      rw [feed_undecided rest verdict] at answer ⊢
      have more := called (by rw [verdict]; decide)
      rw [verdict] at more
      cases rest with
      | nil => simp [feed] at answer
      | cons next others =>
        obtain ⟨_,_,stage⟩ := more
        refine List.append_cons before read.chunk _ ▸ ih stage ?_
        simpa [List.replicate_succ] using answer

/-- Whenever the parser answers true, the content is exactly the first `Content-Length`
bytes behind the first CRLFCRLF of the stream if and only if the reads up to the one that
completes the head hold no more than these. -/
theorem content_length (initial : Request) (reads : List Received) (empty : initial.content = [])
    (answer : (feed {} initial reads).1 = List.replicate (reads.length - 1) .indeterminate ++ [.complete]) :
    let stream := (reads.map Received.chunk).flatten
    let first := arrival (reads.map Received.chunk)
    ∃ i, findFirst httpEnd stream = some i ∧
      (Exact (feed {} initial reads).2.2 (stream.drop (i+4)) ↔
        first.length ≤ i + 4 + declaredLength initial first) := by
  intro stream first
  have called := feed_called reads empty (.fresh : Stage initial [] {} initial) answer
  rw [List.nil_append] at called
  have whole : first <+: stream := arrival_start _
  have found {i : Nat} {head : Request} (arrived : Arrived initial first i head) :
      findFirst httpEnd stream = some i ∧ declaredLength initial first = head.contentLength := by
    obtain ⟨tail,split⟩ := (upTo_start nul first).trans whole
    rw [← split,declaredLength,arrived.read]
    exact ⟨findFirst_append tail arrived.found,rfl⟩
  revert called
  generalize (feed {} initial reads).2.1 = parser
  generalize (feed {} initial reads).2.2 = req
  intro called
  cases called with
  | atOnce i head kept here arrived enough =>
    obtain ⟨index,length⟩ := found arrived
    refine ⟨i,index,?_⟩
    have same : first = stream := here
    replace enough : i + 4 + head.contentLength ≤ stream.length := enough
    rw [length,same]
    constructor
    · intro fits
      have size : (stream.drop (i+4)).length = head.contentLength := fits.size
      rw [List.length_drop] at size
      omega
    · intro short
      have all : (stream.drop (i+4)).length = head.contentLength := by
        rw [List.length_drop]
        omega
      exact ⟨(List.take_of_length_le (Nat.le_of_eq all)).symm,all⟩
  | later i head kept arrived short enough =>
    obtain ⟨index,length⟩ := found arrived
    refine ⟨i,index,?_⟩
    rw [length]
    refine ⟨fun _ => Nat.le_of_lt short,fun _ => ⟨rfl,?_⟩⟩
    rw [Request.store_content,Request.store_contentLength,List.length_take,List.length_drop]
    omega

/-- A request that is followed by a byte of the next one. -/
def pipelined : Bytes := ascii "POST /a HTTP/1.1" ++ crlf ++ ascii "Content-Length: 1" ++ httpEnd ++ ascii "xP"

theorem content_length_pipelined :
    let reads : List Received := [⟨pipelined.take 20,[]⟩,⟨pipelined.drop 20,[]⟩]
    let stream := (reads.map Received.chunk).flatten
    let first := arrival (reads.map Received.chunk)
    ∃ i, findFirst httpEnd stream = some i ∧
      (Exact (feed {} Request.reset reads).2.2 (stream.drop (i+4)) ↔
        first.length ≤ i + 4 + declaredLength Request.reset first) :=
  content_length Request.reset _ rfl (by decide +kernel)

theorem pipelined_not_exact :
    (feed {} Request.reset [⟨pipelined,[]⟩]).1 = [.complete] ∧
    ¬ Exact (feed {} Request.reset [⟨pipelined,[]⟩]).2.2 (pipelined.drop 39) := by
  refine ⟨by decide +kernel,fun fits => ?_⟩
  have size := fits.size
  revert size
  decide +kernel

end FuturesCellProxy.Server

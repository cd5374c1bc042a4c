import FuturesCellProxy.Server.FirstRequest
import FuturesCellProxy.Server.ReceivedBytes

/-! What a reply owes to the requests served before it on the same connection. The reads
of one request are given to the used connection and to a new one; each parses them with
its own buffer and its own members. -/
namespace FuturesCellProxy.Server
open Foundation

/-- A request that names no registered function, neither by its path nor by its command. -/
def Unknown (registered : Bytes → Bool) (req : Request) : Prop :=
  ∃ path, urlDecode req.uri = some path ∧ findHandle registered req path = none

def Output.isWrite : Output → Bool
  | .write _ => true
  | .invoke _ => false

def Output.reply : Output → Option Reply
  | .write reply => some reply
  | .invoke _ => none

def Completion.size : Completion → Nat
  | .read bytes _ => bytes.length
  | .written => 0
  | .error => 0

section
variable (registered : Bytes → Bool)

theorem proccess_unknown {req : Request} {path : Bytes} (outData : Bytes) (rep : Reply)
    (missing : findHandle registered req path = none) :
    proccessReqFromHandle registered path req outData rep = (none,{rep with status := .notFound}) := by
  rw [proccessReqFromHandle,missing]

theorem proccess_known {req : Request} {path name : Bytes} (outData : Bytes) (rep : Reply)
    (found : findHandle registered req path = some name) :
    ∃ msg, proccessReqFromHandle registered path req outData rep = (some ⟨name,req.content⟩,buidlReply msg) := by
  rw [proccessReqFromHandle,found]
  dsimp only
  split
  · exact ⟨req.httpReqData,rfl⟩
  · exact ⟨outData,rfl⟩

theorem handleRequest_unknown {req : Request} (outData : Bytes) (rep : Reply)
    (unknown : Unknown registered req) :
    handleRequest registered req outData rep = (none,{rep with status := .notFound}) := by
  obtain ⟨path,decoded,missing⟩ := unknown
  rw [handleRequest,decoded]
  exact proccess_unknown registered outData rep missing

theorem handleRequest_known {req : Request} (outData : Bytes) (rep rep' : Reply)
    (known : ¬ Unknown registered req) :
    handleRequest registered req outData rep = handleRequest registered req outData rep' := by
  unfold handleRequest
  cases decoded : urlDecode req.uri with
  | none => rfl
  | some path =>
    dsimp only
    cases found : findHandle registered req path with
    | none => exact absurd ⟨path,decoded,found⟩ known
    | some name =>
      unfold proccessReqFromHandle
      rw [found]

theorem handleRequest_ok {req : Request} (outData : Bytes) (rep : Reply)
    (ok : (handleRequest registered req outData rep).2.status = .ok) :
    (handleRequest registered req outData rep).2.headers ≠ [] := by
  revert ok
  unfold handleRequest
  cases urlDecode req.uri with
  | none => simp [Reply.stockReply]
  | some path =>
    dsimp only
    cases found : findHandle registered req path with
    | none =>
      rw [proccess_unknown registered outData rep found]
      simp
    | some name =>
      obtain ⟨msg,built⟩ := proccess_known registered outData rep found
      rw [built]
      exact fun _ => List.cons_ne_nil _ _

namespace Connection

/-- While a read is pending, either nothing has been written and the reply is as it was
constructed, or the last reply was ok and its headers are still there. -/
structure Settled (status : StatusType) (conn : Connection) (past : List Output) : Prop where
  reading : conn.pending = .read →
    (past.all (!·.isWrite) ∧ conn.reply = {status}) ∨ (past.any (·.isWrite) ∧ conn.reply.headers ≠ [])
  writing : conn.pending = .write →
    past.any (·.isWrite) ∧ (conn.reply.status = .ok → conn.reply.headers ≠ [])

theorem settled_start (memory : Memory) : Settled memory.status (start memory) [] :=
  ⟨fun _ => .inl ⟨rfl,rfl⟩,fun pending => absurd pending (by simp [start])⟩

theorem settled_answer (status : StatusType) (conn : Connection) (past outputs : List Output)
    (reply : Reply) (built : reply.status = .ok → reply.headers ≠ []) :
    Settled status (conn.answer reply) (past ++ (outputs ++ [.write reply])) := by
  refine ⟨fun pending => absurd pending (by simp [answer]),fun _ => ⟨?_,built⟩⟩
  simp [Output.isWrite]

theorem settled_step (status : StatusType) (conn : Connection) (past : List Output)
    (completion : Completion) (settled : Settled status conn past) :
    Settled status (conn.step registered completion).1 (past ++ (conn.step registered completion).2) := by
  have kept : Settled status conn (past ++ []) := by rwa [List.append_nil]
  cases completion with
  | read bytes outData =>
    rw [step]
    split
    next pending =>
      have before := settled.reading pending
      unfold handleRead
      have sameReply : (conn.receive bytes).2.reply = conn.reply := rfl
      have samePending : (conn.receive bytes).2.pending = conn.pending := rfl
      revert sameReply samePending
      generalize conn.receive bytes = received
      obtain ⟨verdict,next⟩ := received
      intro sameReply samePending
      cases verdict with
      | complete => exact settled_answer status _ past _ _ (handleRequest_ok registered outData _)
      | invalid => exact settled_answer status _ past [] _ (fun ok => absurd ok (by decide))
      | indeterminate =>
        dsimp only at sameReply samePending ⊢
        rw [List.append_nil]
        refine ⟨fun _ => ?_,fun writing => ?_⟩
        · rwa [sameReply]
        · rw [samePending,pending] at writing
          contradiction
    next => exact kept
  | written =>
    rw [step]
    split
    next pending =>
      obtain ⟨some,built⟩ := settled.writing pending
      rw [List.append_nil,handleWrite]
      dsimp only
      split
      · exact ⟨fun other => by contradiction,fun other => by contradiction⟩
      next ok =>
        split
        · exact ⟨fun _ => .inr ⟨some,built (not_not.mp ok)⟩,fun other => by contradiction⟩
        · exact ⟨fun other => by contradiction,fun other => by contradiction⟩
    next => exact kept
  | error => exact ⟨fun other => by contradiction,fun other => by contradiction⟩

/-- The members of a request are empty when a read begins it, and the buffer keeps its size. -/
structure Kept (conn : Connection) : Prop where
  reading : conn.pending = .read → conn.requestParser = {} → ∃ b n, conn.request = .constructed [] b n
  writing : conn.pending = .write → conn.request = .reset
  size : conn.buffer.length = httpRecvBuf

theorem kept_start (memory : Memory) : Kept (start memory) :=
  ⟨fun _ _ => ⟨memory.bheader,memory.contentLength,rfl⟩,fun pending => absurd pending (by simp [start]),memory.size⟩

theorem kept_answer {conn : Connection} (reply : Reply) (size : conn.buffer.length = httpRecvBuf) :
    Kept (conn.answer reply) :=
  ⟨fun pending => absurd pending (by simp [answer]),fun _ => rfl,size⟩

theorem kept_handleRead {conn : Connection} {bytes : Bytes} (outData : Bytes)
    (fits : bytes.length ≤ httpRecvBuf) (pending : conn.pending = .read) (kept : Kept conn) :
    Kept (conn.handleRead registered bytes outData).1 := by
  have size : (bytes ++ conn.buffer.drop bytes.length).length = httpRecvBuf := by
    have whole := kept.size
    rw [List.length_append,List.length_drop]
    omega
  have more := @parse_more conn.requestParser conn.request bytes (conn.buffer.drop bytes.length)
  have received := receive_eq conn bytes
  unfold handleRead
  revert more received
  generalize conn.requestParser.parse conn.request bytes (conn.buffer.drop bytes.length) = out
  obtain ⟨verdict,parser,req⟩ := out
  intro more received
  rw [received]
  cases verdict with
  | complete => exact kept_answer _ size
  | invalid => exact kept_answer _ size
  | indeterminate =>
    refine ⟨fun _ fresh => ?_,fun writing => ?_,size⟩
    · have start : parser = {} := fresh
      have moved : parser.resume = .header ∨ parser.resume = .content := more rfl
      rw [start] at moved
      simp at moved
    · have same : conn.pending = .write := writing
      rw [pending] at same
      contradiction

theorem kept_step {conn : Connection} (completion : Completion) (fits : completion.size ≤ httpRecvBuf)
    (kept : Kept conn) : Kept (conn.step registered completion).1 := by
  cases completion with
  | read bytes outData =>
    rw [step]
    split
    next pending => exact kept_handleRead registered outData fits pending kept
    next => exact kept
  | written =>
    rw [step]
    split
    next pending =>
      have reset := kept.writing pending
      rw [handleWrite]
      split
      · exact ⟨fun other => by contradiction,fun other => by contradiction,kept.size⟩
      · split
        · exact ⟨fun _ _ => ⟨false,0,reset⟩,fun other => by contradiction,kept.size⟩
        · exact ⟨fun other => by contradiction,fun other => by contradiction,kept.size⟩
    next => exact kept
  | error => exact ⟨fun other => by contradiction,fun other => by contradiction,kept.size⟩

theorem kept_run {conn : Connection} (completions : List Completion)
    (fits : ∀ completion ∈ completions, completion.size ≤ httpRecvBuf) (kept : Kept conn) :
    Kept (conn.run registered completions).1 := by
  induction completions generalizing conn with
  | nil => exact kept
  | cons completion rest ih =>
    exact ih (fun other member => fits other (List.mem_cons_of_mem _ member))
      (kept_step registered completion (fits completion List.mem_cons_self) kept)

/-- What is written while the reads of one request come in. -/
def written (conn : Connection) (reads : List (Bytes × Bytes)) : List Reply :=
  (conn.run registered (reads.map fun read => .read read.1 read.2)).2.filterMap Output.reply

end Connection

/-- What each read finds behind its bytes in the buffer. -/
def receivedFrom (buffer : Bytes) : List (Bytes × Bytes) → List Received
  | [] => []
  | (bytes,_) :: reads => ⟨bytes,buffer.drop bytes.length⟩ ::
      receivedFrom (bytes ++ buffer.drop bytes.length) reads

theorem receivedFrom_chunks (buffer : Bytes) (reads : List (Bytes × Bytes)) :
    (receivedFrom buffer reads).map Received.chunk = reads.map Prod.fst := by
  induction reads generalizing buffer with
  | nil => rfl
  | cons read reads ih =>
    rw [receivedFrom,List.map_cons,ih]
    rfl

theorem receivedFrom_bare (buffer : Bytes) (reads : List (Bytes × Bytes)) :
    (receivedFrom buffer reads).map Received.bare = reads.map fun read => ⟨read.1,[]⟩ := by
  induction reads generalizing buffer with
  | nil => rfl
  | cons read reads ih =>
    rw [receivedFrom,List.map_cons,ih]
    rfl

/-- The reply to a parsed request, which only an unknown operation leaves as it was. -/
def replyTo (reads : List (Bytes × Bytes)) (parsed : List Verdict × RequestParser × Request) (rep : Reply) :
    Option Reply :=
  match parsed.1.getLast? with
  | some .complete =>
    let outData := (reads.map Prod.snd).getD (parsed.1.length - 1) []
    some (handleRequest registered parsed.2.2 outData rep).2
  | some .invalid => some (.stockReply .badRequest)
  | _ => none

/-- The reads of a request by themselves, with nothing behind them. -/
def alone (reads : List (Bytes × Bytes)) : List Verdict × RequestParser × Request :=
  feed {} .reset (reads.map fun read => ⟨read.1,[]⟩)

/-- The bytes themselves are refused, by the parser or for their path. -/
def BadRequest (parsed : List Verdict × RequestParser × Request) : Prop :=
  parsed.1.getLast? = some .invalid ∨
    parsed.1.getLast? = some .complete ∧ urlDecode parsed.2.2.uri = none

def Stray (parsed : List Verdict × RequestParser × Request) : Prop :=
  parsed.1.getLast? = some .complete ∧ Unknown registered parsed.2.2

section Parsed
variable {parsed : List Verdict × RequestParser × Request} {reads : List (Bytes × Bytes)}

theorem feed_last (parser : RequestParser) (req : Request) (reads : List Received) {verdict : Verdict}
    (member : verdict ∈ (feed parser req reads).1) (decided : verdict ≠ .indeterminate) :
    (feed parser req reads).1.getLast? = some verdict := by
  induction reads generalizing parser req with
  | nil => simp [feed] at member
  | cons read rest ih =>
    by_cases more : (parser.parse req read.chunk read.rest).1 = .indeterminate
    · rw [feed_undecided rest more] at member ⊢
      dsimp only at member ⊢
      rcases List.mem_cons.mp member with same | later
      · exact absurd same decided
      · rw [List.getLast?_cons,ih _ _ later]
        rfl
    · rw [feed_decided rest more] at member ⊢
      dsimp only at member ⊢
      rw [List.mem_singleton.mp member]
      rfl

theorem replyTo_later (read : Bytes × Bytes) (verdicts : List Verdict) (last : RequestParser × Request)
    (rep : Reply) : replyTo registered (read :: reads) (.indeterminate :: verdicts,last) rep =
      replyTo registered reads (verdicts,last) rep := by
  cases verdicts with
  | nil => rfl
  | cons verdict verdicts =>
    rw [replyTo,replyTo,List.getLast?_cons_cons]
    rfl

theorem replyTo_same {parsed' : List Verdict × RequestParser × Request} (same : SameJudgement parsed parsed')
    (rep : Reply) : replyTo registered reads parsed rep = replyTo registered reads parsed' rep := by
  rw [replyTo,replyTo,← same.verdicts]
  cases last : parsed.1.getLast? with
  | none => rfl
  | some verdict =>
    cases verdict with
    | complete =>
      dsimp only
      rw [same.complete (List.mem_of_getLast? last)]
    | invalid => rfl
    | indeterminate => rfl

theorem replyTo_badRequest (refused : BadRequest parsed) (rep : Reply) :
    replyTo registered reads parsed rep = some (.stockReply .badRequest) := by
  rcases refused with refused | ⟨complete,undecoded⟩
  · rw [replyTo,refused]
  · rw [replyTo,complete]
    dsimp only
    rw [handleRequest,undecoded]

theorem badRequest_of_replyTo {rep : Reply}
    (bad : replyTo registered reads parsed rep = some (.stockReply .badRequest)) : BadRequest parsed := by
  revert bad
  rw [replyTo]
  split
  next complete =>
    dsimp only
    generalize (reads.map Prod.snd).getD (parsed.1.length - 1) [] = outData
    intro bad
    refine .inr ⟨complete,?_⟩
    cases decoded : urlDecode parsed.2.2.uri with
    | none => rfl
    | some path =>
      rw [handleRequest,decoded] at bad
      dsimp only at bad
      have status := congrArg Reply.status (Option.some.inj bad)
      cases found : findHandle registered parsed.2.2 path with
      | none =>
        rw [proccess_unknown registered outData rep found] at status
        contradiction
      | some name =>
        obtain ⟨msg,built⟩ := proccess_known registered outData rep found
        rw [built] at status
        contradiction
  next refused => exact fun _ => .inl refused
  next => exact nofun

theorem replyTo_known (known : ¬ Stray registered parsed) (rep rep' : Reply) :
    replyTo registered reads parsed rep = replyTo registered reads parsed rep' := by
  rw [replyTo,replyTo]
  split
  next complete =>
    exact congrArg (fun out => some out.2)
      (handleRequest_known registered _ rep rep' fun unknown => known ⟨complete,unknown⟩)
  next => rfl
  next => rfl

theorem replyTo_stray (stray : Stray registered parsed) (rep : Reply) :
    replyTo registered reads parsed rep = some {rep with status := .notFound} := by
  rw [replyTo,stray.1]
  dsimp only
  rw [handleRequest_unknown registered _ rep stray.2]

end Parsed

namespace Connection

theorem run_idle {conn : Connection} (reads : List (Bytes × Bytes)) (idle : conn.pending ≠ .read) :
    conn.run registered (reads.map fun read => .read read.1 read.2) = (conn,[]) := by
  induction reads with
  | nil => rfl
  | cons read reads ih =>
    rw [List.map_cons,run,step,if_neg idle]
    dsimp only
    rw [ih]
    rfl

theorem written_parsed {conn : Connection} (reads : List (Bytes × Bytes)) (reading : conn.pending = .read) :
    conn.written registered reads =
      (replyTo registered reads (feed conn.requestParser conn.request (receivedFrom conn.buffer reads))
        conn.reply).toList := by
  induction reads generalizing conn with
  | nil => rfl
  | cons read reads ih =>
    obtain ⟨bytes,outData⟩ := read
    have received := receive_eq conn bytes
    rw [written,List.map_cons,run,step,if_pos reading,handleRead,received,receivedFrom]
    by_cases more : (conn.requestParser.parse conn.request bytes (conn.buffer.drop bytes.length)).1 = .indeterminate
    · rw [feed_undecided _ more]
      revert more
      generalize conn.requestParser.parse conn.request bytes (conn.buffer.drop bytes.length) = out
      obtain ⟨verdict,parser,req⟩ := out
      intro more
      obtain rfl : verdict = .indeterminate := more
      rw [replyTo_later]
      exact @ih {conn with buffer := bytes ++ conn.buffer.drop bytes.length,requestParser := parser,request := req}
        reading
    · rw [feed_decided _ more]
      revert more
      generalize conn.requestParser.parse conn.request bytes (conn.buffer.drop bytes.length) = out
      obtain ⟨verdict,parser,req⟩ := out
      intro more
      cases verdict with
      | complete =>
        dsimp only [serve]
        rw [run_idle registered reads (by simp [answer]),List.append_nil]
        cases (handleRequest registered req outData conn.reply).1 <;> rfl
      | invalid =>
        dsimp only [refuse]
        rw [run_idle registered reads (by simp [answer])]
        rfl
      | indeterminate => exact absurd rfl more

/-- A request begins: nothing of it has been read. -/
structure Begins (conn : Connection) : Prop where
  reading : conn.pending = .read
  parser : conn.requestParser = {}

theorem begins_start (memory : Memory) : Begins (start memory) := ⟨rfl,rfl⟩

section Begins
variable {registered} {conn : Connection} {reads : List (Bytes × Bytes)} (begins : Begins conn) (kept : Kept conn)
include begins

theorem written_begins :
    conn.written registered reads =
      (replyTo registered reads (feed {} conn.request (receivedFrom conn.buffer reads)) conn.reply).toList := by
  rw [written_parsed registered reads begins.reading,begins.parser]

theorem written_opened {read : Bytes × Bytes} (first : read ∈ reads.head?)
    (opened : ¬ Closed read.1 (conn.buffer.drop read.1.length)) :
    conn.written registered reads = [.stockReply .badRequest] := by
  cases reads with
  | nil => simp at first
  | cons next rest =>
    obtain rfl : next = read := by simpa using first
    have refused := @parse_invalid_of_not_closed {} conn.request _ _ rfl opened
    rw [written_begins begins,receivedFrom,feed_decided _ (by rw [refused]; decide),refused]
    rfl

include kept

/-- Closed reads of a request with a content length are judged by their bytes. -/
theorem written_closed (length : ¬ ∃ i req, Headless [] (reads.map Prod.fst) i req)
    (closed : ∀ read ∈ reads.head?, Closed read.1 (conn.buffer.drop read.1.length)) :
    conn.written registered reads = (replyTo registered reads (alone reads) conn.reply).toList := by
  obtain ⟨b,n,request⟩ := kept.reading begins.reading begins.parser
  have first : ∀ read ∈ (receivedFrom conn.buffer reads).head?, Closed read.chunk read.rest := by
    cases reads with
    | nil => simp [receivedFrom]
    | cons next rest => simpa [receivedFrom] using closed
  have judged := feed_bare (.constructed [] b n) (receivedFrom conn.buffer reads) (.inl ⟨rfl,rfl⟩)
    fun read member _ => first read member
  have bare := receivedFrom_bare conn.buffer reads
  have same := feed_same (reads.map fun read => ⟨read.1,[]⟩) [] b false n 0 (.inl ⟨rfl,rfl⟩)
    (fun read member _ => by
      rw [← bare] at member
      obtain ⟨origin,_,rfl⟩ := List.mem_map.mp (List.mem_of_mem_head? member)
      exact closed_of_terminated _ [] rfl)
    (by rwa [List.map_map])
  rw [bare] at judged
  rw [written_begins begins,request,replyTo_same registered (judged.trans same)]
  rfl

theorem written_alone (length : ¬ ∃ i req, Headless [] (reads.map Prod.fst) i req)
    (fits : ∀ read ∈ reads, read.1.length ≤ httpRecvBuf)
    (buffer : ∀ read ∈ reads.head?, ∀ missing, Dangling {} read.1 missing → BadRequest (alone reads)) :
    conn.written registered reads = (replyTo registered reads (alone reads) conn.reply).toList := by
  by_cases closed : ∀ read ∈ reads.head?, Closed read.1 (conn.buffer.drop read.1.length)
  · exact written_closed begins kept length closed
  · rw [not_forall] at closed
    obtain ⟨read,closed⟩ := closed
    rw [not_forall] at closed
    obtain ⟨first,opened⟩ := closed
    have room : read.1.length + (conn.buffer.drop read.1.length).length = httpRecvBuf := by
      have size := kept.size
      have short := fits read (List.mem_of_mem_head? first)
      rw [List.length_drop]
      omega
    obtain ⟨missing,dangling⟩ := @dangling_of_not_closed {} _ _ rfl room opened
    rw [written_opened begins first opened,replyTo_badRequest registered (buffer read first missing dangling)]
    rfl

end Begins

/-- Every new connection, whatever its memory holds, writes the same on these reads. -/
def Isolated (conn : Connection) (reads : List (Bytes × Bytes)) : Prop :=
  ∀ other : Memory, (start other).written registered reads = conn.written registered reads

/-- When the bytes alone, and no earlier request, make a reply: the head gives a content
length, older bytes of the buffer complete no CRLFCRLF that the first read begins, unless
the request is refused anyway, and an unknown operation is not asked for after a reply. -/
structure Isolating (first : Prop) (reads : List (Bytes × Bytes)) : Prop where
  length : ¬ ∃ i req, Headless [] (reads.map Prod.fst) i req
  buffer : ∀ read ∈ reads.head?, ∀ missing, Dangling {} read.1 missing → BadRequest (alone reads)
  known : first ∨ ¬ Stray registered (alone reads)

theorem zero_closed (bytes : Bytes) : Closed bytes (Memory.zero.buffer.drop bytes.length) := by
  refine closed_of_terminated _ _ ?_
  rw [Memory.zero,List.drop_replicate]
  cases httpRecvBuf - bytes.length <;> rfl

theorem written_zero {reads : List (Bytes × Bytes)}
    (length : ¬ ∃ i req, Headless [] (reads.map Prod.fst) i req) :
    (start .zero).written registered reads =
      (replyTo registered reads (alone reads) {status := .internalServerError}).toList :=
  written_closed (begins_start .zero) (kept_start .zero) length fun read _ => zero_closed read.1

/-- Two new connections disagree on a head that gives no content length. -/
theorem headless_apart {reads : List (Bytes × Bytes)} {i : Nat} {req : Request}
    (headless : Headless [] (reads.map Prod.fst) i req) :
    ∃ other other' : Memory, (start other).written registered reads ≠ (start other').written registered reads := by
  let n := (reads.map Prod.fst).flatten.length + 1
  let hungry : Memory := {Memory.zero with bheader := true,contentLength := n}
  have chunks := receivedFrom_chunks Memory.zero.buffer reads
  obtain ⟨refused,waiting⟩ := feed_headless (receivedFrom Memory.zero.buffer reads) [] n (.inl ⟨rfl,rfl⟩) rfl
    (by
      intro read member _
      cases reads with
      | nil => simp [receivedFrom] at member
      | cons next rest =>
        obtain rfl : _ = read := by simpa [receivedFrom] using member
        exact zero_closed next.1)
    (by rw [chunks]; simp [n]) (by rw [chunks]; exact headless)
  refine ⟨.zero,hungry,?_⟩
  have bad : (start .zero).written registered reads = [.stockReply .badRequest] := by
    have last := feed_last {} (.constructed [] false 0) _ refused (by decide)
    have refused : BadRequest (feed {} (start .zero).request (receivedFrom (start .zero).buffer reads)) := .inl last
    rw [written_begins (begins_start .zero),replyTo_badRequest registered refused]
    rfl
  have none : (start hungry).written registered reads = [] := by
    rw [written_begins (begins_start hungry),replyTo]
    split
    next complete => exact absurd (waiting _ (List.mem_of_getLast? complete)) (by decide)
    next refused => exact absurd (waiting _ (List.mem_of_getLast? refused)) (by decide)
    next => rfl
  rw [bad,none]
  exact List.cons_ne_nil _ _

theorem written_completing {reads : List (Bytes × Bytes)} {read : Bytes × Bytes} {missing : Nat}
    (first : read ∈ reads.head?) (dangling : Dangling {} read.1 missing) :
    ∃ other : Memory, (start other).written registered reads = [.stockReply .badRequest] := by
  let other : Memory := {Memory.zero with
    buffer := read.1 ++ completing read.1 missing
    size := by rw [List.length_append,dangling.completing_size]}
  refine ⟨other,written_opened (begins_start other) first ?_⟩
  have behind : (start other).buffer.drop read.1.length = completing read.1 missing := List.drop_left
  rw [behind]
  exact dangling.opened

section Isolated
variable {registered} {conn : Connection} {reads : List (Bytes × Bytes)} (isolated : Isolated registered conn reads)
include isolated

theorem Isolated.length : ¬ ∃ i req, Headless [] (reads.map Prod.fst) i req := by
  rintro ⟨i,req,headless⟩
  obtain ⟨other,other',apart⟩ := headless_apart registered headless
  exact apart ((isolated other).trans (isolated other').symm)

theorem Isolated.buffer : ∀ read ∈ reads.head?, ∀ missing, Dangling {} read.1 missing → BadRequest (alone reads) := by
  intro read first missing dangling
  obtain ⟨other,bad⟩ := written_completing registered first dangling
  have same := (isolated .zero).trans (isolated other).symm
  rw [written_zero registered isolated.length,bad] at same
  exact badRequest_of_replyTo registered (by simpa using same)

end Isolated

/-- In every run, the reply to a request on a used connection is the one that every new
connection gives on the same reads exactly under these conditions. -/
theorem reply_isolation (memory : Memory) (history : List Completion) (reads : List (Bytes × Bytes))
    (fits : ∀ completion ∈ history, completion.size ≤ httpRecvBuf)
    (readsFit : ∀ read ∈ reads, read.1.length ≤ httpRecvBuf)
    (begins : Begins ((start memory).run registered history).1) :
    let past := (start memory).run registered history
    Isolated registered past.1 reads ↔ Isolating registered (past.2.all (!·.isWrite)) reads := by
  intro past
  have kept := kept_run registered history fits (kept_start memory)
  have settled := run_invariant registered (settled_step registered memory.status) history
    (settled_start memory)
  have before := settled.reading begins.reading
  rw [List.nil_append] at before
  constructor
  · intro isolated
    refine ⟨isolated.length,isolated.buffer,?_⟩
    by_cases first : past.2.all (!·.isWrite)
    · exact .inl first
    · refine .inr fun stray => ?_
      have used : past.1.written registered reads = _ :=
        written_alone begins kept isolated.length readsFit isolated.buffer
      have same := isolated .zero
      rw [written_zero registered isolated.length,used,replyTo_stray registered stray,replyTo_stray registered stray] at same
      have headers : [] = past.1.reply.headers := by
        simpa using congrArg (List.map Reply.headers) same
      rcases before with ⟨none,_⟩ | ⟨_,some⟩
      · exact first none
      · exact some headers.symm
  · rintro ⟨length,buffer,known⟩ other
    rw [written_alone (begins_start other) (kept_start other) length readsFit buffer,
      written_alone begins kept length readsFit buffer]
    rcases known with first | known
    · have constructed : past.1.reply = {status := memory.status} := by
        rcases before with ⟨_,constructed⟩ | ⟨some,_⟩
        · exact constructed
        · rw [List.any_eq_true] at some
          obtain ⟨output,member,write⟩ := some
          have none := List.all_eq_true.mp first output member
          simp [write] at none
      rw [constructed]
      by_cases stray : Stray registered (alone reads)
      · rw [replyTo_stray registered stray,replyTo_stray registered stray]
        rfl
      · rw [replyTo_known registered stray (start other).reply {status := memory.status}]
    · rw [replyTo_known registered known (start other).reply past.1.reply]

end Connection

end

def quotesOnly (name : Bytes) : Bool := name = ascii "Quotes"

def quotesPost : Bytes :=
  ascii "POST /Quotes HTTP/1.1" ++ crlf ++ ascii "Connection: keep-alive" ++ crlf ++
    ascii "Content-Length: 0" ++ httpEnd

def strayPost : Bytes := ascii "POST /Stray HTTP/1.1" ++ crlf ++ ascii "Content-Length: 0" ++ httpEnd

def quotesServed : List Completion := [.read quotesPost (ascii "quote"),.written]

theorem reply_isolation_stray :
    let past := (Connection.start .zero).run quotesOnly quotesServed
    Connection.Isolated quotesOnly past.1 [(strayPost,[])] ↔
      Connection.Isolating quotesOnly (past.2.all (!·.isWrite)) [(strayPost,[])] :=
  Connection.reply_isolation quotesOnly .zero quotesServed [(strayPost,[])] (by decide +kernel) (by decide +kernel)
    ⟨by decide +kernel,by decide +kernel⟩

/-- The reply to the unknown operation carries what was sent for the operation before. -/
theorem stray_not_isolated :
    let past := (Connection.start .zero).run quotesOnly quotesServed
    past.1.Begins ∧ ¬ Connection.Isolated quotesOnly past.1 [(strayPost,[])] := by
  refine ⟨⟨by decide +kernel,by decide +kernel⟩,fun isolated => ?_⟩
  have same := isolated .zero
  revert same
  decide +kernel

end FuturesCellProxy.Server

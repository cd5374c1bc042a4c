import FuturesCellProxy.Proxy.UniqueIds
import FuturesCellProxy.Server.KeepAlive
import FuturesCellProxy.Server.ReplyFraming

/-! A connection with the operations behind it: what it reads runs operations, and what they
put out is written back. Seen through its bytes it is a program that runs the operations that
are called, one after the other. -/
namespace FuturesCellProxy.Proxy
open Foundation Rpc Server

/-- A completion, without what a function would put out. -/
inductive Arrival where
  | read (bytes : Bytes)
  | written
  | error
  deriving DecidableEq, Repr

section
variable (flags : Flags) (platform : Platform) (codec : Codec)

def handleRequest (req : Server.Request) (rep : Reply) : Prog (Option Reply) :=
  match urlDecode req.uri with
  | none => return some (.stockReply .badRequest)
  | some requestPath => proccessReq flags platform codec requestPath req rep

/-- `HandleRead` for a request that is complete; `none` is an exception. -/
def serveRequest (conn : Connection) : Prog (Option (Connection × List Reply)) := do
  let isLongConnection := conn.isLongConnection || requestKeepAlive conn.request.headers
  let conn := {conn with requestParser := {},isLongConnection := isLongConnection}
  let reply ← handleRequest flags platform codec conn.request conn.reply
  return reply.map fun reply => (conn.answer reply,[reply])

def handleRead (conn : Connection) (bytes : Bytes) : Prog (Option (Connection × List Reply)) :=
  match conn.receive bytes with
  | (.complete,conn) => serveRequest flags platform codec conn
  | (.invalid,conn) => return some (conn.answer (.stockReply .badRequest),[.stockReply .badRequest])
  | (.indeterminate,conn) => return some (conn,[])

/-- One completion, and the replies that are written for it. -/
def arrive (conn : Connection) : Arrival → Prog (Option (Connection × List Reply))
  | .read bytes => if conn.pending = .read then handleRead flags platform codec conn bytes else return some (conn,[])
  | .written => return some (if conn.pending = .write then conn.handleWrite else conn,[])
  | .error => return some ({conn with pending := .stopped},[])

def session (conn : Connection) : List Arrival → Prog (Option (Connection × List Reply))
  | [] => return some (conn,[])
  | arrival :: rest => do
    match ← arrive flags platform codec conn arrival with
    | none => return none
    | some (conn,replies) =>
      let served ← session conn rest
      return served.map fun served => (served.1,replies ++ served.2)

end

def Arrival.of : Completion → Arrival
  | .read bytes _ => .read bytes
  | .written => .written
  | .error => .error

section
variable (flags : Flags) (platform : Platform) (codec : Codec)

/-- What is written for a function that is called is what its operation put out. -/
inductive Answered : Trace → List Output → Prop where
  | nil : Answered [] []
  | invoke (invocation : Invocation) (op : Operation) (first rest : Trace) (handled : Handled op) (outputs : List Output)
      (known : Operation.find invocation.operation = some op)
      (runs : Run (op.addHandle flags platform codec invocation.inData) first (some handled))
      (others : Answered rest outputs) :
      Answered (first ++ rest) (.invoke invocation :: .write (buidlReply handled.out) :: outputs)
  | write (rep : Reply) (rest : Trace) (outputs : List Output) (others : Answered rest outputs) :
      Answered rest (.write rep :: outputs)

variable {flags platform codec}

theorem Answered.append {first second : Trace} {outputs more : List Output}
    (answered : Answered flags platform codec first outputs) (others : Answered flags platform codec second more) :
    Answered flags platform codec (first ++ second) (outputs ++ more) := by
  induction answered with
  | nil => exact others
  | invoke invocation op first rest handled outputs known runs _ ih =>
    rw [List.append_assoc]
    exact .invoke invocation op first _ handled _ known runs ih
  | write rep rest outputs _ ih => exact .write rep _ _ ih

def Output.written : Output → Option Reply
  | .write rep => some rep
  | .invoke _ => none

/-- A request that is complete is served as `HandleRequest` serves it. -/
theorem handleRequest_refines {req : Server.Request} {rep reply : Reply} {trace : Trace}
    (run : Run (handleRequest flags platform codec req rep) trace (some reply)) :
    ∃ outData invocation, Server.handleRequest Operation.registered req outData rep = (invocation,reply) ∧
      Answered flags platform codec trace (invocation.toList.map .invoke ++ [.write reply]) := by
  unfold handleRequest at run
  unfold Server.handleRequest
  cases decoded : urlDecode req.uri with
  | none =>
    rw [decoded] at run
    obtain ⟨rfl,same⟩ := (Run.pure_iff _ _ _).mp run
    cases same
    exact ⟨[],none,rfl,.write _ _ _ .nil⟩
  | some path =>
    rw [decoded] at run
    dsimp only at run ⊢
    cases found : findHandle Operation.registered req path with
    | none =>
      rw [proccessReq,found] at run
      obtain ⟨rfl,same⟩ := (Run.pure_iff _ _ _).mp run
      cases same
      exact ⟨[],none,by rw [proccess_unknown Operation.registered [] rep found],.write _ _ _ .nil⟩
    | some name =>
      obtain ⟨op,known,runs⟩ := proccessReq_run flags platform codec rep found
      obtain ⟨handled,handles,same⟩ := (runs _ _).mp run
      cases handled with
      | none => cases same
      | some handled =>
        cases same
        refine ⟨handled.out,some ⟨name,req.content⟩,?_,?_⟩
        · simp [proccessReqFromHandle,found,not_echo_of_registered (registered_of_findHandle found)]
        · have answered := Answered.invoke ⟨name,req.content⟩ op trace [] handled [] known handles .nil
          rwa [List.append_nil] at answered

theorem handleRead_refines {conn conn' : Connection} {bytes : Bytes} {replies : List Reply} {trace : Trace}
    (run : Run (handleRead flags platform codec conn bytes) trace (some (conn',replies))) :
    ∃ outData outputs, conn.handleRead Operation.registered bytes outData = (conn',outputs) ∧
      outputs.filterMap Output.written = replies ∧ Answered flags platform codec trace outputs := by
  unfold handleRead at run
  unfold Connection.handleRead
  generalize conn.receive bytes = received at run ⊢
  obtain ⟨verdict,conn⟩ := received
  cases verdict with
  | complete =>
    obtain ⟨first,reply,second,handled,rest,rfl⟩ := (Run.bind_iff _ _ _ _).mp run
    obtain ⟨rfl,same⟩ := (Run.pure_iff _ _ _).mp rest
    cases reply with
    | none => cases same
    | some reply =>
      cases same
      obtain ⟨outData,invocation,called,answered⟩ := handleRequest_refines handled
      refine ⟨outData,invocation.toList.map .invoke ++ [.write reply],?_,?_,by rwa [List.append_nil]⟩
      · simp only [Connection.serve,called]
      · cases invocation <;> rfl
  | invalid =>
    obtain ⟨rfl,same⟩ := (Run.pure_iff _ _ _).mp run
    cases same
    exact ⟨[],_,rfl,rfl,.write _ _ _ .nil⟩
  | indeterminate =>
    obtain ⟨rfl,same⟩ := (Run.pure_iff _ _ _).mp run
    cases same
    exact ⟨[],[],rfl,rfl,.nil⟩

theorem arrive_refines {conn conn' : Connection} {arrival : Arrival} {replies : List Reply} {trace : Trace}
    (run : Run (arrive flags platform codec conn arrival) trace (some (conn',replies))) :
    ∃ completion outputs, Arrival.of completion = arrival ∧ conn.step Operation.registered completion = (conn',outputs) ∧
      outputs.filterMap Output.written = replies ∧ Answered flags platform codec trace outputs := by
  have still (completion : Completion) (after : Connection)
      (steps : conn.step Operation.registered completion = (after,[])) (ends : trace = [])
      (same : some (conn',replies) = some (after,[])) :
      ∃ completion' outputs, Arrival.of completion' = Arrival.of completion ∧
        conn.step Operation.registered completion' = (conn',outputs) ∧
        outputs.filterMap Output.written = replies ∧ Answered flags platform codec trace outputs := by
    subst ends
    cases same
    exact ⟨completion,[],rfl,steps,rfl,.nil⟩
  cases arrival with
  | read bytes =>
    rw [arrive] at run
    split at run
    next pending =>
      obtain ⟨outData,outputs,read,written,answered⟩ := handleRead_refines run
      exact ⟨.read bytes outData,outputs,rfl,by rw [Connection.step,if_pos pending,read],written,answered⟩
    next busy =>
      obtain ⟨ends,same⟩ := (Run.pure_iff _ _ _).mp run
      exact still (.read bytes []) conn (by rw [Connection.step,if_neg busy]) ends same
  | written =>
    obtain ⟨ends,same⟩ := (Run.pure_iff _ _ _).mp run
    refine still .written _ ?_ ends same
    rw [Connection.step]
    split <;> rfl
  | error =>
    obtain ⟨ends,same⟩ := (Run.pure_iff _ _ _).mp run
    exact still .error _ rfl ends same

/-- Whatever arrives on a connection, in whatever pieces: what is written is what the connection
writes when each function it calls puts out what its operation made of the content, and nothing is
asked of the services but by these operations, one after the other. -/
theorem session_refines (conn conn' : Connection) (arrivals : List Arrival) (trace : Trace) (replies : List Reply)
    (run : Run (session flags platform codec conn arrivals) trace (some (conn',replies))) :
    ∃ completions outputs, completions.map Arrival.of = arrivals ∧
      conn.run Operation.registered completions = (conn',outputs) ∧ outputs.filterMap Output.written = replies ∧
      Answered flags platform codec trace outputs := by
  induction arrivals generalizing conn trace replies with
  | nil =>
    obtain ⟨rfl,same⟩ := (Run.pure_iff _ _ _).mp run
    cases same
    exact ⟨[],[],rfl,rfl,rfl,.nil⟩
  | cons arrival rest ih =>
    obtain ⟨first,arrived,second,head,tail,rfl⟩ := (Run.bind_iff _ _ _ _).mp run
    cases arrived with
    | none => cases ((Run.pure_iff _ _ _).mp tail).2
    | some arrived =>
      obtain ⟨middle,early⟩ := arrived
      obtain ⟨completion,outputs,came,steps,written,answered⟩ := arrive_refines head
      obtain ⟨last,served,_,behind,ends,rfl⟩ := (Run.bind_iff _ _ _ _).mp tail
      obtain ⟨rfl,same⟩ := (Run.pure_iff _ _ _).mp ends
      cases served with
      | none => cases same
      | some served =>
        obtain ⟨after,late⟩ := served
        cases same
        obtain ⟨completions,more,all,runs,written',answered'⟩ := ih middle last late behind
        refine ⟨completion :: completions,outputs ++ more,by rw [List.map_cons,came,all],?_,?_,?_⟩
        · rw [Connection.run,steps]
          dsimp only
          rw [runs]
        · rw [List.filterMap_append,written,written']
        · rw [List.append_nil]
          exact answered.append answered'

end

/-- A request that names an operation, by its path or by its command, and the reads its bytes
come in. -/
structure Call where
  post : PostRequest
  op : Operation
  path : Bytes
  name : Bytes
  reads : List Bytes
  decoded : urlDecode (trimUri post.uri) = some path
  found : findHandle Operation.registered (post.accepted .reset) path = some name
  known : Operation.find name = some op
  nonempty : ∀ bytes ∈ reads, bytes ≠ []
  joined : reads.flatten = post.bytes
  small : (Server.arrival reads).length < 2^31

namespace Call

def arrivals (call : Call) : List Arrival := call.reads.map .read ++ [.written]

def keepAlive (call : Call) : Bool := requestKeepAlive call.post.headers

/-- What the buffer of a connection holds after a read. -/
def overwrite (buffer bytes : Bytes) : Bytes := bytes ++ buffer.drop bytes.length

/-- Whenever a call begins, what the buffer holds behind its first read does not complete a
CRLFCRLF in it. -/
def AllClosed : Bytes → List Call → Prop
  | _, [] => True
  | buffer, call :: rest =>
    (∀ bytes ∈ call.reads.head?, Server.Closed bytes (buffer.drop bytes.length)) ∧
      AllClosed (call.reads.foldl overwrite buffer) rest

/-- If there is another one behind it, the first call asks to keep the connection. -/
def Kept (calls : List Call) : Prop := ∀ call ∈ calls.head?, 1 < calls.length → call.keepAlive = true

end Call

/-- The operations themselves, on the contents of the calls. -/
def answers (flags : Flags) (platform : Platform) (codec : Codec) : List Call → Prog (Option (List Bytes))
  | [] => return some []
  | call :: rest => do
    match ← call.op.addHandle flags platform codec call.post.body with
    | none => return none
    | some handled =>
      let outs ← answers flags platform codec rest
      return outs.map (handled.out :: ·)

/-- So many replies, with what is left behind them. -/
def readReplies : Nat → Bytes → Option (List (Nat × Bytes) × Bytes)
  | 0, bytes => some ([],bytes)
  | n+1, bytes => do
    let response ← Server.receive bytes
    let (others,rest) ← readReplies n response.rest
    return ((response.statusCode,response.content) :: others,rest)

section
variable {flags : Flags} {platform : Platform} {codec : Codec}

/-- An arrival that asks nothing and writes nothing. -/
theorem session_quiet {conn after : Connection} {arrival : Arrival} (rest : List Arrival)
    (quiet : arrive flags platform codec conn arrival = .ret (some (after,[]))) :
    session flags platform codec conn (arrival :: rest) = session flags platform codec after rest := by
  have same : (fun served : Option (Connection × List Reply) =>
      (Program.ret (served.map fun served => (served.1,[] ++ served.2)) : Prog _)) = .ret := by
    funext served
    cases served <;> rfl
  have step : session flags platform codec conn (arrival :: rest) = (session flags platform codec after rest).bind
      fun served => .ret (served.map fun served => (served.1,[] ++ served.2)) := by
    rw [session,quiet]
    rfl
  rw [step,same,Program.bind_ret]

/-- A request that is complete and names an operation is served by it. -/
theorem serveRequest_known {conn : Connection} {path name : Bytes} {op : Operation}
    (decoded : urlDecode conn.request.uri = some path)
    (found : findHandle Operation.registered conn.request path = some name) (known : Operation.find name = some op) :
    serveRequest flags platform codec conn =
      (op.addHandle flags platform codec conn.request.content).bind fun handled => .ret (handled.map fun handled =>
        (({conn with
          requestParser := {}
          isLongConnection := conn.isLongConnection || requestKeepAlive conn.request.headers} : Connection).answer
            (buidlReply handled.out),[buidlReply handled.out])) := by
  have registered : Operation.registered name := registered_of_findHandle found
  have reply (out : Bytes) : (proccessReqFromHandle Operation.registered path conn.request out conn.reply).2 =
      buidlReply out := by
    simp [proccessReqFromHandle,found,not_echo_of_registered registered]
  have handles : handleRequest flags platform codec conn.request conn.reply =
      (op.addHandle flags platform codec conn.request.content).bind fun handled =>
        .ret (handled.map fun handled => buidlReply handled.out) := by
    rw [handleRequest,decoded]
    dsimp only
    rw [proccessReq,found,Option.bind_some,known]
    simp only [reply]
    rfl
  change (handleRequest flags platform codec conn.request conn.reply).bind _ = _
  rw [handles,Program.bind_bind]
  congr 1
  funext handled
  cases handled <;> rfl

/-- From the reads that are left of a call on, its operation answers it, and the connection goes on
behind what it was answered. -/
theorem reads_session {conn : Connection} {initial : Server.Request} {before : List Bytes} (call : Call) (reads : List Bytes)
    (pending : conn.pending = .read) (fresh : initial.headers = [] ∧ initial.content = [] ∧ initial.reqCmd = [])
    (stage : Stage initial before conn.requestParser conn.request)
    (closed : conn.requestParser.resume = .start →
      ∀ bytes ∈ reads.head?, Server.Closed bytes (conn.buffer.drop bytes.length))
    (split : call.reads = before ++ reads) (unfinished : reads ≠ []) :
    ∃ last : Connection, last.buffer = reads.foldl Call.overwrite conn.buffer ∧ last.requestParser = {} ∧
      last.isLongConnection = (conn.isLongConnection || call.keepAlive) ∧
      ∀ rest, session flags platform codec conn (reads.map .read ++ rest) =
        (call.op.addHandle flags platform codec call.post.body).bind fun handled =>
          handled.elim (.ret none) fun handled =>
            (session flags platform codec (last.answer (buidlReply handled.out)) rest).bind fun served =>
              .ret (served.map fun served => (served.1,buidlReply handled.out :: served.2)) := by
  induction reads generalizing conn before with
  | nil => exact absurd rfl unfinished
  | cons bytes rest ih =>
    have received := Connection.receive_eq conn bytes
    have called := parse_called bytes (conn.buffer.drop bytes.length) fresh.2.1 stage (fun start => closed start _ rfl)
    generalize conn.requestParser.parse conn.request bytes (conn.buffer.drop bytes.length) = out at received called
    obtain ⟨verdict,parser,req⟩ := out
    dsimp only at received called
    rw [List.append_cons] at split
    have joined := call.joined
    have small := call.small
    rw [split] at joined small
    rw [List.flatten_append] at joined
    have early := (arrival_mono (before ++ [bytes]) rest).length_le
    obtain ⟨going,done⟩ := call.post.called_part called ⟨_,joined⟩ fresh.1 (by omega)
    cases rest with
    | nil =>
      obtain ⟨rfl,rfl⟩ := done (by simpa using joined)
      let request := (call.post.accepted initial).store (initial.httpReqData ++ call.post.bytes) call.post.body
      let served := {conn with buffer := Call.overwrite conn.buffer bytes,requestParser := parser,request := request}
      have uri : served.request.uri = trimUri call.post.uri := call.post.accepted_uri initial
      have headers : served.request.headers = call.post.headers := by
        have all := call.post.accepted_headers initial
        rwa [fresh.1,List.nil_append] at all
      have found : findHandle Operation.registered served.request call.path = some call.name :=
        (Connection.findHandle_accepted Operation.registered call.post fresh.2.2 _ _ call.path).trans call.found
      have serves := @serveRequest_known flags platform codec served call.path call.name call.op
        (by rw [uri]; exact call.decoded) found call.known
      rw [headers] at serves
      refine ⟨{served with
        requestParser := {}
        isLongConnection := served.isLongConnection || call.keepAlive},rfl,rfl,rfl,fun rest => ?_⟩
      have arrives : arrive flags platform codec conn (.read bytes) = serveRequest flags platform codec served := by
        rw [arrive,if_pos pending,handleRead,received]
        rfl
      change (arrive flags platform codec conn (.read bytes)).bind _ = _
      rw [arrives,serves,Program.bind_bind]
      congr 1
      funext handled
      cases handled <;> rfl
    | cons next others =>
      have more : (before ++ [bytes]).flatten.length < call.post.bytes.length := by
        have long := List.length_pos_iff.mpr (call.nonempty next (by simp [split]))
        rw [← joined,List.length_append,List.flatten_cons,List.length_append]
        omega
      obtain ⟨rfl,stage⟩ := going more
      let waiting := {conn with buffer := Call.overwrite conn.buffer bytes,requestParser := parser,request := req}
      obtain ⟨last,buffer,renewed,long,serves⟩ := @ih waiting (before ++ [bytes]) pending stage
        (fun start => absurd start stage.started) split (by simp)
      refine ⟨last,buffer,renewed,long,fun rest => ?_⟩
      rw [List.map_cons,List.cons_append,← serves rest]
      apply session_quiet
      rw [arrive,if_pos pending,handleRead,received]
      rfl

/-- The connection behind a call that was answered. -/
theorem call_session {conn : Connection} (call : Call) (ready : Connection.Ready conn)
    (closed : ∀ bytes ∈ call.reads.head?, Server.Closed bytes (conn.buffer.drop bytes.length)) :
    ∃ next : Bytes → Connection, (∀ out, (next out).buffer = call.reads.foldl Call.overwrite conn.buffer ∧
      (next out).isLongConnection = (conn.isLongConnection || call.keepAlive) ∧
      ((next out).isLongConnection = true → Connection.Ready (next out))) ∧
      ∀ rest, session flags platform codec conn (call.arrivals ++ rest) =
        (call.op.addHandle flags platform codec call.post.body).bind fun handled =>
          handled.elim (.ret none) fun handled =>
            (session flags platform codec (next handled.out) rest).bind fun served =>
              .ret (served.map fun served => (served.1,buidlReply handled.out :: served.2)) := by
  have stage : Stage conn.request [] conn.requestParser conn.request := by
    rw [ready.parser]
    exact .fresh
  have unfinished : call.reads ≠ [] := by
    intro empty
    have length := congrArg List.length call.joined
    rw [empty,PostText.bytes,List.length_append,call.post.head_length,List.flatten_nil,List.length_nil] at length
    omega
  obtain ⟨last,buffer,parser,long,serves⟩ := @reads_session flags platform codec conn conn.request [] call call.reads
    ready.pending ⟨ready.headers,ready.content,ready.command⟩ stage (fun _ => closed) rfl unfinished
  refine ⟨fun out => (last.answer (buidlReply out)).handleWrite,fun out => ?_,fun rest => ?_⟩
  · have writes : (last.answer (buidlReply out)).handleWrite =
        if last.isLongConnection then {last.answer (buidlReply out) with pending := .read}
        else {last.answer (buidlReply out) with pending := .stopped} := by
      rw [Connection.handleWrite]
      exact if_neg (not_not_intro rfl)
    dsimp only
    rw [writes,← long]
    cases keeps : last.isLongConnection with
    | true => exact ⟨buffer,keeps,fun _ => ⟨rfl,parser,rfl,rfl,rfl⟩⟩
    | false => exact ⟨buffer,keeps,fun on => absurd (keeps.symm.trans on) (by simp)⟩
  · rw [Call.arrivals,List.append_assoc,serves]
    congr 1
    funext handled
    cases handled with
    | none => rfl
    | some handled =>
      have written : session flags platform codec (last.answer (buidlReply handled.out)) (.written :: rest) =
          session flags platform codec (last.answer (buidlReply handled.out)).handleWrite rest :=
        session_quiet rest rfl
      change (session flags platform codec (last.answer (buidlReply handled.out)) (.written :: rest)).bind _ = _
      rw [written]
      rfl

theorem readReplies_cons (n : Nat) (out rest : Bytes) :
    readReplies (n+1) ((buidlReply out).toBuffers ++ rest) =
      (readReplies n rest).map fun read => ((200,out) :: read.1,read.2) := by
  rw [readReplies,Reply.receive_toBuffers (Reply.framed_buidlReply out)]
  simp only [Option.bind_eq_bind,Option.bind_some]
  cases readReplies n rest <;> rfl

theorem session_replies {conn : Connection} (calls : List Call)
    (ready : calls ≠ [] → Connection.Ready conn) (kept : conn.isLongConnection = true ∨ Call.Kept calls)
    (closed : Call.AllClosed conn.buffer calls) :
    (session flags platform codec conn (calls.flatMap Call.arrivals)).bind (fun served =>
        .ret (served.map fun served => readReplies calls.length (served.2.flatMap Reply.toBuffers))) =
      (answers flags platform codec calls).bind fun outs =>
        .ret (outs.map fun outs => some (outs.map fun out => (200,out),[])) := by
  induction calls generalizing conn with
  | nil => rfl
  | cons call rest ih =>
    obtain ⟨next,goes,serves⟩ := @call_session flags platform codec conn call (ready (by simp)) closed.1
    rw [List.flatMap_cons,serves,Program.bind_bind]
    change _ = ((call.op.addHandle flags platform codec call.post.body).bind _).bind _
    rw [Program.bind_bind]
    congr 1
    funext handled
    cases handled with
    | none => rfl
    | some handled =>
      obtain ⟨buffer,long,reading⟩ := goes handled.out
      have stays (more : rest ≠ []) : (next handled.out).isLongConnection = true := by
        rw [long]
        rcases kept with already | asks
        · simp [already]
        · have length := List.length_pos_iff.mpr more
          simp [asks call rfl (by simpa using length)]
      have others := @ih (next handled.out) (fun more => reading (stays more)) (by
        by_cases more : rest = []
        · subst more
          exact .inr fun _ absent => nomatch absent
        · exact .inl (stays more)) (by rw [buffer]; exact closed.2)
      have read (served : Option (Connection × List Reply)) :
          (served.map fun served => (served.1,buidlReply handled.out :: served.2)).map
              (fun served => readReplies (rest.length+1) (served.2.flatMap Reply.toBuffers)) =
            (served.map fun served => readReplies rest.length (served.2.flatMap Reply.toBuffers)).map
              fun read => read.map fun read => ((200,handled.out) :: read.1,read.2) := by
        cases served with
        | none => rfl
        | some served => exact congrArg some (readReplies_cons _ _ _)
      have later := congrArg (fun program => Program.bind program fun read =>
        (.ret (read.map fun read => read.map fun read => ((200,handled.out) :: read.1,read.2)) :
          Prog (Option (Option (List (Nat × Bytes) × Bytes))))) others
      rw [Program.bind_bind,Program.bind_bind] at later
      dsimp only [Option.elim]
      rw [Program.bind_bind]
      refine (congrArg (Program.bind _) (funext fun served => congrArg Program.ret (read served))).trans (later.trans ?_)
      change _ = ((answers flags platform codec rest).bind fun outs => .ret (outs.map (handled.out :: ·))).bind _
      rw [Program.bind_bind]
      congr 1
      funext outs
      cases outs <;> rfl

/-- Calls of operations, one after the other on a connection that has just been opened, whose bytes
come in whatever pieces, none with bytes of two calls: the connection does what the operations do on
the contents, in order, and the client reads exactly what they put out, with status 200. -/
theorem session_answers (flags : Flags) (platform : Platform) (codec : Codec) (memory : Memory) (calls : List Call)
    (kept : Call.Kept calls) (closed : Call.AllClosed memory.buffer calls) :
    (Option.map fun served => readReplies calls.length (served.2.flatMap Reply.toBuffers)) <$>
        session flags platform codec (.start memory) (calls.flatMap Call.arrivals) =
      (Option.map fun outs => some (outs.map fun out => (200,out),[])) <$> answers flags platform codec calls :=
  session_replies calls (fun _ => Connection.ready_start memory) (.inr kept) closed

end

/-- The one order again, with the message of what is returned for it. -/
def messageCodec : Codec where
  parseFromString := tradeCodec.parseFromString
  serializeToString _ outProto := outProto.statusInfo.elim [] StatusInfo.message

/-- A trade on a connection that is kept, in two reads, and another one behind it. -/
def firstTrade : Call where
  post := {
    uri := ascii "FuturesTrade"
    fields := [⟨ascii "Connection",ascii "Keep-Alive"⟩,⟨ascii "Content-Length",ascii "5"⟩]
    body := ascii "order"
    uriInline := by decide
    uriNoSpace := by decide
    uriTrims := by decide
    wellFormed := by decide
    length := ⟨ascii "Content-Length",ascii "5"⟩
    lengthOnly := by decide
    lengthValue := by decide
    bodySize := by decide
    headSize := by decide}
  op := .futuresTrade
  path := ascii "FuturesTrade"
  name := ascii "FuturesTrade"
  reads := [ascii "POST /FuturesTrade HTTP/1.1" ++ crlf ++ ascii "Connection: Keep-Alive",
    crlf ++ ascii "Content-Length: 5" ++ crlf ++ crlf ++ ascii "order"]
  decoded := by decide +kernel
  found := by decide +kernel
  known := by decide +kernel
  nonempty := by decide +kernel
  joined := by decide +kernel
  small := by decide +kernel

/-- The operation is named by the command. -/
def secondTrade : Call where
  post := {
    uri := ascii "trade"
    fields := [⟨ascii "User-cmd",ascii "FuturesTrade"⟩,⟨ascii "Content-Length",ascii "0"⟩]
    body := []
    uriInline := by decide
    uriNoSpace := by decide
    uriTrims := by decide
    wellFormed := by decide
    length := ⟨ascii "Content-Length",ascii "0"⟩
    lengthOnly := by decide
    lengthValue := by decide
    bodySize := by decide
    headSize := by decide}
  op := .futuresTrade
  path := ascii "trade"
  name := ascii "FuturesTrade"
  reads := [ascii "POST /trade HTTP/1.1" ++ crlf ++ ascii "User-cmd: FuturesTrade" ++ crlf ++
    ascii "Content-Length: 0" ++ crlf ++ crlf]
  decoded := by decide +kernel
  found := by decide +kernel
  known := by decide +kernel
  nonempty := by decide +kernel
  joined := by decide +kernel
  small := by decide +kernel

def tradeArrivals : List Arrival := [firstTrade,secondTrade].flatMap Call.arrivals

theorem session_answers_trades :
    (Option.map fun served => readReplies 2 (served.2.flatMap Reply.toBuffers)) <$>
        session {} .sample messageCodec (.start .zero) tradeArrivals =
      (Option.map fun outs => some (outs.map fun out => (200,out),[])) <$>
        answers {} .sample messageCodec [firstTrade,secondTrade] :=
  session_answers {} .sample messageCodec .zero [firstTrade,secondTrade]
    (fun _ first _ => Option.some.inj first ▸ (by decide +kernel)) ⟨by decide +kernel,by decide +kernel,trivial⟩

def tradeRun : Trace × Option (Connection × List Reply) :=
  (session {} .sample messageCodec (.start .zero) tradeArrivals).play FuturesProxy.obliging []

theorem session_refines_trades :
    ∃ conn replies, tradeRun.2 = some (conn,replies) ∧
      readReplies 2 (replies.flatMap Reply.toBuffers) = some ([(200,ascii "SUCCESS"),(200,ascii "SUCCESS")],[]) ∧
      ∃ completions outputs, completions.map Arrival.of = tradeArrivals ∧
        (Connection.start .zero).run Operation.registered completions = (conn,outputs) ∧
        outputs.filterMap Output.written = replies ∧ Answered {} .sample messageCodec tradeRun.1 outputs := by
  obtain ⟨⟨conn,replies⟩,ends⟩ := Option.isSome_iff_exists.mp (show tradeRun.2.isSome by decide +kernel)
  have read : tradeRun.2.map (fun served => readReplies 2 (served.2.flatMap Reply.toBuffers)) =
      some (some ([(200,ascii "SUCCESS"),(200,ascii "SUCCESS")],[])) := by decide +kernel
  have run : Run _ tradeRun.1 tradeRun.2 := Run.play FuturesProxy.obliging _ []
  rw [ends] at read run
  exact ⟨conn,replies,ends,Option.some.inj read,session_refines (.start .zero) conn tradeArrivals tradeRun.1 replies run⟩

end FuturesCellProxy.Proxy

import FuturesCellProxy.Server.Fragmentation
import FuturesCellProxy.Server.ReplyIsolation

/-! Requests one after the other on a connection that is kept alive. No request is lost
or merged as long as no read holds bytes of two of them and no read that begins one is
completed by what older reads left in the buffer. -/
namespace FuturesCellProxy.Server

/-- A request that names a registered operation, by its path or else by its command, and the
reads its bytes come in. -/
structure Exchange (registered : Bytes → Bool) where
  post : PostRequest
  reads : List (Bytes × Bytes)
  path : Bytes
  name : Bytes
  keepAlive : requestKeepAlive post.headers
  decoded : urlDecode (trimUri post.uri) = some path
  found : findHandle registered (post.accepted .reset) path = some name
  nonempty : ∀ read ∈ reads, read.1 ≠ []
  fits : ∀ read ∈ reads, read.1.length ≤ httpRecvBuf
  joined : (reads.map Prod.fst).flatten = post.bytes
  small : (arrival (reads.map Prod.fst)).length < 2^31

def Output.invocation : Output → Option Invocation
  | .invoke invocation => some invocation
  | .write _ => none

namespace Exchange
variable {registered : Bytes → Bool} (exchange : Exchange registered)

def invocation : Invocation := ⟨exchange.name,exchange.post.body⟩

def completions : List Completion :=
  exchange.reads.map (fun read => .read read.1 read.2) ++ [.written]

/-- What the buffer holds behind the first read does not complete a CRLFCRLF in it. -/
def Closed (conn : Connection) : Prop :=
  ∀ read ∈ exchange.reads.head?, Server.Closed read.1 (conn.buffer.drop read.1.length)

instance (conn : Connection) : Decidable (exchange.Closed conn) :=
  inferInstanceAs (Decidable (∀ read ∈ exchange.reads.head?,
    Server.Closed read.1 (conn.buffer.drop read.1.length)))

def AllClosed (registered : Bytes → Bool) : Connection → List (Exchange registered) → Prop
  | _, [] => True
  | conn, exchange :: rest =>
    exchange.Closed conn ∧ AllClosed registered (conn.run registered exchange.completions).1 rest

end Exchange

namespace Connection
variable (registered : Bytes → Bool)

structure Ready (conn : Connection) : Prop where
  pending : conn.pending = .read
  parser : conn.requestParser = {}
  headers : conn.request.headers = []
  content : conn.request.content = []
  command : conn.request.reqCmd = []

theorem ready_start (memory : Memory) : Ready (start memory) := ⟨rfl,rfl,rfl,rfl,rfl⟩

theorem run_append (conn : Connection) (first second : List Completion) :
    conn.run registered (first ++ second) =
      (((conn.run registered first).1.run registered second).1,
        (conn.run registered first).2 ++ ((conn.run registered first).1.run registered second).2) := by
  induction first generalizing conn with
  | nil => simp [run]
  | cons completion rest ih =>
    simp only [List.cons_append,run,ih,List.append_assoc]

theorem serve_known {path name : Bytes} (conn : Connection) (outData : Bytes)
    (decoded : urlDecode conn.request.uri = some path)
    (found : findHandle registered conn.request path = some name)
    (keepAlive : requestKeepAlive conn.request.headers) :
    ∃ msg, conn.serve registered outData =
      ({conn with requestParser := {},isLongConnection := true}.answer (buidlReply msg),
        [.invoke ⟨name,conn.request.content⟩,.write (buidlReply msg)]) := by
  obtain ⟨msg,built⟩ := proccess_known registered outData conn.reply found
  refine ⟨msg,?_⟩
  rw [serve,keepAlive,Bool.or_true,handleRequest]
  dsimp only
  rw [decoded]
  dsimp only
  rw [built]
  rfl

/-- What the lines of a head leave in a request that was empty names the same function. -/
theorem findHandle_accepted (post : PostRequest) {initial : Request} (blank : initial.reqCmd = [])
    (data content path : Bytes) :
    findHandle registered ((post.accepted initial).store data content) path =
      findHandle registered (post.accepted .reset) path := by
  have command : ((post.accepted initial).store data content).reqCmd = (post.accepted .reset).reqCmd := by
    rw [post.accepted_reqCmd .reset]
    exact (post.accepted_reqCmd initial).trans (by rw [blank]; rfl)
  rw [findHandle,findHandle,command]

theorem reads_run {conn : Connection} {initial : Request} {before : List Bytes} {path name : Bytes}
    (post : PostRequest) (reads : List (Bytes × Bytes)) (keepAlive : requestKeepAlive post.headers)
    (decoded : urlDecode (trimUri post.uri) = some path)
    (found : findHandle registered (post.accepted .reset) path = some name) (pending : conn.pending = .read)
    (fresh : initial.headers = [] ∧ initial.content = [] ∧ initial.reqCmd = [])
    (stage : Stage initial before conn.requestParser conn.request)
    (closed : conn.requestParser.resume = .start →
      ∀ read ∈ reads.head?, Closed read.1 (conn.buffer.drop read.1.length))
    (joined : (before ++ reads.map Prod.fst).flatten = post.bytes)
    (nonempty : ∀ read ∈ reads, read.1 ≠ [])
    (small : (arrival (before ++ reads.map Prod.fst)).length < 2^31)
    (unfinished : reads ≠ []) :
    ∃ (last : Connection) (msg : Bytes),
      conn.run registered (reads.map fun read => .read read.1 read.2) =
        (({last with requestParser := {},isLongConnection := true} : Connection).answer (buidlReply msg),
          [.invoke ⟨name,post.body⟩,.write (buidlReply msg)]) := by
  induction reads generalizing conn before with
  | nil => exact absurd rfl unfinished
  | cons read rest ih =>
    obtain ⟨bytes,outData⟩ := read
    have received := receive_eq conn bytes
    have called := parse_called bytes (conn.buffer.drop bytes.length) fresh.2.1 stage
      (fun start => closed start _ rfl)
    revert received called
    generalize conn.requestParser.parse conn.request bytes (conn.buffer.drop bytes.length) = out
    obtain ⟨verdict,parser,req⟩ := out
    intro received called
    dsimp only at received called
    rw [List.map_cons,List.append_cons] at joined small
    dsimp only at joined small
    have split : (before ++ [bytes]).flatten ++ (rest.map Prod.fst).flatten = post.bytes := by
      rw [← joined]
      exact List.flatten_append.symm
    have early := (arrival_mono (before ++ [bytes]) (rest.map Prod.fst)).length_le
    obtain ⟨going,done⟩ := post.called_part called ⟨_,split⟩ fresh.1 (by omega)
    rw [List.map_cons,run,step,if_pos pending,handleRead,received]
    cases rest with
    | nil =>
      obtain ⟨rfl,rfl⟩ := done (by simpa using joined)
      let request := (post.accepted initial).store (initial.httpReqData ++ post.bytes) post.body
      let buffer := bytes ++ conn.buffer.drop bytes.length
      let served := {conn with buffer := buffer,requestParser := parser,request := request}
      have uri : served.request.uri = trimUri post.uri := post.accepted_uri initial
      have headers : served.request.headers = post.headers := by
        have all := post.accepted_headers initial
        rwa [fresh.1,List.nil_append] at all
      obtain ⟨msg,answer⟩ := serve_known registered served outData
        (by rw [uri]; exact decoded)
        ((findHandle_accepted registered post fresh.2.2 _ _ path).trans found) (by rw [headers]; exact keepAlive)
      exact ⟨served,msg,congrArg (fun out => (out.1,out.2 ++ [])) answer⟩
    | cons next others =>
      have more : (before ++ [bytes]).flatten.length < post.bytes.length := by
        have long := List.length_pos_iff.mpr (nonempty next (by simp))
        rw [← split,List.length_append,List.map_cons,List.flatten_cons,List.length_append]
        omega
      obtain ⟨rfl,stage⟩ := going more
      let buffer := bytes ++ conn.buffer.drop bytes.length
      let waiting := {conn with buffer := buffer,requestParser := parser,request := req}
      exact @ih waiting (before ++ [bytes]) pending stage (fun start => absurd start stage.started) joined
        (fun r member => nonempty r (by simp [member])) small (by simp)

theorem exchange_run {conn : Connection} (exchange : Exchange registered) (ready : Ready conn)
    (closed : exchange.Closed conn) :
    Ready (conn.run registered exchange.completions).1 ∧
    (conn.run registered exchange.completions).2.filterMap Output.invocation = [exchange.invocation] := by
  have stage : Stage conn.request [] conn.requestParser conn.request := by
    rw [ready.parser]
    exact .fresh
  have unfinished : exchange.reads ≠ [] := by
    intro empty
    have joined := exchange.joined
    rw [empty] at joined
    have length := congrArg List.length joined
    rw [PostText.bytes,List.length_append,exchange.post.head_length,List.map_nil,List.flatten_nil,
      List.length_nil] at length
    omega
  obtain ⟨last,msg,reads⟩ := reads_run registered exchange.post exchange.reads exchange.keepAlive
    exchange.decoded exchange.found ready.pending ⟨ready.headers,ready.content,ready.command⟩ stage
    (fun _ => closed) exchange.joined exchange.nonempty exchange.small unfinished
  rw [Exchange.completions,run_append,reads]
  exact ⟨⟨rfl,rfl,rfl,rfl,rfl⟩,rfl⟩

theorem exchanges_run {conn : Connection} (exchanges : List (Exchange registered)) (ready : Ready conn)
    (closed : Exchange.AllClosed registered conn exchanges) :
    Ready (conn.run registered (exchanges.flatMap Exchange.completions)).1 ∧
    (conn.run registered (exchanges.flatMap Exchange.completions)).2.filterMap Output.invocation =
      exchanges.map Exchange.invocation := by
  induction exchanges generalizing conn with
  | nil => exact ⟨ready,rfl⟩
  | cons exchange rest ih =>
    obtain ⟨next,called⟩ := exchange_run registered exchange ready closed.1
    obtain ⟨last,others⟩ := ih next closed.2
    rw [List.flatMap_cons,run_append]
    refine ⟨last,?_⟩
    rw [List.filterMap_append,called,others]
    rfl

/-- On a connection that has just been opened, every request of a kept-alive sequence has
its function called exactly once, in order, with exactly its body, provided that no read
holds bytes of two requests and the buffer is harmless whenever one begins. -/
theorem keep_alive (memory : Memory) (exchanges : List (Exchange registered))
    (closed : Exchange.AllClosed registered (start memory) exchanges) :
    ((start memory).run registered (exchanges.flatMap Exchange.completions)).2.filterMap Output.invocation =
      exchanges.map Exchange.invocation :=
  (exchanges_run registered exchanges (ready_start memory) closed).2

end Connection

def tickPost : PostRequest where
  uri := ascii "Quotes"
  fields := [⟨ascii "Connection",ascii "Keep-Alive"⟩,⟨ascii "Content-Length",ascii "1"⟩]
  body := ascii "x"
  uriInline := by decide
  uriNoSpace := by decide
  uriTrims := by decide
  wellFormed := by decide
  length := ⟨ascii "Content-Length",ascii "1"⟩
  lengthOnly := by decide
  lengthValue := by decide
  bodySize := by decide
  headSize := by decide

def tick : Exchange quotesOnly where
  post := tickPost
  reads := [(tickPost.bytes.take 30,[]),(tickPost.bytes.drop 30,ascii "quote")]
  path := ascii "Quotes"
  name := ascii "Quotes"
  keepAlive := by decide +kernel
  decoded := by decide +kernel
  found := by decide +kernel
  nonempty := by decide +kernel
  fits := by decide +kernel
  joined := by simp
  small := by decide +kernel

/-- The same operation, named by the command. -/
def commandTick : Exchange quotesOnly where
  post := {
    uri := ascii "any"
    fields := [⟨ascii "User-cmd",ascii "Quotes"⟩,⟨ascii "Connection",ascii "Keep-Alive"⟩,
      ⟨ascii "Content-Length",ascii "2"⟩]
    body := ascii "yz"
    uriInline := by decide
    uriNoSpace := by decide
    uriTrims := by decide
    wellFormed := by decide
    length := ⟨ascii "Content-Length",ascii "2"⟩
    lengthOnly := by decide
    lengthValue := by decide
    bodySize := by decide
    headSize := by decide}
  reads := [(ascii "POST /any HTTP/1.1" ++ crlf ++ ascii "User-cmd: Quotes" ++ crlf ++ ascii "Connection: Keep-Alive" ++
    crlf ++ ascii "Content-Length: 2" ++ crlf ++ crlf ++ ascii "yz",ascii "quote")]
  path := ascii "any"
  name := ascii "Quotes"
  keepAlive := by decide +kernel
  decoded := by decide +kernel
  found := by decide +kernel
  nonempty := by decide +kernel
  fits := by decide +kernel
  joined := by decide +kernel
  small := by decide +kernel

theorem keep_alive_ticks :
    ((Connection.start .zero).run quotesOnly ([tick,commandTick].flatMap Exchange.completions)).2.filterMap
      Output.invocation = [tick,commandTick].map Exchange.invocation :=
  Connection.keep_alive quotesOnly .zero [tick,commandTick] ⟨by decide +kernel,by decide +kernel,trivial⟩

/-- The same request twice, in one read. -/
theorem ticks_merged :
    ((Connection.start .zero).run quotesOnly
      [.read (tickPost.bytes ++ tickPost.bytes) (ascii "quote"),.written]).2.filterMap Output.invocation ≠
      [tick,tick].map Exchange.invocation := by
  decide +kernel

end FuturesCellProxy.Server

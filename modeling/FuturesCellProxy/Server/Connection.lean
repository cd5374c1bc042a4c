import FuturesCellProxy.Server.Handler
import FuturesCellProxy.Server.RequestParser

/-! One connection: a read or a write is pending, and its completion handler decides
what comes next. -/
namespace FuturesCellProxy.Server

def httpRecvBuf : Nat := 4096

inductive Pending where
  | read | write | stopped
  deriving DecidableEq, Repr

structure Connection where
  isLongConnection : Bool := false
  buffer : Bytes
  request : Request
  requestParser : RequestParser := {}
  reply : Reply
  pending : Pending := .read
  deriving DecidableEq, Repr

/-- What the memory of a new connection holds where no constructor sets it. -/
structure Memory where
  buffer : Bytes
  size : buffer.length = httpRecvBuf
  bheader : Bool
  contentLength : Nat
  status : StatusType

def Memory.zero : Memory where
  buffer := List.replicate httpRecvBuf nul
  size := List.length_replicate
  bheader := false
  contentLength := 0
  status := .internalServerError

inductive Output where
  | invoke (invocation : Invocation)
  | write (reply : Reply)
  deriving DecidableEq, Repr

/-- A completion: the bytes of a read with what a function called for them would put
out, the end of a write, or an error in place of either. -/
inductive Completion where
  | read (bytes outData : Bytes)
  | written
  | error
  deriving DecidableEq, Repr

def requestKeepAlive (headers : List Header) : Bool :=
  headers.any fun h => h.name.map tolower = ascii "connection" ∧ h.value.map tolower = ascii "keep-alive"

namespace Connection

def start (memory : Memory) : Connection where
  buffer := memory.buffer
  request := {bheader := memory.bheader,contentLength := memory.contentLength}
  reply := {status := memory.status}

def answer (conn : Connection) (reply : Reply) : Connection :=
  {conn with reply := reply,request := .reset,pending := .write}

def receive (conn : Connection) (bytes : Bytes) : Verdict × Connection :=
  let buffer := bytes ++ conn.buffer.drop bytes.length
  let (result,requestParser,request) :=
    conn.requestParser.parse conn.request bytes (buffer.drop bytes.length)
  (result,{conn with buffer := buffer,requestParser := requestParser,request := request})

theorem receive_eq (conn : Connection) (bytes : Bytes) :
    conn.receive bytes =
      let out := conn.requestParser.parse conn.request bytes (conn.buffer.drop bytes.length)
      let buffer := bytes ++ conn.buffer.drop bytes.length
      (out.1,{conn with buffer := buffer,requestParser := out.2.1,request := out.2.2}) := by
  rw [receive,List.drop_left]

section
variable (registered : Bytes → Bool)

def serve (conn : Connection) (outData : Bytes) : Connection × List Output :=
  let isLongConnection := conn.isLongConnection || requestKeepAlive conn.request.headers
  let conn := {conn with requestParser := {},isLongConnection := isLongConnection}
  let (invocation,reply) := handleRequest registered conn.request outData conn.reply
  (conn.answer reply,invocation.toList.map .invoke ++ [.write reply])

def refuse (conn : Connection) : Connection × List Output :=
  (conn.answer (.stockReply .badRequest),[.write (.stockReply .badRequest)])

/-- `HandleRead` without an error. -/
def handleRead (conn : Connection) (bytes outData : Bytes) : Connection × List Output :=
  match conn.receive bytes with
  | (.complete,conn) => conn.serve registered outData
  | (.invalid,conn) => conn.refuse
  | (.indeterminate,conn) => (conn,[])

def handleWrite (conn : Connection) : Connection :=
  if conn.reply.status ≠ .ok then {conn with pending := .stopped}
  else if conn.isLongConnection then {conn with pending := .read}
  else {conn with pending := .stopped}

/-- A completion of what is pending; no other one can occur. -/
def step (conn : Connection) : Completion → Connection × List Output
  | .read bytes outData => if conn.pending = .read then conn.handleRead registered bytes outData else (conn,[])
  | .written => if conn.pending = .write then (conn.handleWrite,[]) else (conn,[])
  | .error => ({conn with pending := .stopped},[])

def run (conn : Connection) : List Completion → Connection × List Output
  | [] => (conn,[])
  | completion :: rest =>
    let (conn,outputs) := conn.step registered completion
    let (conn,more) := conn.run rest
    (conn,outputs ++ more)

theorem run_invariant {Inv : Connection → List Output → Prop}
    (keeps : ∀ conn past completion, Inv conn past →
      Inv (conn.step registered completion).1 (past ++ (conn.step registered completion).2))
    (completions : List Completion) {conn : Connection} {past : List Output} (holds : Inv conn past) :
    Inv (conn.run registered completions).1 (past ++ (conn.run registered completions).2) := by
  induction completions generalizing conn past with
  | nil => simpa [run] using holds
  | cons completion rest ih =>
    have next := ih (keeps conn past completion holds)
    rwa [List.append_assoc] at next

end

end Connection

end FuturesCellProxy.Server

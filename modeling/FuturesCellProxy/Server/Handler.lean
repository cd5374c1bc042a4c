import FuturesCellProxy.Server.Reply

/-! From a request to the registered function it names, and to the reply. -/
namespace FuturesCellProxy.Server

def hexDigit (b : UInt8) : Option Nat :=
  if isDigit b then some (b.toNat - 48)
  else if 65 ≤ b && b ≤ 70 then some (b.toNat - 55)
  else if 97 ≤ b && b ≤ 102 then some (b.toNat - 87)
  else none

def readSign : Bytes → Bool × Bytes
  | [] => (false,[])
  | sign :: rest => if sign = 45 then (true,rest) else if sign = 43 then (false,rest) else (false,sign :: rest)

/-- The base prefix `0x`, which the stream takes also when no digit follows. -/
def skipBase : Bytes → Bytes
  | zero :: x :: rest => if zero = 48 ∧ (x = 120 ∨ x = 88) then rest else zero :: x :: rest
  | text => text

/-- `istringstream(text) >> std::hex >> value` for an `int` that is large enough. -/
def readHex (text : Bytes) : Option Int :=
  let (negative,text) := readSign (text.dropWhile isSpace)
  let digits := ((skipBase text).map hexDigit).takeWhile Option.isSome
  if digits = [] then none
  else
    let value : Nat := digits.foldl (fun n d => 16 * n + d.getD 0) 0
    some (if negative then -value else value)

def urlDecode : Bytes → Option Bytes
  | [] => some []
  | b :: rest =>
    if b = 37 then
      match rest with
      | high :: low :: rest =>
        match readHex [high,low] with
        | some value => (urlDecode rest).map fun out => (value % 256).toNat.toUInt8 :: out
        | none => none
      | _ => none
    else (urlDecode rest).map fun out => (if b = 43 then space else b) :: out

structure Invocation where
  operation : Bytes
  inData : Bytes
  deriving DecidableEq, Repr

section
variable (registered : Bytes → Bool)

/-- The entry of the handle map for a request: its path, or else its command. -/
def findHandle (req : Request) (reqPath : Bytes) : Option Bytes :=
  if registered reqPath then some reqPath
  else if !req.reqCmd.isEmpty && registered req.reqCmd then some req.reqCmd
  else none

def buidlReply (replyMsg : Bytes) : Reply :=
  {status := .ok,headers := Reply.contentHeaders replyMsg "text/plain",content := replyMsg}

/-- `outData` is what the registered function would put out. -/
def proccessReqFromHandle (reqPath : Bytes) (req : Request) (outData : Bytes) (rep : Reply) :
    Option Invocation × Reply :=
  match findHandle registered req reqPath with
  | none => (none,{rep with status := .notFound})
  | some name =>
    if name = ascii "echo" ∨ name = ascii "/echo" then (some ⟨name,req.content⟩,buidlReply req.httpReqData)
    else (some ⟨name,req.content⟩,buidlReply outData)

def handleRequest (req : Request) (outData : Bytes) (rep : Reply) : Option Invocation × Reply :=
  match urlDecode req.uri with
  | none => (none,Reply.stockReply .badRequest)
  | some requestPath => proccessReqFromHandle registered requestPath req outData rep

end

end FuturesCellProxy.Server

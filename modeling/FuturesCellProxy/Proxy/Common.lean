import FuturesCellProxy.Config
import FuturesCellProxy.Rpc.Interface
import FuturesCellProxy.Proxy.Messages

/-! The helpers of the operations: status, unique identifiers, and the search by HTTP. -/
namespace FuturesCellProxy.Proxy
open Foundation Rpc

def fillStatusInfo {Body : Type} (resp : Return Body) (statusNo : FuturesError) (message : String) : Return Body :=
  {resp with statusInfo := some ⟨statusNo.code,ascii message⟩}

def clockText : Prog Bytes := do
  let now ← ask .systemClock
  return decimalInt now

def generateUniqueID (accessName : Bytes) (accessType : AccessType) : Prog AccessInfo := do
  let requestId ← clockText
  return {requestId,accessName,accessType}

def curleOk : Nat := 0
def curleFailedInit : Nat := 2

/-- `while (try_nums-- > 0)`: attempts with the last code, until one is `CURLE_OK`; the
chunks of all attempts go into the one string. -/
def performUntilOk (url : Bytes) : (tryNums : Nat) → (res : Nat) → (strRst : Bytes) → Prog (Nat × Bytes)
  | 0, res, strRst => return (res,strRst)
  | tryNums+1, _, strRst => do
    let transfer ← ask (.curlPerform url)
    let strRst := strRst ++ transfer.chunks.flatten
    if transfer.code = curleOk then return (curleOk,strRst)
    performUntilOk url tryNums transfer.code strRst

/-- The value returned, and `strRst`. -/
def fnDoCurl (strURL strRst : Bytes) : Prog (Nat × Bytes) := do
  if !(← ask .curlInit) then return (curleFailedInit,strRst)
  let (res,strRst) ← performUntilOk (upTo nul strURL) 2 curleOk strRst
  if res ≠ curleOk then return (res,strRst)
  if strRst.isEmpty then
    let rspCode ← ask .curlResponseCode
    if rspCode ≠ 200 then return (res,strRst)
  return (curleOk,strRst)

end FuturesCellProxy.Proxy

import FuturesCellProxy.Text

/-! A request as the server receives it. -/
namespace FuturesCellProxy.Server

structure Header where
  name : Bytes
  value : Bytes
  deriving DecidableEq, Repr

/-- `bheader` and `contentLength` have no initial value: the default constructor
leaves in them, and in the version numbers, whatever the memory held. -/
structure Request where
  method : Bytes := []
  uri : Bytes := []
  httpVersionMajor : Int := 0
  httpVersionMinor : Int := 0
  headers : List Header := []
  content : Bytes := []
  bheader : Bool
  contentLength : Nat
  httpReqData : Bytes := []
  reqCmd : Bytes := []
  deriving DecidableEq, Repr

namespace Request

def reset : Request := {bheader := false, contentLength := 0}

/-- A request with the members replaced that the lines of a head neither read nor set. -/
def carry (req : Request) (httpReqData content : Bytes) (bheader : Bool) (contentLength : Nat) : Request :=
  {req with httpReqData,content,bheader,contentLength}

def store (req : Request) (httpReqData content : Bytes) : Request := {req with httpReqData,content}

section Store
variable (req : Request) (httpReqData content : Bytes)

@[simp] theorem store_httpReqData : (req.store httpReqData content).httpReqData = httpReqData := rfl
@[simp] theorem store_content : (req.store httpReqData content).content = content := rfl
@[simp] theorem store_contentLength : (req.store httpReqData content).contentLength = req.contentLength := rfl
@[simp] theorem store_bheader : (req.store httpReqData content).bheader = req.bheader := rfl

theorem store_self : req.store req.httpReqData req.content = req := rfl

@[simp] theorem store_store (data bytes : Bytes) :
    (req.store data bytes).store httpReqData content = req.store httpReqData content := rfl

theorem carry_eq_store : req.carry httpReqData content req.bheader req.contentLength =
    req.store httpReqData content := rfl

end Store

end Request

def headersEqual (a b : Bytes) : Bool :=
  a.length == b.length && a.map tolower == b.map tolower

end FuturesCellProxy.Server

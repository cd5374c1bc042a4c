import FuturesCellProxy.Server.Handler
import FuturesCellProxy.Proxy.FuturesProxy

/-! The registered operations: what each is called and the handler that wraps it, from
the content of a request to the serialised return message. -/
namespace FuturesCellProxy.Proxy
open Foundation Rpc

inductive Operation where
  | queryMyFuturesAssets | queryUserStatus | queryFuturesAccountConfig | queryPendingOrders
  | queryHoldingOrders | queryOrderDetail | queryTransactionRecord | futuresTrade
  | cancelPendingOrder | queryHistoryOrders | symbolTypeRecommend | symbolListByType
  | querySymbolByName | tradeConfirmInfo | querySymbolTradeInfo | queryFifthOrder
  | querySymbolQuotations | futuresGraph | futuresKLine
  deriving DecidableEq, Repr

namespace Operation

def registrations : List (Operation × String) :=
  [(queryMyFuturesAssets,"QueryMyFuturesAssets"),(queryUserStatus,"QueryUserStatus"),
    (queryFuturesAccountConfig,"QueryFuturesAccountConfig"),(queryPendingOrders,"QueryPendingOrders"),
    (queryHoldingOrders,"QueryHoldingOrders"),(queryOrderDetail,"QueryOrderDetail"),
    (queryTransactionRecord,"QueryTransactionRecord"),(futuresTrade,"FuturesTrade"),
    (cancelPendingOrder,"CancelPendingOrder"),(queryHistoryOrders,"QueryHistoryOrders"),
    (symbolTypeRecommend,"SymbolTypeRecommend"),(symbolListByType,"SymbolListByType"),
    (querySymbolByName,"QuerySymbolByName"),(tradeConfirmInfo,"TradeConfirmInfo"),
    (querySymbolTradeInfo,"QuerySymbolTradeInfo"),(queryFifthOrder,"QueryFifthOrder"),
    (querySymbolQuotations,"QuerySymbolQuotations"),(futuresGraph,"FuturesGraph"),(futuresKLine,"FuturesKLine")]

/-- `m_handle_map`: every operation under its name, and under its name behind a slash. -/
def handleMap : List (Bytes × Operation) :=
  registrations.flatMap fun (op,name) => [(ascii name,op),(slash :: ascii name,op)]

def find (name : Bytes) : Option Operation := handleMap.lookup name

def registered (name : Bytes) : Bool := (find name).isSome

theorem find_registrations : ∀ entry ∈ registrations,
    find (ascii entry.2) = some entry.1 ∧ find (slash :: ascii entry.2) = some entry.1 := by
  decide +kernel

/-- The request message; of one that no field is read from, nothing is kept. -/
abbrev Request : Operation → Type
  | queryMyFuturesAssets => QueryMyFuturesAssetsRequest
  | queryUserStatus => QueryUserStatusRequest
  | queryFuturesAccountConfig => QueryFuturesAcconutConfigRequest
  | queryPendingOrders => QueryPendingOrdersRequest
  | queryHoldingOrders => QueryHoldingOrdersRequest
  | queryOrderDetail => QueryOrderDetailRequest
  | queryTransactionRecord => QueryTransactionRecordRequest
  | futuresTrade => FuturesTradeRequest
  | cancelPendingOrder => CancelPendingOrderRequest
  | queryHistoryOrders => QueryHistoryOrderRequest
  | querySymbolByName => QuerySymbolByNameRequest
  | tradeConfirmInfo => TradeConfirmInfoRequest
  | querySymbolTradeInfo => QuerySymbolTradeInfoRequest
  | symbolTypeRecommend | symbolListByType | queryFifthOrder
  | querySymbolQuotations | futuresGraph | futuresKLine => Unit

abbrev Body : Operation → Type
  | queryMyFuturesAssets => MyFuturesAssets
  | queryUserStatus => UserStatus
  | queryFuturesAccountConfig => AccountConfig
  | queryPendingOrders => Orders
  | queryHoldingOrders => Orders
  | queryOrderDetail => OrderDetail
  | queryTransactionRecord => TransactionRecords
  | queryHistoryOrders => Orders
  | querySymbolByName => Symbols
  | tradeConfirmInfo => TradeConfirmation
  | querySymbolTradeInfo => SymbolTradeInfo
  | futuresTrade | cancelPendingOrder | symbolTypeRecommend | symbolListByType | queryFifthOrder
  | querySymbolQuotations | futuresGraph | futuresKLine => Unit

def session : (op : Operation) → op.Request → Option LoginSession
  | queryMyFuturesAssets, req => req.loginSession
  | queryUserStatus, req => req.loginSession
  | queryFuturesAccountConfig, req => req.loginSession
  | queryPendingOrders, req => req.loginSession
  | queryHoldingOrders, req => req.loginSession
  | queryOrderDetail, req => req.loginSession
  | queryTransactionRecord, req => req.loginSession
  | futuresTrade, req => req.session
  | cancelPendingOrder, req => req.session
  | queryHistoryOrders, req => req.loginSession
  | tradeConfirmInfo, req => req.session
  | querySymbolTradeInfo, req => req.session
  | querySymbolByName, _ | symbolTypeRecommend, _ | symbolListByType, _ | queryFifthOrder, _
  | querySymbolQuotations, _ | futuresGraph, _ | futuresKLine, _ => none

def emptyRequest : (op : Operation) → op.Request
  | queryMyFuturesAssets | queryUserStatus | queryFuturesAccountConfig | queryPendingOrders
  | queryHoldingOrders | queryOrderDetail | queryTransactionRecord | futuresTrade | cancelPendingOrder
  | queryHistoryOrders | querySymbolByName | tradeConfirmInfo | querySymbolTradeInfo => {}
  | symbolTypeRecommend | symbolListByType | queryFifthOrder
  | querySymbolQuotations | futuresGraph | futuresKLine => ()

section
variable (flags : Flags) (platform : Platform)

/-- `none` is an exception that leaves the operation. -/
def handle : (op : Operation) → op.Request → Prog (Option (Return op.Body))
  | queryMyFuturesAssets, req => some <$> FuturesProxy.queryMyFuturesAssets flags platform req
  | queryUserStatus, req => some <$> FuturesProxy.queryUserStatus flags req
  | queryFuturesAccountConfig, req => some <$> FuturesProxy.queryFuturesAccountConfig flags req
  | queryPendingOrders, req => some <$> FuturesProxy.queryPendingOrders flags platform req
  | queryHoldingOrders, req => some <$> FuturesProxy.queryHoldingOrders flags platform req
  | queryOrderDetail, req => some <$> FuturesProxy.queryOrderDetail flags platform req
  | queryTransactionRecord, req => some <$> FuturesProxy.queryTransactionRecord flags req
  | futuresTrade, req => some <$> FuturesProxy.futuresTrade flags platform req
  | cancelPendingOrder, req => some <$> FuturesProxy.cancelPendingOrder flags platform req
  | queryHistoryOrders, req => some <$> FuturesProxy.queryHistoryOrders flags req
  | symbolTypeRecommend, _ => some <$> FuturesProxy.symbolTypeRecommend
  | symbolListByType, _ => some <$> FuturesProxy.symbolListByType
  | querySymbolByName, req => FuturesProxy.querySymbolByName flags platform req
  | tradeConfirmInfo, req => some <$> FuturesProxy.tradeConfirmInfo flags platform req
  | querySymbolTradeInfo, req => some <$> FuturesProxy.querySymbolTradeInfo flags platform req
  | queryFifthOrder, _ => some <$> FuturesProxy.queryFifthOrder
  | querySymbolQuotations, _ => some <$> FuturesProxy.querySymbolQuotations
  | futuresGraph, _ => some <$> FuturesProxy.futuresGraph
  | futuresKLine, _ => some <$> FuturesProxy.futuresKLine

end

end Operation

/-- `ParseFromString`, with its flag and the message it fills, and `SerializeToString`. -/
structure Codec where
  parseFromString : (op : Operation) → Bytes → Bool × op.Request
  serializeToString : (op : Operation) → Return op.Body → Bytes

structure Handled (op : Operation) where
  outProto : Return op.Body
  out : Bytes

/-- The handler of an operation; it does not look at the flag of `ParseFromString`. -/
def Operation.addHandle (flags : Flags) (platform : Platform) (codec : Codec) (op : Operation) (inData : Bytes) :
    Prog (Option (Handled op)) := do
  let (_,req) := codec.parseFromString op inData
  let outProto ← op.handle flags platform req
  return outProto.map fun outProto => {outProto,out := codec.serializeToString op outProto}

section
variable (flags : Flags) (platform : Platform) (codec : Codec)

/-- `ProccessReqFromHandle` with the registered handlers; `none` is an exception. -/
def proccessReq (reqPath : Bytes) (req : Server.Request) (rep : Server.Reply) : Prog (Option Server.Reply) :=
  match (Server.findHandle Operation.registered req reqPath).bind Operation.find with
  | none => return some (Server.proccessReqFromHandle Operation.registered reqPath req [] rep).2
  | some op => do
    let handled ← op.addHandle flags platform codec req.content
    return handled.map fun handled => (Server.proccessReqFromHandle Operation.registered reqPath req handled.out rep).2

theorem registered_of_findHandle {registered : Bytes → Bool} {req : Server.Request} {reqPath name : Bytes}
    (found : Server.findHandle registered req reqPath = some name) : registered name := by
  unfold Server.findHandle at found
  split at found
  next known =>
    cases found
    exact known
  next =>
    split at found
    next command =>
      cases found
      exact (Bool.and_eq_true _ _ ▸ command).2
    next => cases found

theorem not_echo_of_registered {name : Bytes} (known : Operation.registered name) :
    ¬ (name = ascii "echo" ∨ name = ascii "/echo") := by
  rintro (rfl | rfl) <;> revert known <;> decide +kernel

/-- A request that names an operation is answered with what its handler puts out. -/
theorem proccessReq_run {reqPath name : Bytes} {req : Server.Request} (rep : Server.Reply)
    (found : Server.findHandle Operation.registered req reqPath = some name) :
    ∃ op, Operation.find name = some op ∧ ∀ trace result,
      Run (proccessReq flags platform codec reqPath req rep) trace result ↔
        ∃ handled, Run (op.addHandle flags platform codec req.content) trace handled ∧
          result = handled.map fun handled => Server.buidlReply handled.out := by
  have known := registered_of_findHandle found
  obtain ⟨op,entry⟩ := Option.isSome_iff_exists.mp known
  refine ⟨op,entry,fun trace result => ?_⟩
  have reply (out : Bytes) : (Server.proccessReqFromHandle Operation.registered reqPath req out rep).2 =
      Server.buidlReply out := by
    simp [Server.proccessReqFromHandle,found,not_echo_of_registered known]
  rw [proccessReq,found,Option.bind_some,entry]
  simp only [reply,Run.bind_iff,Run.pure_iff]
  constructor
  · rintro ⟨first,handled,_,run,⟨rfl,rfl⟩,rfl⟩
    exact ⟨handled,by simpa using run,rfl⟩
  · rintro ⟨handled,run,rfl⟩
    exact ⟨trace,handled,[],run,⟨rfl,rfl⟩,by simp⟩

end

end FuturesCellProxy.Proxy

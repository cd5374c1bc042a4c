import FuturesCellProxy.Rpc.Wrapper
import FuturesCellProxy.Proxy.Common
import FuturesCellProxy.Proxy.FuturesConvert

/-! The operations of the proxy. Each makes one request of the trading service in the
name of the session's user, most of them behind a validation of the session. -/
namespace FuturesCellProxy.Proxy
open Foundation Rpc

namespace FuturesProxy

def accessName : Bytes := ascii "futures_cell_proxy"

/-- What the operations do once their request is built: one client from the pool, one
call with its retries, and the client back to the pool if the call returned. -/
def callTradeInfo {Body Resp : Type} (rpc : Wrapper → Prog (Wrapper × Option (Response Resp)))
    (convert : Resp → Body → Body) (error : FuturesError) (message : String) (resp : Return Body) :
    Prog (Return Body) := do
  let client ← ClientPool.getClientPtr .spTradeInfo
  let (wrapper,answer) ← rpc client.wrapper
  match answer with
  | none => return fillStatusInfo resp .futuresInfoBusy "FUTURES INFO BUSY"
  | some answer =>
    ClientPool.freeClientPtr .spTradeInfo {client with wrapper} true
    if answer.errNo = .success then
      return fillStatusInfo {resp with body := convert answer.body resp.body} .success "SUCCESS"
    else return fillStatusInfo resp error message

def requireSession {Body : Type} (session : Option LoginSession) (refused : Return Body)
    (operation : LoginSession → Prog (Return Body)) : Prog (Return Body) :=
  match session with
  | none => return fillStatusInfo refused .futuresReqErr "REQ ERROR"
  | some session => operation session

section
variable (flags : Flags) (platform : Platform)

def validateSession (session : LoginSession) : Prog Errno := do
  let client ← ClientPool.getClientPtr .authen
  let (wrapper,thriftRet,rpcValided) ← AuthenServerWrapper.validateSession flags
    session.sessionInfo client.wrapper
  if rpcValided then ClientPool.freeClientPtr .authen {client with wrapper} true
  return thriftRet

def checkSession {Body : Type} (session : LoginSession) (resp : Return Body) (operation : Prog (Return Body)) :
    Prog (Return Body) := do
  let thriftRet ← validateSession flags session
  if thriftRet ≠ .success then return fillStatusInfo resp .futuresSessionErr "SESSION ERROR"
  operation

def queryMyFuturesAssets (req : QueryMyFuturesAssetsRequest) : Prog QueryMyFuturesAssetsReturn :=
  let resp := {body := {}}
  requireSession req.loginSession resp fun session => checkSession flags session resp do
    let accessInfo ← generateUniqueID accessName .cellProxy
    let accInfoReq := {accessInfo,userId := session.uid,accNo := req.futuresId,needProfit := 1}
    callTradeInfo (SPTradeInfoWrapper.getAccInfo flags accInfoReq)
      (FuturesConvert.toProtoMyFuturesAsset platform) .futuresReturnErr "RETURN ERROR" resp

def accountStatusUrl (status : AccountStatus) (resp : UserStatus) : UserStatus :=
  if status.accountStatus = 5 ∨ status.accountStatus = 4 then resp
  else {resp with statusUrl := some flags.futuresAccountOpenUrl}

def queryUserStatus (req : QueryUserStatusRequest) : Prog QueryUserStatusReturn :=
  let refused := {body := {statusUrl := some flags.futuresAccountOpenUrl}}
  requireSession req.loginSession refused fun session => do
    let accessInfo ← generateUniqueID accessName .cellProxy
    let accStatusReq := {accessInfo,userId := session.uid}
    callTradeInfo (SPTradeInfoWrapper.getUserAccountStatus flags accStatusReq)
      (accountStatusUrl flags) .futuresReturnErr "RETURN ERROR" {body := {}}

def queryFuturesAccountConfig (req : QueryFuturesAcconutConfigRequest) : Prog QueryFuturesAccountConfigReturn :=
  requireSession req.loginSession {body := {}} fun _ =>
    let body := FuturesConvert.toProtoFuturesAccountConfig flags req {}
    return fillStatusInfo {body} .success "SUCCESS"

def queryPendingOrders (req : QueryPendingOrdersRequest) : Prog QueryPendingOrdersReturn :=
  let resp := {body := {}}
  requireSession req.loginSession resp fun session => checkSession flags session resp do
    let accessInfo ← generateUniqueID accessName .cellProxy
    let activeOrderReq := ⟨accessInfo,req.futuresId,session.uid,req.startIndex,req.batchNum⟩
    callTradeInfo (SPTradeInfoWrapper.getActiveOrder flags activeOrderReq)
      (FuturesConvert.toProtoActiveOrders platform) .futuresReturnErr "RETURN ERROR" resp

def queryHoldingOrders (req : QueryHoldingOrdersRequest) : Prog QueryHoldingOrdersReturn :=
  let resp := {body := {}}
  requireSession req.loginSession resp fun session => checkSession flags session resp do
    let accessInfo ← generateUniqueID accessName .cellProxy
    let positionReq := ⟨accessInfo,session.uid,req.futuresId,0,req.startIndex,req.batchNum⟩
    callTradeInfo (SPTradeInfoWrapper.getPosition flags positionReq)
      (FuturesConvert.toProtoPosition platform) .futuresReturnErr "RETURN ERROR" resp

def queryOrderDetail (req : QueryOrderDetailRequest) : Prog QueryOrderDetailReturn :=
  let resp := {body := {}}
  requireSession req.loginSession resp fun session => checkSession flags session resp do
    let accessInfo ← generateUniqueID accessName .cellProxy
    let orderReq := {accessInfo,userId := session.uid,accNo := req.futuresId,intOrderNo := req.orderId}
    callTradeInfo (SPTradeInfoWrapper.getOrderByNo flags orderReq)
      (FuturesConvert.toProtoOrderDetail platform) .futuresReturnErr "RETURN ERROR" resp

def queryTransactionRecord (req : QueryTransactionRecordRequest) : Prog QueryTransactionRecordReturn :=
  let resp := {body := {}}
  requireSession req.loginSession resp fun session => checkSession flags session resp do
    let accessInfo ← generateUniqueID accessName .cellProxy
    let fundRecordReq := ⟨accessInfo,session.uid,req.futuresId,req.index,req.batchNum⟩
    callTradeInfo (SPTradeInfoWrapper.getFundInOutRecord flags fundRecordReq)
      FuturesConvert.toProtoFundRecord .futuresReturnErr "RETURN ERROR" resp

/-- What a client signs: the fields one behind the other. -/
def signedText (req : FuturesTradeRequest) : Bytes :=
  req.futuresId ++ req.symbol ++ req.volume ++ decimalInt req.type ++ req.price

def signatureOf (req : FuturesTradeRequest) : Bytes := platform.aesEncrypt (platform.md5 (signedText req))

def sellSide : UInt8 := 83

/-- The order that is sent for a request; its kind is the same for all requests. -/
def addOrderReq (req : FuturesTradeRequest) (session : LoginSession) (accessInfo : AccessInfo) (clOrderId : Bytes) :
    AddOrderReq where
  accessInfo := accessInfo
  accNo := req.futuresId
  userId := session.uid
  prodCode := req.symbol
  qty := platform.atof req.volume
  clOrderId := clOrderId
  orderOptions := 0
  condType := .condNone
  orderType := .ordLimit
  validType := .vldRestOfDay
  decInPrice := 4
  orderAction := 1
  buySell := if req.type = 1 then buySide else sellSide
  price := platform.atof req.price

def futuresTrade (req : FuturesTradeRequest) : Prog FuturesTradeReturn :=
  let resp := {body := ()}
  requireSession req.session resp fun session =>
    if signatureOf platform req ≠ req.signature then
      return fillStatusInfo resp .futuresSessionErr "VALIDATE ERROR"
    else checkSession flags session resp do
      let accessInfo ← generateUniqueID accessName .cellProxy
      let clOrderId ← clockText
      callTradeInfo (SPTradeInfoWrapper.addOrder flags (addOrderReq platform req session accessInfo clOrderId))
        (fun _ body => body) .futuresTradeErr "TRADE ERROR" resp

def cancelPendingOrder (req : CancelPendingOrderRequest) : Prog FututesCancelPendingOrderReturn :=
  let resp := {body := ()}
  requireSession req.session resp fun session => checkSession flags session resp do
    let accessInfo ← generateUniqueID accessName .cellProxy
    let deleteOrderReq := ⟨accessInfo,session.uid,req.futuresId,platform.atoi req.orderId,1,req.symbol⟩
    callTradeInfo (SPTradeInfoWrapper.deleteOrder flags deleteOrderReq)
      (fun _ body => body) .futuresReturnErr "DELETE ERROR" resp

def queryHistoryOrders (req : QueryHistoryOrderRequest) : Prog QueryHistoryOrderReturn :=
  let resp := {body := {}}
  requireSession req.loginSession resp fun session => checkSession flags session resp do
    let accessInfo ← generateUniqueID accessName .cellProxy
    let hisOrderReq := ⟨accessInfo,session.uid,req.futuresId,req.startIndex,req.batchNum⟩
    callTradeInfo (SPTradeInfoWrapper.getHisOrder flags hisOrderReq)
      FuturesConvert.toProtoHistoryOrders .futuresReturnErr "DELETE ERROR" resp

/-- `none` is an exception, which nothing above the operation catches. -/
def querySymbolByName (req : QuerySymbolByNameRequest) : Prog (Option QuerySymbolByNameReturn) := do
  let requestUrl := flags.futuresSearchUrl ++ ascii "futures/" ++ req.key
  let (ret,retOut) ← fnDoCurl requestUrl []
  if ret ≠ curleOk then
    return some (fillStatusInfo {body := {}} .futuresInfoBusy "FUTURES INFO BUSY")
  match platform.parseJson retOut with
  | none => return some (fillStatusInfo {body := {}} .unknown "UNKNOWN ERROR")
  | some root =>
    return (FuturesConvert.toProtoSymbolByName root {}).map fun body => fillStatusInfo {body} .success "SUCCESS"

def feeInfoReq (accessInfo : AccessInfo) (uid : Int) (futuresId : Bytes) : GetFuturesQuoteFeeInfoReq :=
  {quoteId := ascii "HI",accessInfo,userId := uid,accNo := futuresId}

def tradeConfirmInfo (req : TradeConfirmInfoRequest) : Prog TradeConfirmInfoReturn :=
  let resp := {body := {}}
  requireSession req.session resp fun session => do
    let accessInfo ← generateUniqueID accessName .cellProxy
    callTradeInfo (SPTradeInfoWrapper.getFuturesQuoteFeeInfo flags (feeInfoReq accessInfo session.uid req.futuresId))
      (FuturesConvert.toProtoQuoteFeeInfo platform) .futuresReturnErr "RETURN ERROR" resp

def symbolTradeInfo (symbol : Bytes) (info : QuoteFeeInfo) (resp : SymbolTradeInfo) : SymbolTradeInfo :=
  let resp := FuturesConvert.toProtoQuerySymbolTradeInfo platform info resp
  let symbolInfo := resp.symbolInfo.getD {}
  let baseInfo := {symbolInfo.baseInfo.getD {} with symbol := some symbol}
  {resp with symbolInfo := some {symbolInfo with baseInfo := some baseInfo}}

def querySymbolTradeInfo (req : QuerySymbolTradeInfoRequest) : Prog QuerySymbolTradeInfoReturn :=
  let resp := {body := {}}
  requireSession req.session resp fun session => do
    let accessInfo ← generateUniqueID accessName .cellProxy
    callTradeInfo (SPTradeInfoWrapper.getFuturesQuoteFeeInfo flags (feeInfoReq accessInfo session.uid req.futuresId))
      (symbolTradeInfo platform req.symbol) .futuresReturnErr "RETURN ERROR" resp

end

def succeed : Prog (Return Unit) := return fillStatusInfo {body := ()} .success "SUCCESS"

def symbolTypeRecommend : Prog (Return Unit) := succeed
def symbolListByType : Prog (Return Unit) := succeed
def queryFifthOrder : Prog (Return Unit) := succeed
def querySymbolQuotations : Prog (Return Unit) := succeed
def futuresGraph : Prog (Return Unit) := succeed
def futuresKLine : Prog (Return Unit) := succeed

end FuturesProxy

end FuturesCellProxy.Proxy

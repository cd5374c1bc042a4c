import FuturesCellProxy.Rpc.Interface

/-! The messages of the proxy's own protocol, with the fields that its operations read and
set. An optional field of a request is read as its default when it is absent, so a request
holds the value that is read; only the presence of a session is asked for. -/
namespace FuturesCellProxy.Proxy
open Rpc (Number OrderCondType OrderPriceType VLDType)

inductive FuturesError where
  | unknown | success | futuresNotFound
  | futuresInfoBusy | futuresReturnErr | futuresReqErr | futuresTradeErr | futuresSessionErr
  deriving DecidableEq, Repr

def FuturesError.code : FuturesError → Int
  | unknown => 0
  | success => 1
  | futuresNotFound => 3
  | futuresInfoBusy => 30002
  | futuresReturnErr => 30003
  | futuresReqErr => 30004
  | futuresTradeErr => 30005
  | futuresSessionErr => 30006

@[simp] theorem FuturesError.code_eq_success_iff (error : FuturesError) :
    error.code = success.code ↔ error = success := by
  cases error <;> decide

structure LoginSession where
  sessionStr : Bytes := []
  uid : Int := 0
  deriving DecidableEq, Repr

def LoginSession.sessionInfo (session : LoginSession) : Rpc.SessionInfo := ⟨session.sessionStr,session.uid⟩

structure QueryMyFuturesAssetsRequest where
  futuresId : Bytes := []
  loginSession : Option LoginSession := none
  deriving DecidableEq, Repr

structure QueryUserStatusRequest where
  loginSession : Option LoginSession := none
  deriving DecidableEq, Repr

structure QueryFuturesAcconutConfigRequest where
  type : Int := 0
  loginSession : Option LoginSession := none
  deriving DecidableEq, Repr

structure QueryPendingOrdersRequest where
  futuresId : Bytes := []
  loginSession : Option LoginSession := none
  startIndex : Int := 0
  batchNum : Int := 0
  deriving DecidableEq, Repr

structure QueryHoldingOrdersRequest where
  futuresId : Bytes := []
  loginSession : Option LoginSession := none
  startIndex : Int := 0
  batchNum : Int := 0
  deriving DecidableEq, Repr

structure QueryOrderDetailRequest where
  futuresId : Bytes := []
  orderId : Int := 0
  loginSession : Option LoginSession := none
  deriving DecidableEq, Repr

structure QueryTransactionRecordRequest where
  futuresId : Bytes := []
  loginSession : Option LoginSession := none
  index : Int := 0
  batchNum : Int := 0
  deriving DecidableEq, Repr

/-- No operation reads the five fields that say what kind of order it is. -/
structure FuturesTradeRequest where
  futuresId : Bytes := []
  symbol : Bytes := []
  volume : Bytes := []
  type : Int := 0
  price : Bytes := []
  signature : Bytes := []
  session : Option LoginSession := none
  orderOptions : Int := 0
  condType : OrderCondType := .condNone
  orderType : OrderPriceType := .ordLimit
  validType : VLDType := .vldRestOfDay
  priceDigits : Int := 0
  deriving DecidableEq, Repr

structure CancelPendingOrderRequest where
  futuresId : Bytes := []
  orderId : Bytes := []
  symbol : Bytes := []
  session : Option LoginSession := none
  deriving DecidableEq, Repr

structure QueryHistoryOrderRequest where
  futuresId : Bytes := []
  loginSession : Option LoginSession := none
  startIndex : Int := 0
  batchNum : Int := 0
  deriving DecidableEq, Repr

structure QuerySymbolByNameRequest where
  key : Bytes := []
  deriving DecidableEq, Repr

structure TradeConfirmInfoRequest where
  futuresId : Bytes := []
  session : Option LoginSession := none
  deriving DecidableEq, Repr

structure QuerySymbolTradeInfoRequest where
  futuresId : Bytes := []
  symbol : Bytes := []
  session : Option LoginSession := none
  deriving DecidableEq, Repr

structure StatusInfo where
  statusNo : Int
  message : Bytes
  deriving DecidableEq, Repr

/-- A return message: `status_info`, and its other fields. -/
structure Return (Body : Type) where
  statusInfo : Option StatusInfo := none
  body : Body
  deriving DecidableEq, Repr

def Return.status {Body : Type} (ret : Return Body) : Option Int := ret.statusInfo.map StatusInfo.statusNo

structure LableValue where
  label : Bytes
  value : Bytes
  deriving DecidableEq, Repr

structure FuturesSymbolItem where
  symbol : Option Bytes := none
  name : Option Bytes := none
  deriving DecidableEq, Repr

structure FututesOrderInfo where
  orderId : Option Int := none
  symbolItem : Option FuturesSymbolItem := none
  tradeCmd : Option Int := none
  tradeTime : Option Int := none
  state : Option Bytes := none
  atts : List LableValue := []
  deriving DecidableEq, Repr

structure FuturesSubAccountConfigInfoList where
  captionDes : Option Bytes := none
  scheme : Option Bytes := none
  itemIcon : Option Bytes := none
  deriving DecidableEq, Repr

structure FuturesAccountConfigInfoList where
  configInfoList : List FuturesSubAccountConfigInfoList := []
  deriving DecidableEq, Repr

structure TransactionRecord where
  description : Option Bytes := none
  money : Option Bytes := none
  createTime : Option Int := none
  deriving DecidableEq, Repr

structure FuturesSymbolTradeInfo where
  baseInfo : Option FuturesSymbolItem := none
  lotsStep : Option Number := none
  priceDigits : Option Int := none
  marginPeerLot : Option Number := none
  tradeFee : Option Number := none
  deriving DecidableEq, Repr

structure MyFuturesAssets where
  totalNetWorth : Option Bytes := none
  realBuyPwr : Option Bytes := none
  basicDeposit : Option Bytes := none
  preDeposit : Option Bytes := none
  profitToday : Option Bytes := none
  deriving DecidableEq, Repr

structure UserStatus where
  statusUrl : Option Bytes := none
  deriving DecidableEq, Repr

structure AccountConfig where
  configInfoPlateList : List FuturesAccountConfigInfoList := []
  deriving DecidableEq, Repr

structure Orders where
  orders : List FututesOrderInfo := []
  hasMore : Option Bool := none
  deriving DecidableEq, Repr

structure OrderDetail where
  orderDetail : Option FututesOrderInfo := none
  deriving DecidableEq, Repr

structure TransactionRecords where
  records : List TransactionRecord := []
  hasMore : Option Bool := none
  deriving DecidableEq, Repr

structure Symbols where
  symbols : List FuturesSymbolItem := []
  deriving DecidableEq, Repr

structure TradeConfirmation where
  securityDeposit : Option Bytes := none
  commission : Option Bytes := none
  deriving DecidableEq, Repr

structure SymbolTradeInfo where
  symbolInfo : Option FuturesSymbolTradeInfo := none
  deriving DecidableEq, Repr

abbrev QueryMyFuturesAssetsReturn := Return MyFuturesAssets
abbrev QueryUserStatusReturn := Return UserStatus
abbrev QueryFuturesAccountConfigReturn := Return AccountConfig
abbrev QueryPendingOrdersReturn := Return Orders
abbrev QueryHoldingOrdersReturn := Return Orders
abbrev QueryOrderDetailReturn := Return OrderDetail
abbrev QueryTransactionRecordReturn := Return TransactionRecords
abbrev FuturesTradeReturn := Return Unit
abbrev FututesCancelPendingOrderReturn := Return Unit
abbrev QueryHistoryOrderReturn := Return Orders
abbrev QuerySymbolByNameReturn := Return Symbols
abbrev TradeConfirmInfoReturn := Return TradeConfirmation
abbrev QuerySymbolTradeInfoReturn := Return SymbolTradeInfo

end FuturesCellProxy.Proxy

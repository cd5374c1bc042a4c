import FuturesCellProxy.Foundation.Program
import FuturesCellProxy.Text

/-! What the proxy asks of the world around it: the two thrift services and the pools
of their clients, the system clock, and the search server. The answers belong to the
environment, so a program over these questions has one run for every behaviour of
the services and of the network. -/
namespace FuturesCellProxy.Rpc
open Foundation

/-- A `double` by its bits, or another numeric field of a thrift record. -/
abbrev Number := UInt64

inductive Errno where
  | success | unknown
  | other (code : Nat)
  deriving DecidableEq, Repr

structure SessionInfo where
  sessionId : Bytes
  uid : Int
  deriving DecidableEq, Repr

inductive AccessType where
  | cellProxy
  deriving DecidableEq, Repr

structure AccessInfo where
  requestId : Bytes
  accessName : Bytes
  accessType : AccessType
  deriving DecidableEq, Repr

inductive OrderCondType where
  | condNone | condStop | condSchedtime | condOcostop | condTrailstop
  | condComboOpen | condComboClose | condStopPrc | condOcostopPrc | condTrailstopPrc
  deriving DecidableEq, Repr

inductive OrderPriceType where
  | ordLimit | ordAuction | ordMarket
  deriving DecidableEq, Repr

inductive VLDType where
  | vldRestOfDay | vldFillAndKill | vldFillOrKill | vldUntilExpire | vldSpecTime
  deriving DecidableEq, Repr

inductive OrderStatus where
  | ordstatTraded | ordstatParttrdWrk
  | other (code : Nat)
  deriving DecidableEq, Repr

structure GetAccInfoReq where
  accessInfo : AccessInfo
  userId : Int
  accNo : Bytes
  needProfit : Int
  deriving DecidableEq, Repr

structure GetUserAccountStatusReq where
  accessInfo : AccessInfo
  userId : Int
  deriving DecidableEq, Repr

structure GetActiveOrderReq where
  accessInfo : AccessInfo
  accNo : Bytes
  userId : Int
  startIndex : Int
  batchNum : Int
  deriving DecidableEq, Repr

structure GetPositionReq where
  accessInfo : AccessInfo
  userId : Int
  accNo : Bytes
  type : Int
  startIndex : Int
  batchNum : Int
  deriving DecidableEq, Repr

structure GetOrderByNoReq where
  accessInfo : AccessInfo
  userId : Int
  accNo : Bytes
  intOrderNo : Int
  deriving DecidableEq, Repr

structure GetFundInOutRecordReq where
  accessInfo : AccessInfo
  userId : Int
  accNo : Bytes
  index : Int
  batchNum : Int
  deriving DecidableEq, Repr

structure AddOrderReq where
  accessInfo : AccessInfo
  accNo : Bytes
  userId : Int
  prodCode : Bytes
  qty : Number
  clOrderId : Bytes
  orderOptions : Int
  condType : OrderCondType
  orderType : OrderPriceType
  validType : VLDType
  decInPrice : Int
  orderAction : Int
  buySell : UInt8
  price : Number
  deriving DecidableEq, Repr

structure DeleteOrderReq where
  accessInfo : AccessInfo
  userId : Int
  accNo : Bytes
  intOrderNo : Int
  deleteMode : Int
  prodCode : Bytes
  deriving DecidableEq, Repr

structure GetHisOrderReq where
  accessInfo : AccessInfo
  userId : Int
  accNo : Bytes
  startIndex : Int
  batchNum : Int
  deriving DecidableEq, Repr

structure GetFuturesQuoteFeeInfoReq where
  quoteId : Bytes
  accessInfo : AccessInfo
  userId : Int
  accNo : Bytes
  deriving DecidableEq, Repr

structure AccInfo where
  nav : Number
  buyingPower : Number
  iMargin : Number
  mMargin : Number
  todayProfitFlag : Int
  todayProfit : Bytes
  deriving DecidableEq, Repr

structure AccountStatus where
  accountStatus : Int
  deriving DecidableEq, Repr

structure ActiveOrder where
  intOrderNo : Int
  prodCode : Bytes
  buySell : UInt8
  validTime : Int
  price : Number
  qty : Number
  currentPrice : Number
  deriving DecidableEq, Repr

structure ActiveOrders where
  activeOrders : List ActiveOrder
  hasMore : Bool
  deriving DecidableEq, Repr

structure Position where
  prodCode : Bytes
  longShort : UInt8
  qty : Number
  longQty : Number
  shortQty : Number
  depTotalAmt : Number
  longTotalAmt : Number
  shortTotalAmt : Number
  marketPrice : Number
  pl : Number
  deriving DecidableEq, Repr

structure Positions where
  positionList : List Position
  hasMore : Bool
  deriving DecidableEq, Repr

structure OrderInfo where
  intOrderNo : Int
  buySell : UInt8
  status : OrderStatus
  validTime : Int
  totalQty : Number
  tradedQty : Number
  entrustPrice : Number
  price : Number
  timeStamp : Int
  fees : Number
  profit : Number
  deposit : Number
  deriving DecidableEq, Repr

structure OrderByNo where
  orderInfo : Option OrderInfo
  deriving DecidableEq, Repr

structure FundInOut where
  description : Int
  money : Bytes
  createTime : Int
  deriving DecidableEq, Repr

structure FundInOutRecords where
  fundInOutList : List FundInOut
  hasMore : Bool
  deriving DecidableEq, Repr

structure HisOrder where
  intOrderNo : Int
  prodCode : Bytes
  buySell : UInt8
  status : OrderStatus
  validTime : Int
  deriving DecidableEq, Repr

structure HisOrders where
  orders : List HisOrder
  hasMore : Bool
  deriving DecidableEq, Repr

structure QuoteFeeInfo where
  tradeCost : Number
  exchangeCost : Number
  securitiesCost : Number
  iMargin : Number
  deriving DecidableEq, Repr

structure Response (Body : Type) where
  errNo : Errno
  body : Body
  deriving DecidableEq, Repr

inductive TradeCall where
  | getAccInfo (req : GetAccInfoReq)
  | addOrder (req : AddOrderReq)
  | getOrderByNo (req : GetOrderByNoReq)
  | getActiveOrder (req : GetActiveOrderReq)
  | getPosition (req : GetPositionReq)
  | deleteOrder (req : DeleteOrderReq)
  | getUserAccountStatus (req : GetUserAccountStatusReq)
  | getHisOrder (req : GetHisOrderReq)
  | getFundInOutRecord (req : GetFundInOutRecordReq)
  | getFuturesQuoteFeeInfo (req : GetFuturesQuoteFeeInfoReq)
  deriving DecidableEq, Repr

namespace TradeCall

abbrev Body : TradeCall → Type
  | getAccInfo _ => AccInfo
  | addOrder _ => Unit
  | getOrderByNo _ => OrderByNo
  | getActiveOrder _ => ActiveOrders
  | getPosition _ => Positions
  | deleteOrder _ => Unit
  | getUserAccountStatus _ => AccountStatus
  | getHisOrder _ => HisOrders
  | getFundInOutRecord _ => FundInOutRecords
  | getFuturesQuoteFeeInfo _ => QuoteFeeInfo

def userId : TradeCall → Int
  | getAccInfo req => req.userId
  | addOrder req => req.userId
  | getOrderByNo req => req.userId
  | getActiveOrder req => req.userId
  | getPosition req => req.userId
  | deleteOrder req => req.userId
  | getUserAccountStatus req => req.userId
  | getHisOrder req => req.userId
  | getFundInOutRecord req => req.userId
  | getFuturesQuoteFeeInfo req => req.userId

def accessInfo : TradeCall → AccessInfo
  | getAccInfo req => req.accessInfo
  | addOrder req => req.accessInfo
  | getOrderByNo req => req.accessInfo
  | getActiveOrder req => req.accessInfo
  | getPosition req => req.accessInfo
  | deleteOrder req => req.accessInfo
  | getUserAccountStatus req => req.accessInfo
  | getHisOrder req => req.accessInfo
  | getFundInOutRecord req => req.accessInfo
  | getFuturesQuoteFeeInfo req => req.accessInfo

end TradeCall

inductive Service where
  | authen | spTradeInfo
  deriving DecidableEq, Repr

/-- `AuthenServerWrapper` and `SPTradeInfoWrapper`. A transport is known by its number
among those the wrapper has made, and a client by that of its transport. -/
structure Wrapper where
  mIsInited : Bool
  mTransport : Option Nat := none
  mClient : Option Nat := none
  made : Nat := 0
  deriving DecidableEq, Repr

/-- A shared pointer to a wrapper, with the wrapper while it is held. -/
structure Client where
  address : Nat
  wrapper : Wrapper
  deriving DecidableEq, Repr

/-- One `curl_easy_perform`: what the write callback got, and the result code. -/
structure Transfer where
  chunks : List Bytes
  code : Nat
  deriving DecidableEq, Repr

inductive Query where
  | systemClock
  | getClient (service : Service)
  | newClient (service : Service)
  | openTransport (service : Service) (transport : Nat)
  | validateSession (client : Option Nat) (session : SessionInfo)
  | tradeCall (client : Option Nat) (call : TradeCall)
  | freeClient (service : Service) (client : Client) (usable : Bool)
  | curlInit
  | curlPerform (url : Bytes)
  | curlResponseCode
  deriving DecidableEq, Repr

/-- The clock in nanoseconds; the client that a pool had; the address of a new one;
whether `open` returned; what a call returned, unless it threw. -/
abbrev Query.Answer : Query → Type
  | systemClock => Int
  | getClient _ => Option Client
  | newClient _ => Nat
  | openTransport _ _ => Bool
  | validateSession _ _ => Option Errno
  | tradeCall _ call => Option (Response call.Body)
  | freeClient _ _ _ => Unit
  | curlInit => Bool
  | curlPerform _ => Transfer
  | curlResponseCode => Int

abbrev Prog := Program Query Query.Answer
abbrev Step := Event Query Query.Answer
abbrev Trace := List Step

def ask (query : Query) : Prog query.Answer := Program.call query

end FuturesCellProxy.Rpc

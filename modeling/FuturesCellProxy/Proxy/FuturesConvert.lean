import FuturesCellProxy.Config
import FuturesCellProxy.Platform
import FuturesCellProxy.Proxy.Messages

/-! From a response of the trading service, or of the search server, to a return message. -/
namespace FuturesCellProxy.Proxy
open Rpc

def utf8 (text : String) : Bytes := text.toUTF8.data.toList

def FututesOrderInfo.fillLableValue (info : FututesOrderInfo) (lable : String) (value : Bytes) :
    FututesOrderInfo :=
  {info with atts := info.atts ++ [⟨utf8 lable,value⟩]}

/-- The name of the buyer's side, `'B'`. -/
def buySide : UInt8 := 66

def tradeCmd (side : UInt8) : Int := if side = buySide then 1 else 2

namespace FuturesConvert
variable (platform : Platform)

/-- `snprintf(buffer, 128, "%.2f", value)`; the number of digits is not read. -/
def doubleToString (value : Number) (_digits : Int) : Bytes := (platform.fixed2 value).take 127

/-- `none` is an exception of the JSON library. -/
def toProtoSymbolByName (root : Json) (resp : Symbols) : Option Symbols :=
  (List.range root.size).foldlM (fun resp i => do
    let symbol ← (← (← root.index i).member (ascii "futureId")).asString
    let name ← (← (← root.index i).member (ascii "futureName")).asString
    return {resp with symbols := resp.symbols ++ [⟨some symbol,some name⟩]}) resp

def toProtoMyFuturesAsset (accInfo : AccInfo) (resp : MyFuturesAssets) : MyFuturesAssets :=
  {resp with
    totalNetWorth := some (doubleToString platform accInfo.nav 2)
    realBuyPwr := some (doubleToString platform accInfo.buyingPower 2)
    basicDeposit := some (doubleToString platform accInfo.iMargin 2)
    preDeposit := some (doubleToString platform accInfo.mMargin 2)
    profitToday := some (if accInfo.todayProfitFlag = 1 then accInfo.todayProfit else ascii "--")}

def orderStatus : OrderStatus → Bytes
  | .ordstatTraded => utf8 "已成交"
  | .ordstatParttrdWrk => utf8 "部分已成交"
  | .other _ => utf8 "未成交"

def sideAndState (side : UInt8) (status : OrderStatus) (info : FututesOrderInfo) : FututesOrderInfo :=
  if side = buySide then {info with tradeCmd := some 1,state := some (orderStatus status)}
  else {info with tradeCmd := some 2}

def toProtoOrderDetail (resp : OrderByNo) (detail : OrderDetail) : OrderDetail :=
  match resp.orderInfo with
  | none => detail
  | some order =>
    let info := detail.orderDetail.getD {}
    let info := {info with orderId := some order.intOrderNo}
    let info := {sideAndState order.buySell order.status info with tradeTime := some order.validTime}
    let info := info.fillLableValue "委托数量" (platform.fixed order.totalQty)
    let info := info.fillLableValue "成交数量" (platform.fixed order.tradedQty)
    let info := info.fillLableValue "委托价格" (platform.fixed order.entrustPrice)
    let info := info.fillLableValue "成交价格" (platform.fixed order.price)
    let info := info.fillLableValue "委托时间" (decimalInt order.timeStamp)
    let info := info.fillLableValue "成交时间" (decimalInt order.validTime)
    let info := info.fillLableValue "佣金以及市场费用" (platform.fixed order.fees)
    if order.buySell = buySide then
      let info := info.fillLableValue "持仓盈亏" (platform.fixed order.profit)
      {detail with orderDetail := some (info.fillLableValue "保证金" (platform.fixed order.deposit))}
    else {detail with orderDetail := some (info.fillLableValue "卖出盈亏" (platform.fixed order.profit))}

def activeOrder (item : ActiveOrder) : FututesOrderInfo :=
  let info : FututesOrderInfo := {orderId := some item.intOrderNo,symbolItem := some {symbol := some item.prodCode}}
  let info := {info with tradeCmd := some (tradeCmd item.buySell),tradeTime := some item.validTime}
  let info := info.fillLableValue "委托价" (platform.fixed item.price)
  let info := info.fillLableValue "手数" (platform.fixed item.qty)
  info.fillLableValue "现价" (platform.fixed item.currentPrice)

def toProtoActiveOrders (response : ActiveOrders) (resp : Orders) : Orders :=
  {resp with
    orders := resp.orders ++ response.activeOrders.map (activeOrder platform)
    hasMore := some response.hasMore}

/-- The bits of `0.00001` and of `-0.00001`. -/
def tiny : Number := 0x3ee4f8b588e368f1
def minusTiny : Number := 0xbee4f8b588e368f1

def position (item : Position) : FututesOrderInfo :=
  let net := platform.sub (platform.add item.qty item.longQty) item.shortQty
  let amount := platform.sub (platform.add item.depTotalAmt item.longTotalAmt) item.shortTotalAmt
  let avgPrice := if platform.less tiny net || platform.less net minusTiny then platform.div amount net else 0
  let info : FututesOrderInfo := {orderId := some 0,symbolItem := some {symbol := some item.prodCode}}
  let info := {info with tradeCmd := some (tradeCmd item.longShort),tradeTime := some 0}
  let info := info.fillLableValue "平均价" (doubleToString platform avgPrice 1)
  let info := info.fillLableValue "净仓" (doubleToString platform net 1)
  let info := info.fillLableValue "市价" (doubleToString platform item.marketPrice 1)
  info.fillLableValue "盈亏" (doubleToString platform item.pl 1)

def toProtoPosition (response : Positions) (resp : Orders) : Orders :=
  {resp with
    orders := resp.orders ++ response.positionList.map (position platform)
    hasMore := some response.hasMore}

def historyOrder (item : HisOrder) : FututesOrderInfo :=
  let info : FututesOrderInfo := {orderId := some item.intOrderNo,symbolItem := some {symbol := some item.prodCode}}
  {sideAndState item.buySell item.status info with tradeTime := some item.validTime}

def toProtoHistoryOrders (response : HisOrders) (resp : Orders) : Orders :=
  {resp with orders := resp.orders ++ response.orders.map historyOrder}

def toProtoFuturesAccountConfig (flags : Flags) (req : QueryFuturesAcconutConfigRequest) (resp : AccountConfig) :
    AccountConfig :=
  let fundIn : FuturesSubAccountConfigInfoList :=
    ⟨some (utf8 "入金"),some flags.futuresFundInUrl,some flags.fundInIconUrl⟩
  let fundOut : FuturesSubAccountConfigInfoList :=
    ⟨some (utf8 "出金"),some flags.futuresFundOutUrl,some flags.fundOutIconUrl⟩
  let infos :=
    if req.type = 0 then
      [⟨some (utf8 "买入"),some (ascii "formaxsecurity://futuresTrade"),some flags.buyIconUrl⟩,
        ⟨some (utf8 "卖出"),some (ascii "formaxsecurity://futuresTrade"),some flags.sellIconUrl⟩,fundIn,fundOut]
    -- what is meant for the second entry is set on the first one, over its own, and the second stays empty
    else [fundOut,{},⟨some (utf8 "重置期货交易密码"),some (ascii "www.baidu.com"),some (ascii "TODO")⟩]
  {resp with configInfoPlateList := resp.configInfoPlateList ++ [⟨infos⟩]}

def fundRecord (item : FundInOut) : TransactionRecord :=
  ⟨some (if item.description = 1 then utf8 "出金" else utf8 "入金"),some item.money,some item.createTime⟩

def toProtoFundRecord (response : FundInOutRecords) (resp : TransactionRecords) : TransactionRecords :=
  {resp with
    records := resp.records ++ response.fundInOutList.map fundRecord
    hasMore := some response.hasMore}

def commission (info : QuoteFeeInfo) : Number :=
  platform.add (platform.add info.tradeCost info.exchangeCost) info.securitiesCost

def toProtoQuoteFeeInfo (info : QuoteFeeInfo) (resp : TradeConfirmation) : TradeConfirmation :=
  {resp with
    commission := some (platform.fixed (commission platform info))
    securityDeposit := some (platform.fixed info.iMargin)}

/-- The bits of `1.0`. -/
def one : Number := 0x3ff0000000000000

def toProtoQuerySymbolTradeInfo (info : QuoteFeeInfo) (resp : SymbolTradeInfo) : SymbolTradeInfo :=
  let symbolInfo := resp.symbolInfo.getD {}
  let symbolInfo := {symbolInfo with lotsStep := some one,priceDigits := some 4}
  let symbolInfo := {symbolInfo with marginPeerLot := some info.iMargin}
  {resp with symbolInfo := some {symbolInfo with tradeFee := some (commission platform info)}}

end FuturesConvert

end FuturesCellProxy.Proxy

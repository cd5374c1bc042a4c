import FuturesCellProxy.Proxy.FuturesConvert
import Mathlib.Data.List.Forall2

/-! How orders are presented: every one has its entry, but only those of the buyer's side show how
far they have been executed. -/
namespace FuturesCellProxy.Proxy
open Rpc FuturesConvert

/-- The entry of an order carries its number, its product and its time. -/
def Entry (item : HisOrder) (info : FututesOrderInfo) : Prop :=
  info.orderId = some item.intOrderNo ∧ info.symbolItem.bind FuturesSymbolItem.symbol = some item.prodCode ∧
    info.tradeTime = some item.validTime

section
variable (side : UInt8) (status : OrderStatus) (info : FututesOrderInfo)

theorem sideAndState_state :
    (sideAndState side status info).state = if side = buySide then some (orderStatus status) else info.state := by
  unfold sideAndState
  split <;> rfl

theorem sideAndState_orderId : (sideAndState side status info).orderId = info.orderId := by
  unfold sideAndState
  split <;> rfl

theorem sideAndState_symbolItem : (sideAndState side status info).symbolItem = info.symbolItem := by
  unfold sideAndState
  split <;> rfl

end

theorem historyOrder_entry (item : HisOrder) : Entry item (historyOrder item) := by
  refine ⟨?_,?_,rfl⟩
  · exact sideAndState_orderId _ _ _
  · change (sideAndState _ _ _).symbolItem.bind _ = _
    rw [sideAndState_symbolItem]
    rfl

theorem historyOrder_state (item : HisOrder) :
    (historyOrder item).state = if item.buySell = buySide then some (orderStatus item.status) else none :=
  sideAndState_state _ _ _

@[simp] theorem fillLableValue_state (info : FututesOrderInfo) (lable : String) (value : Bytes) :
    (info.fillLableValue lable value).state = info.state := rfl

theorem orderDetail_state (platform : Platform) (order : OrderInfo) :
    (toProtoOrderDetail platform ⟨some order⟩ {}).orderDetail.bind FututesOrderInfo.state =
      if order.buySell = buySide then some (orderStatus order.status) else none := by
  rw [toProtoOrderDetail]
  by_cases buys : order.buySell = buySide
  · simp only [if_pos buys,Option.bind_some,fillLableValue_state,sideAndState_state]
  · simp only [if_neg buys,Option.bind_some,fillLableValue_state,sideAndState_state]
    rfl

theorem toProtoHistoryOrders_entries (response : HisOrders) (resp : Orders) :
    ∃ entries, (toProtoHistoryOrders response resp).orders = resp.orders ++ entries ∧
      List.Forall₂ Entry response.orders entries := by
  refine ⟨response.orders.map historyOrder,rfl,?_⟩
  rw [List.forall₂_map_right_iff,List.forall₂_same]
  exact fun item _ => historyOrder_entry item

/-- Both converters present a state, and it is this function of the status. -/
def Presents (shown : OrderStatus → Bytes) (platform : Platform) (response : HisOrders) (resp : Orders)
    (order : OrderInfo) : Prop :=
  (∃ entries, (toProtoHistoryOrders response resp).orders = resp.orders ++ entries ∧
    List.Forall₂ (fun item info => Entry item info ∧ info.state = some (shown item.status)) response.orders entries) ∧
  (toProtoOrderDetail platform ⟨some order⟩ {}).orderDetail.bind FututesOrderInfo.state = some (shown order.status)

section
variable {platform : Platform} {response : HisOrders} {resp : Orders} {order : OrderInfo}

theorem buys_of_presents {shown : OrderStatus → Bytes} (presents : Presents shown platform response resp order) :
    (∀ item ∈ response.orders, item.buySell = buySide) ∧ order.buySell = buySide := by
  obtain ⟨⟨entries,orders,presented⟩,detail⟩ := presents
  have same : response.orders.map historyOrder = entries := List.append_cancel_left orders
  rw [← same,List.forall₂_map_right_iff,List.forall₂_same] at presented
  constructor
  · intro item member
    by_contra sells
    have state := (presented item member).2
    rw [historyOrder_state,if_neg sells] at state
    cases state
  · by_contra sells
    rw [orderDetail_state,if_neg sells] at detail
    cases detail

theorem presents_of_buys (all : ∀ item ∈ response.orders, item.buySell = buySide) (buys : order.buySell = buySide) :
    Presents orderStatus platform response resp order := by
  refine ⟨⟨response.orders.map historyOrder,rfl,?_⟩,?_⟩
  · rw [List.forall₂_map_right_iff,List.forall₂_same]
    intro item member
    refine ⟨historyOrder_entry item,?_⟩
    rw [historyOrder_state,if_pos (all item member)]
  · rw [orderDetail_state,if_pos buys]

end

/-- Only where all orders are on the buyer's side is there a function of the status that gives the
state; it is then always the same one. -/
theorem presents_iff (platform : Platform) (response : HisOrders) (resp : Orders) (order : OrderInfo) :
    (∃ entries, (toProtoHistoryOrders response resp).orders = resp.orders ++ entries ∧
      List.Forall₂ Entry response.orders entries) ∧
    ((∃ shown, Presents shown platform response resp order) ↔
      (∀ item ∈ response.orders, item.buySell = buySide) ∧ order.buySell = buySide) ∧
    ((∃ shown, Presents shown platform response resp order) → Presents orderStatus platform response resp order) := by
  refine ⟨toProtoHistoryOrders_entries response resp,?_,?_⟩
  · constructor
    · rintro ⟨shown,presents⟩
      exact buys_of_presents presents
    · rintro ⟨all,buys⟩
      exact ⟨orderStatus,presents_of_buys all buys⟩
  · rintro ⟨shown,presents⟩
    obtain ⟨all,buys⟩ := buys_of_presents presents
    exact presents_of_buys all buys

/-- An order that has been executed, on the seller's side `'S'`. -/
def soldOrder : HisOrder where
  intOrderNo := 1001
  prodCode := ascii "HSI"
  buySell := 83
  status := .ordstatTraded
  validTime := 0

def soldDetail : OrderInfo where
  intOrderNo := 1001
  buySell := 83
  status := .ordstatTraded
  validTime := 0
  totalQty := 0
  tradedQty := 0
  entrustPrice := 0
  price := 0
  timeStamp := 0
  fees := 0
  profit := 0
  deposit := 0

theorem sold_order_stateless : ¬ ∃ shown, Presents shown .sample ⟨[soldOrder],false⟩ {} soldDetail := by
  rintro ⟨shown,_,detail⟩
  rw [orderDetail_state] at detail
  exact absurd detail (by simp [soldDetail,buySide])

end FuturesCellProxy.Proxy

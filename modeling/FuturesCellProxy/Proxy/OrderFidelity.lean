import FuturesCellProxy.Proxy.OrderSafety
import FuturesCellProxy.Proxy.MalformedBody

/-! Whether what is transmitted is what the client asked for: the order of a trade
request, and the number of the order that is to be cancelled. -/
namespace FuturesCellProxy.Proxy
open Foundation Rpc FuturesProxy

/-- The kind of order that the protocol says is in use. -/
def SupportedKind (req : FuturesTradeRequest) : Prop :=
  req.orderOptions = 0 ∧ req.condType = .condNone ∧ req.orderType = .ordLimit ∧ req.validType = .vldRestOfDay

structure Requested (req : FuturesTradeRequest) (order : AddOrderReq) : Prop where
  accNo : order.accNo = req.futuresId
  prodCode : order.prodCode = req.symbol
  buys : order.buySell = buySide ↔ req.type = 1
  sells : order.buySell = sellSide ↔ req.type = 2
  orderOptions : order.orderOptions = req.orderOptions
  condType : order.condType = req.condType
  orderType : order.orderType = req.orderType
  validType : order.validType = req.validType
  decInPrice : order.decInPrice = req.priceDigits

structure OrderFidelity (req : FuturesTradeRequest) (trace : Trace) : Prop where
  requested : ∀ call ∈ trace.filterMap called, ∀ order, call.request = .addOrder order → Requested req order
  refused : ¬ ((req.type = 1 ∨ req.type = 2) ∧ SupportedKind req) → ∀ event ∈ trace, ¬ transmits isAddOrder event

/-- The order that is built is the requested one only for this kind of request. -/
theorem requested_addOrderReq_iff (platform : Platform) (req : FuturesTradeRequest) (session : LoginSession)
    (accessInfo : AccessInfo) (clOrderId : Bytes) :
    Requested req (addOrderReq platform req session accessInfo clOrderId) ↔
      (req.type = 1 ∨ req.type = 2) ∧ SupportedKind req ∧ req.priceDigits = 4 := by
  constructor
  · intro requested
    refine ⟨?type,⟨requested.orderOptions.symm,requested.condType.symm,requested.orderType.symm,
      requested.validType.symm⟩,requested.decInPrice.symm⟩
    by_cases buys : req.type = 1
    · exact .inl buys
    · exact .inr (requested.sells.mp (if_neg buys))
  · rintro ⟨type,⟨orderOptions,condType,orderType,validType⟩,priceDigits⟩
    have sides : buySide ≠ sellSide := by decide
    refine ⟨rfl,rfl,?buys,?sells,orderOptions.symm,condType.symm,orderType.symm,validType.symm,priceDigits.symm⟩
    all_goals
      rcases type with buys | sells
      · simp [addOrderReq,buys,sides]
      · simp [addOrderReq,sells,sides.symm]

section
variable (flags : Flags) (platform : Platform)

theorem futuresTrade_called {req : FuturesTradeRequest} {trace : Trace} {ret : FuturesTradeReturn}
    (run : Run (futuresTrade flags platform req) trace ret) :
    trace.filterMap called = [] ∨
      (∃ present, req.session = some present ∧ ∃ accessInfo clOrderId, ∀ call ∈ trace.filterMap called,
        call.request = .addOrder (addOrderReq platform req present accessInfo clOrderId)) ∧
      signatureOf platform req = req.signature ∧ flags.mRetryTimes ≠ 0 ∧ flags.rpcCallTimes ≠ 0 := by
  rcases requireSession_run run with ⟨_,rfl,_⟩ | ⟨present,given,run⟩
  · exact .inl rfl
  split at run
  next =>
    obtain ⟨rfl,_⟩ := (Run.pure_iff _ _ _).mp run
    exact .inl rfl
  next signed =>
  rcases checkSession_called run with ⟨uncalled,_⟩ | ⟨tries,second,run,same⟩
  · exact .inl uncalled
  obtain ⟨accessInfo,_,rest,unique⟩ := (generateUniqueID_silent called_ignores _ _).bind_run run
  obtain ⟨clOrderId,calling,last,clock⟩ := (clockText_silent called_ignores).bind_run rest
  rw [same,unique,clock]
  by_cases idle : flags.rpcCallTimes = 0
  · obtain ⟨answer,attempted,_,_⟩ := callTradeInfo_run last
    have within := attempted.length_le
    rw [idle,Nat.le_zero,List.length_eq_zero_iff] at within
    exact .inl within
  · refine .inr ⟨⟨present,given,accessInfo,clOrderId,?_⟩,not_not.mp signed,tries,idle⟩
    exact callTradeInfo_shows (fun _ => rfl) _ _ last

theorem futuresTrade_orders {req : FuturesTradeRequest} {present : LoginSession} (given : req.session = some present)
    (signed : signatureOf platform req = req.signature) (tries : flags.mRetryTimes ≠ 0) (calls : flags.rpcCallTimes ≠ 0) :
    ∃ accessInfo clOrderId trace ret, Run (futuresTrade flags platform req) trace ret ∧
      ⟨.addOrder (addOrderReq platform req present accessInfo clOrderId),some ⟨.success,()⟩⟩ ∈ trace.filterMap called := by
  obtain ⟨first,accessInfo,unique⟩ := generateUniqueID_reaches accessName .cellProxy
  have clock : Run clockText _ (decimalInt 0) := Run.bind (ask_run .systemClock 0) (.ret _)
  obtain ⟨last,run,shown⟩ := callTradeInfo_reaches calls
    (.addOrder (addOrderReq platform req present accessInfo (decimalInt 0))) (fun _ body => body)
    .futuresTradeErr "TRADE ERROR" {body := ()} ⟨.success,()⟩
  have sends : Run (generateUniqueID accessName .cellProxy >>= fun accessInfo => clockText >>= fun clOrderId =>
      callTradeInfo (SPTradeInfoWrapper.addOrder flags (addOrderReq platform req present accessInfo clOrderId))
        (fun _ body => body) .futuresTradeErr "TRADE ERROR" {body := ()}) _ _ := Run.bind unique (Run.bind clock run)
  obtain ⟨trace,gated,same⟩ := checkSession_passes tries present {body := ()} sends
  have ordered : Run (futuresTrade flags platform req) trace (fillStatusInfo {body := ()} .success "SUCCESS") := by
    rw [futuresTrade,given]
    simp only [requireSession,signed,ne_eq,not_true_eq_false,if_false]
    exact gated
  refine ⟨accessInfo,decimalInt 0,trace,_,ordered,?_⟩
  rw [same,List.filterMap_append,List.filterMap_append,shown]
  simp

/-- What is transmitted is what was requested exactly for a supported order that is bought or
sold, with four digits, and when nothing can be transmitted at all. -/
theorem order_fidelity (req : FuturesTradeRequest) :
    (∀ trace ret, Run (futuresTrade flags platform req) trace ret → OrderFidelity req trace) ↔
      ((req.type = 1 ∨ req.type = 2) ∧ SupportedKind req ∧ req.priceDigits = 4) ∨ req.session = none ∨
        signatureOf platform req ≠ req.signature ∨ flags.mRetryTimes = 0 ∨ flags.rpcCallTimes = 0 := by
  constructor
  · intro faithful
    by_contra others
    simp only [not_or,not_not] at others
    obtain ⟨unsupported,given,signed,tries,calls⟩ := others
    obtain ⟨present,given⟩ := Option.ne_none_iff_exists'.mp given
    obtain ⟨accessInfo,clOrderId,trace,ret,run,shown⟩ := futuresTrade_orders flags platform given signed tries calls
    have requested := (faithful trace ret run).requested _ shown _ rfl
    exact unsupported ((requested_addOrderReq_iff _ _ _ _ _).mp requested)
  · intro condition trace ret run
    have outcome := futuresTrade_called flags platform run
    rcases condition with supported | stopped
    · refine ⟨?_,fun other => absurd ⟨supported.1,supported.2.1⟩ other⟩
      rcases outcome with uncalled | ⟨⟨present,_,accessInfo,clOrderId,each⟩,_⟩
      · simp [uncalled]
      · intro call member order asked
        have built := (each call member).symm.trans asked
        cases built
        exact (requested_addOrderReq_iff _ _ _ _ _).mpr supported
    · have uncalled : trace.filterMap called = [] := by
        rcases outcome with uncalled | ⟨⟨present,given,_⟩,signed,tries,calls⟩
        · exact uncalled
        · simp [given,signed,tries,calls] at stopped
      exact ⟨by simp [uncalled],fun _ => not_transmits_of_uncalled _ uncalled⟩

end

/-- A signed order at the market. -/
def marketTrade : FuturesTradeRequest := {sampleTrade with orderType := .ordMarket,priceDigits := 4}

theorem market_sent_as_limit :
    let run := (futuresTrade {} .sample marketTrade).play obliging []
    Run (futuresTrade {} .sample marketTrade) run.1 run.2 ∧ ¬ OrderFidelity marketTrade run.1 := by
  refine ⟨Run.play obliging _ [],fun faithful => ?_⟩
  have sent : ((futuresTrade {} .sample marketTrade).play obliging []).1.any (transmits isAddOrder) = true := by
    decide +kernel
  obtain ⟨event,member,transmitted⟩ := List.any_eq_true.mp sent
  have unsupported : ¬ SupportedKind marketTrade := fun kind => by cases kind.2.2.1
  exact faithful.refused (fun supported => unsupported supported.2) event member transmitted

/-- `text` is how the `int32` is written. -/
def Names (text : Bytes) (n : Int) : Prop := -(2^31) ≤ n ∧ n < 2^31 ∧ text = decimalInt n

structure NamedCancellation (req : CancelPendingOrderRequest) (trace : Trace) (ret : FututesCancelPendingOrderReturn) :
    Prop where
  named : ∀ call ∈ trace.filterMap called, ∀ order, call.request = .deleteOrder order →
    Names req.orderId order.intOrderNo
  refused : (∀ n, ¬ Names req.orderId n) → (∀ event ∈ trace, ¬ transmits isDeleteOrder event) ∧ Refuses ret

section
variable (flags : Flags) (platform : Platform)

def deleteOrderReq (req : CancelPendingOrderRequest) (session : LoginSession) (accessInfo : AccessInfo) :
    DeleteOrderReq :=
  ⟨accessInfo,session.uid,req.futuresId,platform.atoi req.orderId,1,req.symbol⟩

theorem cancelPendingOrder_called {req : CancelPendingOrderRequest} {trace : Trace}
    {ret : FututesCancelPendingOrderReturn} (run : Run (cancelPendingOrder flags platform req) trace ret) :
    trace.filterMap called = [] ∧ Refuses ret ∨
      (∃ present, req.session = some present ∧ ∃ accessInfo, ∀ call ∈ trace.filterMap called,
        call.request = .deleteOrder (deleteOrderReq platform req present accessInfo)) ∧
      flags.mRetryTimes ≠ 0 ∧ flags.rpcCallTimes ≠ 0 := by
  rcases requireSession_run run with ⟨_,rfl,rfl⟩ | ⟨present,given,run⟩
  · exact .inl ⟨rfl,fillStatusInfo_refuses _ (by decide) _⟩
  rcases gatedCall_run run with ⟨uncalled,rfl⟩ | ⟨tries,accessInfo,answer,attempted,rfl⟩
  · exact .inl ⟨uncalled,fillStatusInfo_refuses _ (by decide) _⟩
  by_cases idle : flags.rpcCallTimes = 0
  · obtain ⟨failures,shape,within⟩ := attempted
    cases answer with
    | none =>
      have failed : failures = 0 := by simpa [idle] using within
      exact .inl ⟨by simp [shape,failed],fillStatusInfo_refuses _ (by decide) _⟩
    | some answer => simp [idle] at within
  · refine .inr ⟨⟨present,given,accessInfo,fun call member => ?_⟩,tries,idle⟩
    obtain ⟨outcome,rfl⟩ := attempted.mem member
    rfl

theorem cancelPendingOrder_deletes {req : CancelPendingOrderRequest} {present : LoginSession}
    (given : req.session = some present) (tries : flags.mRetryTimes ≠ 0) (calls : flags.rpcCallTimes ≠ 0) :
    ∃ accessInfo trace ret, Run (cancelPendingOrder flags platform req) trace ret ∧
      trace.filterMap called = [⟨.deleteOrder (deleteOrderReq platform req present accessInfo),some ⟨.success,()⟩⟩] := by
  obtain ⟨accessInfo,trace,gated,shown⟩ := gatedCall_reaches tries calls present
    (fun accessInfo => .deleteOrder (deleteOrderReq platform req present accessInfo))
    (fun _ _ body => body) .futuresReturnErr "DELETE ERROR" {body := ()} (fun _ => ⟨.success,()⟩)
  have cancelled : Run (cancelPendingOrder flags platform req) trace (fillStatusInfo {body := ()} .success "SUCCESS") := by
    rw [cancelPendingOrder,given]
    exact gated
  exact ⟨accessInfo,trace,_,cancelled,shown⟩

/-- Only the named order is cancelled exactly when the text names an order, and when nothing
can be transmitted at all. -/
theorem cancellation_named (req : CancelPendingOrderRequest) :
    (∀ trace ret, Run (cancelPendingOrder flags platform req) trace ret → NamedCancellation req trace ret) ↔
      (∃ n, Names req.orderId n) ∨ req.session = none ∨ flags.mRetryTimes = 0 ∨ flags.rpcCallTimes = 0 := by
  constructor
  · intro faithful
    by_contra others
    simp only [not_or] at others
    obtain ⟨unnamed,given,tries,calls⟩ := others
    obtain ⟨present,given⟩ := Option.ne_none_iff_exists'.mp given
    obtain ⟨accessInfo,trace,ret,run,shown⟩ := cancelPendingOrder_deletes flags platform given tries calls
    exact unnamed ⟨_,(faithful trace ret run).named _ (shown ▸ List.mem_cons_self) _ rfl⟩
  · intro condition trace ret run
    have outcome := cancelPendingOrder_called flags platform run
    rcases condition with ⟨n,low,high,text⟩ | stopped
    · refine ⟨?_,fun unnamed => absurd ⟨low,high,text⟩ (unnamed n)⟩
      rcases outcome with ⟨uncalled,_⟩ | ⟨⟨present,_,accessInfo,each⟩,_⟩
      · simp [uncalled]
      · intro call member order asked
        have built := (each call member).symm.trans asked
        cases built
        have number : platform.atoi req.orderId = n := by rw [text,platform.atoi_decimalInt low high]
        change Names req.orderId (platform.atoi req.orderId)
        rw [number]
        exact ⟨low,high,text⟩
    · have idle : trace.filterMap called = [] ∧ Refuses ret := by
        rcases outcome with idle | ⟨⟨present,given,_⟩,tries,calls⟩
        · exact idle
        · simp [given,tries,calls] at stopped
      exact ⟨by simp [idle.1],fun _ => ⟨not_transmits_of_uncalled _ idle.1,idle.2⟩⟩

end

/-- A cancellation that names no order. -/
def namelessCancellation : CancelPendingOrderRequest where
  futuresId := ascii "1001"
  orderId := ascii "12x"
  symbol := ascii "HSI"
  session := some ⟨ascii "token",7⟩

theorem nameless_cancelled :
    let run := (cancelPendingOrder {} .sample namelessCancellation).play obliging []
    Run (cancelPendingOrder {} .sample namelessCancellation) run.1 run.2 ∧
      ¬ NamedCancellation namelessCancellation run.1 run.2 := by
  refine ⟨Run.play obliging _ [],fun faithful => ?_⟩
  have sent : ((cancelPendingOrder {} .sample namelessCancellation).play obliging []).1.any
      (transmits isDeleteOrder) = true := by
    decide +kernel
  obtain ⟨event,member,transmitted⟩ := List.any_eq_true.mp sent
  have unnamed (n : Int) : ¬ Names (ascii "12x") n := by
    rintro ⟨_,_,text⟩
    have letter : 120 ∈ decimalInt n := text ▸ by decide
    unfold decimalInt at letter
    split at letter
    · rcases List.mem_cons.mp letter with minus | digit
      · exact absurd minus (by decide)
      · exact absurd (isDigit_of_mem_decimal digit) (by decide)
    · exact absurd (isDigit_of_mem_decimal letter) (by decide)
  exact (faithful.refused unnamed).1 event member transmitted

end FuturesCellProxy.Proxy

import FuturesCellProxy.Proxy.OperationRuns

/-! Orders and cancellations are sent within their bound, behind the checks, and reported
as successful exactly when the service has said so. -/
namespace FuturesCellProxy.Proxy
open Foundation Rpc FuturesProxy

def isAddOrder : TradeCall → Bool
  | .addOrder _ => true
  | _ => false

def isDeleteOrder : TradeCall → Bool
  | .deleteOrder _ => true
  | _ => false

def transmits (kind : TradeCall → Bool) (event : Step) : Bool :=
  (called event).any fun call => kind call.request

def returns (kind : TradeCall → Bool) (event : Step) : Bool :=
  (called event).any fun call => kind call.request && call.answer.isSome

def succeeds (kind : TradeCall → Bool) (event : Step) : Bool :=
  (called event).any fun call => kind call.request && call.answer.any fun answer => answer.errNo == .success

/-- What a run of an operation that sends orders obeys: calls only when allowed and behind
a successful validation of the session, at most so many, none after one that has
returned, and success exactly for a call that succeeded. -/
structure OrderLaw (kind : TradeCall → Bool) (allowed : Prop) (session : Option LoginSession) (bound : Nat)
    (trace : Trace) (ret : Return Unit) : Prop where
  allowed : ∀ event ∈ trace, transmits kind event → allowed
  validated : ∀ before event after, trace = before ++ event :: after → transmits kind event →
    ∃ present, session = some present ∧ ∃ earlier ∈ before, Validates present.sessionInfo earlier
  atMost : trace.countP (transmits kind) ≤ bound
  final : ∀ before event after, trace = before ++ event :: after → returns kind event →
    ∀ later ∈ after, ¬ transmits kind later
  success : ret.status = some FuturesError.success.code ↔ ∃ event ∈ trace, succeeds kind event

section
variable {kind : TradeCall → Bool} {allowed : Prop} {session : Option LoginSession} {bound : Nat} {trace : Trace}
  {ret : Return Unit}

theorem transmits_iff (event : Step) :
    transmits kind event ↔ ∃ call, called event = some call ∧ kind call.request := by
  simp [transmits,Option.any_eq_true]

theorem returns_iff (event : Step) :
    returns kind event ↔ ∃ call, called event = some call ∧ kind call.request ∧ call.answer.isSome := by
  simp [returns,Option.any_eq_true]

theorem succeeds_iff (event : Step) :
    succeeds kind event ↔ ∃ call, called event = some call ∧ kind call.request ∧
      ∃ answer, call.answer = some answer ∧ answer.errNo = .success := by
  simp [succeeds,Option.any_eq_true]

theorem not_transmits_of_uncalled (kind : TradeCall → Bool) (uncalled : trace.filterMap called = []) :
    ∀ event ∈ trace, ¬ transmits kind event := by
  intro event member transmitted
  obtain ⟨call,seen,_⟩ := (transmits_iff event).mp transmitted
  rw [List.filterMap_eq_nil_iff.mp uncalled event member] at seen
  cases seen

theorem countP_transmits_le (kind : TradeCall → Bool) (trace : Trace) :
    trace.countP (transmits kind) ≤ (trace.filterMap called).length := by
  induction trace with
  | nil => exact Nat.le_refl 0
  | cons event trace ih =>
    rw [List.countP_cons,List.filterMap_cons]
    cases seen : called event with
    | none => simpa [transmits,seen] using ih
    | some call =>
      rw [List.length_cons]
      split <;> omega

theorem OrderLaw.of_uncalled (uncalled : trace.filterMap called = [])
    (refused : ret.status ≠ some FuturesError.success.code) : OrderLaw kind allowed session bound trace ret := by
  have silent := not_transmits_of_uncalled kind uncalled
  refine ⟨fun event member sent => absurd sent (silent event member),?_,?_,?_,iff_of_false refused ?_⟩
  · rintro before event after rfl sent
    exact absurd sent (silent event (by simp))
  · rw [List.countP_eq_zero.mpr silent]
    exact Nat.zero_le bound
  · rintro before event after rfl _ later member
    exact silent later (by simp [member])
  · rintro ⟨event,member,succeeded⟩
    obtain ⟨call,seen,matching,_⟩ := (succeeds_iff event).mp succeeded
    exact silent event member ((transmits_iff event).mpr ⟨call,seen,matching⟩)

theorem tradeReply_status {Resp : Type} (convert : Resp → Unit → Unit) {error : FuturesError}
    (failure : error ≠ .success) (message : String) (resp : Return Unit) (answer : Option (Response Resp)) :
    (tradeReply convert error message resp answer).status = some FuturesError.success.code ↔
      ∃ response, answer = some response ∧ response.errNo = .success := by
  have code : error.code ≠ FuturesError.success.code :=
    fun same => failure ((FuturesError.code_eq_success_iff error).mp same)
  cases answer with
  | none => simp [tradeReply,fillStatusInfo,Return.status,FuturesError.code]
  | some response =>
    by_cases succeeded : response.errNo = .success
    · simp [tradeReply,fillStatusInfo,Return.status,succeeded]
    · simp [tradeReply,fillStatusInfo,Return.status,succeeded,code]

theorem OrderLaw.of_attempted {request : TradeCall} {convert : request.Body → Unit → Unit} {error : FuturesError}
    {message : String} {resp : Return Unit} {answer : Option (Response request.Body)} {present : LoginSession}
    (matching : kind request) (permitted : allowed)
    (attempted : Attempted (Called.mk request) bound answer (trace.filterMap called))
    (guarded : Guarded (Validates present.sessionInfo) (transmits kind ·) trace)
    (failure : error ≠ .success) :
    OrderLaw kind allowed (some present) bound trace (tradeReply convert error message resp answer) := by
  refine ⟨fun _ _ _ => permitted,?_,(countP_transmits_le kind trace).trans attempted.length_le,?_,?_⟩
  · intro before event after split sent
    exact ⟨present,rfl,guarded before event after split sent⟩
  · rintro before event after rfl returned
    obtain ⟨call,seen,_,normal⟩ := (returns_iff event).mp returned
    have shown : call ∈ (before ++ event :: after).filterMap called := List.mem_filterMap.mpr ⟨event,by simp,seen⟩
    obtain ⟨outcome,rfl⟩ := attempted.mem shown
    change outcome.isSome at normal
    obtain ⟨value,rfl⟩ := Option.isSome_iff_exists.mp normal
    apply not_transmits_of_uncalled
    have split : (before ++ event :: after).filterMap called =
        before.filterMap called ++ ⟨request,some value⟩ :: after.filterMap called := by
      rw [List.filterMap_append,List.filterMap_cons,seen]
    exact attempted.last (by simp) split
  · rw [tradeReply_status convert failure]
    constructor
    · rintro ⟨response,rfl,succeeded⟩
      obtain ⟨failures,shape,_⟩ := attempted.success
      have shown : ⟨request,some response⟩ ∈ trace.filterMap called := by simp [shape]
      obtain ⟨event,member,seen⟩ := List.mem_filterMap.mp shown
      exact ⟨event,member,(succeeds_iff event).mpr ⟨_,seen,matching,response,rfl,succeeded⟩⟩
    · rintro ⟨event,member,succeeded⟩
      obtain ⟨call,seen,_,response,normal,code⟩ := (succeeds_iff event).mp succeeded
      obtain ⟨failures,shape,_⟩ := attempted
      have shown : call ∈ trace.filterMap called := List.mem_filterMap.mpr ⟨event,member,seen⟩
      rw [shape] at shown
      rcases List.mem_append.mp shown with failed | last
      · obtain rfl := List.eq_of_mem_replicate failed
        cases normal
      · obtain ⟨value,given,rfl⟩ := List.mem_map.mp last
        cases normal
        exact ⟨value,by simpa using given,code⟩

end

section
variable (flags : Flags) (platform : Platform)

theorem OrderLaw.of_checkSession {kind : TradeCall → Bool} {allowed : Prop} {present : LoginSession}
    {operation : Prog (Return Unit)} {trace : Trace} {ret : Return Unit} (permitted : allowed)
    (error : FuturesError) (failure : error ≠ .success) (message : String)
    (calls : ∀ trace ret, Run operation trace ret →
      ∃ (request : TradeCall) (convert : request.Body → Unit → Unit) (answer : Option (Response request.Body)),
        kind request ∧ Attempted (Called.mk request) flags.rpcCallTimes answer (trace.filterMap called) ∧
        ret = tradeReply convert error message {body := ()} answer)
    (run : Run (checkSession flags present {body := ()} operation) trace ret) :
    OrderLaw kind allowed (some present) flags.rpcCallTimes trace ret := by
  obtain ⟨answer,first,second,rfl,validation,uncalled,outcome⟩ := checkSession_run run
  rcases outcome with ⟨_,rfl,rfl⟩ | ⟨rfl,run⟩
  · apply OrderLaw.of_uncalled
    · rw [List.append_nil,uncalled]
    · decide
  obtain ⟨request,convert,answer,matching,attempted,rfl⟩ := calls second ret run
  apply OrderLaw.of_attempted matching permitted _ _ failure
  · rw [List.filterMap_append,uncalled,List.nil_append]
    exact attempted
  · exact Guarded.append_of_guard (not_transmits_of_uncalled kind uncalled) (validates_of_attempted validation)

theorem futuresTrade_law {req : FuturesTradeRequest} {trace : Trace} {ret : FuturesTradeReturn}
    (run : Run (futuresTrade flags platform req) trace ret) :
    OrderLaw isAddOrder (req.signature = signatureOf platform req) req.session flags.rpcCallTimes trace ret := by
  rcases requireSession_run run with ⟨absent,rfl,rfl⟩ | ⟨present,given,run⟩
  · exact .of_uncalled rfl (by decide)
  rw [given]
  split at run
  next =>
    obtain ⟨rfl,rfl⟩ := (Run.pure_iff _ _ _).mp run
    exact .of_uncalled rfl (by decide)
  next signed =>
    apply OrderLaw.of_checkSession flags (not_not.mp signed).symm .futuresTradeErr (by decide) "TRADE ERROR" _ run
    intro trace ret run
    obtain ⟨accessInfo,_,rest,unique⟩ := (generateUniqueID_silent called_ignores _ _).bind_run run
    obtain ⟨clOrderId,_,last,clock⟩ := (clockText_silent called_ignores).bind_run rest
    obtain ⟨answer,attempted,_,reply⟩ := callTradeInfo_run last
    refine ⟨_,_,answer,rfl,?_,reply⟩
    rwa [unique,clock]

theorem cancelPendingOrder_law {req : CancelPendingOrderRequest} {trace : Trace}
    {ret : FututesCancelPendingOrderReturn} (run : Run (cancelPendingOrder flags platform req) trace ret) :
    OrderLaw isDeleteOrder True req.session flags.rpcCallTimes trace ret := by
  rcases requireSession_run run with ⟨absent,rfl,rfl⟩ | ⟨present,given,run⟩
  · exact .of_uncalled rfl (by decide)
  rw [given]
  apply OrderLaw.of_checkSession flags trivial .futuresReturnErr (by decide) "DELETE ERROR" _ run
  intro trace ret run
  obtain ⟨accessInfo,answer,attempted,_,reply⟩ := uniqueCall_run run
  exact ⟨_,_,answer,rfl,attempted,reply⟩

/-- Every run of the two operations that send orders obeys the law. -/
theorem order_safety :
    (∀ req trace ret, Run (futuresTrade flags platform req) trace ret →
      OrderLaw isAddOrder (req.signature = signatureOf platform req) req.session flags.rpcCallTimes trace ret) ∧
    (∀ req trace ret, Run (cancelPendingOrder flags platform req) trace ret →
      OrderLaw isDeleteOrder True req.session flags.rpcCallTimes trace ret) :=
  ⟨fun _ _ _ run => futuresTrade_law flags platform run,fun _ _ _ run => cancelPendingOrder_law flags platform run⟩

end

theorem order_safety_sample :
    let run := (futuresTrade {} .sample sampleTrade).play obliging []
    run.1.countP (transmits isAddOrder) = 1 ∧
    OrderLaw isAddOrder (sampleTrade.signature = signatureOf .sample sampleTrade) sampleTrade.session 1 run.1 run.2 :=
  ⟨by decide +kernel,(order_safety {} .sample).1 sampleTrade _ _ (Run.play obliging _ [])⟩

end FuturesCellProxy.Proxy

import FuturesCellProxy.Rpc.Pool

/-! The retry loops of the wrappers: on which client a call is made, when the loop ends,
and the state it leaves. -/
namespace FuturesCellProxy.Rpc
open Foundation Program

def threw : Step → Bool
  | ⟨.openTransport _ _,opened⟩ => !opened
  | ⟨.tradeCall _ _,answer⟩ => answer.isNone
  | ⟨.validateSession _ _,answer⟩ => answer.isNone
  | _ => false

def calledOn : Step → Option (Option Nat)
  | ⟨.tradeCall client _,_⟩ => some client
  | ⟨.validateSession client _,_⟩ => some client
  | _ => none

def normal (step : Step) : Bool := (calledOn step).isSome && !threw step

/-- An attempt is over with the call, or when the connection has failed. -/
def tries (trace : Trace) : Nat := trace.countP fun step => (calledOn step).isSome || threw step

def Uses (transport : Nat) (step : Step) : Prop :=
  (∃ service, step.query = .openTransport service transport) ∨ calledOn step = some (some transport)

/-- The state between two calls of a method, after all that the wrapper has done. Transports
are numbered as they are made. -/
structure StateCondition (service : Service) (past : Trace) (wrapper : Wrapper) : Prop where
  counted : ∀ step ∈ past, ∀ transport, Uses transport step → transport < wrapper.made
  bound : wrapper.mIsInited = true → ∃ transport,
    wrapper.mTransport = some transport ∧ wrapper.mClient = some transport ∧
      ⟨.openTransport service transport,true⟩ ∈ past ∧
        ∀ step ∈ past, calledOn step = some (some transport) → threw step = false

/-- The client was there and nothing has thrown yet, or it was created after every exception. -/
inductive Fresh (service : Service) (past : Trace) (before : Wrapper) (earlier : Trace) : Option Nat → Prop
  | given (inited : before.mIsInited = true) (quiet : ∀ step ∈ earlier, threw step = false) :
      Fresh service past before earlier before.mClient
  | created (transport : Nat) (old recent : Trace)
      (split : earlier = old ++ ⟨.openTransport service transport,true⟩ :: recent)
      (unused : ∀ step ∈ past ++ old, ¬ Uses transport step) (quiet : ∀ step ∈ recent, threw step = false) :
      Fresh service past before earlier (some transport)

structure Disciplined (service : Service) (past : Trace) (before : Wrapper) (bound : Nat) (trace : Trace)
    (after : Wrapper) (returned : Bool) : Prop where
  bounded : tries trace ≤ bound
  fresh : ∀ earlier step later client, trace = earlier ++ step :: later → calledOn step = some client →
    Fresh service past before earlier client
  stops : ∀ earlier step later, trace = earlier ++ step :: later → normal step = true → later = []
  success : returned = true ↔ ∃ step ∈ trace, normal step = true
  condition : StateCondition service (past ++ trace) after
  uninited : returned = false → 0 < bound ∨ before.mIsInited = false → after.mIsInited = false

section
variable {service : Service} {past : Trace} {wrapper after : Wrapper}

theorem disciplined_exhausted (condition : StateCondition service past wrapper) :
    Disciplined service past wrapper 0 [] wrapper false := by
  constructor
  case bounded => exact Nat.le_refl 0
  case fresh =>
    intro earlier step later client split
    exact absurd split (by simp)
  case stops =>
    intro earlier step later split
    exact absurd split (by simp)
  case success => simp
  case condition => rwa [List.append_nil]
  case uninited => exact fun _ unready => unready.resolve_left (Nat.lt_irrefl 0)

def Calls {α : Type} (rpc : Option Nat → Prog (Option α)) : Prop :=
  ∀ client trace answer, Run (rpc client) trace answer →
    ∃ step, trace = [step] ∧ calledOn step = some client ∧ threw step = answer.isNone

theorem attempt_cases {α : Type} {rpc : Option Nat → Prog (Option α)} (calls : Calls rpc) {trace : Trace}
    {answer : Option α}
    (run : Run (Wrapper.attempt (ClientPool.initClient service) rpc wrapper) trace (after,answer)) :
    (wrapper.mIsInited = true ∧ ∃ step, trace = [step] ∧ calledOn step = some wrapper.mClient ∧
      threw step = answer.isNone ∧ after = {wrapper with mIsInited := answer.isSome}) ∨
    (wrapper.mIsInited = false ∧ trace = [⟨.openTransport service wrapper.made,false⟩] ∧ answer = none ∧
      after = (wrapper.opening service).settle service false) ∨
    (wrapper.mIsInited = false ∧ ∃ step, trace = [⟨.openTransport service wrapper.made,true⟩,step] ∧
      calledOn step = some (some wrapper.made) ∧ threw step = answer.isNone ∧
        after = {(wrapper.opening service).settle service true with mIsInited := answer.isSome}) := by
  obtain ⟨opening,⟨opened,ready⟩,calling,init,rest,rfl⟩ := (Run.bind_iff _ _ _ _).mp run
  -- with a client that is ready, the call decides
  have call (yes : ready = true) (inited : opened.mIsInited = true) : ∃ step, calling = [step] ∧
      calledOn step = some opened.mClient ∧ threw step = answer.isNone ∧
        after = {opened with mIsInited := answer.isSome} := by
    subst yes
    obtain ⟨_,outcome,_,calling,last,rfl⟩ := (Run.bind_iff _ _ _ _).mp rest
    obtain ⟨step,rfl,on,outcome_threw⟩ := calls _ _ _ calling
    cases outcome <;>
    · obtain ⟨rfl,same⟩ := (Run.pure_iff _ _ _).mp last
      obtain ⟨rfl,rfl⟩ := Prod.mk.inj same
      exact ⟨step,rfl,on,outcome_threw,by simp [← inited]⟩
  rcases initClient_steps init with ⟨inited,rfl,same⟩ | ⟨uninited,ok,rfl,same⟩
  · obtain ⟨rfl,rfl⟩ := Prod.mk.inj same
    exact .inl ⟨inited,call rfl inited⟩
  · obtain ⟨rfl,rfl⟩ := Prod.mk.inj same
    cases ready with
    | true =>
      obtain ⟨step,rfl,on,outcome,changed⟩ := call rfl rfl
      have client : ((wrapper.opening service).settle service true).mClient = some wrapper.made := by
        cases service <;> rfl
      exact .inr (.inr ⟨uninited,step,rfl,client ▸ on,outcome,changed⟩)
    | false =>
      obtain ⟨rfl,same⟩ := (Run.pure_iff _ _ _).mp rest
      obtain ⟨rfl,rfl⟩ := Prod.mk.inj same
      exact .inr (.inl ⟨uninited,rfl,rfl,rfl⟩)

theorem split_single {α : Type} {x y : α} {before behind : List α} (split : [x] = before ++ y :: behind) :
    before = [] ∧ y = x ∧ behind = [] := by
  cases before with
  | nil => simpa [eq_comm] using split
  | cons _ rest => simp at split

theorem split_pair {α : Type} {x x' y : α} {before behind : List α} (split : [x,x'] = before ++ y :: behind) :
    before = [] ∧ y = x ∨ before = [x] ∧ y = x' ∧ behind = [] := by
  cases before with
  | nil => simp_all
  | cons first rest =>
    obtain ⟨rfl,tail⟩ := List.cons.inj split
    obtain ⟨rfl,same⟩ := split_single tail
    exact .inr ⟨rfl,same⟩

theorem normal_open (service : Service) (transport : Nat) (ok : Bool) :
    normal ⟨.openTransport service transport,ok⟩ = false := rfl

theorem tries_opened (service : Service) (transport : Nat) (trace : Trace) :
    tries (⟨.openTransport service transport,true⟩ :: trace) = tries trace :=
  List.countP_cons_of_neg (by simp [calledOn,threw])

theorem normal_call {α : Type} {step : Step} {client : Option Nat} {answer : Option α}
    (on : calledOn step = some client) (outcome : threw step = answer.isNone) : normal step = answer.isSome := by
  rw [normal,on,outcome]
  cases answer <;> rfl

theorem Uses.call {step : Step} {client : Option Nat} {transport : Nat} (uses : Uses transport step)
    (on : calledOn step = some client) : client = some transport := by
  rcases uses with ⟨service,opening⟩ | on'
  · obtain ⟨query,answer⟩ := step
    obtain rfl : query = _ := opening
    exact absurd on nofun
  · exact Option.some.inj (on.symm.trans on')

theorem Uses.open {transport number : Nat} {ok : Bool}
    (uses : Uses transport ⟨.openTransport service number,ok⟩) : transport = number := by
  rcases uses with ⟨_,same⟩ | on
  · cases same
    rfl
  · exact absurd on nofun

namespace StateCondition
variable (condition : StateCondition service past wrapper)
include condition

theorem call {α : Type} {step : Step} {answer : Option α} (inited : wrapper.mIsInited = true)
    (on : calledOn step = some wrapper.mClient) (outcome : threw step = answer.isNone) :
    StateCondition service (past ++ [step]) {wrapper with mIsInited := answer.isSome} := by
  obtain ⟨transport,used,client,opened,quiet⟩ := condition.bound inited
  constructor
  case counted =>
    intro other member number uses
    rcases List.mem_append.mp member with earlier | last
    · exact condition.counted other earlier number uses
    · obtain rfl := List.mem_singleton.mp last
      have same : transport = number := Option.some.inj (client.symm.trans (uses.call on))
      exact same ▸ condition.counted _ opened transport (.inl ⟨service,rfl⟩)
  case bound =>
    intro normal
    refine ⟨transport,used,client,List.mem_append_left _ opened,fun other member on_transport => ?_⟩
    rcases List.mem_append.mp member with earlier | last
    · exact quiet other earlier on_transport
    · obtain rfl := List.mem_singleton.mp last
      rw [outcome]
      exact Option.isNone_eq_false_iff.mpr normal

theorem opening (uninited : wrapper.mIsInited = false) (ok : Bool) :
    StateCondition service (past ++ [⟨.openTransport service wrapper.made,ok⟩])
      ((wrapper.opening service).settle service ok) := by
  have made : ((wrapper.opening service).settle service ok).made = wrapper.made + 1 := by
    cases ok <;> cases service <;> rfl
  constructor
  case counted =>
    intro other member number uses
    rw [made]
    rcases List.mem_append.mp member with earlier | last
    · exact Nat.lt_succ_of_lt (condition.counted other earlier number uses)
    · obtain rfl := List.mem_singleton.mp last
      exact uses.open ▸ Nat.lt_succ_self _
  case bound =>
    intro inited
    cases ok with
    | false =>
      have unready : ((wrapper.opening service).settle service false).mIsInited = false := by
        cases service
        · exact uninited
        · rfl
      exact absurd inited (by simp [unready])
    | true =>
      have used : (wrapper.opening service).mTransport = some wrapper.made := by cases service <;> rfl
      refine ⟨wrapper.made,used,used,by simp,fun other member on => ?_⟩
      rcases List.mem_append.mp member with earlier | last
      · exact absurd (condition.counted other earlier _ (.inr on)) (Nat.lt_irrefl _)
      · obtain rfl := List.mem_singleton.mp last
        exact absurd on nofun

theorem disciplined_call {α : Type} {step : Step} {answer : Option α} (inited : wrapper.mIsInited = true)
    (on : calledOn step = some wrapper.mClient) (outcome : threw step = answer.isNone) :
    Disciplined service past wrapper 1 [step] {wrapper with mIsInited := answer.isSome} answer.isSome := by
  have called := normal_call on outcome
  constructor
  case bounded => exact List.countP_le_length
  case fresh =>
    intro earlier other later client split other_on
    obtain ⟨rfl,rfl,rfl⟩ := split_single split
    obtain rfl := Option.some.inj (on.symm.trans other_on)
    exact .given inited fun _ member => nomatch member
  case stops => exact fun _ _ _ split _ => (split_single split).2.2
  case success => simp [called]
  case condition => exact condition.call inited on outcome
  case uninited => exact fun failed _ => failed

theorem disciplined_refused (uninited : wrapper.mIsInited = false) :
    Disciplined service past wrapper 1 [⟨.openTransport service wrapper.made,false⟩]
      ((wrapper.opening service).settle service false) false := by
  constructor
  case bounded => exact List.countP_le_length
  case fresh =>
    intro earlier other later client split other_on
    obtain ⟨rfl,rfl,rfl⟩ := split_single split
    exact absurd other_on nofun
  case stops => exact fun _ _ _ split _ => (split_single split).2.2
  case success => simp [normal_open]
  case condition => exact condition.opening uninited false
  case uninited =>
    intro _ _
    cases service
    · exact uninited
    · rfl

theorem disciplined_opened {α : Type} {step : Step} {answer : Option α} (uninited : wrapper.mIsInited = false)
    (on : calledOn step = some (some wrapper.made)) (outcome : threw step = answer.isNone) :
    Disciplined service past wrapper 1 [⟨.openTransport service wrapper.made,true⟩,step]
      {(wrapper.opening service).settle service true with mIsInited := answer.isSome} answer.isSome := by
  have called := normal_call on outcome
  have opened := condition.opening uninited true
  have client : ((wrapper.opening service).settle service true).mClient = some wrapper.made := by
    cases service <;> rfl
  constructor
  case bounded =>
    rw [tries_opened]
    exact List.countP_le_length
  case fresh =>
    intro earlier other later number split other_on
    rcases split_pair split with ⟨rfl,rfl⟩ | ⟨rfl,rfl,rfl⟩
    · exact absurd other_on nofun
    · obtain rfl := Option.some.inj (on.symm.trans other_on)
      refine .created wrapper.made [] [] rfl (fun other member uses => ?_) fun _ member => nomatch member
      rw [List.append_nil] at member
      exact Nat.lt_irrefl _ (condition.counted other member _ uses)
  case stops =>
    intro earlier other later split normally
    rcases split_pair split with ⟨rfl,rfl⟩ | ⟨_,_,last⟩
    · cases normally
    · exact last
  case success => simp [called,normal_open]
  case condition =>
    have bound := opened.call rfl (client ▸ on) outcome
    rwa [List.append_assoc] at bound
  case uninited => exact fun failed _ => failed

end StateCondition

/-- An attempt is a loop of one turn. -/
theorem attempt_disciplined {α : Type} {rpc : Option Nat → Prog (Option α)} (calls : Calls rpc) {trace : Trace}
    {answer : Option α} (condition : StateCondition service past wrapper)
    (run : Run (Wrapper.attempt (ClientPool.initClient service) rpc wrapper) trace (after,answer)) :
    Disciplined service past wrapper 1 trace after answer.isSome := by
  rcases attempt_cases calls run with
    ⟨inited,step,rfl,on,outcome,rfl⟩ | ⟨uninited,rfl,rfl,rfl⟩ | ⟨uninited,step,rfl,on,outcome,rfl⟩
  · exact condition.disciplined_call inited on outcome
  · exact condition.disciplined_refused uninited
  · exact condition.disciplined_opened uninited on outcome

/-- An attempt that fails, and the rest of the loop on a client that must be created. -/
theorem Disciplined.failed {before middle : Wrapper} {bound : Nat} {first rest : Trace} {returned : Bool}
    (attempt : Disciplined service past before 1 first middle false)
    (loop : Disciplined service (past ++ first) middle bound rest after returned) :
    Disciplined service past before (bound+1) (first ++ rest) after returned := by
  have uninited : middle.mIsInited = false := attempt.uninited rfl (.inl Nat.one_pos)
  have abnormal : ¬ ∃ step ∈ first, normal step = true := fun found => absurd (attempt.success.mpr found) (by decide)
  constructor
  case bounded =>
    have one := attempt.bounded
    have more := loop.bounded
    unfold tries at one more ⊢
    rw [List.countP_append]
    omega
  case fresh =>
    intro earlier step later client split on
    rcases split_append split with ⟨tail,inside,_⟩ | ⟨turns,rfl,inside⟩
    · exact attempt.fresh _ _ _ _ inside on
    · cases loop.fresh _ _ _ _ inside on with
      | given inited _ => exact absurd inited (by simp [uninited])
      | created transport old recent same unused quiet =>
        refine .created transport (first ++ old) recent (by rw [same,List.append_assoc]) ?_ quiet
        rwa [← List.append_assoc]
  case stops =>
    intro earlier step later split normally
    rcases split_append split with ⟨tail,rfl,_⟩ | ⟨turns,_,inside⟩
    · exact absurd ⟨step,by simp,normally⟩ abnormal
    · exact loop.stops _ _ _ inside normally
  case success =>
    rw [loop.success]
    constructor
    · exact fun ⟨step,member,normally⟩ => ⟨step,List.mem_append_right _ member,normally⟩
    · rintro ⟨step,member,normally⟩
      rcases List.mem_append.mp member with early | late
      · exact absurd ⟨step,early,normally⟩ abnormal
      · exact ⟨step,late,normally⟩
  case condition =>
    have condition := loop.condition
    rwa [List.append_assoc] at condition
  case uninited => exact fun failed _ => loop.uninited failed (.inr uninited)

theorem Disciplined.weaken {before : Wrapper} {bound : Nat} {trace : Trace} {returned : Bool}
    (loop : Disciplined service past before 1 trace after returned) :
    Disciplined service past before (bound+1) trace after returned :=
  {loop with
    bounded := Nat.le_trans loop.bounded (Nat.le_add_left 1 bound)
    uninited := fun failed _ => loop.uninited failed (.inl Nat.one_pos)}

theorem retry_disciplined {α : Type} {rpc : Option Nat → Prog (Option α)} (calls : Calls rpc) {bound : Nat}
    {trace : Trace} {result : Wrapper × Option α}
    (condition : StateCondition service past wrapper)
    (run : Run (retry (Wrapper.attempt (ClientPool.initClient service) rpc) bound wrapper) trace result) :
    Disciplined service past wrapper bound trace result.1 result.2.isSome := by
  refine Run.retry_induction _ (fun bound wrapper trace result => ∀ past, StateCondition service past wrapper →
    Disciplined service past wrapper bound trace result.1 result.2.isSome) ?exhausted ?success ?failure _ _ _ _ run
    past condition
  case exhausted => exact fun _ _ condition => disciplined_exhausted condition
  case success =>
    intro bound wrapper trace after value run past condition
    exact (attempt_disciplined calls condition run).weaken
  case failure =>
    intro bound wrapper trace after rest result run loop past condition
    have attempt := attempt_disciplined calls condition run
    exact attempt.failed (loop _ attempt.condition)

end

theorem calls_trade (request : TradeCall) : Calls fun client => ask (.tradeCall client request) := by
  intro client trace answer calling
  exact ⟨_,(Run.call_iff _ _ _).mp calling,rfl,rfl⟩

theorem calls_validate (session : SessionInfo) : Calls fun client => ask (.validateSession client session) := by
  intro client trace answer calling
  exact ⟨_,(Run.call_iff _ _ _).mp calling,rfl,rfl⟩

namespace SPTradeInfoWrapper
variable (flags : Flags)

def method : (request : TradeCall) → Wrapper → Prog (Wrapper × Option (Response request.Body))
  | .getAccInfo req => getAccInfo flags req
  | .addOrder req => addOrder flags req
  | .getOrderByNo req => getOrderByNo flags req
  | .getActiveOrder req => getActiveOrder flags req
  | .getPosition req => getPosition flags req
  | .deleteOrder req => deleteOrder flags req
  | .getUserAccountStatus req => getUserAccountStatus flags req
  | .getHisOrder req => getHisOrder flags req
  | .getFundInOutRecord req => getFundInOutRecord flags req
  | .getFuturesQuoteFeeInfo req => getFuturesQuoteFeeInfo flags req

def retryTime : TradeCall → Nat
  | .addOrder _ => flags.rpcCallTimes
  | .deleteOrder _ => flags.rpcCallTimes
  | _ => flags.mRetryTimes

theorem method_eq (request : TradeCall) : method flags request = callWithRetry (retryTime flags request) request := by
  cases request <;> rfl

end SPTradeInfoWrapper

theorem newClient_condition (service : Service) : StateCondition service [] .unopened :=
  ⟨fun _ member => (nomatch member),fun inited => (nomatch inited)⟩

/-- Every method of the two wrappers keeps the state condition and its discipline. -/
theorem methods_disciplined (flags : Flags) (past : Trace) (wrapper : Wrapper) :
    (StateCondition .spTradeInfo past wrapper → ∀ request trace result,
      Run (SPTradeInfoWrapper.method flags request wrapper) trace result →
      Disciplined .spTradeInfo past wrapper (SPTradeInfoWrapper.retryTime flags request) trace result.1
        result.2.isSome) ∧
    (StateCondition .authen past wrapper → ∀ session trace result,
      Run (AuthenServerWrapper.validateSession flags session wrapper) trace result →
      Disciplined .authen past wrapper flags.mRetryTimes trace result.1 result.2.2) := by
  constructor
  · intro condition request trace result run
    rw [SPTradeInfoWrapper.method_eq] at run
    exact @retry_disciplined .spTradeInfo _ _ _ _ (calls_trade request) _ _ _ condition run
  · intro condition session trace result run
    obtain ⟨tries,⟨after,answer⟩,_,loop,last,rfl⟩ := (Run.bind_iff _ _ _ _).mp run
    obtain ⟨rfl,rfl⟩ := (Run.pure_iff _ _ _).mp last
    rw [List.append_nil]
    exact @retry_disciplined .authen _ _ _ _ (calls_validate session) _ _ _ condition loop

def sampleSession : SessionInfo := ⟨ascii "s",7⟩
def sampleStatus : Response AccountStatus := ⟨.success,⟨1⟩⟩
def sampleStatusReq : GetUserAccountStatusReq := ⟨⟨ascii "1",ascii "futures_cell_proxy",.cellProxy⟩,7⟩

def stubborn (service : Service) (failed passed : Step) : Trace :=
  [⟨.openTransport service 0,false⟩,⟨.openTransport service 1,true⟩,failed,⟨.openTransport service 2,true⟩,passed]

theorem stubborn_disciplined :
    Disciplined .spTradeInfo [] .unopened 3 (stubborn .spTradeInfo
      ⟨.tradeCall (some 1) (.getUserAccountStatus sampleStatusReq),none⟩
      ⟨.tradeCall (some 2) (.getUserAccountStatus sampleStatusReq),some sampleStatus⟩) ⟨true,some 2,some 2,3⟩ true ∧
    Disciplined .authen [] .unopened 3 (stubborn .authen ⟨.validateSession (some 1) sampleSession,none⟩
      ⟨.validateSession (some 2) sampleSession,some .success⟩) ⟨true,some 2,some 2,3⟩ true := by
  constructor
  · refine (methods_disciplined {} [] .unopened).1 (newClient_condition _) (.getUserAccountStatus sampleStatusReq) _
      (⟨true,some 2,some 2,3⟩,some sampleStatus) ?_
    refine @Run.ask Query Query.Answer _ (.openTransport .spTradeInfo 0) _ false _ _ ?_
    refine @Run.ask Query Query.Answer _ (.openTransport .spTradeInfo 1) _ true _ _ ?_
    refine @Run.ask Query Query.Answer _ (.tradeCall (some 1) (.getUserAccountStatus sampleStatusReq)) _ none _ _ ?_
    refine @Run.ask Query Query.Answer _ (.openTransport .spTradeInfo 2) _ true _ _ ?_
    refine @Run.ask Query Query.Answer _ (.tradeCall (some 2) (.getUserAccountStatus sampleStatusReq)) _
      (some sampleStatus) _ _ ?_
    exact .ret _
  · refine (methods_disciplined {} [] .unopened).2 (newClient_condition _) sampleSession _
      (⟨true,some 2,some 2,3⟩,.success,true) ?_
    refine @Run.ask Query Query.Answer _ (.openTransport .authen 0) _ false _ _ ?_
    refine @Run.ask Query Query.Answer _ (.openTransport .authen 1) _ true _ _ ?_
    refine @Run.ask Query Query.Answer _ (.validateSession (some 1) _) _ none _ _ ?_
    refine @Run.ask Query Query.Answer _ (.openTransport .authen 2) _ true _ _ ?_
    refine @Run.ask Query Query.Answer _ (.validateSession (some 2) _) _ (some .success) _ _ ?_
    exact .ret _

end FuturesCellProxy.Rpc

import FuturesCellProxy.Foundation.Protocol
import FuturesCellProxy.Rpc.Retry

/-! What one program does with the pools: it gets a client, or makes one while the pool is
shut, works on the client's wrapper as the pool's requests do, and gives the client back. -/
namespace FuturesCellProxy.Rpc
open Foundation

inductive Holding where
  | nothing
  | making (service : Service)
  | held (service : Service) (address : Nat) (stage : Stage) (wrapper : Wrapper)
  deriving DecidableEq, Repr

def Query.rpcService : Query → Option Service
  | validateSession _ _ => some .authen
  | tradeCall _ _ => some .spTradeInfo
  | _ => none

/-- The tests of `while (retry_time--)`, of which no event tells. -/
def Unseen (actions : List Action) : Prop := ∀ action ∈ actions, action = .attempt

/-- What an event is on the wrapper of the client that is held. -/
inductive Performs (service : Service) (before : Stage × Wrapper) : Step → List Action → Stage × Wrapper → Prop where
  | opens (unseen : List Action) (between after : Stage × Wrapper) (transport : Nat) (ok : Bool)
      (tests : Unseen unseen) (reaches : follow (useStep service) before unseen = some between)
      (wired : between.2.mTransport = some transport) (moved : useStep service between (.opened ok) = some after) :
      Performs service before ⟨.openTransport service transport,ok⟩ (unseen ++ [.opened ok]) after
  | calls (unseen : List Action) (between after : Stage × Wrapper) (step : Step)
      (tests : Unseen unseen) (reaches : follow (useStep service) before unseen = some between)
      (on : calledOn step = some between.2.mClient) (of : step.query.rpcService = some service)
      (moved : useStep service between (.called (normal step)) = some after) :
      Performs service before step (unseen ++ [.called (normal step)]) after

/-- No test comes in the constructor, and no step leads back to it. -/
theorem useStep_leaves {service : Service} {before after : Stage × Wrapper} {action : Action}
    (moved : useStep service before action = some after) : (∀ left, after.1 ≠ .constructing left) ∧
      ((∃ left, before.1 = .constructing left) → ∃ ok, action = .opened ok) := by
  unfold useStep at moved
  split at moved
  next => cases moved; simp
  next => split at moved <;> cases moved <;> simp
  next => cases moved; simp
  next => cases moved; simp
  next => cases moved; simp
  next => cases moved; simp
  next => cases moved

theorem Performs.reaches {service : Service} {before after : Stage × Wrapper} {step : Step} {actions : List Action}
    (performs : Performs service before step actions after) : follow (useStep service) before actions = some after := by
  cases performs with
  | opens unseen between after transport ok _ reaches _ moved =>
    exact (follow_append _ _ _ _).mpr ⟨between,reaches,(follow_cons _ _ _ _).mpr ⟨after,moved,rfl⟩⟩
  | calls unseen between after step _ reaches _ _ moved =>
    exact (follow_append _ _ _ _).mpr ⟨between,reaches,(follow_cons _ _ _ _).mpr ⟨after,moved,rfl⟩⟩

/-- Only the constructor's own `open` is an event of the constructor. -/
theorem Performs.leaves {service : Service} {before after : Stage × Wrapper} {step : Step} {actions : List Action}
    (performs : Performs service before step actions after) : (∀ left, after.1 ≠ .constructing left) ∧
      ((∃ left, before.1 = .constructing left) → ∃ transport ok, step = ⟨.openTransport service transport,ok⟩) := by
  have first {unseen : List Action} {between : Stage × Wrapper} (tests : Unseen unseen)
      (reaches : follow (useStep service) before unseen = some between) (constructing : ∃ left, before.1 = .constructing left) :
      between = before := by
    cases unseen with
    | nil => exact (Option.some.inj reaches).symm
    | cons action rest =>
      obtain ⟨middle,moved,_⟩ := (follow_cons _ _ _ _).mp reaches
      obtain ⟨ok,opened⟩ := (useStep_leaves moved).2 constructing
      cases (tests action List.mem_cons_self).symm.trans opened
  cases performs with
  | opens unseen between after transport ok _ _ _ moved =>
    exact ⟨(useStep_leaves moved).1,fun _ => ⟨transport,ok,rfl⟩⟩
  | calls unseen between after step tests reaches _ _ moved =>
    refine ⟨(useStep_leaves moved).1,fun constructing => ?_⟩
    obtain rfl := first tests reaches constructing
    obtain ⟨ok,opened⟩ := (useStep_leaves moved).2 constructing
    cases opened

/-- The protocol of the pools, as one program keeps it. -/
inductive Holding.Moves : Holding → Step → Holding → Prop where
  | pooled (service : Service) (client : Client) (left : Nat) : Moves .nothing ⟨.getClient service,some client⟩
      (.held service client.address (.attempting left) client.wrapper)
  | empty (service : Service) : Moves .nothing ⟨.getClient service,none⟩ (.making service)
  | made (service : Service) (address left : Nat) : Moves (.making service) ⟨.newClient service,address⟩
      (.held service address (.constructing left) (Wrapper.unopened.opening service))
  | performed (service : Service) (address : Nat) (before after : Stage × Wrapper) (step : Step) (actions : List Action)
      (performs : Performs service before step actions after) :
      Moves (.held service address before.1 before.2) step (.held service address after.1 after.2)
  | freed (service : Service) (address : Nat) (wrapper : Wrapper) : Moves (.held service address .returned wrapper)
      ⟨.freeClient service ⟨address,wrapper⟩ true,()⟩ .nothing
  | aside (holding : Holding) (step : Step) (pools : step.query.isPooling = false) (services : step.query.isRpc = false) :
      Moves holding step holding

/-- A program may end with no client, or with one of which it has spent all attempts. -/
def Holding.Settled : Holding → Prop
  | nothing => True
  | held _ _ (.attempting 0) _ => True
  | _ => False

abbrev Leases {α : Type} (post : α → Holding → Prop) (program : Prog α) (holding : Holding) : Prop :=
  Keeps Holding.Moves post program holding

def Aside (query : Query) : Prop := query.isPooling = false ∧ query.isRpc = false

theorem Leases.aside {α β : Type} {post : β → Holding → Prop} {program : Prog α} {after : α → Prog β} {holding : Holding}
    (asks : Asks Aside program) (second : ∀ value, Leases post (after value) holding) :
    Leases post (program >>= after) holding :=
  Keeps.asks_bind asks (fun event apart => .aside holding event apart.1 apart.2) second

section
variable {service : Service} {address left : Nat}

/-- `InitClient`, of both wrappers. -/
theorem initClient_eq (service : Service) (wrapper : Wrapper) : ClientPool.initClient service wrapper =
    if wrapper.mIsInited then pure (wrapper,true)
    else ask (.openTransport service wrapper.made) >>= fun ok => pure ((wrapper.opening service).settle service ok,ok) := by
  cases ready : wrapper.mIsInited with
  | true =>
    cases service <;> simp [ClientPool.initClient,AuthenServerWrapper.initClient,SPTradeInfoWrapper.initClient,ready]
  | false =>
    cases service
    all_goals
      simp only [ClientPool.initClient,AuthenServerWrapper.initClient,SPTradeInfoWrapper.initClient,ready,
        Bool.false_eq_true,if_false]
      congr 1
      funext ok
      cases ok <;> simp [Wrapper.opening,Wrapper.settle,ready]

/-- The client can be called, in this attempt. -/
def Ready (service : Service) (left : Nat) (stage : Stage) (wrapper : Wrapper) : Prop :=
  ∃ unseen, Unseen unseen ∧ follow (useStep service) (stage,wrapper) unseen = some (.calling left,wrapper)

theorem unseen_attempt : Unseen [.attempt] := by simp [Unseen]

theorem unseen_nil : Unseen [] := by simp [Unseen]

theorem initClient_leases (wrapper : Wrapper) : Leases (fun result after => ∃ stage,
      after = .held service address stage result.1 ∧
        if result.2 then Ready service left stage result.1 else stage = .attempting left)
    (ClientPool.initClient service wrapper) (.held service address (.attempting (left+1)) wrapper) := by
  rw [initClient_eq]
  split
  next inited => exact ⟨.attempting (left+1),rfl,[.attempt],unseen_attempt,by simp [follow,useStep,inited]⟩
  next uninited =>
    apply Keeps.bind'
    apply Keeps.call
    intro ok
    have reaches : follow (useStep service) (.attempting (left+1),wrapper) [.attempt] =
        some (.opening left,wrapper.opening service) := by simp [follow,useStep,uninited]
    have wired : (wrapper.opening service).mTransport = some wrapper.made := by cases service <;> rfl
    cases ok with
    | true => exact ⟨_,.performed _ _ _ _ _ _ (.opens _ _ _ _ true unseen_attempt reaches wired rfl),.calling left,rfl,
        [],unseen_nil,rfl⟩
    | false => exact ⟨_,.performed _ _ _ _ _ _ (.opens _ _ _ _ false unseen_attempt reaches wired rfl),_,rfl,rfl⟩

/-- How an attempt ends. -/
def ended {α : Type} (left : Nat) (answer : Option α) : Stage := if answer.isSome then .returned else .attempting left

/-- Of a call through the client of a wrapper, the loop sees whether it has returned. -/
def LeasedCall (service : Service) {α : Type} (rpc : Option Nat → Prog (Option α)) : Prop :=
  ∀ address left stage wrapper, Ready service left stage wrapper →
    Leases (fun answer after => after = .held service address (ended left answer)
        (if answer.isSome then wrapper else {wrapper with mIsInited := false}))
      (rpc wrapper.mClient) (.held service address stage wrapper)

/-- The one event of a call. -/
theorem calls_moves {α : Type} {stage : Stage} {wrapper : Wrapper} {step : Step} {answer : Option α}
    (ready : Ready service left stage wrapper) (on : calledOn step = some wrapper.mClient)
    (of : step.query.rpcService = some service) (outcome : threw step = answer.isNone) :
    Holding.Moves (.held service address stage wrapper) step (.held service address (ended left answer)
      (if answer.isSome then wrapper else {wrapper with mIsInited := false})) := by
  obtain ⟨unseen,tests,reaches⟩ := ready
  have moved : useStep service (.calling left,wrapper) (.called (normal step)) =
      some (ended left answer,if answer.isSome then wrapper else {wrapper with mIsInited := false}) := by
    rw [normal_call on outcome]
    cases answer <;> rfl
  exact .performed service address (stage,wrapper) _ step _ (.calls unseen _ _ step tests reaches on of moved)

theorem rpc_trade (request : TradeCall) : LeasedCall .spTradeInfo fun client => ask (.tradeCall client request) := by
  intro address left stage wrapper ready
  exact Keeps.call fun answer => ⟨_,@calls_moves _ _ _ _ _ _ _ answer ready rfl rfl rfl,rfl⟩

theorem rpc_validate (session : SessionInfo) : LeasedCall .authen fun client => ask (.validateSession client session) := by
  intro address left stage wrapper ready
  exact Keeps.call fun answer => ⟨_,@calls_moves _ _ _ _ _ _ _ answer ready rfl rfl rfl,rfl⟩

theorem attempt_leases {α : Type} {rpc : Option Nat → Prog (Option α)} (calls : LeasedCall service rpc) (wrapper : Wrapper) :
    Leases (fun result after => after = .held service address (ended left result.2) result.1)
      (Wrapper.attempt (ClientPool.initClient service) rpc wrapper)
      (.held service address (.attempting (left+1)) wrapper) := by
  apply Keeps.bind _ (initClient_leases wrapper)
  rintro ⟨wrapper,ready⟩ _ ⟨stage,rfl,reached⟩
  cases ready with
  | false =>
    obtain rfl := reached
    exact rfl
  | true =>
    apply Keeps.bind _ (calls address left stage wrapper reached)
    rintro answer _ rfl
    cases answer <;> exact rfl

theorem retry_leases {α : Type} {rpc : Option Nat → Prog (Option α)} (calls : LeasedCall service rpc) (bound : Nat)
    (wrapper : Wrapper) : Leases (fun result after => after = .held service address (ended 0 result.2) result.1)
      (Program.retry (Wrapper.attempt (ClientPool.initClient service) rpc) bound wrapper)
      (.held service address (.attempting bound) wrapper) := by
  have each (left : Nat) (wrapper : Wrapper) (holding : Holding)
      (starts : holding = .held service address (.attempting (left+1)) wrapper) :
      Leases (fun result after => result.2.elim (after = .held service address (.attempting left) result.1)
          fun _ => after = .held service address .returned result.1)
        (Wrapper.attempt (ClientPool.initClient service) rpc wrapper) holding := by
    subst starts
    apply (attempt_leases calls wrapper).mono
    rintro ⟨wrapper,answer⟩ after reached
    cases answer <;> exact reached
  apply (Keeps.retry (fun left wrapper holding => holding = .held service address (.attempting left) wrapper)
    (fun wrapper _ holding => holding = .held service address .returned wrapper) each bound wrapper rfl).mono
  rintro ⟨wrapper,answer⟩ after reached
  cases answer <;> exact reached

/-- The constructor makes the client while the pool waits. -/
theorem newClientPtr_leases (left : Nat) : Leases (fun client after =>
    after = .held service client.address (.attempting left) client.wrapper) (ClientPool.newClientPtr service)
      (.making service) := by
  apply Keeps.bind'
  apply Keeps.call
  intro address
  refine ⟨_,.made service address left,?_⟩
  rw [initClient_eq,if_neg (by simp [Wrapper.unopened])]
  apply Keeps.bind'
  apply Keeps.bind'
  apply Keeps.call
  intro ok
  have wired : (Wrapper.unopened.opening service).mTransport = some Wrapper.unopened.made := by cases service <;> rfl
  exact ⟨_,.performed _ _ (_,_) _ _ _ (.opens [] _ _ _ ok unseen_nil rfl wired rfl),rfl⟩

theorem getClientPtr_leases (left : Nat) : Leases (fun client after =>
    after = .held service client.address (.attempting left) client.wrapper) (ClientPool.getClientPtr service) .nothing := by
  apply Keeps.bind'
  apply Keeps.call
  intro pooled
  cases pooled with
  | some client => exact ⟨_,.pooled service client left,rfl⟩
  | none => exact ⟨_,.empty service,newClientPtr_leases left⟩

theorem freeClientPtr_leases (wrapper : Wrapper) : Leases (fun _ after => after = .nothing)
    (ClientPool.freeClientPtr service ⟨address,wrapper⟩ true) (.held service address .returned wrapper) :=
  Keeps.call fun _ => ⟨_,.freed service address wrapper,rfl⟩

end

end FuturesCellProxy.Rpc

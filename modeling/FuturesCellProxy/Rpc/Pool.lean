import FuturesCellProxy.Foundation.Machine
import FuturesCellProxy.Rpc.Wrapper
import Mathlib.Data.Finset.Erase
import Mathlib.Data.Finset.Insert
import Mathlib.Logic.Function.Basic

/-! One pool of clients and the requests that use it at the same time. The wrappers live in
a memory that all requests share; a request gets a client, makes one call with its retries,
and gives the client back if the call has returned. Each step is one access to the set, to
a wrapper, or to the network. -/
namespace FuturesCellProxy.Rpc
open Foundation

/-- `InitClient` up to the call of `open`. -/
def Wrapper.opening (service : Service) (wrapper : Wrapper) : Wrapper :=
  match service with
  | .spTradeInfo => {wrapper with mClient := none,mTransport := some wrapper.made,made := wrapper.made + 1}
  | .authen => {wrapper with mTransport := some wrapper.made,made := wrapper.made + 1}

/-- `InitClient` from there on, when `open` has returned or thrown. -/
def Wrapper.settle (service : Service) (ok : Bool) (wrapper : Wrapper) : Wrapper :=
  if ok then {wrapper with mClient := wrapper.mTransport,mIsInited := true}
  else
    match service with
    | .spTradeInfo => {wrapper with mIsInited := false}
    | .authen => wrapper

/-- How far a request is with its client: in the constructor, in front of an attempt, in
`open` or in the call, each with the attempts that are left, or behind a call that returned. -/
inductive Stage where
  | constructing (left : Nat)
  | attempting (left : Nat)
  | opening (left : Nat)
  | calling (left : Nat)
  | returned
  deriving DecidableEq, Repr

inductive Action where
  | attempt
  | opened (ok : Bool)
  | called (normal : Bool)
  deriving DecidableEq, Repr

/-- One step of a request on the wrapper that it holds. -/
def useStep (service : Service) : Stage × Wrapper → Action → Option (Stage × Wrapper)
  | (.constructing left,wrapper), .opened ok => some (.attempting left,wrapper.settle service ok)
  | (.attempting (left+1),wrapper), .attempt =>
    if wrapper.mIsInited then some (.calling left,wrapper) else some (.opening left,wrapper.opening service)
  | (.opening left,wrapper), .opened true => some (.calling left,wrapper.settle service true)
  | (.opening left,wrapper), .opened false => some (.attempting left,wrapper.settle service false)
  | (.calling _,wrapper), .called true => some (.returned,wrapper)
  | (.calling left,wrapper), .called false => some (.attempting left,{wrapper with mIsInited := false})
  | _, _ => none

theorem initClient_steps {service : Service} {wrapper : Wrapper} {trace : Trace} {result : Wrapper × Bool}
    (run : Run (ClientPool.initClient service wrapper) trace result) :
    wrapper.mIsInited = true ∧ trace = [] ∧ result = (wrapper,true) ∨
      wrapper.mIsInited = false ∧ ∃ ok, trace = [⟨.openTransport service wrapper.made,ok⟩] ∧
        result = ((wrapper.opening service).settle service ok,ok) := by
  cases ready : wrapper.mIsInited with
  | true =>
    left
    cases service <;>
    · simp only [ClientPool.initClient,AuthenServerWrapper.initClient,SPTradeInfoWrapper.initClient,ready,
        if_true] at run
      obtain ⟨rfl,rfl⟩ := (Run.pure_iff _ _ _).mp run
      exact ⟨rfl,rfl,rfl⟩
  | false =>
    right
    refine ⟨rfl,?_⟩
    cases service <;>
    · simp only [ClientPool.initClient,AuthenServerWrapper.initClient,SPTradeInfoWrapper.initClient,ready,
        Bool.false_eq_true,if_false] at run
      obtain ⟨_,ok,_,asked,rest,rfl⟩ := (Run.bind_iff _ _ _ _).mp run
      rw [(Run.call_iff _ _ _).mp asked]
      refine ⟨ok,?_⟩
      cases ok <;>
      · obtain ⟨rfl,rfl⟩ := (Run.pure_iff _ _ _).mp rest
        simp [Wrapper.settle,Wrapper.opening,ready]

theorem initClient_run {service : Service} {wrapper : Wrapper} {trace : Trace} {result : Wrapper × Bool}
    (run : Run (ClientPool.initClient service wrapper) trace result) :
    wrapper.mIsInited = true ∧ result = (wrapper,true) ∨
      wrapper.mIsInited = false ∧ ∃ ok, result = ((wrapper.opening service).settle service ok,ok) := by
  rcases initClient_steps run with ⟨ready,_,same⟩ | ⟨ready,ok,_,same⟩
  · exact .inl ⟨ready,same⟩
  · exact .inr ⟨ready,ok,same⟩

theorem newClientPtr_uses {service : Service} {trace : Trace} {client : Client} (left : Nat)
    (run : Run (ClientPool.newClientPtr service) trace client) :
    ∃ ok, useStep service (.constructing left,Wrapper.unopened.opening service) (.opened ok) =
      some (.attempting left,client.wrapper) := by
  obtain ⟨_,address,_,_,rest,_⟩ := (Run.bind_iff _ _ _ _).mp run
  obtain ⟨_,⟨wrapper,ready⟩,_,init,last,_⟩ := (Run.bind_iff _ _ _ _).mp rest
  obtain ⟨_,rfl⟩ := (Run.pure_iff _ _ _).mp last
  rcases initClient_run init with ⟨ready,_⟩ | ⟨_,ok,same⟩
  · cases ready
  · exact ⟨ok,by rw [useStep,(Prod.mk.inj same).1]⟩

theorem attempt_uses {α : Type} {service : Service} {rpc : Option Nat → Prog (Option α)} (left : Nat)
    {wrapper after : Wrapper} {trace : Trace} {answer : Option α}
    (run : Run (Wrapper.attempt (ClientPool.initClient service) rpc wrapper) trace (after,answer)) :
    ∃ actions, follow (useStep service) (.attempting (left+1),wrapper) actions =
      some (if answer.isSome then .returned else .attempting left,after) := by
  obtain ⟨_,⟨opened,ready⟩,_,init,rest,_⟩ := (Run.bind_iff _ _ _ _).mp run
  -- with a client that is ready, the call decides
  have call (actions : List Action) (reaches : follow (useStep service) (.attempting (left+1),wrapper) actions =
      some (.calling left,opened)) (yes : ready = true) : ∃ actions, follow (useStep service)
        (.attempting (left+1),wrapper) actions = some (if answer.isSome then .returned else .attempting left,after) := by
    subst yes
    obtain ⟨_,outcome,_,_,last,_⟩ := (Run.bind_iff _ _ _ _).mp rest
    refine ⟨actions ++ [.called outcome.isSome],(follow_append _ _ _ _).mpr ⟨_,reaches,?_⟩⟩
    cases outcome <;>
    · cases ((Run.pure_iff _ _ _).mp last).2
      rfl
  rcases initClient_run init with ⟨inited,same⟩ | ⟨uninited,ok,same⟩
  · obtain ⟨rfl,rfl⟩ := Prod.mk.inj same
    exact call [.attempt] (by simp [follow,useStep,inited]) rfl
  · obtain ⟨rfl,rfl⟩ := Prod.mk.inj same
    cases ready with
    | true => exact call [.attempt,.opened true] (by simp [follow,useStep,uninited]) rfl
    | false =>
      cases ((Run.pure_iff _ _ _).mp rest).2
      exact ⟨[.attempt,.opened false],by simp [follow,useStep,uninited]⟩

/-- Every call with its retries is a sequence of steps, up to the call that returns or
until no attempt is left. -/
theorem retry_uses {α : Type} {service : Service} (rpc : Option Nat → Prog (Option α)) (bound : Nat)
    (wrapper : Wrapper) (trace : Trace) (result : Wrapper × Option α)
    (run : Run (Program.retry (Wrapper.attempt (ClientPool.initClient service) rpc) bound wrapper) trace result) :
    ∃ actions, follow (useStep service) (.attempting bound,wrapper) actions =
      some (if result.2.isSome then .returned else .attempting 0,result.1) := by
  apply Run.retry_induction _ (fun bound wrapper _ result => ∃ actions,
    follow (useStep service) (.attempting bound,wrapper) actions =
      some (if result.2.isSome then .returned else .attempting 0,result.1)) ?exhausted ?success ?failure _ _ _ _ run
  case exhausted =>
    intro wrapper
    exact ⟨[],rfl⟩
  case success =>
    intro bound wrapper trace after value run
    exact attempt_uses bound run
  case failure =>
    rintro bound wrapper trace after rest result run ⟨later,reaches⟩
    obtain ⟨first,fails⟩ := attempt_uses bound run
    exact ⟨first ++ later,(follow_append _ _ _ _).mpr ⟨_,fails,reaches⟩⟩

structure Pool (Request : Type) where
  clientSet : Finset Nat := ∅
  wrappers : Nat → Option Wrapper := fun _ => none
  uses : Request → Option (Nat × Stage) := fun _ => none
  /-- Over which transports of which client a call has thrown. -/
  thrown : Nat → Nat → Bool := fun _ _ => false

inductive PoolEvent (Request : Type) where
  | get (request : Request) (address retryTime : Nat)
  | act (request : Request) (action : Action)
  | free (request : Request) (address : Nat)
  | drop (request : Request) (address : Nat)
  deriving DecidableEq, Repr

/-- What is known of the transports of a client behind an action on its wrapper. -/
def blame (thrown : Nat → Bool) (wrapper : Wrapper) : Action → Nat → Bool
  | .called false, transport => thrown transport || wrapper.mClient = some transport
  | _, transport => thrown transport

namespace Pool
variable {Request : Type} (service : Service)

/-- `get` is `GetClientPtr`, with the first client of the set or the address of a new one;
`free` is `FreeClientPtr` of a client that is usable; `drop` is the end of a request whose
call has not returned, and with it of its client. -/
def step [DecidableEq Request] (pool : Pool Request) : PoolEvent Request → Option (Pool Request)
  | .get request address retryTime =>
    if pool.uses request ≠ none then none
    else if address ∈ pool.clientSet ∧ ∀ other ∈ pool.clientSet, address ≤ other then
      some {pool with
        clientSet := pool.clientSet.erase address
        uses := Function.update pool.uses request (some (address,.attempting retryTime))}
    else if pool.clientSet = ∅ ∧ pool.wrappers address = none then
      some {pool with
        wrappers := Function.update pool.wrappers address (some (Wrapper.unopened.opening service))
        uses := Function.update pool.uses request (some (address,.constructing retryTime))
        thrown := Function.update pool.thrown address fun _ => false}
    else none
  | .act request action => do
    let (address,stage) ← pool.uses request
    let wrapper ← pool.wrappers address
    let (after,changed) ← useStep service (stage,wrapper) action
    some {pool with
      wrappers := Function.update pool.wrappers address (some changed)
      uses := Function.update pool.uses request (some (address,after))
      thrown := Function.update pool.thrown address (blame (pool.thrown address) wrapper action)}
  | .free request address =>
    if pool.uses request = some (address,.returned) then
      some {pool with
        clientSet := insert address pool.clientSet
        uses := Function.update pool.uses request none}
    else none
  | .drop request address =>
    if pool.uses request = some (address,.attempting 0) then
      some {pool with
        wrappers := Function.update pool.wrappers address none
        uses := Function.update pool.uses request none}
    else none

/-- The client is ready, and no call has thrown over the connection that it uses. -/
def Healthy (thrown : Nat → Bool) (wrapper : Wrapper) : Prop :=
  wrapper.mIsInited = true ∧ ∃ transport, wrapper.mTransport = some transport ∧
    wrapper.mClient = some transport ∧ thrown transport = false

def Holds (pool : Pool Request) (request : Request) (address : Nat) : Prop :=
  ∃ stage, pool.uses request = some (address,stage)

structure Sound (pool : Pool Request) : Prop where
  heldOnce : ∀ request other address, pool.Holds request address → pool.Holds other address → request = other
  notPooled : ∀ request address, pool.Holds request address → address ∉ pool.clientSet
  healthy : ∀ address ∈ pool.clientSet, ∃ wrapper, pool.wrappers address = some wrapper ∧
    Healthy (pool.thrown address) wrapper

/-- Between two times that a request frees a client it has got it again. -/
def FreedOnce (events : List (PoolEvent Request)) : Prop :=
  ∀ request address before middle after,
    events = before ++ .free request address :: middle ++ .free request address :: after →
    ∃ retryTime, .get request address retryTime ∈ middle

/-- Transports have numbers below `made`, and no call has gone over one still to be made. -/
structure Numbered (thrown : Nat → Bool) (wrapper : Wrapper) : Prop where
  unmade : ∀ transport, wrapper.made ≤ transport → thrown transport = false
  client : ∀ transport, wrapper.mClient = some transport → transport < wrapper.made
  transport : ∀ transport, wrapper.mTransport = some transport → transport < wrapper.made

def Coherent (thrown : Nat → Bool) (wrapper : Wrapper) : Stage → Prop
  | .constructing _ | .opening _ =>
    wrapper.mIsInited = false ∧ ∃ transport, wrapper.mTransport = some transport ∧ thrown transport = false
  | .attempting _ => wrapper.mIsInited = true → Healthy thrown wrapper
  | .calling _ | .returned => Healthy thrown wrapper

theorem numbered_opening {thrown : Nat → Bool} {wrapper : Wrapper} (numbered : Numbered thrown wrapper) :
    Numbered thrown (wrapper.opening service) := by
  obtain ⟨unmade,client,_⟩ := numbered
  have made (transport : Nat) (used : some wrapper.made = some transport) : transport < wrapper.made + 1 := by
    cases used
    exact Nat.lt_succ_self _
  cases service with
  | spTradeInfo => exact ⟨fun t above => unmade t (Nat.le_of_succ_le above),fun _ used => (nomatch used),made⟩
  | authen =>
    exact ⟨fun t above => unmade t (Nat.le_of_succ_le above),fun t used => Nat.lt_succ_of_lt (client t used),made⟩

theorem coherent_opening {thrown : Nat → Bool} {wrapper : Wrapper} (numbered : Numbered thrown wrapper)
    (uninited : wrapper.mIsInited = false) (left : Nat) :
    Coherent thrown (wrapper.opening service) (.opening left) := by
  have unmade := numbered.unmade wrapper.made (Nat.le_refl _)
  cases service <;> exact ⟨uninited,_,rfl,unmade⟩

theorem numbered_settle {thrown : Nat → Bool} {wrapper : Wrapper} (numbered : Numbered thrown wrapper) (ok : Bool) :
    Numbered thrown (wrapper.settle service ok) := by
  obtain ⟨unmade,client,transport⟩ := numbered
  cases ok with
  | true => exact ⟨unmade,transport,transport⟩
  | false => cases service <;> exact ⟨unmade,client,transport⟩

/-- Once `open` is over the client is ready only over the connection that was opened. -/
theorem coherent_settle {thrown : Nat → Bool} {wrapper : Wrapper} (left : Nat)
    (coherent : Coherent thrown wrapper (.opening left)) :
    Healthy thrown (wrapper.settle service true) ∧ (wrapper.settle service false).mIsInited = false := by
  obtain ⟨uninited,transport,used,quiet⟩ := coherent
  refine ⟨⟨rfl,transport,used,used,quiet⟩,?_⟩
  cases service with
  | spTradeInfo => rfl
  | authen => exact uninited

theorem useStep_coherent {thrown : Nat → Bool} {stage after : Stage} {wrapper changed : Wrapper} {action : Action}
    (numbered : Numbered thrown wrapper) (coherent : Coherent thrown wrapper stage)
    (taken : useStep service (stage,wrapper) action = some (after,changed)) :
    Numbered (blame thrown wrapper action) changed ∧ Coherent (blame thrown wrapper action) changed after := by
  unfold useStep at taken
  split at taken
  next left _ ok same =>
    cases same
    cases taken
    obtain ⟨ready,unready⟩ := coherent_settle service left coherent
    refine ⟨numbered_settle service numbered ok,fun inited => ?_⟩
    cases ok with
    | true => exact ready
    | false => exact absurd inited (by simp [unready])
  next left _ same =>
    cases same
    split at taken
    next inited =>
      cases taken
      exact ⟨numbered,coherent inited⟩
    next uninited =>
      cases taken
      exact ⟨numbered_opening service numbered,coherent_opening service numbered (by simpa using uninited) left⟩
  next left _ same =>
    cases same
    cases taken
    exact ⟨numbered_settle service numbered true,(coherent_settle service left coherent).1⟩
  next left _ same =>
    cases same
    cases taken
    refine ⟨numbered_settle service numbered false,fun inited => absurd inited ?_⟩
    simp [(coherent_settle service left coherent).2]
  next same =>
    cases same
    cases taken
    exact ⟨numbered,coherent⟩
  next left _ same =>
    cases same
    cases taken
    obtain ⟨unmade,client,transport⟩ := numbered
    refine ⟨⟨fun t above => ?_,client,transport⟩,fun inited => nomatch inited⟩
    have other : wrapper.mClient ≠ some t := fun used => Nat.not_le_of_gt (client t used) above
    simp [blame,unmade t above,other]
  next => cases taken

/-- What holds in every state: the clients in the set and those in use are different ones,
the former healthy and the latter coherent with how far their request is. -/
structure Ordered (pool : Pool Request) : Prop where
  once : ∀ request other address, pool.Holds request address → pool.Holds other address → request = other
  held : ∀ request address stage, pool.uses request = some (address,stage) → address ∉ pool.clientSet ∧
    ∃ wrapper, pool.wrappers address = some wrapper ∧ Numbered (pool.thrown address) wrapper ∧
      Coherent (pool.thrown address) wrapper stage
  pooled : ∀ address ∈ pool.clientSet, ∃ wrapper, pool.wrappers address = some wrapper ∧
    Numbered (pool.thrown address) wrapper ∧ Healthy (pool.thrown address) wrapper

theorem Ordered.sound {pool : Pool Request} (ordered : Ordered pool) : Sound pool := by
  refine ⟨ordered.once,?_,?_⟩
  · rintro request address ⟨stage,used⟩
    exact (ordered.held request address stage used).1
  · intro address member
    obtain ⟨wrapper,live,_,healthy⟩ := ordered.pooled address member
    exact ⟨wrapper,live,healthy⟩

theorem ordered_empty : Ordered ({} : Pool Request) := by
  refine ⟨?_,?_,?_⟩
  · rintro _ _ _ ⟨_,used⟩
    cases used
  · intro _ _ _ used
    cases used
  · intro _ member
    simp at member

/-- Who holds a client is the only one. -/
theorem Ordered.alone {pool : Pool Request} (ordered : Ordered pool) {request : Request} {address : Nat} {stage : Stage}
    (used : pool.uses request = some (address,stage)) (other : Request) (holds : pool.Holds other address) :
    other = request :=
  ordered.once other request address holds ⟨stage,used⟩

section
variable [DecidableEq Request] {service}

/-- A step that touches one client, which no other request holds, keeps the order. -/
theorem Ordered.touch {pool after : Pool Request} (ordered : Ordered pool) (request : Request) (address : Nat)
    (use : Option Stage) (alone : ∀ other, pool.Holds other address → other = request)
    (uses : after.uses = Function.update pool.uses request (use.map (Prod.mk address)))
    (elsewhere : ∀ other ≠ address, after.wrappers other = pool.wrappers other ∧
      after.thrown other = pool.thrown other ∧ (other ∈ after.clientSet ↔ other ∈ pool.clientSet))
    (held : ∀ stage, use = some stage → address ∉ after.clientSet ∧ ∃ wrapper, after.wrappers address = some wrapper ∧
      Numbered (after.thrown address) wrapper ∧ Coherent (after.thrown address) wrapper stage)
    (pooled : address ∈ after.clientSet → ∃ wrapper, after.wrappers address = some wrapper ∧
      Numbered (after.thrown address) wrapper ∧ Healthy (after.thrown address) wrapper) : Ordered after := by
  have own (stage : Stage) (other : Nat) (used : after.uses request = some (other,stage)) :
      other = address ∧ use = some stage := by
    rw [uses,Function.update_self,Option.map_eq_some_iff] at used
    obtain ⟨same,given,pair⟩ := used
    cases pair
    exact ⟨rfl,given⟩
  have others (other : Request) (distinct : other ≠ request) : after.uses other = pool.uses other := by
    rw [uses,Function.update_of_ne distinct]
  refine ⟨?once,?held,?pooled⟩
  case once =>
    rintro first second held ⟨stage,used⟩ ⟨stage',used'⟩
    by_cases one : first = request <;> by_cases two : second = request
    · rw [one,two]
    · subst one
      obtain ⟨rfl,_⟩ := own _ _ used
      exact (alone second ⟨stage',others second two ▸ used'⟩).symm
    · subst two
      obtain ⟨rfl,_⟩ := own _ _ used'
      exact alone first ⟨stage,others first one ▸ used⟩
    · exact ordered.once first second held ⟨stage,others first one ▸ used⟩ ⟨stage',others second two ▸ used'⟩
  case held =>
    intro other client stage used
    by_cases same : other = request
    · subst same
      obtain ⟨rfl,given⟩ := own _ _ used
      exact held stage given
    · rw [others other same] at used
      have distinct : client ≠ address := by
        rintro rfl
        exact same (alone other ⟨stage,used⟩)
      obtain ⟨wrappers,thrown,members⟩ := elsewhere client distinct
      rw [wrappers,thrown,members]
      exact ordered.held other client stage used
  case pooled =>
    intro client member
    by_cases same : client = address
    · subst same
      exact pooled member
    · obtain ⟨wrappers,thrown,members⟩ := elsewhere client same
      rw [wrappers,thrown]
      exact ordered.pooled client (members.mp member)

variable (service) in
/-- The steps one by one. -/
inductive Steps (pool : Pool Request) : PoolEvent Request → Pool Request → Prop where
  | pooled (request : Request) (address retryTime : Nat) (member : address ∈ pool.clientSet) :
    Steps pool (.get request address retryTime) {pool with
      clientSet := pool.clientSet.erase address
      uses := Function.update pool.uses request (some (address,.attempting retryTime))}
  | fresh (request : Request) (address retryTime : Nat) (empty : pool.clientSet = ∅)
      (unused : pool.wrappers address = none) : Steps pool (.get request address retryTime) {pool with
        wrappers := Function.update pool.wrappers address (some (Wrapper.unopened.opening service))
        uses := Function.update pool.uses request (some (address,.constructing retryTime))
        thrown := Function.update pool.thrown address fun _ => false}
  | act (request : Request) (action : Action) (address : Nat) (stage next : Stage) (wrapper changed : Wrapper)
      (used : pool.uses request = some (address,stage)) (live : pool.wrappers address = some wrapper)
      (moved : useStep service (stage,wrapper) action = some (next,changed)) : Steps pool (.act request action) {pool with
        wrappers := Function.update pool.wrappers address (some changed)
        uses := Function.update pool.uses request (some (address,next))
        thrown := Function.update pool.thrown address (blame (pool.thrown address) wrapper action)}
  | free (request : Request) (address : Nat) (used : pool.uses request = some (address,.returned)) :
    Steps pool (.free request address) {pool with
      clientSet := insert address pool.clientSet
      uses := Function.update pool.uses request none}
  | drop (request : Request) (address : Nat) (used : pool.uses request = some (address,.attempting 0)) :
    Steps pool (.drop request address) {pool with
      wrappers := Function.update pool.wrappers address none
      uses := Function.update pool.uses request none}

theorem step_cases {pool after : Pool Request} {event : PoolEvent Request}
    (taken : step service pool event = some after) : Steps service pool event after := by
  cases event with
  | get request address retryTime =>
    simp only [step] at taken
    split at taken
    · cases taken
    split at taken
    next pooled =>
      cases taken
      exact .pooled request address retryTime pooled.1
    split at taken
    next fresh =>
      cases taken
      exact .fresh request address retryTime fresh.1 fresh.2
    next => cases taken
  | act request action =>
    simp only [step,Option.bind_eq_bind,Option.bind_eq_some_iff,Option.some.injEq] at taken
    obtain ⟨⟨address,stage⟩,used,wrapper,live,⟨next,changed⟩,moved,rfl⟩ := taken
    exact .act request action address stage next wrapper changed used live moved
  | free request address =>
    simp only [step] at taken
    split at taken
    next used =>
      cases taken
      exact .free request address used
    next => cases taken
  | drop request address =>
    simp only [step] at taken
    split at taken
    next used =>
      cases taken
      exact .drop request address used
    next => cases taken

theorem ordered_step {pool after : Pool Request} {event : PoolEvent Request} (ordered : Ordered pool)
    (taken : step service pool event = some after) : Ordered after := by
  cases step_cases taken with
  | pooled request address retryTime member =>
    obtain ⟨wrapper,live,numbered,healthy⟩ := ordered.pooled address member
    apply ordered.touch request address (some (.attempting retryTime))
    · rintro other ⟨stage,used⟩
      exact absurd member (ordered.held other address stage used).1
    · rfl
    · intro other distinct
      exact ⟨rfl,rfl,by simp [distinct]⟩
    · intro stage given
      cases given
      exact ⟨by simp,wrapper,live,numbered,fun _ => healthy⟩
    · intro member
      simp at member
  | fresh request address retryTime empty unused =>
    have absent : address ∉ pool.clientSet := by simp [empty]
    have numbered : Numbered (fun _ => false) Wrapper.unopened :=
      ⟨fun _ _ => rfl,fun _ used => (nomatch used),fun _ used => (nomatch used)⟩
    apply ordered.touch request address (some (.constructing retryTime))
    · rintro other ⟨stage,used⟩
      obtain ⟨_,_,live,_⟩ := ordered.held other address stage used
      simp [unused] at live
    · rfl
    · intro other distinct
      exact ⟨Function.update_of_ne distinct _ _,Function.update_of_ne distinct _ _,Iff.rfl⟩
    · intro stage given
      cases given
      simp only [Function.update_self]
      exact ⟨absent,_,rfl,numbered_opening service numbered,coherent_opening service numbered rfl 0⟩
    · intro member
      exact absurd member absent
  | act request action address stage next wrapper changed used live moved =>
    obtain ⟨absent,wrapper',live',numbered,coherent⟩ := ordered.held request address stage used
    obtain rfl := Option.some.inj (live.symm.trans live')
    obtain ⟨numbered,coherent⟩ := useStep_coherent service numbered coherent moved
    apply ordered.touch request address (some next) (ordered.alone used)
    · rfl
    · intro other distinct
      exact ⟨Function.update_of_ne distinct _ _,Function.update_of_ne distinct _ _,Iff.rfl⟩
    · intro stage given
      cases given
      simp only [Function.update_self]
      exact ⟨absent,changed,rfl,numbered,coherent⟩
    · intro member
      exact absurd member absent
  | free request address used =>
    obtain ⟨_,wrapper,live,numbered,healthy⟩ := ordered.held request address .returned used
    apply ordered.touch request address none (ordered.alone used)
    · rfl
    · intro other distinct
      exact ⟨rfl,rfl,by simp [distinct]⟩
    · intro stage given
      cases given
    · intro _
      exact ⟨wrapper,live,numbered,healthy⟩
  | drop request address used =>
    obtain ⟨absent,_⟩ := ordered.held request address (.attempting 0) used
    apply ordered.touch request address none (ordered.alone used)
    · rfl
    · intro other distinct
      exact ⟨Function.update_of_ne distinct _ _,rfl,Iff.rfl⟩
    · intro stage given
      cases given
    · intro member
      exact absurd member absent

/-- A step moves one request, which comes to hold a client only by getting it. -/
theorem uses_step {pool after : Pool Request} {event : PoolEvent Request}
    (taken : step service pool event = some after) :
    ∃ request use, after.uses = Function.update pool.uses request use ∧ ∀ address stage, use = some (address,stage) →
      pool.Holds request address ∨ ∃ retryTime, event = .get request address retryTime := by
  cases step_cases taken with
  | pooled request address retryTime | fresh request address retryTime =>
    refine ⟨request,_,rfl,fun client stage given => ?_⟩
    cases given
    exact .inr ⟨retryTime,rfl⟩
  | act request action address stage next wrapper changed used =>
    refine ⟨request,_,rfl,fun client stage' given => ?_⟩
    cases given
    exact .inl ⟨stage,used⟩
  | free request address | drop request address => exact ⟨request,none,rfl,fun _ _ given => nomatch given⟩

theorem holds_run {pool after : Pool Request} {request : Request} {address : Nat} {events : List (PoolEvent Request)}
    (run : follow (step service) pool events = some after) (holds : after.Holds request address) :
    pool.Holds request address ∨ ∃ retryTime, .get request address retryTime ∈ events := by
  induction events generalizing pool with
  | nil =>
    obtain rfl := Option.some.inj run
    exact .inl holds
  | cons event rest ih =>
    obtain ⟨middle,taken,run⟩ := (follow_cons _ _ _ _).mp run
    rcases ih run with ⟨stage,used⟩ | ⟨retryTime,later⟩
    · obtain ⟨mover,use,uses,gets⟩ := uses_step taken
      rw [uses] at used
      by_cases same : request = mover
      · subst same
        rw [Function.update_self] at used
        rcases gets address stage used with held | ⟨retryTime,rfl⟩
        · exact .inl held
        · exact .inr ⟨retryTime,List.mem_cons_self⟩
      · rw [Function.update_of_ne same] at used
        exact .inl ⟨stage,used⟩
    · exact .inr ⟨retryTime,List.mem_cons_of_mem _ later⟩

theorem free_step {pool after : Pool Request} {request : Request} {address : Nat}
    (taken : step service pool (.free request address) = some after) :
    pool.Holds request address ∧ ∀ client, ¬ after.Holds request client := by
  cases step_cases taken with
  | free _ _ used =>
    refine ⟨⟨_,used⟩,?_⟩
    rintro client ⟨stage,held⟩
    simp [Function.update_self] at held

theorem freedOnce_run {pool after : Pool Request} {events : List (PoolEvent Request)}
    (run : follow (step service) pool events = some after) : FreedOnce events := by
  rintro request address before middle later rfl
  rw [List.append_assoc] at run
  obtain ⟨first,_,run⟩ := (follow_append _ _ _ _).mp run
  obtain ⟨second,freed,run⟩ := (follow_cons _ _ _ _).mp run
  obtain ⟨third,between,run⟩ := (follow_append _ _ _ _).mp run
  obtain ⟨_,again,_⟩ := (follow_cons _ _ _ _).mp run
  rcases holds_run between (free_step again).1 with held | got
  · exact absurd held ((free_step freed).2 address)
  · exact got

end

/-- Whatever the requests do in whatever order, a client is held by one of them or is in the
set, those in the set are healthy, and none is freed twice. -/
theorem pool_sound [DecidableEq Request] (events : List (PoolEvent Request)) (pool : Pool Request)
    (run : follow (step service) {} events = some pool) : Sound pool ∧ FreedOnce events :=
  ⟨(follow_invariant (fun _ _ _ => ordered_step) ordered_empty run).sound,freedOnce_run run⟩

end Pool

/-- Two requests: the first call throws once and the client is opened again. -/
def twoRequests : List (PoolEvent Bool) :=
  [.get true 1 2,.act true (.opened true),.get false 2 3,.act true .attempt,.act true (.called false),
    .act false (.opened false),.act true .attempt,.act true (.opened true),.act true (.called true),.free true 1]

theorem pool_sound_two :
    ∃ pool, follow (Pool.step .spTradeInfo) {} twoRequests = some pool ∧ 1 ∈ pool.clientSet ∧
      Pool.Sound pool ∧ Pool.FreedOnce twoRequests := by
  refine ⟨_,rfl,?_,Pool.pool_sound .spTradeInfo twoRequests _ rfl⟩
  decide

end FuturesCellProxy.Rpc

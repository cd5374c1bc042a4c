import FuturesCellProxy.Rpc.PoolMirror
import Mathlib.Data.Finset.Max
import Mathlib.Data.Fintype.EquivFin

/-! Programs side by side on shared pools refine the machines of the pools, and always one of
them can go on. -/
namespace FuturesCellProxy.Rpc
open Foundation

section Serve
variable {Request α : Type} [DecidableEq Request]

/-- Programs that keep the protocol of the pools, on pools and machines that agree. -/
def Refines (state : (Request → Prog α) × Pools Request) (machines : Service → Pool Request) : Prop :=
  ∃ holdings, (∀ request, Leases (fun _ after => after.Settled) (state.1 request) (holdings request)) ∧
    Agree holdings state.2 machines

omit [DecidableEq Request] in
theorem agree_initial : Agree (fun _ => .nothing) ({} : Pools Request) fun _ => {} := by
  constructor
  case client => rfl
  case locked => exact fun _ _ => iff_of_false (fun locked => nomatch locked) fun locks => nomatch locks
  case empty => exact fun _ _ => rfl
  case mirrors =>
    exact fun _ => ⟨rfl,fun _ member => absurd member (Finset.notMem_empty _),rfl,fun _ _ _ _ holds => (nomatch holds),
      Pool.ordered_empty⟩
  case alive => exact fun _ _ live => absurd rfl live
  case apart => exact fun _ _ _ live => absurd rfl live

omit [DecidableEq Request] in
theorem refines_initial {programs : Request → Prog α}
    (leases : ∀ request, Leases (fun _ after => after.Settled) (programs request) .nothing) :
    Refines (programs,{}) fun _ => {} :=
  ⟨fun _ => .nothing,leases,agree_initial⟩

/-- An event of a program, and the end of the program if it is the last one. -/
theorem Agree.taken {holdings : Request → Holding} {pools after : Pools Request} {machines : Service → Pool Request}
    {request : Request} {step : Step} {holding : Holding} (agree : Agree holdings pools machines)
    (moves : (holdings request).Moves step holding) (stepped : pools.step request step = some after) (finished : Bool)
    (settled : finished = true → holding.Settled) :
    Matched (Function.update holdings request (if finished then .nothing else holding))
      (if finished then after.leave request else after) machines (seenOf (request,step)).toList := by
  have moved := agree.moved moves stepped
  cases finished with
  | false => exact moved
  | true =>
    obtain ⟨events,machines',run,agree,shown⟩ := moved
    obtain ⟨last,final,dropped,agree,silent⟩ := agree.left (by
      rw [Function.update_self]
      exact settled rfl)
    rw [Function.update_idem] at agree
    refine ⟨events ++ last,final,(follow_append _ _ _ _).mpr ⟨machines',run,dropped⟩,agree,?_⟩
    rw [List.filterMap_append,silent,List.append_nil,shown]

theorem refines_step {state after : (Request → Prog α) × Pools Request} {machines : Service → Pool Request}
    {entry : Request × Step} (refines : Refines state machines) (taken : serve state entry = some after) :
    ∃ events machines', follow poolsStep machines events = some machines' ∧ Refines after machines' ∧
      events.filterMap showsOf = (seenOf entry).toList := by
  obtain ⟨holdings,leases,agree⟩ := refines
  simp only [serve,Option.bind_eq_bind,Option.bind_eq_some_iff,Option.some.injEq] at taken
  obtain ⟨programs,advanced,pools,stepped,rfl⟩ := taken
  obtain ⟨holding,moves,leases⟩ := Keeps.interleave leases advanced
  have kept := leases entry.1
  rw [Function.update_self] at kept
  obtain ⟨events,machines',run,agree,shown⟩ := agree.taken moves stepped (programs entry.1).finished fun finished => by
    cases rest : programs entry.1 with
    | ret value => rwa [rest] at kept
    | ask query next => simp [rest,Program.finished] at finished
  refine ⟨events,machines',run,⟨_,fun request => ?_,agree⟩,shown⟩
  by_cases own : request = entry.1
  · subst own
    rw [Function.update_self]
    change Leases _ (programs entry.1) _
    cases rest : programs entry.1 with
    | ret value => exact trivial
    | ask query next => rwa [rest] at kept
  · have others := leases request
    rw [Function.update_of_ne own] at others ⊢
    exact others

/-- What the events of one pool have come to. -/
def eventsAt (service : Service) (events : List (Service × PoolEvent Request)) : List (PoolEvent Request) :=
  events.filterMap fun event => if event.1 = service then some event.2 else none

theorem follow_eventsAt {machines after : Service → Pool Request} {events : List (Service × PoolEvent Request)}
    (run : follow poolsStep machines events = some after) (service : Service) :
    follow (Pool.step service) (machines service) (eventsAt service events) = some (after service) := by
  induction events generalizing machines with
  | nil =>
    obtain rfl := Option.some.inj run
    rfl
  | cons event rest ih =>
    obtain ⟨middle,taken,run⟩ := (follow_cons _ _ _ _).mp run
    obtain ⟨machine,step,rfl⟩ := Option.map_eq_some_iff.mp taken
    have later := ih run
    rw [eventsAt,List.filterMap_cons]
    by_cases same : event.1 = service
    · subst same
      rw [Function.update_self] at later
      rw [if_pos rfl]
      exact (follow_cons _ _ _ _).mpr ⟨machine,step,later⟩
    · rw [Function.update_of_ne (Ne.symm same)] at later
      rwa [if_neg same]

/-- Pools of which every client is in one place, and usable where it waits. -/
structure Pools.Sound (pools : Pools Request) : Prop where
  heldOnce : ∀ request other address, pools.client request = some address → pools.client other = some address →
    request = other
  notPooled : ∀ request service, ∀ client ∈ pools.clientSet service, pools.client request ≠ some client.address
  pooledOnce : ∀ service other, ∀ client ∈ pools.clientSet service, ∀ client' ∈ pools.clientSet other,
    client.address = client'.address → service = other ∧ client = client'
  usable : ∀ service, ∀ client ∈ pools.clientSet service, client.wrapper.mIsInited = true
  waiting : ∀ service, pools.clientsMutex service ≠ none → pools.clientSet service = ∅

/-- A machine per pool whose memory holds what the pools hold, with the same requests at the
same clients. -/
structure Pools.Same (pools : Pools Request) (machines : Service → Pool Request) : Prop where
  clientSet : ∀ service, (machines service).clientSet = (pools.clientSet service).image Client.address
  wrappers : ∀ service, ∀ client ∈ pools.clientSet service,
    (machines service).wrappers client.address = some client.wrapper
  client : ∀ request address, pools.client request = some address ↔ ∃ service, (machines service).Holds request address

section
variable {holdings : Request → Holding} {pools : Pools Request} {machines : Service → Pool Request}

omit [DecidableEq Request] in
theorem Holding.client_eq_some (holding : Holding) (address : Nat) :
    holding.client = some address ↔ ∃ service stage, holding.use service = some (address,stage) := by
  cases holding with
  | nothing | making => simp [Holding.client,Holding.use]
  | held of other stage wrapper => simp [Holding.client,Holding.use]

omit [DecidableEq Request] in
theorem Agree.same (agree : Agree holdings pools machines) : pools.Same machines := by
  refine ⟨fun service => (agree.mirrors service).members,fun service => (agree.mirrors service).stored,?_⟩
  intro request address
  rw [agree.client,Function.comp_apply,Holding.client_eq_some]
  simp only [Pool.Holds,(agree.mirrors _).uses,Function.comp_apply]

omit [DecidableEq Request] in
theorem Agree.sound (agree : Agree holdings pools machines) : pools.Sound := by
  have live {service : Service} {address : Nat} {request : Request} (holds : (machines service).Holds request address) :
      (machines service).wrappers address ≠ none := by
    obtain ⟨stage,used⟩ := holds
    obtain ⟨_,wrapper,live,_⟩ := (agree.mirrors service).ordered.held request address stage used
    simp [live]
  have stored {service : Service} {client : Client} (member : client ∈ pools.clientSet service) :
      (machines service).wrappers client.address ≠ none := by
    simp [(agree.mirrors service).stored client member]
  constructor
  case heldOnce =>
    intro request other address points points'
    obtain ⟨service,holds⟩ := (agree.same.client _ _).mp points
    obtain ⟨service',holds'⟩ := (agree.same.client _ _).mp points'
    obtain rfl := agree.apart _ _ address (live holds) (live holds')
    exact (agree.mirrors service).ordered.once _ _ _ holds holds'
  case notPooled =>
    intro request service client member points
    obtain ⟨service',stage,used⟩ := (agree.same.client _ _).mp points
    obtain rfl := agree.apart _ _ client.address (live ⟨stage,used⟩) (stored member)
    apply ((agree.mirrors service').ordered.held _ _ _ used).1
    rw [(agree.mirrors service').members]
    exact Finset.mem_image_of_mem _ member
  case pooledOnce =>
    intro service other client member client' member' same
    obtain rfl := agree.apart service other client.address (stored member) (same ▸ stored member')
    have wrappers := (agree.mirrors service).stored client member
    rw [same,(agree.mirrors service).stored client' member'] at wrappers
    cases client
    cases client'
    simp_all
  case usable =>
    intro service client member
    obtain ⟨wrapper,stored,_,ready,_⟩ := (agree.mirrors service).ordered.pooled client.address (by
      rw [(agree.mirrors service).members]
      exact Finset.mem_image_of_mem _ member)
    rw [(agree.mirrors service).stored client member] at stored
    cases stored
    exact ready
  case waiting => exact agree.empty

end

variable {programs : Request → Prog α} {history : List (Request × Step)} {state : (Request → Prog α) × Pools Request}

/-- Whatever the programs do in whatever order, the machines do the same. -/
theorem serve_refines (leases : ∀ request, Leases (fun _ after => after.Settled) (programs request) .nothing)
    (run : follow serve (programs,{}) history = some state) :
    ∃ events machines, follow poolsStep (fun _ => {}) events = some machines ∧ Refines state machines ∧
      events.filterMap showsOf = history.filterMap seenOf :=
  follow_simulation Refines (fun _ _ _ _ refines taken => refines_step refines taken) (refines_initial leases) run

def CanGo (state : (Request → Prog α) × Pools Request) (request : Request) : Prop :=
  ∃ step after, serve state (request,step) = some after

theorem canGo_of_step {request : Request} {query : Query} {next : query.Answer → Prog α} (answer : query.Answer)
    (asks : state.1 request = .ask query next)
    (stepped : ∃ pools, state.2.step request ⟨query,answer⟩ = some pools) : CanGo state request := by
  obtain ⟨pools,stepped⟩ := stepped
  have advanced : interleave state.1 (request,⟨query,answer⟩) = some (Function.update state.1 request (next answer)) := by
    simp [interleave,asks,Program.advance]
  exact ⟨⟨query,answer⟩,by simp [serve,advanced,stepped]⟩

theorem moves_getClient {holding after : Holding} {service : Service} {answer : Option Client}
    (moves : holding.Moves ⟨.getClient service,answer⟩ after) : holding = .nothing := by
  cases moves with
  | pooled | empty => rfl
  | performed _ _ _ _ _ _ performs => cases performs with | calls _ _ _ _ _ _ _ of => cases of
  | aside _ _ pooling => cases pooling

theorem moves_newClient {holding after : Holding} {service : Service} {answer : Nat}
    (moves : holding.Moves ⟨.newClient service,answer⟩ after) : holding = .making service := by
  cases moves with
  | made => rfl
  | performed _ _ _ _ _ _ performs => cases performs with | calls _ _ _ _ _ _ _ of => cases of
  | aside _ _ pooling => cases pooling

theorem moves_freeClient {holding after : Holding} {service : Service} {client : Client} {usable : Bool} {answer : Unit}
    (moves : holding.Moves ⟨.freeClient service client usable,answer⟩ after) : holding.locks = none := by
  cases moves with
  | freed => rfl
  | performed _ _ _ _ _ _ performs => cases performs with | calls _ _ _ _ _ _ _ of => cases of
  | aside _ _ pooling => cases pooling

/-- Nothing but the pools can make a request wait. -/
theorem step_other (pools : Pools Request) (request : Request) {query : Query} (answer : query.Answer)
    (get : ∀ service, query ≠ .getClient service) (new : ∀ service, query ≠ .newClient service)
    (free : ∀ service client usable, query ≠ .freeClient service client usable) :
    ∃ after, pools.step request ⟨query,answer⟩ = some after := by
  cases query with
  | getClient service => exact absurd rfl (get service)
  | newClient service => exact absurd rfl (new service)
  | freeClient service client usable => exact absurd rfl (free service client usable)
  | openTransport service transport =>
    simp only [Pools.step]
    split <;> exact ⟨_,rfl⟩
  | systemClock | curlInit | curlPerform | curlResponseCode | validateSession | tradeCall => exact ⟨_,rfl⟩

theorem answer_nonempty (query : Query) : Nonempty query.Answer := by
  cases query with
  | systemClock => exact ⟨(0 : Int)⟩
  | getClient | validateSession | tradeCall => exact ⟨none⟩
  | newClient => exact ⟨(0 : Nat)⟩
  | openTransport | curlInit => exact ⟨true⟩
  | freeClient => exact ⟨()⟩
  | curlPerform => exact ⟨(⟨[],0⟩ : Transfer)⟩
  | curlResponseCode => exact ⟨(0 : Int)⟩

theorem step_newClient {pools : Pools Request} {request : Request} {service : Service}
    (locked : pools.clientsMutex service = some request) :
    ∃ (address : Nat) (after : Pools Request), pools.step request ⟨.newClient service,address⟩ = some after := by
  obtain ⟨address,fresh⟩ := Infinite.exists_notMem_finset pools.heap
  exact ⟨address,by simp [Pools.step,locked,fresh]⟩

theorem step_getClient {pools : Pools Request} {service : Service} (unlocked : pools.clientsMutex service = none)
    (request : Request) : ∃ answer after, pools.step request ⟨.getClient service,answer⟩ = some after := by
  rcases (pools.clientSet service).eq_empty_or_nonempty with empty | some_client
  · exact ⟨none,_,by rw [Pools.step,if_pos ⟨unlocked,empty⟩]⟩
  · obtain ⟨client,member,lowest⟩ := Finset.exists_min_image (pools.clientSet service) Client.address some_client
    exact ⟨some client,_,by rw [Pools.step,if_pos ⟨unlocked,member,lowest⟩]⟩

variable {machines : Service → Pool Request}

/-- Who makes a client for a pool that is locked can go on. -/
theorem Refines.lock_goes (refines : Refines state machines) {service : Service} {request : Request}
    (locked : state.2.clientsMutex service = some request) : CanGo state request := by
  obtain ⟨holdings,leases,agree⟩ := refines
  have locks := (agree.locked service request).mp locked
  have keeps := leases request
  cases asks : state.1 request with
  | ret value =>
    rw [asks] at keeps
    have settled : (holdings request).Settled := keeps
    revert settled locks
    generalize holdings request = holding
    cases holding with
    | nothing => simp [Holding.locks]
    | making => simp [Holding.Settled]
    | held _ _ stage => cases stage <;> simp [Holding.locks,Holding.Settled]
  | ask query next =>
    rw [asks] at keeps
    by_cases get : ∃ service, query = .getClient service
    · obtain ⟨of,rfl⟩ := get
      obtain ⟨_,moves,_⟩ := keeps none
      rw [moves_getClient moves] at locks
      cases locks
    by_cases free : ∃ service client usable, query = .freeClient service client usable
    · obtain ⟨of,client,usable,rfl⟩ := free
      obtain ⟨_,moves,_⟩ := keeps ()
      rw [moves_freeClient moves] at locks
      cases locks
    by_cases new : ∃ service, query = .newClient service
    · obtain ⟨of,rfl⟩ := new
      obtain ⟨_,moves,_⟩ := keeps (0 : Nat)
      rw [moves_newClient moves] at locks
      cases locks
      obtain ⟨address,stepped⟩ := step_newClient locked
      exact canGo_of_step address asks stepped
    · obtain ⟨answer⟩ := answer_nonempty query
      push Not at get free new
      exact canGo_of_step answer asks (step_other state.2 request answer get new free)

/-- A request goes on, or waits for a pool that another has locked, who goes on. -/
theorem Refines.goes (refines : Refines state machines) {request : Request}
    (unfinished : (state.1 request).finished = false) :
    CanGo state request ∨ ∃ service other, other ≠ request ∧ state.2.clientsMutex service = some other ∧
      CanGo state other := by
  have refined := refines
  obtain ⟨holdings,leases,agree⟩ := refines
  have keeps := leases request
  have waits {service : Service} {other : Request} (idle : (holdings request).locks = none)
      (locked : state.2.clientsMutex service = some other) : CanGo state request ∨ ∃ service other, other ≠ request ∧
        state.2.clientsMutex service = some other ∧ CanGo state other := by
    refine .inr ⟨service,other,?_,locked,refined.lock_goes locked⟩
    rintro rfl
    have locks := (agree.locked service other).mp locked
    rw [idle] at locks
    cases locks
  cases asks : state.1 request with
  | ret value => simp [asks,Program.finished] at unfinished
  | ask query next =>
    rw [asks] at keeps
    by_cases get : ∃ service, query = .getClient service
    · obtain ⟨service,rfl⟩ := get
      obtain ⟨_,moves,_⟩ := keeps none
      cases locked : state.2.clientsMutex service with
      | none =>
        obtain ⟨answer,stepped⟩ := step_getClient locked request
        exact .inl (canGo_of_step answer asks stepped)
      | some other => exact waits (by rw [moves_getClient moves]; rfl) locked
    by_cases free : ∃ service client usable, query = .freeClient service client usable
    · obtain ⟨service,client,usable,rfl⟩ := free
      obtain ⟨_,moves,_⟩ := keeps ()
      cases locked : state.2.clientsMutex service with
      | none =>
        refine .inl (canGo_of_step () asks ?_)
        rw [Pools.step,if_pos locked]
        split <;> exact ⟨_,rfl⟩
      | some other => exact waits (moves_freeClient moves) locked
    by_cases new : ∃ service, query = .newClient service
    · obtain ⟨service,rfl⟩ := new
      obtain ⟨_,moves,_⟩ := keeps (0 : Nat)
      have locked := (agree.locked service request).mpr (by rw [moves_newClient moves]; rfl)
      exact .inl (refined.lock_goes locked)
    · obtain ⟨answer⟩ := answer_nonempty query
      push Not at get free new
      exact .inl (canGo_of_step answer asks (step_other state.2 request answer get new free))

theorem serve_interleaves {after : (Request → Prog α) × Pools Request} (run : follow serve state history = some after) :
    follow interleave state.1 history = some after.1 := by
  induction history generalizing state with
  | nil =>
    obtain rfl := Option.some.inj run
    rfl
  | cons entry rest ih =>
    obtain ⟨middle,taken,run⟩ := (follow_cons _ _ _ _).mp run
    simp only [serve,Option.bind_eq_bind,Option.bind_eq_some_iff,Option.some.injEq] at taken
    obtain ⟨programs,advanced,pools,_,rfl⟩ := taken
    exact (follow_cons _ _ _ _).mpr ⟨programs,advanced,ih run⟩

/-- Programs that come to an end are served to the end, from wherever they have got to. -/
theorem Refines.completes [Fintype Request] {bounds : Request → Nat} (refines : Refines state machines)
    (within : ∀ request, Within (state.1 request) (bounds request)) :
    ∃ rest after, follow serve state rest = some after ∧ ∀ request, (after.1 request).finished = true := by
  apply @follow_completes _ _ serve (fun state => ∃ machines, Refines state machines)
    (fun state => ∀ request, (state.1 request).finished = true) ?_ ?_ (∑ request, bounds request) state ⟨machines,refines⟩
  · intro rest after run
    obtain ⟨left,_,total⟩ := Within.interleave within (serve_interleaves run)
    omega
  · rintro state event after ⟨machines,refines⟩ taken
    obtain ⟨_,machines',_,refines,_⟩ := refines_step refines taken
    exact ⟨machines',refines⟩
  · rintro state ⟨machines,refines⟩ unfinished
    push Not at unfinished
    obtain ⟨request,unfinished⟩ := unfinished
    rcases refines.goes (by simpa using unfinished) with ⟨step,after,taken⟩ | ⟨_,other,_,_,step,after,taken⟩
    · exact ⟨(request,step),after,taken⟩
    · exact ⟨(other,step),after,taken⟩

end Serve

end FuturesCellProxy.Rpc

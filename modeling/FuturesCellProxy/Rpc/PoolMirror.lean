import FuturesCellProxy.Rpc.SharedPools

/-! The shared pools and the machines of the pools, side by side: what one program does with
its client is a step of one machine, and leaves all that the others hold as it is. -/
namespace FuturesCellProxy.Rpc
open Foundation

/-- One pool and its machine, for what the requests hold of it. -/
structure Mirrors {Request : Type} (service : Service) (holdings : Request → Holding) (clientSet : Finset Client)
    (machine : Pool Request) : Prop where
  members : machine.clientSet = clientSet.image Client.address
  stored : ∀ client ∈ clientSet, machine.wrappers client.address = some client.wrapper
  uses : machine.uses = Holding.use service ∘ holdings
  held : ∀ request address stage wrapper, holdings request = .held service address stage wrapper →
    machine.wrappers address = some wrapper
  ordered : machine.Ordered

section Mirrors
variable {Request : Type} [DecidableEq Request] {service : Service} {holdings : Request → Holding}
  {clientSet : Finset Client} {machine : Pool Request} {request : Request}

theorem held_update {after : Holding} {wrappers : Nat → Option Wrapper}
    (own : ∀ address stage wrapper, after = .held service address stage wrapper → wrappers address = some wrapper)
    (others : ∀ other address stage wrapper, other ≠ request → holdings other = .held service address stage wrapper →
      wrappers address = some wrapper) (other : Request) (address : Nat) (stage : Stage) (wrapper : Wrapper)
    (holds : Function.update holdings request after other = .held service address stage wrapper) :
    wrappers address = some wrapper := by
  by_cases same : other = request
  · subst same
    rw [Function.update_self] at holds
    exact own address stage wrapper holds
  · rw [Function.update_of_ne same] at holds
    exact others other address stage wrapper same holds

theorem Mirrors.elsewhere (mirrors : Mirrors service holdings clientSet machine) {after : Holding}
    (before : (holdings request).use service = none) (behind : after.use service = none) :
    Mirrors service (Function.update holdings request after) clientSet machine := by
  constructor
  case members => exact mirrors.members
  case stored => exact mirrors.stored
  case uses =>
    rw [Function.comp_update,behind,← before,mirrors.uses]
    exact (Function.update_eq_self request _).symm
  case held =>
    apply held_update
    · rintro address stage wrapper rfl
      simp [Holding.use] at behind
    · exact fun other address stage wrapper _ => mirrors.held other address stage wrapper
  case ordered => exact mirrors.ordered

omit [DecidableEq Request] in
/-- Who holds a client is the only one, and the pool has it not. -/
theorem Mirrors.alone (mirrors : Mirrors service holdings clientSet machine) {address : Nat} {stage : Stage}
    {wrapper : Wrapper} (holds : holdings request = .held service address stage wrapper) :
    (∀ client ∈ clientSet, client.address ≠ address) ∧ ∀ other address' stage' wrapper', other ≠ request →
      holdings other = .held service address' stage' wrapper' → address' ≠ address := by
  have used : machine.uses request = some (address,stage) := by
    rw [mirrors.uses,Function.comp_apply,holds]
    simp [Holding.use]
  constructor
  · rintro client member rfl
    apply (mirrors.ordered.held request _ stage used).1
    rw [mirrors.members]
    exact Finset.mem_image_of_mem _ member
  · rintro other address' stage' wrapper' distinct holds' rfl
    apply distinct
    apply mirrors.ordered.alone used
    refine ⟨stage',?_⟩
    rw [mirrors.uses,Function.comp_apply,holds']
    simp [Holding.use]

theorem Mirrors.pooled (mirrors : Mirrors service holdings clientSet machine) {client : Client} (left : Nat)
    (before : holdings request = .nothing) (member : client ∈ clientSet)
    (lowest : ∀ other ∈ clientSet, client.address ≤ other.address) :
    ∃ after, Pool.step service machine (.get request client.address left) = some after ∧
      after.wrappers = machine.wrappers ∧
      Mirrors service (Function.update holdings request (.held service client.address (.attempting left) client.wrapper))
        (clientSet.erase client) after := by
  have unused : machine.uses request = none := by rw [mirrors.uses,Function.comp_apply,before]; rfl
  have first : client.address ∈ machine.clientSet ∧ ∀ other ∈ machine.clientSet, client.address ≤ other := by
    rw [mirrors.members]
    exact ⟨Finset.mem_image_of_mem _ member,by simpa using lowest⟩
  have taken : Pool.step service machine (.get request client.address left) = some {machine with
      clientSet := machine.clientSet.erase client.address
      uses := Function.update machine.uses request (some (client.address,.attempting left))} := by
    rw [Pool.step,if_neg (not_not.mpr unused),if_pos first]
  refine ⟨_,taken,rfl,?_⟩
  constructor
  case members =>
    ext address
    simp only [mirrors.members,Finset.mem_erase,Finset.mem_image]
    constructor
    · rintro ⟨other,client',member',rfl⟩
      exact ⟨client',⟨fun same => other (same ▸ rfl),member'⟩,rfl⟩
    · rintro ⟨client',⟨other,member'⟩,rfl⟩
      refine ⟨fun same => other ?_,client',member',rfl⟩
      have wrappers := mirrors.stored client' member'
      rw [same,mirrors.stored client member] at wrappers
      cases client
      cases client'
      simp_all
  case stored => exact fun client' member' => mirrors.stored client' (Finset.mem_of_mem_erase member')
  case uses =>
    rw [Function.comp_update,mirrors.uses]
    simp [Holding.use]
  case held =>
    apply held_update
    · intro address stage wrapper holds
      cases holds
      exact mirrors.stored client member
    · exact fun other address stage wrapper _ => mirrors.held other address stage wrapper
  case ordered => exact Pool.ordered_step mirrors.ordered taken

theorem Mirrors.made (mirrors : Mirrors service holdings clientSet machine) {address : Nat} (left : Nat)
    (before : holdings request = .making service) (empty : clientSet = ∅) (unused : machine.wrappers address = none) :
    ∃ after, Pool.step service machine (.get request address left) = some after ∧
      after.wrappers = Function.update machine.wrappers address (some (Wrapper.unopened.opening service)) ∧
      Mirrors service (Function.update holdings request
        (.held service address (.constructing left) (Wrapper.unopened.opening service))) clientSet after := by
  have idle : machine.uses request = none := by rw [mirrors.uses,Function.comp_apply,before]; rfl
  have none_pooled : machine.clientSet = ∅ := by rw [mirrors.members,empty,Finset.image_empty]
  have taken : Pool.step service machine (.get request address left) = some {machine with
      wrappers := Function.update machine.wrappers address (some (Wrapper.unopened.opening service))
      uses := Function.update machine.uses request (some (address,.constructing left))
      thrown := Function.update machine.thrown address fun _ => false} := by
    rw [Pool.step,if_neg (not_not.mpr idle),if_neg (by simp [none_pooled]),if_pos ⟨none_pooled,unused⟩]
  refine ⟨_,taken,rfl,?_⟩
  constructor
  case members => exact mirrors.members
  case stored => simp [empty]
  case uses =>
    rw [Function.comp_update,mirrors.uses]
    simp [Holding.use]
  case held =>
    apply held_update
    · intro address stage wrapper holds
      cases holds
      exact Function.update_self _ _ _
    · intro other address' stage wrapper _ holds
      have live := mirrors.held other address' stage wrapper holds
      have distinct : address' ≠ address := by
        rintro rfl
        simp [unused] at live
      exact (Function.update_of_ne distinct _ _).trans live
  case ordered => exact Pool.ordered_step mirrors.ordered taken

/-- What is done on the wrapper that a program holds is done in the memory of the machine. -/
theorem follow_act {address : Nat} {before after : Stage × Wrapper} {actions : List Action}
    (used : machine.uses request = some (address,before.1)) (live : machine.wrappers address = some before.2)
    (reaches : follow (useStep service) before actions = some after) :
    ∃ thrown, follow (Pool.step service) machine (actions.map (.act request)) = some {machine with
      wrappers := Function.update machine.wrappers address (some after.2)
      uses := Function.update machine.uses request (some (address,after.1))
      thrown := thrown} := by
  induction actions generalizing machine before with
  | nil =>
    obtain rfl := Option.some.inj reaches
    refine ⟨machine.thrown,?_⟩
    rw [← used,← live,Function.update_eq_self,Function.update_eq_self]
    rfl
  | cons action actions ih =>
    obtain ⟨middle,moved,reaches⟩ := (follow_cons _ _ _ _).mp reaches
    obtain ⟨middle,changed⟩ := middle
    have taken : Pool.step service machine (.act request action) = some {machine with
        wrappers := Function.update machine.wrappers address (some changed)
        uses := Function.update machine.uses request (some (address,middle))
        thrown := Function.update machine.thrown address (blame (machine.thrown address) before.2 action)} := by
      simp [Pool.step,used,live,moved]
    obtain ⟨thrown,rest⟩ := @ih {machine with
        wrappers := Function.update machine.wrappers address (some changed)
        uses := Function.update machine.uses request (some (address,middle))
        thrown := Function.update machine.thrown address (blame (machine.thrown address) before.2 action)}
      (middle,changed) (Function.update_self _ _ _) (Function.update_self _ _ _) reaches
    refine ⟨thrown,(follow_cons _ _ _ _).mpr ⟨_,taken,?_⟩⟩
    rw [Function.update_idem,Function.update_idem] at rest
    exact rest

theorem Mirrors.performed (mirrors : Mirrors service holdings clientSet machine) {address : Nat}
    {before after : Stage × Wrapper} {actions : List Action}
    (holds : holdings request = .held service address before.1 before.2)
    (reaches : follow (useStep service) before actions = some after) :
    ∃ machine', follow (Pool.step service) machine (actions.map (.act request)) = some machine' ∧
      machine'.wrappers = Function.update machine.wrappers address (some after.2) ∧
      Mirrors service (Function.update holdings request (.held service address after.1 after.2)) clientSet machine' := by
  have used : machine.uses request = some (address,before.1) := by
    rw [mirrors.uses,Function.comp_apply,holds]
    simp [Holding.use]
  obtain ⟨thrown,taken⟩ := follow_act used (mirrors.held request address _ _ holds) reaches
  obtain ⟨unpooled,others⟩ := mirrors.alone holds
  refine ⟨_,taken,rfl,?_⟩
  constructor
  case members => exact mirrors.members
  case stored =>
    intro client member
    exact (Function.update_of_ne (unpooled client member) _ _).trans (mirrors.stored client member)
  case uses =>
    rw [Function.comp_update,mirrors.uses]
    simp [Holding.use]
  case held =>
    apply held_update
    · intro address stage wrapper same
      cases same
      exact Function.update_self _ _ _
    · intro other address' stage wrapper distinct holds'
      have elsewhere := others other address' stage wrapper distinct holds'
      exact (Function.update_of_ne elsewhere _ _).trans (mirrors.held other address' stage wrapper holds')
  case ordered => exact follow_invariant (fun _ _ _ => Pool.ordered_step) mirrors.ordered taken

theorem Mirrors.freed (mirrors : Mirrors service holdings clientSet machine) {address : Nat} {wrapper : Wrapper}
    (holds : holdings request = .held service address .returned wrapper) :
    ∃ after, Pool.step service machine (.free request address) = some after ∧ after.wrappers = machine.wrappers ∧
      Mirrors service (Function.update holdings request .nothing) (insert ⟨address,wrapper⟩ clientSet) after := by
  have used : machine.uses request = some (address,.returned) := by
    rw [mirrors.uses,Function.comp_apply,holds]
    simp [Holding.use]
  have taken : Pool.step service machine (.free request address) = some {machine with
      clientSet := insert address machine.clientSet
      uses := Function.update machine.uses request none} := by
    rw [Pool.step,if_pos used]
  refine ⟨_,taken,rfl,?_⟩
  constructor
  case members => rw [mirrors.members,Finset.image_insert]
  case stored =>
    intro client member
    rcases Finset.mem_insert.mp member with rfl | member
    · exact mirrors.held request _ _ _ holds
    · exact mirrors.stored client member
  case uses =>
    rw [Function.comp_update,mirrors.uses]
    rfl
  case held =>
    apply held_update
    · intro address stage wrapper same
      cases same
    · exact fun other address stage wrapper _ => mirrors.held other address stage wrapper
  case ordered => exact Pool.ordered_step mirrors.ordered taken

theorem Mirrors.dropped (mirrors : Mirrors service holdings clientSet machine) {address : Nat} {wrapper : Wrapper}
    (holds : holdings request = .held service address (.attempting 0) wrapper) :
    ∃ after, Pool.step service machine (.drop request address) = some after ∧
      after.wrappers = Function.update machine.wrappers address none ∧
      Mirrors service (Function.update holdings request .nothing) clientSet after := by
  have used : machine.uses request = some (address,.attempting 0) := by
    rw [mirrors.uses,Function.comp_apply,holds]
    simp [Holding.use]
  have taken : Pool.step service machine (.drop request address) = some {machine with
      wrappers := Function.update machine.wrappers address none
      uses := Function.update machine.uses request none} := by
    rw [Pool.step,if_pos used]
  obtain ⟨unpooled,others⟩ := mirrors.alone holds
  refine ⟨_,taken,rfl,?_⟩
  constructor
  case members => exact mirrors.members
  case stored =>
    intro client member
    exact (Function.update_of_ne (unpooled client member) _ _).trans (mirrors.stored client member)
  case uses =>
    rw [Function.comp_update,mirrors.uses]
    rfl
  case held =>
    apply held_update
    · intro address stage wrapper same
      cases same
    · intro other address' stage wrapper distinct holds'
      have elsewhere := others other address' stage wrapper distinct holds'
      exact (Function.update_of_ne elsewhere _ _).trans (mirrors.held other address' stage wrapper holds')
  case ordered => exact Pool.ordered_step mirrors.ordered taken

end Mirrors

/-- The programs' holdings, the pools, and the machines agree. -/
structure Agree {Request : Type} (holdings : Request → Holding) (pools : Pools Request) (machines : Service → Pool Request) :
    Prop where
  client : pools.client = Holding.client ∘ holdings
  locked : ∀ service request, pools.clientsMutex service = some request ↔ (holdings request).locks = some service
  empty : ∀ service, pools.clientsMutex service ≠ none → pools.clientSet service = ∅
  mirrors : ∀ service, Mirrors service holdings (pools.clientSet service) (machines service)
  alive : ∀ service address, (machines service).wrappers address ≠ none → address ∈ pools.heap
  apart : ∀ service other address, (machines service).wrappers address ≠ none →
    (machines other).wrappers address ≠ none → service = other

section Agree
variable {Request : Type} [DecidableEq Request] {holdings : Request → Holding} {pools pools' : Pools Request}
  {machines : Service → Pool Request} {request : Request} {after : Holding}

theorem follow_tagged {service : Service} {events : List (PoolEvent Request)} {machine : Pool Request}
    (run : follow (Pool.step service) (machines service) events = some machine) :
    follow poolsStep machines (events.map (Prod.mk service)) = some (Function.update machines service machine) := by
  induction events generalizing machines with
  | nil =>
    obtain rfl := Option.some.inj run
    rw [Function.update_eq_self]
    rfl
  | cons event rest ih =>
    obtain ⟨middle,taken,run⟩ := (follow_cons _ _ _ _).mp run
    refine (follow_cons _ _ _ _).mpr ⟨Function.update machines service middle,by rw [poolsStep,taken]; rfl,?_⟩
    have rest_run := @ih (Function.update machines service middle) (by rwa [Function.update_self])
    rwa [Function.update_idem] at rest_run

theorem follow_one {service : Service} {event : PoolEvent Request} {machine : Pool Request}
    (taken : Pool.step service (machines service) event = some machine) :
    follow poolsStep machines [(service,event)] = some (Function.update machines service machine) :=
  @follow_tagged _ _ _ service [event] machine ((follow_cons _ _ _ _).mpr ⟨machine,taken,rfl⟩)

/-- What a program does with one pool leaves all else as it is. -/
theorem Agree.change (agree : Agree holdings pools machines) {service : Service} {machine : Pool Request}
    {clientSet : Finset Client}
    (client : pools'.client = Holding.client ∘ Function.update holdings request after)
    (locked : ∀ of other, pools'.clientsMutex of = some other ↔
      (Function.update holdings request after other).locks = some of)
    (empty : ∀ of, pools'.clientsMutex of ≠ none → pools'.clientSet of = ∅)
    (set : pools'.clientSet service = clientSet)
    (mirrors : Mirrors service (Function.update holdings request after) clientSet machine)
    (elsewhere : ∀ other ≠ service, pools'.clientSet other = pools.clientSet other ∧
      (holdings request).use other = none ∧ after.use other = none)
    (domain : ∀ address, machine.wrappers address ≠ none →
      address ∈ pools'.heap ∧ ((machines service).wrappers address ≠ none ∨ address ∉ pools.heap))
    (heap : ∀ other ≠ service, ∀ address, (machines other).wrappers address ≠ none → address ∈ pools'.heap) :
    Agree (Function.update holdings request after) pools' (Function.update machines service machine) := by
  have distinct {other : Service} {address : Nat} (different : other ≠ service)
      (one : machine.wrappers address ≠ none) (two : (machines other).wrappers address ≠ none) : False := by
    rcases (domain address one).2 with old | fresh
    · exact different (agree.apart other service address two old)
    · exact fresh (agree.alive other address two)
  constructor
  case client => exact client
  case locked => exact locked
  case empty => exact empty
  case mirrors =>
    intro other
    by_cases same : other = service
    · subst same
      rwa [Function.update_self,set]
    · obtain ⟨set,before,behind⟩ := elsewhere other same
      rw [Function.update_of_ne same,set]
      exact (agree.mirrors other).elsewhere before behind
  case alive =>
    intro other address live
    by_cases same : other = service
    · subst same
      rw [Function.update_self] at live
      exact (domain address live).1
    · rw [Function.update_of_ne same] at live
      exact heap other same address live
  case apart =>
    intro one two address live live'
    by_cases first : one = service <;> by_cases second : two = service
    · rw [first,second]
    · subst first
      rw [Function.update_self] at live
      rw [Function.update_of_ne second] at live'
      exact (distinct second live live').elim
    · subst second
      rw [Function.update_of_ne first] at live
      rw [Function.update_self] at live'
      exact (distinct first live' live).elim
    · rw [Function.update_of_ne first] at live
      rw [Function.update_of_ne second] at live'
      exact agree.apart one two address live live'

/-- A move that locks and unlocks nothing. -/
theorem Agree.locked_same (agree : Agree holdings pools machines) (same : after.locks = (holdings request).locks)
    (service : Service) (other : Request) : pools.clientsMutex service = some other ↔
      (Function.update holdings request after other).locks = some service := by
  rw [agree.locked]
  by_cases own : other = request
  · subst own
    rw [Function.update_self,same]
  · rw [Function.update_of_ne own]

theorem Holding.use_other {service other : Service} (different : other ≠ service) (address : Nat) (stage : Stage)
    (wrapper : Wrapper) : (Holding.held service address stage wrapper).use other = none := by
  rw [Holding.use,if_neg (Ne.symm different)]

/-- How a move is matched by the machines. -/
def Matched (holdings : Request → Holding) (pools : Pools Request) (machines : Service → Pool Request)
    (shown : List (Request × Service × Seen)) : Prop :=
  ∃ events machines', follow poolsStep machines events = some machines' ∧ Agree holdings pools machines' ∧
    events.filterMap showsOf = shown

theorem Agree.pooled (agree : Agree holdings pools machines) {service : Service} {client : Client} (left : Nat)
    (before : holdings request = .nothing) (taken : pools.step request ⟨.getClient service,some client⟩ = some pools') :
    Matched (Function.update holdings request (.held service client.address (.attempting left) client.wrapper)) pools'
      machines [(request,service,.got client.address)] := by
  simp only [Pools.step] at taken
  split at taken
  next lowest =>
    cases taken
    obtain ⟨unlocked,member,lowest⟩ := lowest
    obtain ⟨machine,got,same,mirrors⟩ := (agree.mirrors service).pooled left before member lowest
    refine ⟨_,_,follow_one got,?_,rfl⟩
    apply agree.change
    case client => rw [Function.comp_update,← agree.client]; rfl
    case locked => exact agree.locked_same (by rw [before]; rfl)
    case empty =>
      intro of locked
      have other : of ≠ service := fun same => locked (same ▸ unlocked)
      exact (Function.update_of_ne other _ _).trans (agree.empty of locked)
    case set => exact Function.update_self _ _ _
    case mirrors => exact mirrors
    case elsewhere =>
      intro other different
      exact ⟨Function.update_of_ne different _ _,by rw [before]; rfl,Holding.use_other different _ _ _⟩
    case domain =>
      intro address live
      rw [same] at live
      exact ⟨agree.alive service address live,.inl live⟩
    case heap => exact fun other _ address => agree.alive other address
  next => cases taken

theorem Agree.empties (agree : Agree holdings pools machines) {service : Service} (before : holdings request = .nothing)
    (taken : pools.step request ⟨.getClient service,none⟩ = some pools') :
    Matched (Function.update holdings request (.making service)) pools' machines [] := by
  simp only [Pools.step] at taken
  split at taken
  next empty =>
    cases taken
    obtain ⟨unlocked,empty⟩ := empty
    refine ⟨[],machines,rfl,?_,rfl⟩
    rw [← Function.update_eq_self service machines]
    have unused (of : Service) : (holdings request).use of = none := by rw [before]; rfl
    apply agree.change
    case client =>
      rw [Function.comp_update,agree.client]
      exact (Function.update_eq_iff.mpr ⟨by rw [Function.comp_apply,before]; rfl,fun _ _ => rfl⟩).symm
    case locked =>
      intro of other
      have free : (holdings other).locks ≠ some service := by
        rw [Ne,← agree.locked,unlocked]
        exact fun absurd => nomatch absurd
      by_cases own : other = request <;> by_cases same : of = service
      · subst own same
        simp [Holding.locks]
      · subst own
        have idle := agree.locked of other
        simp only [before,Holding.locks] at idle
        simpa [Holding.locks,Function.update_of_ne same,Ne.symm same] using idle
      · subst same
        simpa [Function.update_of_ne own,Ne.symm own] using free
      · simpa [Function.update_of_ne own,Function.update_of_ne same] using agree.locked of other
    case empty =>
      intro of locked
      by_cases same : of = service
      · rwa [same]
      · exact agree.empty of fun free => locked ((Function.update_of_ne same _ _).trans free)
    case set => rfl
    case mirrors => exact (agree.mirrors service).elsewhere (unused service) rfl
    case elsewhere => exact fun other _ => ⟨rfl,unused other,rfl⟩
    case domain => exact fun address live => ⟨agree.alive service address live,.inl live⟩
    case heap => exact fun other _ address => agree.alive other address
  next => cases taken

theorem Agree.made (agree : Agree holdings pools machines) {service : Service} {address : Nat} (left : Nat)
    (before : holdings request = .making service)
    (taken : pools.step request ⟨.newClient service,address⟩ = some pools') :
    Matched (Function.update holdings request (.held service address (.constructing left)
      (Wrapper.unopened.opening service))) pools' machines [(request,service,.got address)] := by
  simp only [Pools.step] at taken
  split at taken
  next fresh =>
    cases taken
    obtain ⟨locked,fresh⟩ := fresh
    have empty := agree.empty service (by rw [locked]; exact fun absurd => nomatch absurd)
    have unused : (machines service).wrappers address = none := by
      by_contra live
      exact fresh (agree.alive service address live)
    obtain ⟨machine,got,same,mirrors⟩ := (agree.mirrors service).made left before empty unused
    refine ⟨_,_,follow_one got,?_,rfl⟩
    apply agree.change
    case client => rw [Function.comp_update,← agree.client]; rfl
    case locked => exact agree.locked_same (by rw [before]; rfl)
    case empty => exact agree.empty
    case set => rfl
    case mirrors => exact mirrors
    case elsewhere =>
      intro other different
      exact ⟨rfl,by rw [before]; rfl,Holding.use_other different _ _ _⟩
    case domain =>
      intro other live
      by_cases own : other = address
      · subst own
        exact ⟨Finset.mem_insert_self _ _,.inr fresh⟩
      · rw [same,Function.update_of_ne own] at live
        exact ⟨Finset.mem_insert_of_mem (agree.alive service other live),.inl live⟩
    case heap => exact fun other _ address live => Finset.mem_insert_of_mem (agree.alive other address live)
  next => cases taken

omit [DecidableEq Request] in
theorem shows_unseen {service : Service} {unseen : List Action} (tests : Unseen unseen) (action : Action) :
    ((unseen ++ [action]).map fun action => (service,PoolEvent.act request action)).filterMap showsOf =
      (action.shows.map fun what => (request,service,what)).toList := by
  have silent : (unseen.map fun action => (service,PoolEvent.act request action)).filterMap showsOf = [] := by
    rw [List.filterMap_eq_nil_iff]
    intro event member
    obtain ⟨action,inside,rfl⟩ := List.mem_map.mp member
    rw [tests action inside]
    rfl
  rw [List.map_append,List.filterMap_append,silent,List.nil_append]
  cases action <;> rfl

omit [DecidableEq Request] in
theorem Performs.shows {service : Service} {before after : Stage × Wrapper} {step : Step} {actions : List Action}
    (performs : Performs service before step actions after) :
    (actions.map fun action => (service,PoolEvent.act request action)).filterMap showsOf = (seenOf (request,step)).toList := by
  cases performs with
  | opens _ _ _ _ _ tests => exact shows_unseen tests _
  | calls _ _ _ _ tests _ _ of =>
    rw [shows_unseen tests]
    obtain ⟨query,answer⟩ := step
    cases query with
    | validateSession client session =>
      cases of
      cases answer <;> rfl
    | tradeCall client request =>
      cases of
      cases answer <;> rfl
    | _ => cases of

omit [DecidableEq Request] in
theorem Holding.locks_held {service : Service} {address : Nat} {stage : Stage} {wrapper : Wrapper}
    (leaves : ∀ left, stage ≠ .constructing left) : (Holding.held service address stage wrapper).locks = none := by
  cases stage with
  | constructing left => exact absurd rfl (leaves left)
  | _ => rfl

/-- What a program does with its wrapper does nothing to the pools, but for the constructor's end. -/
theorem Performs.unlocks {service : Service} {address : Nat} {before after : Stage × Wrapper} {step : Step}
    {actions : List Action} (performs : Performs service before step actions after)
    (agree : Agree holdings pools machines) (holds : holdings request = .held service address before.1 before.2)
    (taken : pools.step request step = some pools') :
    pools' = pools ∧ (∀ left, before.1 ≠ .constructing left) ∨
      pools' = {pools with clientsMutex := Function.update pools.clientsMutex service none} ∧
        pools.clientsMutex service = some request := by
  have locks : pools.clientsMutex service = some request ↔ ∃ left, before.1 = .constructing left := by
    rw [agree.locked,holds]
    cases before.1 <;> simp [Holding.locks]
  by_cases locked : pools.clientsMutex service = some request
  · obtain ⟨transport,ok,rfl⟩ := performs.leaves.2 (locks.mp locked)
    simp only [Pools.step,if_pos locked] at taken
    cases taken
    exact .inr ⟨rfl,locked⟩
  · refine .inl ⟨?_,fun left constructing => locked (locks.mpr ⟨left,constructing⟩)⟩
    cases performs with
    | opens =>
      simp only [Pools.step,if_neg locked] at taken
      cases taken
      rfl
    | calls _ _ _ _ _ _ _ of =>
      obtain ⟨query,answer⟩ := step
      cases query with
      | validateSession | tradeCall =>
        cases taken
        rfl
      | _ => cases of

theorem Agree.performed (agree : Agree holdings pools machines) {service : Service} {address : Nat}
    {before after : Stage × Wrapper} {step : Step} {actions : List Action} (performs : Performs service before step actions after)
    (holds : holdings request = .held service address before.1 before.2) (taken : pools.step request step = some pools') :
    Matched (Function.update holdings request (.held service address after.1 after.2)) pools' machines
      (seenOf (request,step)).toList := by
  obtain ⟨machine,acts,same,mirrors⟩ := (agree.mirrors service).performed holds performs.reaches
  have live : (machines service).wrappers address = some before.2 := (agree.mirrors service).held request _ _ _ holds
  have tagged := follow_tagged acts
  rw [List.map_map] at tagged
  refine ⟨_,_,tagged,?_,performs.shows⟩
  have unlocked : (Holding.held service address after.1 after.2).locks = none := Holding.locks_held performs.leaves.1
  have client : pools.client = Holding.client ∘ Function.update holdings request (.held service address after.1 after.2) := by
    rw [Function.comp_update,agree.client]
    exact (Function.update_eq_iff.mpr ⟨by rw [Function.comp_apply,holds]; rfl,fun _ _ => rfl⟩).symm
  have elsewhere (other : Service) (different : other ≠ service) : pools.clientSet other = pools.clientSet other ∧
      (holdings request).use other = none ∧ (Holding.held service address after.1 after.2).use other = none := by
    rw [holds]
    exact ⟨rfl,Holding.use_other different _ _ _,Holding.use_other different _ _ _⟩
  have domain (other : Nat) (used : machine.wrappers other ≠ none) : (machines service).wrappers other ≠ none := by
    by_cases own : other = address
    · subst own
      rw [live]
      exact Option.some_ne_none _
    · rwa [same,Function.update_of_ne own] at used
  rcases performs.unlocks agree holds taken with ⟨rfl,leaves⟩ | ⟨rfl,locked⟩
  · apply agree.change client _ agree.empty rfl mirrors elsewhere
    · exact fun other used => ⟨agree.alive service other (domain other used),.inl (domain other used)⟩
    · exact fun other _ address => agree.alive other address
    · exact agree.locked_same (by rw [unlocked,holds,Holding.locks_held leaves])
  · apply agree.change
    case client => exact client
    case set => rfl
    case mirrors => exact mirrors
    case elsewhere => exact elsewhere
    case domain => exact fun other used => ⟨agree.alive service other (domain other used),.inl (domain other used)⟩
    case heap => exact fun other _ address => agree.alive other address
    case locked =>
      intro of other
      by_cases own : other = request <;> by_cases same : of = service
      · subst own same
        simp [unlocked]
      · subst own
        have locks := (agree.locked service other).mp locked
        have idle := agree.locked of other
        rw [locks] at idle
        simpa [unlocked,Function.update_of_ne same,Ne.symm same] using idle
      · subst same
        have held := agree.locked of other
        rw [locked] at held
        simpa [Function.update_of_ne own,Ne.symm own] using held
      · simpa [Function.update_of_ne own,Function.update_of_ne same] using agree.locked of other
    case empty =>
      intro of still
      by_cases same : of = service
      · subst same
        exact absurd (Function.update_self _ _ _) still
      · exact agree.empty of fun free => still ((Function.update_of_ne same _ _).trans free)

theorem Agree.freed (agree : Agree holdings pools machines) {service : Service} {address : Nat} {wrapper : Wrapper}
    (holds : holdings request = .held service address .returned wrapper)
    (taken : pools.step request ⟨.freeClient service ⟨address,wrapper⟩ true,()⟩ = some pools') :
    Matched (Function.update holdings request .nothing) pools' machines [(request,service,.freed address)] := by
  simp only [Pools.step,if_true] at taken
  split at taken
  next unlocked =>
    cases taken
    obtain ⟨machine,freed,same,mirrors⟩ := (agree.mirrors service).freed holds
    refine ⟨_,_,follow_one freed,?_,rfl⟩
    apply agree.change
    case client => rw [Function.comp_update,← agree.client]; rfl
    case locked => exact agree.locked_same (by rw [holds]; rfl)
    case empty =>
      intro of locked
      have other : of ≠ service := fun same => locked (same ▸ unlocked)
      exact (Function.update_of_ne other _ _).trans (agree.empty of locked)
    case set => exact Function.update_self _ _ _
    case mirrors => exact mirrors
    case elsewhere =>
      intro other different
      exact ⟨Function.update_of_ne different _ _,by rw [holds]; exact Holding.use_other different _ _ _,rfl⟩
    case domain =>
      intro other live
      rw [same] at live
      exact ⟨agree.alive service other live,.inl live⟩
    case heap => exact fun other _ address => agree.alive other address
  next => cases taken

/-- A request that is over has left nothing behind. -/
theorem Agree.left (agree : Agree holdings pools machines) (settled : (holdings request).Settled) :
    Matched (Function.update holdings request .nothing) (pools.leave request) machines [] := by
  cases holds : holdings request with
  | nothing =>
    refine ⟨[],machines,rfl,?_,rfl⟩
    have none_held : pools.client request = none := by
      rw [agree.client,Function.comp_apply,holds]
      rfl
    rw [← holds,Function.update_eq_self,Pools.leave,none_held]
    exact agree
  | making service => simp [holds,Holding.Settled] at settled
  | held service address stage wrapper =>
    obtain rfl : stage = .attempting 0 := by
      simp only [holds,Holding.Settled] at settled
      split at settled <;> simp_all
    have held : pools.client request = some address := by
      rw [agree.client,Function.comp_apply,holds]
      rfl
    obtain ⟨machine,dropped,same,mirrors⟩ := (agree.mirrors service).dropped holds
    have live : (machines service).wrappers address ≠ none := by
      rw [(agree.mirrors service).held request _ _ _ holds]
      exact Option.some_ne_none _
    refine ⟨_,_,follow_one dropped,?_,rfl⟩
    rw [Pools.leave,held]
    apply agree.change
    case client => rw [Function.comp_update,← agree.client]; rfl
    case locked => exact agree.locked_same (by rw [holds]; rfl)
    case empty => exact agree.empty
    case set => rfl
    case mirrors => exact mirrors
    case elsewhere =>
      intro other different
      exact ⟨rfl,by rw [holds]; exact Holding.use_other different _ _ _,rfl⟩
    case domain =>
      intro other used
      have distinct : other ≠ address := by
        rintro rfl
        simp [same] at used
      rw [same,Function.update_of_ne distinct] at used
      exact ⟨Finset.mem_erase_of_ne_of_mem distinct (agree.alive service other used),.inl used⟩
    case heap =>
      intro other different address' used
      have distinct : address' ≠ address := by
        rintro rfl
        exact different (agree.apart other service address' used live)
      exact Finset.mem_erase_of_ne_of_mem distinct (agree.alive other address' used)

/-- Every move of a program is one of the machines. -/
theorem Agree.moved (agree : Agree holdings pools machines) {step : Step} (moves : (holdings request).Moves step after)
    (taken : pools.step request step = some pools') :
    Matched (Function.update holdings request after) pools' machines (seenOf (request,step)).toList := by
  generalize holds : holdings request = holding at moves
  cases moves with
  | pooled service client left => exact agree.pooled left holds taken
  | empty service => exact agree.empties holds taken
  | made service address left => exact agree.made left holds taken
  | performed service address before after step actions performs => exact agree.performed performs holds taken
  | freed service address wrapper => exact agree.freed holds taken
  | aside _ _ pooling services =>
    obtain ⟨query,answer⟩ := step
    rw [← holds,Function.update_eq_self]
    cases query with
    | systemClock | curlInit | curlPerform | curlResponseCode =>
      cases taken
      exact ⟨[],machines,rfl,agree,rfl⟩
    | validateSession | tradeCall => cases services
    | _ => cases pooling

end Agree

end FuturesCellProxy.Rpc

import Mathlib.Data.List.Basic

/-! Machines that take one event after the other, each where it can occur. An event says
all that is not determined by the state: who moves, and what the environment answers. -/
namespace FuturesCellProxy.Foundation
variable {State Event : Type} (step : State → Event → Option State)

/-- The state after these events, if each can occur where it comes. -/
def follow : State → List Event → Option State
  | state, [] => some state
  | state, event :: rest => (step state event).bind fun after => follow after rest

/-- Each step of a run is one that is allowed in the state before it. -/
def Along (allowed : State → Event → Prop) : State → List Event → Prop
  | _, [] => True
  | state, event :: rest => allowed state event ∧ ∀ after, step state event = some after → Along allowed after rest

/-- A property of every state that a run goes through. -/
def Always (holds : State → Prop) : State → List Event → Prop
  | state, [] => holds state
  | state, event :: rest => holds state ∧ ∀ after, step state event = some after → Always holds after rest

variable {step}

@[simp] theorem follow_nil (state : State) : follow step state [] = some state := rfl

@[simp] theorem follow_cons (state after : State) (event : Event) (rest : List Event) :
    follow step state (event :: rest) = some after ↔
      ∃ middle, step state event = some middle ∧ follow step middle rest = some after := by
  simp [follow,Option.bind_eq_some_iff]

@[simp] theorem follow_append (state after : State) (first second : List Event) :
    follow step state (first ++ second) = some after ↔
      ∃ middle, follow step state first = some middle ∧ follow step middle second = some after := by
  induction first generalizing state with
  | nil => simp
  | cons event first ih =>
    simp only [List.cons_append,follow_cons,ih]
    constructor
    · rintro ⟨next,taken,middle,run,rest⟩
      exact ⟨middle,⟨next,taken,run⟩,rest⟩
    · rintro ⟨middle,⟨next,taken,run⟩,rest⟩
      exact ⟨next,taken,middle,run,rest⟩

/-- What a step keeps, a run keeps; the past is what has occurred so far. -/
theorem follow_history {Inv : List Event → State → Prop}
    (keeps : ∀ past state event after, Inv past state → step state event = some after → Inv (past ++ [event]) after)
    {past : List Event} {state after : State} {events : List Event} (holds : Inv past state)
    (run : follow step state events = some after) : Inv (past ++ events) after := by
  induction events generalizing past state with
  | nil =>
    obtain rfl := Option.some.inj run
    simpa using holds
  | cons event rest ih =>
    obtain ⟨middle,taken,run⟩ := (follow_cons _ _ _ _).mp run
    have next := ih (keeps past state event middle holds taken) run
    rwa [List.append_assoc] at next

theorem follow_invariant {Inv : State → Prop}
    (keeps : ∀ state event after, Inv state → step state event = some after → Inv after)
    {state after : State} {events : List Event} (holds : Inv state) (run : follow step state events = some after) :
    Inv after :=
  @follow_history _ _ _ (fun _ => Inv) (fun _ => keeps) [] _ _ _ holds run

/-- The same for the runs that take only allowed steps. -/
theorem follow_along {allowed : State → Event → Prop} {Inv : State → Prop}
    (keeps : ∀ state event after, Inv state → allowed state event → step state event = some after → Inv after)
    {state after : State} {events : List Event} (holds : Inv state) (along : Along step allowed state events)
    (run : follow step state events = some after) : Inv after := by
  induction events generalizing state with
  | nil =>
    obtain rfl := Option.some.inj run
    exact holds
  | cons event rest ih =>
    obtain ⟨middle,taken,run⟩ := (follow_cons _ _ _ _).mp run
    exact ih (keeps state event middle holds along.1 taken) (along.2 middle taken) run

theorem along_of_forall {allowed : State → Event → Prop} {state : State} {events : List Event}
    (all : ∀ event ∈ events, ∀ state, allowed state event) : Along step allowed state events := by
  induction events generalizing state with
  | nil => trivial
  | cons event rest ih =>
    refine ⟨all event List.mem_cons_self state,fun after _ => ?_⟩
    exact ih fun other member => all other (List.mem_cons_of_mem _ member)

/-- A run of allowed steps is also one of other steps, if these are allowed wherever the
former are. -/
theorem along_of_along {allowed other : State → Event → Prop} (Inv : State → Prop)
    (keeps : ∀ state event after, Inv state → allowed state event → step state event = some after → Inv after)
    (weaker : ∀ state event, Inv state → allowed state event → other state event)
    {state : State} {events : List Event} (initial : Inv state) (along : Along step allowed state events) :
    Along step other state events := by
  induction events generalizing state with
  | nil => trivial
  | cons event rest ih =>
    refine ⟨weaker state event initial along.1,fun after taken => ?_⟩
    exact ih (keeps state event after initial along.1 taken) (along.2 after taken)

theorem always_head {holds : State → Prop} {state : State} {events : List Event}
    (always : Always step holds state events) : holds state := by
  cases events with
  | nil => exact always
  | cons event rest => exact always.1

theorem always_of_along {allowed : State → Event → Prop} {holds : State → Prop} (Inv : State → Prop)
    (keeps : ∀ state event after, Inv state → allowed state event → step state event = some after → Inv after)
    (sound : ∀ state, Inv state → holds state) {state : State} {events : List Event} (initial : Inv state)
    (along : Along step allowed state events) : Always step holds state events := by
  induction events generalizing state with
  | nil => exact sound state initial
  | cons event rest ih =>
    refine ⟨sound state initial,fun after taken => ?_⟩
    exact ih (keeps state event after initial along.1 taken) (along.2 after taken)

/-- Where each step that is not allowed breaks the property at once, the allowed runs are
those that keep it. -/
theorem always_iff_along {allowed : State → Event → Prop} {holds : State → Prop} (Inv : State → Prop)
    (keeps : ∀ state event after, Inv state → allowed state event → step state event = some after → Inv after)
    (sound : ∀ state, Inv state → holds state)
    (breaks : ∀ state event, Inv state → ¬ allowed state event →
      ∃ after, step state event = some after ∧ ¬ holds after)
    {state : State} {events : List Event} (initial : Inv state) :
    Always step holds state events ↔ Along step allowed state events := by
  constructor
  · intro always
    induction events generalizing state with
    | nil => trivial
    | cons event rest ih =>
      by_cases ok : allowed state event
      · refine ⟨ok,fun after taken => ?_⟩
        exact ih (keeps state event after initial ok taken) (always.2 after taken)
      · obtain ⟨after,taken,broken⟩ := breaks state event initial ok
        exact absurd (always_head (always.2 after taken)) broken
  · exact always_of_along Inv keeps sound initial

/-- Where runs are bounded and only the final states end them, every run can be carried to
such an end. -/
theorem follow_completes {Inv final : State → Prop}
    (keeps : ∀ state event after, Inv state → step state event = some after → Inv after)
    (progress : ∀ state, Inv state → ¬ final state → ∃ event after, step state event = some after)
    (bound : Nat) {state : State} (holds : Inv state)
    (bounded : ∀ rest after, follow step state rest = some after → rest.length ≤ bound) :
    ∃ rest after, follow step state rest = some after ∧ final after := by
  induction bound generalizing state with
  | zero =>
    by_cases ended : final state
    · exact ⟨[],state,rfl,ended⟩
    · obtain ⟨event,after,taken⟩ := progress state holds ended
      have short := bounded [event] after ((follow_cons _ _ _ _).mpr ⟨after,taken,rfl⟩)
      simp at short
  | succ bound ih =>
    by_cases ended : final state
    · exact ⟨[],state,rfl,ended⟩
    · obtain ⟨event,middle,taken⟩ := progress state holds ended
      obtain ⟨rest,after,run,ended⟩ := ih (keeps state event middle holds taken) fun rest after run => by
        have short := bounded (event :: rest) after ((follow_cons _ _ _ _).mpr ⟨middle,taken,run⟩)
        simpa using short
      exact ⟨event :: rest,after,(follow_cons _ _ _ _).mpr ⟨middle,taken,run⟩,ended⟩

/-- Forward simulation: a machine whose every step is matched by a run of another that shows
the same has no run that the other has not. -/
theorem follow_simulation {State' Event' Seen : Type} {step' : State' → Event' → Option State'}
    {shows : Event → Option Seen} {shows' : Event' → Option Seen} (R : State → State' → Prop)
    (matched : ∀ state state' event after, R state state' → step state event = some after →
      ∃ events after', follow step' state' events = some after' ∧ R after after' ∧
        events.filterMap shows' = (shows event).toList)
    {state after : State} {state' : State'} {events : List Event} (related : R state state')
    (run : follow step state events = some after) :
    ∃ events' after', follow step' state' events' = some after' ∧ R after after' ∧
      events'.filterMap shows' = events.filterMap shows := by
  induction events generalizing state state' with
  | nil =>
    obtain rfl := Option.some.inj run
    exact ⟨[],state',rfl,related,rfl⟩
  | cons event rest ih =>
    obtain ⟨middle,taken,run⟩ := (follow_cons _ _ _ _).mp run
    obtain ⟨first,middle',reaches,related,shown⟩ := matched state state' event middle related taken
    obtain ⟨second,after',behind,related,rest_shown⟩ := ih related run
    refine ⟨first ++ second,after',(follow_append _ _ _ _).mpr ⟨middle',reaches,behind⟩,related,?_⟩
    rw [List.filterMap_append,shown,rest_shown]
    cases seen : shows event <;> simp [seen]

end FuturesCellProxy.Foundation

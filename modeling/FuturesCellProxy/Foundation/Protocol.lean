import FuturesCellProxy.Foundation.Interleaving
import Mathlib.Algebra.BigOperators.Group.Finset.Piecewise

/-! Programs that keep a protocol: each event moves its state, whatever the environment
answers, and the program ends where it may end. The rules follow the program, and carry
over to programs that go on side by side. Nothing here is specific to one protocol. -/
namespace FuturesCellProxy.Foundation
variable {Query : Type} {Answer : Query → Type} {α β σ State ι : Type}

/-- From this state on, every event of the program moves the protocol, and the end of the
program is one that the postcondition admits. -/
def Keeps (moves : State → Event Query Answer → State → Prop) (post : α → State → Prop) :
    Program Query Answer α → State → Prop
  | .ret value, state => post value state
  | .ask query next, state => ∀ answer, ∃ after, moves state ⟨query,answer⟩ after ∧ Keeps moves post (next answer) after

/-- Whatever is answered, the program asks nothing but this. -/
def Asks (allowed : Query → Prop) : Program Query Answer α → Prop
  | .ret _ => True
  | .ask query next => allowed query ∧ ∀ answer, Asks allowed (next answer)

def Program.finished : Program Query Answer α → Bool
  | .ret _ => true
  | .ask _ _ => false

section Asks
variable {allowed : Query → Prop}

theorem Asks.pure (value : α) : Asks allowed (Pure.pure value : Program Query Answer α) := trivial

theorem Asks.call {query : Query} (may : allowed query) :
    Asks allowed (Program.call query : Program Query Answer _) :=
  ⟨may,fun _ => trivial⟩

theorem Asks.bind {program : Program Query Answer α} {after : α → Program Query Answer β}
    (first : Asks allowed program) (second : ∀ value, Asks allowed (after value)) : Asks allowed (program >>= after) := by
  change Asks allowed (program.bind after)
  induction program with
  | ret value => exact second value
  | ask query next ih => exact ⟨first.1,fun answer => ih answer (first.2 answer)⟩

end Asks

namespace Keeps
variable {moves : State → Event Query Answer → State → Prop} {post : α → State → Prop} {state : State}

theorem pure {value : α} (holds : post value state) : Keeps moves post (Pure.pure value : Program Query Answer α) state :=
  holds

theorem call {query : Query} {post : Answer query → State → Prop}
    (answered : ∀ answer, ∃ after, moves state ⟨query,answer⟩ after ∧ post answer after) :
    Keeps moves post (Program.call query : Program Query Answer _) state :=
  answered

theorem mono {post' : α → State → Prop} {program : Program Query Answer α} (keeps : Keeps moves post program state)
    (weaker : ∀ value after, post value after → post' value after) : Keeps moves post' program state := by
  induction program generalizing state with
  | ret value => exact weaker value state keeps
  | ask query next ih =>
    intro answer
    obtain ⟨after,moved,rest⟩ := keeps answer
    exact ⟨after,moved,ih answer rest⟩

theorem bind' {post : β → State → Prop} {program : Program Query Answer α} {after : α → Program Query Answer β}
    (keeps : Keeps moves (fun value middle => Keeps moves post (after value) middle) program state) :
    Keeps moves post (program.bind after) state := by
  induction program generalizing state with
  | ret value => exact keeps
  | ask query next ih =>
    intro answer
    obtain ⟨middle,moved,rest⟩ := keeps answer
    exact ⟨middle,moved,ih answer rest⟩

theorem bind {post : β → State → Prop} {program : Program Query Answer α} {after : α → Program Query Answer β}
    (middle : α → State → Prop) (first : Keeps moves middle program state)
    (second : ∀ value between, middle value between → Keeps moves post (after value) between) :
    Keeps moves post (program >>= after) state :=
  bind' (first.mono second)

theorem map {post : β → State → Prop} {program : Program Query Answer α} {f : α → β}
    (keeps : Keeps moves (fun value => post (f value)) program state) : Keeps moves post (f <$> program) state :=
  bind' keeps

/-- What is asked leaves the protocol where it is. -/
theorem of_asks {allowed : Query → Prop} {program : Program Query Answer α} (asks : Asks allowed program)
    (stays : ∀ event : Event Query Answer, allowed event.query → moves state event state) :
    Keeps moves (fun _ after => after = state) program state := by
  induction program with
  | ret value => rfl
  | ask query next ih => exact fun answer => ⟨state,stays ⟨query,answer⟩ asks.1,ih answer (asks.2 answer)⟩

theorem asks_bind {allowed : Query → Prop} {post : β → State → Prop} {program : Program Query Answer α}
    {after : α → Program Query Answer β} (asks : Asks allowed program)
    (stays : ∀ event : Event Query Answer, allowed event.query → moves state event state)
    (second : ∀ value, Keeps moves post (after value) state) : Keeps moves post (program >>= after) state := by
  apply bind _ (of_asks asks stays)
  rintro value _ rfl
  exact second value

/-- A retry loop keeps what each attempt keeps, with the number of attempts that are left. -/
theorem retry {attempt : σ → Program Query Answer (σ × Option α)} (at_ : Nat → σ → State → Prop)
    (done : σ → α → State → Prop)
    (each : ∀ left value state, at_ (left+1) value state → Keeps moves (fun result after =>
      result.2.elim (at_ left result.1 after) fun answer => done result.1 answer after) (attempt value) state)
    (left : Nat) (value : σ) (starts : at_ left value state) :
    Keeps moves (fun result after => result.2.elim (at_ 0 result.1 after) fun answer => done result.1 answer after)
      (Program.retry attempt left value) state := by
  induction left generalizing value state with
  | zero => exact starts
  | succ left ih =>
    apply bind'
    apply (each left value state starts).mono
    rintro ⟨value,answer⟩ after reached
    cases answer with
    | some answer => exact reached
    | none => exact ih value reached

section Advance
variable [DecidableEq Query]

/-- The event that a program takes moves its protocol. -/
theorem advance {program rest : Program Query Answer α} {event : Event Query Answer} (keeps : Keeps moves post program state)
    (taken : program.advance event = some rest) : ∃ after, moves state event after ∧ Keeps moves post rest after := by
  cases program with
  | ret value => cases taken
  | ask query next =>
    obtain ⟨asked,answer⟩ := event
    rw [Program.advance] at taken
    split at taken
    next same =>
      cases same
      cases taken
      exact keeps answer
    next => cases taken

/-- So it does with programs side by side, where the others stay as they are. -/
theorem interleave [DecidableEq ι] {programs after : ι → Program Query Answer α} {states : ι → State}
    {entry : ι × Event Query Answer} (keeps : ∀ i, Keeps moves post (programs i) (states i))
    (taken : interleave programs entry = some after) :
    ∃ state, moves (states entry.1) entry.2 state ∧
      ∀ i, Keeps moves post (after i) (Function.update states entry.1 state i) := by
  obtain ⟨rest,advanced,rfl⟩ := Option.map_eq_some_iff.mp taken
  obtain ⟨state,moved,kept⟩ := (keeps entry.1).advance advanced
  refine ⟨state,moved,fun i => ?_⟩
  by_cases same : i = entry.1
  · subst same
    rwa [Function.update_self,Function.update_self]
  · rw [Function.update_of_ne same,Function.update_of_ne same]
    exact keeps i

end Advance

end Keeps

def Within : Program Query Answer α → Nat → Prop
  | .ret _, _ => True
  | .ask _ next, bound => ∃ rest, bound = rest + 1 ∧ ∀ answer, Within (next answer) rest

namespace Within
variable {bound more : Nat}

theorem pure (value : α) (bound : Nat) : Within (Pure.pure value : Program Query Answer α) bound := trivial

theorem call (query : Query) : Within (Program.call query : Program Query Answer _) 1 := ⟨0,rfl,fun _ => trivial⟩

theorem mono {program : Program Query Answer α} (within : Within program bound) (le : bound ≤ more) :
    Within program more := by
  induction program generalizing bound more with
  | ret value => trivial
  | ask query next ih =>
    obtain ⟨rest,rfl,within⟩ := within
    exact ⟨more - 1,by omega,fun answer => ih answer (within answer) (by omega)⟩

theorem bind' {program : Program Query Answer α} {after : α → Program Query Answer β} (first : Within program bound)
    (second : ∀ value, Within (after value) more) : Within (program.bind after) (bound + more) := by
  induction program generalizing bound with
  | ret value => exact (second value).mono (Nat.le_add_left _ _)
  | ask query next ih =>
    obtain ⟨rest,rfl,within⟩ := first
    exact ⟨rest + more,by omega,fun answer => ih answer (within answer)⟩

theorem bind {program : Program Query Answer α} {after : α → Program Query Answer β} {total : Nat} (more : Nat)
    (sum : bound + more = total) (first : Within program bound) (second : ∀ value, Within (after value) more) :
    Within (program >>= after) total :=
  sum ▸ first.bind' second

theorem map {program : Program Query Answer α} (within : Within program bound) (f : α → β) :
    Within (f <$> program) bound :=
  within.bind' fun _ => pure _ 0

theorem retry {attempt : σ → Program Query Answer (σ × Option α)} {each : Nat}
    (within : ∀ state, Within (attempt state) each) (bound : Nat) (state : σ) :
    Within (Program.retry attempt bound state) (bound * each) := by
  induction bound generalizing state with
  | zero => trivial
  | succ bound ih =>
    rw [Nat.succ_mul,Nat.add_comm (bound * each)]
    apply bind' (within state)
    rintro ⟨state,answer⟩
    cases answer with
    | some answer => trivial
    | none => exact ih state

variable [DecidableEq Query] [DecidableEq ι]

theorem advance {program rest : Program Query Answer α} {event : Event Query Answer} (within : Within program bound)
    (taken : program.advance event = some rest) : ∃ less, bound = less + 1 ∧ Within rest less := by
  cases program with
  | ret value => cases taken
  | ask query next =>
    obtain ⟨less,rfl,within⟩ := within
    obtain ⟨asked,answer⟩ := event
    rw [Program.advance] at taken
    split at taken
    next same =>
      cases same
      cases taken
      exact ⟨less,rfl,within answer⟩
    next => cases taken

/-- Programs side by side spend what they have between them. -/
theorem interleave [Fintype ι] {programs after : ι → Program Query Answer α} {bounds : ι → Nat}
    {history : List (ι × Event Query Answer)} (within : ∀ i, Within (programs i) (bounds i))
    (taken : follow interleave programs history = some after) :
    ∃ rest : ι → Nat, (∀ i, Within (after i) (rest i)) ∧ history.length + ∑ i, rest i = ∑ i, bounds i := by
  induction history generalizing programs bounds with
  | nil =>
    obtain rfl := Option.some.inj taken
    exact ⟨bounds,within,by simp⟩
  | cons entry history ih =>
    obtain ⟨middle,step,taken⟩ := (follow_cons _ _ _ _).mp taken
    obtain ⟨rest,advanced,rfl⟩ := Option.map_eq_some_iff.mp step
    obtain ⟨less,spent,kept⟩ := (within entry.1).advance advanced
    obtain ⟨left,within,total⟩ := @ih _ (Function.update bounds entry.1 less) (fun i => by
      by_cases same : i = entry.1
      · subst same
        rwa [Function.update_self,Function.update_self]
      · rw [Function.update_of_ne same,Function.update_of_ne same]
        exact within i) taken
    refine ⟨left,within,?_⟩
    have before := Finset.add_sum_erase Finset.univ bounds (Finset.mem_univ entry.1)
    have behind := Finset.add_sum_erase Finset.univ (Function.update bounds entry.1 less) (Finset.mem_univ entry.1)
    have others : ∑ i ∈ Finset.univ.erase entry.1, Function.update bounds entry.1 less i =
        ∑ i ∈ Finset.univ.erase entry.1, bounds i :=
      Finset.sum_congr rfl fun i member => Function.update_of_ne (Finset.ne_of_mem_erase member) _ _
    rw [Function.update_self,others] at behind
    rw [List.length_cons]
    omega

end Within

end FuturesCellProxy.Foundation

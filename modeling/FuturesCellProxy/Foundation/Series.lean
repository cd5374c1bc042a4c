import FuturesCellProxy.Foundation.Protocol

/-! Programs that come one after the other, each chosen by what those before it have come to.
Such a series is one program as a whole, but where one of its programs ends and the next one
begins can be seen. Nothing here is specific to one system. -/
namespace FuturesCellProxy.Foundation
variable {Query : Type} {Answer : Query → Type} {σ α β State ι : Type}

inductive Series (Query : Type) (Answer : Query → Type) (σ α : Type) where
  | ended (value : α)
  | going (program : Program Query Answer σ) (after : σ → Series Query Answer σ α)

namespace Series

/-- The one program that they make. -/
def whole : Series Query Answer σ α → Program Query Answer α
  | .ended value => .ret value
  | .going program after => program.bind fun value => (after value).whole

def map (f : α → β) : Series Query Answer σ α → Series Query Answer σ β
  | .ended value => .ended (f value)
  | .going program after => .going program fun value => (after value).map f

/-- The program whose turn it is. -/
def turn : Series Query Answer σ α → Program Query Answer Unit
  | .ended _ => .ret ()
  | .going program _ => program.bind fun _ => .ret ()

def isOver : Series Query Answer σ α → Bool
  | .ended _ => true
  | .going _ _ => false

/-- Programs that are through make way for those behind them. -/
def settle : Series Query Answer σ α → Series Query Answer σ α
  | .ended value => .ended value
  | .going (.ret value) after => (after value).settle
  | .going (.ask query next) after => .going (.ask query next) after

theorem whole_map (f : α → β) (series : Series Query Answer σ α) :
    (series.map f).whole = series.whole.bind fun value => .ret (f value) := by
  induction series with
  | ended value => rfl
  | going program after ih =>
    rw [map,whole,whole,Program.bind_bind]
    exact congrArg program.bind (funext ih)

theorem whole_settle (series : Series Query Answer σ α) : series.settle.whole = series.whole := by
  induction series with
  | ended value => rfl
  | going program after ih =>
    cases program with
    | ret value => exact ih value
    | ask query next => rfl

/-- Once those that are through have made way, the one whose turn it is has something to ask. -/
theorem settle_turn (series : Series Query Answer σ α) : series.settle.turn.finished = series.settle.isOver := by
  induction series with
  | ended value => rfl
  | going program after ih =>
    cases program with
    | ret value => exact ih value
    | ask query next => rfl

/-- While the one whose turn it is has something to ask, nobody makes way. -/
theorem settle_of_unfinished {series : Series Query Answer σ α} (unfinished : series.turn.finished = false) :
    series.settle = series := by
  cases series with
  | ended value => rfl
  | going program after =>
    cases program with
    | ret value => cases unfinished
    | ask query next => rfl

section Advance
variable [DecidableEq Query]

/-- What is left of the series behind an event of the one whose turn it is. -/
def advance : Series Query Answer σ α → Event Query Answer → Option (Series Query Answer σ α)
  | .ended _, _ => none
  | .going program after, event => (program.advance event).map fun rest => .going rest after

theorem advance_bind {program rest : Program Query Answer σ} {event : Event Query Answer}
    (after : σ → Program Query Answer β) (taken : program.advance event = some rest) :
    (program.bind after).advance event = some (rest.bind after) := by
  cases program with
  | ret value => cases taken
  | ask query next =>
    rw [Program.advance] at taken
    rw [Program.bind,Program.advance]
    split at taken
    next same =>
      cases taken
      rw [dif_pos same]
    next => cases taken

theorem whole_advance {series rest : Series Query Answer σ α} {event : Event Query Answer}
    (taken : series.advance event = some rest) : series.whole.advance event = some rest.whole := by
  cases series with
  | ended value => cases taken
  | going program after =>
    obtain ⟨rest,advanced,rfl⟩ := Option.map_eq_some_iff.mp taken
    exact advance_bind _ advanced

/-- The series goes on exactly as the one whose turn it is does. -/
theorem turn_advance (series : Series Query Answer σ α) (event : Event Query Answer) :
    (series.advance event).map turn = series.turn.advance event := by
  cases series with
  | ended value => rfl
  | going program after =>
    cases program with
    | ret value => rfl
    | ask query next =>
      simp only [advance,turn,Program.bind,Program.advance]
      split <;> rfl

end Advance

section Sustains
variable (moves : State → Event Query Answer → State → Prop) (ends : State → Prop) (initial : State)

def Sustains : Series Query Answer σ α → State → Prop
  | .ended _, state => ends state
  | .going program after, state => Keeps moves (fun _ => ends) program state ∧ ∀ value, (after value).Sustains initial

variable {moves ends initial} {series rest : Series Query Answer σ α} {state : State}

theorem Sustains.map (f : α → β) (sustains : series.Sustains moves ends initial state) :
    (series.map f).Sustains moves ends initial state := by
  induction series generalizing state with
  | ended value => exact sustains
  | going program after ih => exact ⟨sustains.1,fun value => ih value (sustains.2 value)⟩

theorem Sustains.turn (sustains : series.Sustains moves ends initial state) :
    Keeps moves (fun _ => ends) series.turn state := by
  cases series with
  | ended value => exact sustains
  | going program after => exact Keeps.bind' sustains.1

theorem Sustains.settle (sustains : series.Sustains moves ends initial initial) :
    series.settle.Sustains moves ends initial initial := by
  induction series with
  | ended value => exact sustains
  | going program after ih =>
    cases program with
    | ret value => exact ih value (sustains.2 value)
    | ask query next => exact sustains

theorem Sustains.advance [DecidableEq Query] {event : Event Query Answer}
    (sustains : series.Sustains moves ends initial state) (taken : series.advance event = some rest) :
    ∃ after, moves state event after ∧ rest.Sustains moves ends initial after := by
  cases series with
  | ended value => cases taken
  | going program after =>
    obtain ⟨rest,advanced,rfl⟩ := Option.map_eq_some_iff.mp taken
    obtain ⟨state',moved,kept⟩ := Keeps.advance sustains.1 advanced
    exact ⟨state',moved,kept,sustains.2⟩

/-- At the end of a program the state is one to end in, and the next program has the initial one. -/
theorem Sustains.finished (sustains : series.Sustains moves ends initial state)
    (finished : series.turn.finished = true) (begins : ends initial) :
    ends state ∧ series.settle.Sustains moves ends initial initial := by
  cases series with
  | ended value => exact ⟨sustains,begins⟩
  | going program after =>
    cases program with
    | ret value => exact ⟨sustains.1,(sustains.2 value).settle⟩
    | ask query next => cases finished

end Sustains

end Series

end FuturesCellProxy.Foundation

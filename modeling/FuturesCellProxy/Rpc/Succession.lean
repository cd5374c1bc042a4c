import FuturesCellProxy.Foundation.Series
import FuturesCellProxy.Rpc.PoolRefinement

/-! Series of programs side by side on the shared pools: where one of a series ends, the client
that it still points to goes with it, and the next one begins. -/
namespace FuturesCellProxy.Rpc
open Foundation

abbrev Succession (σ α : Type) := Series Query Query.Answer σ α

variable {Request σ α : Type} [DecidableEq Request]

/-- One event of the program whose turn it is, with what it does to the pools. -/
def serveNext (state : (Request → Succession σ α) × Pools Request) (entry : Request × Step) :
    Option ((Request → Succession σ α) × Pools Request) := do
  let rest ← (state.1 entry.1).advance entry.2
  let pools ← state.2.step entry.1 entry.2
  some (Function.update state.1 entry.1 rest.settle,if rest.turn.finished then pools.leave entry.1 else pools)

/-- From no client to none that could still be given back, and so each program of the series. -/
abbrev GiveBack (series : Succession σ α) : Holding → Prop :=
  series.Sustains Holding.Moves Holding.Settled .nothing

/-- Series that keep the protocol of the pools, each with a question to ask or over, on pools and
machines that agree. -/
def Succeeds (state : (Request → Succession σ α) × Pools Request) (machines : Service → Pool Request) : Prop :=
  ∃ holdings, (∀ request, GiveBack (state.1 request) (holdings request) ∧
      (state.1 request).turn.finished = (state.1 request).isOver) ∧ Agree holdings state.2 machines

omit [DecidableEq Request] in
theorem succeeds_initial {series : Request → Succession σ α} (giveBack : ∀ request, GiveBack (series request) .nothing) :
    Succeeds (fun request => (series request).settle,{}) fun _ => {} :=
  ⟨fun _ => .nothing,fun request => ⟨(giveBack request).settle,(series request).settle_turn⟩,agree_initial⟩

section Step
variable {state after : (Request → Succession σ α) × Pools Request} {machines : Service → Pool Request}
  {entry : Request × Step} {history : List (Request × Step)}

theorem serveNext_eq_some : serveNext state entry = some after ↔
    ∃ rest pools, (state.1 entry.1).advance entry.2 = some rest ∧ state.2.step entry.1 entry.2 = some pools ∧
      after = (Function.update state.1 entry.1 rest.settle,if rest.turn.finished then pools.leave entry.1 else pools) := by
  simp only [serveNext,Option.bind_eq_bind,Option.bind_eq_some_iff,Option.some.injEq]
  constructor
  · intro taken
    obtain ⟨rest,advanced,pools,stepped,rfl⟩ := taken
    exact ⟨rest,pools,advanced,stepped,rfl⟩
  · intro taken
    obtain ⟨rest,pools,advanced,stepped,rfl⟩ := taken
    exact ⟨rest,advanced,pools,stepped,rfl⟩

theorem succeeds_step (succeeds : Succeeds state machines) (taken : serveNext state entry = some after) :
    ∃ events machines', follow poolsStep machines events = some machines' ∧ Succeeds after machines' ∧
      events.filterMap showsOf = (seenOf entry).toList := by
  obtain ⟨holdings,series,agree⟩ := succeeds
  obtain ⟨rest,pools,advanced,stepped,rfl⟩ := serveNext_eq_some.mp taken
  obtain ⟨holding,moves,sustains⟩ := (series entry.1).1.advance advanced
  have ended (finished : rest.turn.finished = true) := sustains.finished finished trivial
  obtain ⟨events,machines',run,agree,shown⟩ :=
    agree.taken moves stepped rest.turn.finished fun finished => (ended finished).1
  refine ⟨events,machines',run,⟨_,fun request => ?_,agree⟩,shown⟩
  dsimp only
  by_cases own : request = entry.1
  · subst own
    rw [Function.update_self,Function.update_self]
    refine ⟨?_,rest.settle_turn⟩
    cases finished : rest.turn.finished with
    | true => exact (ended finished).2
    | false =>
      rw [Series.settle_of_unfinished finished]
      exact sustains
  · rw [Function.update_of_ne own,Function.update_of_ne own]
    exact series request

/-- Whatever the series do in whatever order, the machines do the same. -/
theorem serveNext_refines (succeeds : Succeeds state machines) (run : follow serveNext state history = some after) :
    ∃ events machines', follow poolsStep machines events = some machines' ∧ Succeeds after machines' ∧
      events.filterMap showsOf = history.filterMap seenOf :=
  follow_simulation Succeeds (fun _ _ _ _ succeeds taken => succeeds_step succeeds taken) succeeds run

/-- Seen as wholes, the series interleave. -/
theorem serveNext_interleaves (run : follow serveNext state history = some after) :
    follow interleave (fun request => (state.1 request).whole) history = some fun request => (after.1 request).whole := by
  induction history generalizing state with
  | nil =>
    obtain rfl := Option.some.inj run
    rfl
  | cons entry history ih =>
    obtain ⟨middle,taken,run⟩ := (follow_cons _ _ _ _).mp run
    obtain ⟨rest,pools,advanced,_,rfl⟩ := serveNext_eq_some.mp taken
    refine (follow_cons _ _ _ _).mpr ⟨_,?_,ih run⟩
    rw [interleave,Series.whole_advance advanced,Option.map_some,← Series.whole_settle rest]
    exact congrArg some (Function.comp_update Series.whole state.1 entry.1 rest.settle).symm

end Step

section Progress
variable {state : (Request → Succession σ α) × Pools Request} {machines : Service → Pool Request} {request : Request}

/-- The programs whose turn it is. -/
def turns (state : (Request → Succession σ α) × Pools Request) : (Request → Prog Unit) × Pools Request :=
  (fun request => (state.1 request).turn,state.2)

omit [DecidableEq Request] in
theorem Succeeds.refines (succeeds : Succeeds state machines) : Refines (turns state) machines := by
  obtain ⟨holdings,series,agree⟩ := succeeds
  exact ⟨holdings,fun request => (series request).1.turn,agree⟩

def Onward (state : (Request → Succession σ α) × Pools Request) (request : Request) : Prop :=
  ∃ step after, serveNext state (request,step) = some after

theorem onward_of_turn (goes : CanGo (turns state) request) : Onward state request := by
  obtain ⟨step,after,taken⟩ := goes
  simp only [serve,Option.bind_eq_bind,Option.bind_eq_some_iff,Option.some.injEq] at taken
  obtain ⟨programs,advanced,pools,stepped,_⟩ := taken
  obtain ⟨turn,advanced,_⟩ := Option.map_eq_some_iff.mp advanced
  have same := Series.turn_advance (state.1 request) step
  rw [show (state.1 request).turn.advance step = some turn from advanced] at same
  obtain ⟨rest,advanced,_⟩ := Option.map_eq_some_iff.mp same
  exact ⟨step,_,serveNext_eq_some.mpr ⟨rest,pools,advanced,stepped,rfl⟩⟩

/-- A series goes on, or waits for a pool that another has locked, which goes on. -/
theorem Succeeds.goes (succeeds : Succeeds state machines) (more : (state.1 request).isOver = false) :
    Onward state request ∨ ∃ service other, other ≠ request ∧ state.2.clientsMutex service = some other ∧
      Onward state other := by
  have refines := succeeds.refines
  obtain ⟨_,series,_⟩ := succeeds
  have unfinished : ((turns state).1 request).finished = false := (series request).2.trans more
  rcases refines.goes unfinished with goes | ⟨service,other,distinct,locked,goes⟩
  · exact .inl (onward_of_turn goes)
  · exact .inr ⟨service,other,distinct,locked,onward_of_turn goes⟩

end Progress

end FuturesCellProxy.Rpc

import FuturesCellProxy.Foundation.Machine
import FuturesCellProxy.Foundation.Program
import Mathlib.Logic.Function.Basic
import Mathlib.Data.List.Induction
import Mathlib.Order.Lattice

/-! Any number of programs that go on side by side, one event of one of them at a time. What
an interleaving shows of one program is the beginning of a run of it, and what the
programs observe can be put in the order of time. Nothing here is specific to one
system. -/
namespace FuturesCellProxy.Foundation
variable {Query : Type} {Answer : Query → Type} {α ι : Type}

section Own
variable [DecidableEq ι]

/-- The events that are of one program. -/
def own (i : ι) (history : List (ι × Event Query Answer)) : List (Event Query Answer) :=
  history.filterMap fun entry => if entry.1 = i then some entry.2 else none

theorem own_append (i : ι) (first second : List (ι × Event Query Answer)) :
    own i (first ++ second) = own i first ++ own i second :=
  List.filterMap_append

theorem own_cons (i j : ι) (event : Event Query Answer) (history : List (ι × Event Query Answer)) :
    own i ((j,event) :: history) = if j = i then event :: own i history else own i history := by
  rw [own,List.filterMap_cons]
  split <;> simp_all [own]

end Own

section Interleave
variable [DecidableEq Query]

/-- What is left of a program behind an event, if the event answers what it asks. -/
def Program.advance : Program Query Answer α → Event Query Answer → Option (Program Query Answer α)
  | .ret _, _ => none
  | .ask query next, event => if same : event.query = query then some (next (same ▸ event.answer)) else none

variable [DecidableEq ι]

/-- One of the programs takes the event. -/
def interleave (programs : ι → Program Query Answer α) (entry : ι × Event Query Answer) :
    Option (ι → Program Query Answer α) :=
  ((programs entry.1).advance entry.2).map (Function.update programs entry.1)

theorem advance_run {program after : Program Query Answer α} {event : Event Query Answer}
    {trace : List (Event Query Answer)} {value : α} (advance : program.advance event = some after)
    (run : Run after trace value) : Run program (event :: trace) value := by
  cases program with
  | ret _ => cases advance
  | ask query next =>
    obtain ⟨asked,answer⟩ := event
    rw [Program.advance] at advance
    split at advance
    next same =>
      cases same
      cases advance
      exact .ask _ _ _ _ _ run
    next => cases advance

/-- What one program has done, followed by a run of what is left of it, is a run of it. -/
theorem own_run {programs after : ι → Program Query Answer α} {history : List (ι × Event Query Answer)}
    (taken : follow interleave programs history = some after) (i : ι) {trace : List (Event Query Answer)}
    {value : α} (run : Run (after i) trace value) : Run (programs i) (own i history ++ trace) value := by
  induction history generalizing programs with
  | nil =>
    obtain rfl := Option.some.inj taken
    exact run
  | cons entry history ih =>
    obtain ⟨j,event⟩ := entry
    obtain ⟨middle,step,taken⟩ := (follow_cons _ _ _ _).mp taken
    obtain ⟨next,advance,rfl⟩ := Option.map_eq_some_iff.mp step
    have later := ih taken
    rw [own_cons]
    split
    next same =>
      subst same
      rw [Function.update_self] at later
      exact advance_run advance later
    next other => rwa [Function.update_of_ne (Ne.symm other)] at later

/-- Where every question can be answered, what a program has done is the beginning of a run. -/
theorem own_run_prefix [∀ query, Inhabited (Answer query)] {programs after : ι → Program Query Answer α}
    {history : List (ι × Event Query Answer)} (taken : follow interleave programs history = some after) (i : ι) :
    ∃ rest value, Run (programs i) (own i history ++ rest) value :=
  ⟨_,_,own_run taken i (Run.play (fun _ _ => default) (after i) [])⟩

end Interleave

section Observed
variable [DecidableEq ι] {β : Type} (observe : Event Query Answer → Option β)

def observed (i : ι) (history : List (ι × Event Query Answer)) : List β := (own i history).filterMap observe

/-- Right behind `past` a program shows a value, and has shown `n` values before. -/
structure ShowsNext (history past : List (ι × Event Query Answer)) (i : ι) (n : Nat) (value : β) : Prop where
  next : ∃ event, past ++ [(i,event)] <+: history ∧ observe event = some value
  count : (observed observe i past).length = n

/-- The `n`th values of the programs that count go up in the order of time. -/
def Rises [LT β] (n : Nat) (counts : ι → Prop) (history : List (ι × Event Query Answer)) : Prop :=
  ∀ past past' i j value value', ShowsNext observe history past i n value →
    ShowsNext observe history past' j n value' → counts i → counts j → past.length < past'.length → value < value'

/-- No two of the programs that count have the same `n`th value. -/
def Apart (n : Nat) (counts : ι → Prop) (history : List (ι × Event Query Answer)) : Prop :=
  ∀ i j value value', i ≠ j → counts i → counts j → (observed observe i history)[n]? = some value →
    (observed observe j history)[n]? = some value' → value ≠ value'

variable {observe} {history past past' : List (ι × Event Query Answer)} {i j : ι} {n : Nat} {value value' : β}

theorem observed_append (i : ι) (first second : List (ι × Event Query Answer)) :
    observed observe i (first ++ second) = observed observe i first ++ observed observe i second := by
  rw [observed,own_append,List.filterMap_append]
  rfl

theorem observed_single {event : Event Query Answer} (shown : observe event = some value) :
    observed observe i [(i,event)] = [value] := by
  simp [observed,own,shown]

/-- A program is seen to do no more than one thing in one event. -/
theorem observed_entry {k : ι} {event : Event Query Answer}
    (found : (observed observe i [(k,event)])[n]? = some value) : k = i ∧ observe event = some value ∧ n = 0 := by
  rw [observed,own_cons] at found
  split at found
  next same =>
    cases shown : observe event with
    | none => simp [own,shown] at found
    | some seen => simp_all [own,List.getElem?_singleton]
  next => simp [own] at found

theorem exists_showsNext_iff :
    (∃ past, ShowsNext observe history past i n value) ↔ (observed observe i history)[n]? = some value := by
  constructor
  · rintro ⟨past,⟨event,⟨rest,rfl⟩,shown⟩,rfl⟩
    rw [observed_append,observed_append,observed_single shown]
    simp
  · intro found
    induction history using List.reverseRecOn with
    | nil => simp [observed,own] at found
    | append_singleton history entry ih =>
      rw [observed_append] at found
      rcases Nat.lt_or_ge n (observed observe i history).length with early | late
      · rw [List.getElem?_append_left early] at found
        obtain ⟨past,⟨event,within,shown⟩,count⟩ := ih found
        exact ⟨past,⟨event,within.trans (List.prefix_append _ _),shown⟩,count⟩
      · rw [List.getElem?_append_right late] at found
        obtain ⟨rfl,shown,last⟩ := observed_entry found
        exact ⟨history,⟨entry.2,List.prefix_rfl,shown⟩,by omega⟩

/-- What is shown first stands before what is shown later. -/
theorem ShowsNext.before (shows : ShowsNext observe history past i n value)
    (shows' : ShowsNext observe history past' j n value') (earlier : past.length < past'.length) :
    ∃ event, past ++ [(i,event)] <+: past' ∧ observe event = some value := by
  obtain ⟨event,within,shown⟩ := shows.next
  obtain ⟨event',within',_⟩ := shows'.next
  refine ⟨event,List.prefix_of_prefix_length_le within ((List.prefix_append _ _).trans within') ?_,shown⟩
  rw [List.length_append,List.length_singleton]
  exact earlier

/-- No program shows its `n`th value twice. -/
theorem ShowsNext.ne (shows : ShowsNext observe history past i n value)
    (shows' : ShowsNext observe history past' j n value') (earlier : past.length < past'.length) : i ≠ j := by
  rintro rfl
  obtain ⟨event,⟨middle,rfl⟩,shown⟩ := shows.before shows' earlier
  have counts := shows'.count
  rw [observed_append,observed_append,observed_single shown,← shows.count] at counts
  simp only [List.length_append,List.length_singleton] at counts
  omega

theorem ShowsNext.eq_of_length (shows : ShowsNext observe history past i n value)
    (shows' : ShowsNext observe history past' j n value') (same : past.length = past'.length) : i = j := by
  obtain ⟨event,within,_⟩ := shows.next
  obtain ⟨event',within',_⟩ := shows'.next
  have entries : past ++ [(i,event)] = past' ++ [(j,event')] :=
    (List.prefix_of_prefix_length_le within within' (by simp [same])).eq_of_length (by simp [same])
  have last := (List.append_inj entries same).2
  exact congrArg Prod.fst (List.cons.inj last).1

theorem ShowsNext.related {R : β → β → Prop}
    (ordered : (history.filterMap fun entry => observe entry.2).Pairwise R)
    (shows : ShowsNext observe history past i n value) (shows' : ShowsNext observe history past' j n value')
    (earlier : past.length < past'.length) : R value value' := by
  obtain ⟨event,⟨middle,rfl⟩,shown⟩ := shows.before shows' earlier
  obtain ⟨event',⟨rest,rfl⟩,shown'⟩ := shows'.next
  simp only [List.filterMap_append,List.filterMap_cons,List.filterMap_nil,shown,shown'] at ordered
  have behind := (List.pairwise_append.mp ordered).1
  have pairs := (List.pairwise_append.mp behind).2.2
  exact pairs value (by simp) value' (by simp)

/-- What is in order is apart exactly where it goes up. -/
theorem rises_iff_apart [LinearOrder β] {counts : ι → Prop}
    (ordered : (history.filterMap fun entry => observe entry.2).Pairwise (· ≤ ·)) :
    Rises observe n counts history ↔ Apart observe n counts history := by
  constructor
  · intro rises i j value value' other counted counted' found found'
    obtain ⟨past,shows⟩ := exists_showsNext_iff.mpr found
    obtain ⟨past',shows'⟩ := exists_showsNext_iff.mpr found'
    rcases Nat.lt_trichotomy past.length past'.length with earlier | same | later
    · exact ne_of_lt (rises _ _ _ _ _ _ shows shows' counted counted' earlier)
    · exact absurd (shows.eq_of_length shows' same) other
    · exact ne_of_gt (rises _ _ _ _ _ _ shows' shows counted' counted later)
  · intro apart past past' i j value value' shows shows' counted counted' earlier
    apply lt_of_le_of_ne (shows.related ordered shows' earlier)
    exact apart i j value value' (shows.ne shows' earlier) counted counted'
      (exists_showsNext_iff.mp ⟨past,shows⟩) (exists_showsNext_iff.mp ⟨past',shows'⟩)

end Observed

end FuturesCellProxy.Foundation

import FuturesCellProxy.Foundation.Search
import Mathlib.Data.List.Count

/-! Programs that talk to an environment, and all their complete behaviours.
A program is a finite tree of questions; the environment chooses every answer,
so a statement about all runs is a statement about every behaviour of the
environment. Nothing here is specific to one program. -/
namespace FuturesCellProxy.Foundation

inductive Program (Query : Type) (Answer : Query → Type) (α : Type) where
  | ret (value : α)
  | ask (query : Query) (next : Answer query → Program Query Answer α)

structure Event (Query : Type) (Answer : Query → Type) where
  query : Query
  answer : Answer query

variable {Query : Type} {Answer : Query → Type} {α β σ : Type}

namespace Program

def bind : Program Query Answer α → (α → Program Query Answer β) → Program Query Answer β
  | .ret value, after => after value
  | .ask query next, after => .ask query (fun answer => (next answer).bind after)

instance : Monad (Program Query Answer) where
  pure := .ret
  bind := bind

def call (query : Query) : Program Query Answer (Answer query) := .ask query .ret

theorem bind_ret (program : Program Query Answer α) : program.bind .ret = program := by
  induction program with
  | ret value => rfl
  | ask query next ih => exact congrArg (ask query) (funext ih)

theorem bind_bind {γ : Type} (program : Program Query Answer α) (after : α → Program Query Answer β)
    (last : β → Program Query Answer γ) :
    (program.bind after).bind last = program.bind fun value => (after value).bind last := by
  induction program with
  | ret value => rfl
  | ask query next ih => exact congrArg (ask query) (funext ih)

def play (environment : List (Event Query Answer) → (query : Query) → Answer query) :
    List (Event Query Answer) → Program Query Answer α → List (Event Query Answer) × α
  | _, .ret value => ([],value)
  | history, .ask query next =>
    let event := ⟨query,environment history query⟩
    let rest := play environment (history ++ [event]) (next event.answer)
    (event :: rest.1,rest.2)

/-- At most `bound` attempts, each of which either yields a result or hands its
state to the next one. -/
def retry (attempt : σ → Program Query Answer (σ × Option α)) :
    Nat → σ → Program Query Answer (σ × Option α)
  | 0, state => .ret (state,none)
  | bound+1, state => (attempt state).bind fun
    | (state,some value) => .ret (state,some value)
    | (state,none) => retry attempt bound state

end Program

/-- The complete behaviours of a program: the events in order, and the result. -/
inductive Run : Program Query Answer α → List (Event Query Answer) → α → Prop
  | ret (value : α) : Run (.ret value) [] value
  | ask (query : Query) (next : Answer query → Program Query Answer α) (answer : Answer query)
      (trace : List (Event Query Answer)) (value : α) (rest : Run (next answer) trace value) :
      Run (.ask query next) (⟨query,answer⟩ :: trace) value

namespace Run

@[simp] theorem ret_iff (value result : α) (trace : List (Event Query Answer)) :
    Run (.ret value : Program Query Answer α) trace result ↔ trace = [] ∧ result = value := by
  constructor
  · intro run
    cases run
    exact ⟨rfl,rfl⟩
  · rintro ⟨rfl,rfl⟩
    exact .ret _

@[simp] theorem pure_iff (value result : α) (trace : List (Event Query Answer)) :
    Run (pure value : Program Query Answer α) trace result ↔ trace = [] ∧ result = value :=
  ret_iff value result trace

@[simp] theorem ask_iff (query : Query) (next : Answer query → Program Query Answer α)
    (trace : List (Event Query Answer)) (result : α) :
    Run (.ask query next) trace result ↔
      ∃ answer rest, trace = ⟨query,answer⟩ :: rest ∧ Run (next answer) rest result := by
  constructor
  · intro run
    cases run with
    | ask _ _ answer rest _ tail => exact ⟨answer,rest,rfl,tail⟩
  · rintro ⟨answer,rest,rfl,tail⟩
    exact .ask _ _ _ _ _ tail

@[simp] theorem call_iff (query : Query) (trace : List (Event Query Answer)) (result : Answer query) :
    Run (Program.call query) trace result ↔ trace = [⟨query,result⟩] := by
  simp only [Program.call,ask_iff,ret_iff]
  constructor
  · rintro ⟨answer,rest,rfl,rfl,rfl⟩
    rfl
  · rintro rfl
    exact ⟨_,_,rfl,rfl,rfl⟩

theorem bind_iff' (program : Program Query Answer α) (after : α → Program Query Answer β)
    (trace : List (Event Query Answer)) (result : β) :
    Run (program.bind after) trace result ↔
      ∃ first value second, Run program first value ∧ Run (after value) second result ∧
        trace = first ++ second := by
  induction program generalizing trace with
  | ret value => simp [Program.bind]
  | ask query next ih =>
    simp only [Program.bind,ask_iff,ih]
    constructor
    · rintro ⟨answer,_,rfl,first,value,second,head,tail,rfl⟩
      exact ⟨_,value,second,⟨answer,first,rfl,head⟩,tail,rfl⟩
    · rintro ⟨_,value,second,⟨answer,first,rfl,head⟩,tail,rfl⟩
      exact ⟨answer,_,rfl,first,value,second,head,tail,rfl⟩

@[simp] theorem bind_iff (program : Program Query Answer α) (after : α → Program Query Answer β)
    (trace : List (Event Query Answer)) (result : β) :
    Run (program >>= after) trace result ↔
      ∃ first value second, Run program first value ∧ Run (after value) second result ∧
        trace = first ++ second :=
  bind_iff' program after trace result

theorem bind {program : Program Query Answer α} {after : α → Program Query Answer β}
    {first second : List (Event Query Answer)} {value : α} {result : β}
    (head : Run program first value) (tail : Run (after value) second result) :
    Run (program >>= after) (first ++ second) result :=
  (bind_iff _ _ _ _).mpr ⟨first,value,second,head,tail,rfl⟩

@[simp] theorem map_iff (f : α → β) (program : Program Query Answer α) (trace : List (Event Query Answer))
    (result : β) : Run (f <$> program) trace result ↔ ∃ value, Run program trace value ∧ result = f value := by
  apply (bind_iff' _ _ _ _).trans
  constructor
  · rintro ⟨first,value,second,head,tail,rfl⟩
    obtain ⟨rfl,rfl⟩ := (pure_iff _ _ _).mp tail
    rw [List.append_nil]
    exact ⟨value,head,rfl⟩
  · rintro ⟨value,head,rfl⟩
    exact ⟨trace,value,[],head,.ret _,(List.append_nil _).symm⟩

/-- The answers decide the run: of two runs on the same events, one program makes the same of them. -/
theorem unique {program : Program Query Answer α} {first first' second second' : List (Event Query Answer)}
    {value value' : α} (run : Run program first value) (run' : Run program first' value')
    (same : first ++ second = first' ++ second') : first = first' ∧ value = value' := by
  induction program generalizing first first' with
  | ret _ =>
    obtain ⟨rfl,rfl⟩ := (ret_iff _ _ _).mp run
    obtain ⟨rfl,rfl⟩ := (ret_iff _ _ _).mp run'
    exact ⟨rfl,rfl⟩
  | ask query next ih =>
    obtain ⟨answer,rest,rfl,tail⟩ := (ask_iff _ _ _ _).mp run
    obtain ⟨answer',rest',rfl,tail'⟩ := (ask_iff _ _ _ _).mp run'
    obtain ⟨head,behind⟩ := List.cons.inj same
    obtain ⟨_,answered⟩ := Event.mk.inj head
    cases eq_of_heq answered
    obtain ⟨rfl,rfl⟩ := ih answer tail tail' behind
    exact ⟨rfl,rfl⟩

theorem play (environment : List (Event Query Answer) → (query : Query) → Answer query)
    (program : Program Query Answer α) (history : List (Event Query Answer)) :
    Run program (program.play environment history).1 (program.play environment history).2 := by
  induction program generalizing history with
  | ret value => exact .ret value
  | ask query next ih => exact .ask _ _ _ _ _ (ih _ _)

/-- Induction over the attempts of a retry loop: `attempt` ends the loop when it
yields a value, and otherwise leaves the rest of the loop one attempt fewer. -/
theorem retry_induction (attempt : σ → Program Query Answer (σ × Option α))
    (holds : Nat → σ → List (Event Query Answer) → σ × Option α → Prop)
    (exhausted : ∀ state, holds 0 state [] (state,none))
    (success : ∀ bound state trace after value, Run (attempt state) trace (after,some value) →
      holds (bound+1) state trace (after,some value))
    (failure : ∀ bound state trace after rest result, Run (attempt state) trace (after,none) →
      holds bound after rest result → holds (bound+1) state (trace ++ rest) result)
    (bound : Nat) (state : σ) (trace : List (Event Query Answer)) (result : σ × Option α)
    (run : Run (Program.retry attempt bound state) trace result) :
    holds bound state trace result := by
  induction bound generalizing state trace with
  | zero =>
    obtain ⟨rfl,rfl⟩ := (ret_iff _ _ _).mp run
    exact exhausted state
  | succ bound ih =>
    obtain ⟨first,⟨after,value⟩,second,head,tail,rfl⟩ := (bind_iff' _ _ _ _).mp run
    cases value with
    | some value =>
      obtain ⟨rfl,rfl⟩ := (ret_iff _ _ _).mp tail
      simpa using success bound state first after value head
    | none => exact failure bound state first after second result head (ih after second tail)

end Run

section Observed
variable {β : Type} (observe : Event Query Answer → Option β)

def Silent (program : Program Query Answer α) : Prop :=
  ∀ trace result, Run program trace result → trace.filterMap observe = []

variable {observe}

theorem Silent.pure (value : α) : Silent observe (Pure.pure value : Program Query Answer α) := by
  intro trace result run
  obtain ⟨rfl,_⟩ := (Run.pure_iff _ _ _).mp run
  rfl

theorem Silent.call {query : Query} (ignored : ∀ answer, observe ⟨query,answer⟩ = none) :
    Silent observe (Program.call query : Program Query Answer _) := by
  intro trace result run
  rw [(Run.call_iff _ _ _).mp run]
  simp [ignored]

theorem Silent.bind {γ : Type} {program : Program Query Answer α} {after : α → Program Query Answer γ}
    (first : Silent observe program) (second : ∀ value, Silent observe (after value)) :
    Silent observe (program >>= after) := by
  intro trace result run
  obtain ⟨_,value,_,head,tail,rfl⟩ := (Run.bind_iff _ _ _ _).mp run
  rw [List.filterMap_append,first _ _ head,second value _ _ tail,List.append_nil]

/-- What follows a silent program shows all that is shown. -/
theorem Silent.bind_run {γ : Type} {program : Program Query Answer α} {after : α → Program Query Answer γ}
    {trace : List (Event Query Answer)} {result : γ} (quiet : Silent observe program)
    (run : Run (program >>= after) trace result) :
    ∃ value second, Run (after value) second result ∧ trace.filterMap observe = second.filterMap observe := by
  obtain ⟨first,value,second,head,tail,rfl⟩ := (Run.bind_iff _ _ _ _).mp run
  refine ⟨value,second,tail,?_⟩
  rw [List.filterMap_append,quiet first value head,List.nil_append]

theorem Silent.retry {attempt : σ → Program Query Answer (σ × Option α)}
    (each : ∀ state, Silent observe (attempt state)) (bound : Nat) (state : σ) :
    Silent observe (Program.retry attempt bound state) := by
  induction bound generalizing state with
  | zero => exact .pure _
  | succ bound ih =>
    apply Silent.bind (each state)
    rintro ⟨after,value⟩
    cases value with
    | some value => exact .pure _
    | none => exact ih after

def Shows (observe : Event Query Answer → Option β) (allowed : β → Prop) (program : Program Query Answer α) : Prop :=
  ∀ trace result, Run program trace result → ∀ seen ∈ trace.filterMap observe, allowed seen

theorem Silent.shows {program : Program Query Answer α} (quiet : Silent observe program) (allowed : β → Prop) :
    Shows observe allowed program := by
  intro trace result run seen member
  rw [quiet trace result run] at member
  cases member

theorem Shows.bind {γ : Type} {allowed : β → Prop} {program : Program Query Answer α}
    {after : α → Program Query Answer γ} (first : Shows observe allowed program)
    (second : ∀ value, Shows observe allowed (after value)) : Shows observe allowed (program >>= after) := by
  intro trace result run seen member
  obtain ⟨_,value,_,head,tail,rfl⟩ := (Run.bind_iff _ _ _ _).mp run
  rcases List.mem_append.mp (List.filterMap_append ▸ member) with early | late
  · exact first _ _ head seen early
  · exact second value _ _ tail seen late

/-- Some failures and then a success, if there is one, all within a bound. -/
def Attempted (seen : Option α → β) (bound : Nat) (answer : Option α) (observed : List β) : Prop :=
  ∃ failures, observed = List.replicate failures (seen none) ++ answer.toList.map (fun value => seen (some value)) ∧
    failures + answer.toList.length ≤ bound

theorem Attempted.success {seen : Option α → β} {bound : Nat} {value : α} {observed : List β}
    (attempted : Attempted seen bound (some value) observed) :
    ∃ failures, observed = List.replicate failures (seen none) ++ [seen (some value)] ∧ failures < bound := by
  obtain ⟨failures,shape,within⟩ := attempted
  exact ⟨failures,shape,within⟩

theorem Attempted.mem {seen : Option α → β} {bound : Nat} {answer : Option α} {observed : List β} {shown : β}
    (attempted : Attempted seen bound answer observed) (member : shown ∈ observed) : ∃ outcome, shown = seen outcome := by
  obtain ⟨failures,rfl,_⟩ := attempted
  rcases List.mem_append.mp member with failed | succeeded
  · exact ⟨none,List.eq_of_mem_replicate failed⟩
  · obtain ⟨value,_,rfl⟩ := List.mem_map.mp succeeded
    exact ⟨some value,rfl⟩

theorem Attempted.last {seen : Option α → β} {bound : Nat} {answer : Option α} {observed before after : List β}
    {value : α} (attempted : Attempted seen bound answer observed) (distinct : seen none ≠ seen (some value))
    (split : observed = before ++ seen (some value) :: after) : after = [] := by
  obtain ⟨failures,shape,_⟩ := attempted
  rw [split] at shape
  rcases split_append shape.symm with ⟨rest,failed,_⟩ | ⟨rest,_,last⟩
  · have member : seen (some value) ∈ List.replicate failures (seen none) := by simp [failed]
    exact absurd (List.eq_of_mem_replicate member).symm distinct
  · have lengths : answer.toList.length = rest.length + (after.length + 1) := by
      simpa using congrArg List.length last
    have single : answer.toList.length ≤ 1 := Option.length_toList_le
    exact List.length_eq_zero_iff.mp (by omega)

/-- What is read off the last attempt is what the loop has come to. -/
theorem Attempted.read_last {γ : Type} {seen : Option α → β} {bound : Nat} {answer : Option α} {observed : List β}
    (attempted : Attempted seen bound answer observed) {read : β → Option γ} {f : α → γ}
    (reads : ∀ outcome, read (seen outcome) = outcome.map f) : observed.getLast?.bind read = answer.map f := by
  obtain ⟨failures,rfl,_⟩ := attempted
  cases answer with
  | some value => simp [reads]
  | none =>
    rw [Option.toList_none,List.map_nil,List.append_nil,List.getLast?_replicate]
    split <;> simp [reads]

theorem Attempted.length_le {seen : Option α → β} {bound : Nat} {answer : Option α} {observed : List β}
    (attempted : Attempted seen bound answer observed) : observed.length ≤ bound := by
  obtain ⟨failures,rfl,within⟩ := attempted
  simpa using within

/-- A retry loop is seen to attempt what it repeats, if one attempt is seen at most
once and always when it succeeds. -/
theorem retry_observed {attempt : σ → Program Query Answer (σ × Option α)} (seen : Option α → β)
    (once : ∀ state trace after value, Run (attempt state) trace (after,value) →
      trace.filterMap observe = [seen value] ∨ trace.filterMap observe = [] ∧ value = none)
    {bound : Nat} {state : σ} {trace : List (Event Query Answer)} {result : σ × Option α}
    (run : Run (Program.retry attempt bound state) trace result) :
    Attempted seen bound result.2 (trace.filterMap observe) := by
  apply Run.retry_induction attempt
    (fun bound _ trace result => Attempted seen bound result.2 (trace.filterMap observe))
    ?exhausted ?success ?failure bound state trace result run
  case exhausted =>
    intro state
    exact ⟨0,rfl,Nat.le_refl 0⟩
  case success =>
    intro bound state trace after value run
    rcases once _ _ _ _ run with observed | ⟨_,absent⟩
    · exact ⟨0,by simpa using observed,by simp⟩
    · cases absent
  case failure =>
    rintro bound state trace after rest result run ⟨failures,observed,within⟩
    rw [List.filterMap_append,observed]
    rcases once _ _ _ _ run with failed | ⟨unseen,_⟩
    · exact ⟨failures+1,by simp [failed,List.replicate_succ],by omega⟩
    · exact ⟨failures,by simp [unseen],by omega⟩

end Observed

/-- Every event of kind `target` comes after one of kind `guard`. -/
def Guarded (guard target : Event Query Answer → Prop) (trace : List (Event Query Answer)) : Prop :=
  ∀ before event after, trace = before ++ event :: after → target event →
    ∃ earlier ∈ before, guard earlier

section Guarded
variable {guard target : Event Query Answer → Prop} {first second : List (Event Query Answer)}

theorem Guarded.of_absent (absent : ∀ event ∈ first, ¬ target event) : Guarded guard target first := by
  rintro before event after rfl hit
  exact absurd hit (absent event (by simp))

theorem Guarded.append_of_guard (absent : ∀ event ∈ first, ¬ target event)
    (seen : ∃ event ∈ first, guard event) : Guarded guard target (first ++ second) := by
  intro before event after split hit
  obtain ⟨earlier,member,passes⟩ := seen
  rcases split_append split with ⟨rest,inside,_⟩ | ⟨rest,rfl,_⟩
  · exact absurd hit (absent event (by simp [inside]))
  · exact ⟨earlier,List.mem_append_left _ member,passes⟩

end Guarded

end FuturesCellProxy.Foundation

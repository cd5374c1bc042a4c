import Mathlib.Data.List.TakeWhile

/-! Machines that take one symbol after the other until they decide, and what they accept, part
by part. Nothing here is specific to one format. -/
namespace FuturesCellProxy.Foundation
variable {State Symbol Result : Type}

inductive Outcome (State Result : Type) where
  | more (state : State)
  | accepted (result : Result)
  | rejected

/-- All symbols are taken, and none but the last of them decides. -/
inductive Accepts (step : State → Symbol → Outcome State Result) :
    Outcome State Result → List Symbol → Result → Prop where
  | decided (result : Result) : Accepts step (.accepted result) [] result
  | takes (state : State) (symbol : Symbol) (rest : List Symbol) (result : Result)
      (onward : Accepts step (step state symbol) rest result) : Accepts step (.more state) (symbol :: rest) result

section Accepts
variable {step : State → Symbol → Outcome State Result} {state : State} {text : List Symbol} {result : Result}

@[simp] theorem not_accepts_rejected : ¬ Accepts step .rejected text result := by
  intro accepts
  cases accepts

@[simp] theorem accepts_accepted {found : Result} :
    Accepts step (.accepted found) text result ↔ text = [] ∧ result = found := by
  constructor
  · intro accepts
    cases accepts
    exact ⟨rfl,rfl⟩
  · intro same
    rw [same.1,same.2]
    exact .decided found

@[simp] theorem not_accepts_nil : ¬ Accepts step (.more state) [] result := by
  intro accepts
  cases accepts

@[simp] theorem accepts_cons {symbol : Symbol} {rest : List Symbol} :
    Accepts step (.more state) (symbol :: rest) result ↔ Accepts step (step state symbol) rest result := by
  constructor
  · intro accepts
    cases accepts with
    | takes _ _ _ _ onward => exact onward
  · exact .takes state symbol rest result

theorem accepts_more : Accepts step (.more state) text result ↔
    ∃ symbol rest, text = symbol :: rest ∧ Accepts step (step state symbol) rest result := by
  constructor
  · intro accepts
    cases accepts with
    | takes _ symbol rest _ onward => exact ⟨symbol,rest,rfl,onward⟩
  · intro found
    obtain ⟨symbol,rest,rfl,onward⟩ := found
    exact .takes state symbol rest result onward

/-- A symbol that has to come here. -/
theorem accepts_literal [DecidableEq Symbol] {expected : Symbol} {after : Outcome State Result}
    (reads : ∀ symbol, step state symbol = if symbol = expected then after else .rejected) :
    Accepts step (.more state) text result ↔ ∃ rest, text = expected :: rest ∧ Accepts step after rest result := by
  rw [accepts_more]
  constructor
  · intro found
    obtain ⟨symbol,rest,rfl,onward⟩ := found
    rw [reads] at onward
    by_cases same : symbol = expected
    · rw [if_pos same] at onward
      exact ⟨rest,by rw [same],onward⟩
    · rw [if_neg same] at onward
      exact absurd onward not_accepts_rejected
  · intro found
    obtain ⟨rest,rfl,onward⟩ := found
    exact ⟨expected,rest,rfl,by rwa [reads,if_pos rfl]⟩

end Accepts

/-- In these states the machine takes every symbol that passes the test and stays; `grow` says what
it keeps of the symbols that it has taken. -/
structure Loops (step : State → Symbol → Outcome State Result) (inside : State → Prop) (test : Symbol → Bool)
    (grow : State → List Symbol → State) : Prop where
  nothing : ∀ state, grow state [] = state
  onward : ∀ state symbol rest, grow (grow state [symbol]) rest = grow state (symbol :: rest)
  keeps : ∀ state symbol, inside state → test symbol = true → inside (grow state [symbol])
  stays : ∀ state symbol, inside state → test symbol = true → step state symbol = .more (grow state [symbol])

namespace Loops
variable {step : State → Symbol → Outcome State Result} {inside : State → Prop} {test : Symbol → Bool}
  {grow : State → List Symbol → State} {state : State} {text : List Symbol} {result : Result}

theorem inside_grow (loops : Loops step inside test grow) (here : inside state) {taken : List Symbol}
    (all : taken.all test = true) : inside (grow state taken) := by
  induction taken generalizing state with
  | nil => rwa [loops.nothing]
  | cons symbol taken ih =>
    obtain ⟨passes,all⟩ := Bool.and_eq_true_iff.mp all
    rw [← loops.onward]
    exact ih (loops.keeps state symbol here passes) all

theorem accepts_append (loops : Loops step inside test grow) (here : inside state) {taken : List Symbol}
    (all : taken.all test = true) : Accepts step (.more state) (taken ++ text) result ↔
      Accepts step (.more (grow state taken)) text result := by
  induction taken generalizing state with
  | nil => rw [List.nil_append,loops.nothing]
  | cons symbol taken ih =>
    obtain ⟨passes,all⟩ := Bool.and_eq_true_iff.mp all
    rw [List.cons_append,accepts_cons,loops.stays state symbol here passes,
      ih (loops.keeps state symbol here passes) all,loops.onward]

theorem accepts (loops : Loops step inside test grow) (here : inside state) : Accepts step (.more state) text result ↔
    ∃ taken rest, text = taken ++ rest ∧ taken.all test = true ∧
      (∀ symbol ∈ rest.head?, test symbol = false) ∧ Accepts step (.more (grow state taken)) rest result := by
  constructor
  · intro whole
    have all : (text.takeWhile test).all test = true := List.all_eq_true.mpr fun _ member => List.mem_takeWhile_imp member
    rw [← @List.takeWhile_append_dropWhile _ test text,loops.accepts_append here all] at whole
    refine ⟨text.takeWhile test,text.dropWhile test,List.takeWhile_append_dropWhile.symm,all,?_,whole⟩
    intro symbol first
    have fails := List.head?_dropWhile_not test text
    rwa [Option.mem_def.mp first] at fails
  · intro found
    obtain ⟨taken,rest,split,all,_,whole⟩ := found
    rwa [split,loops.accepts_append here all]

section Until
variable [DecidableEq Symbol] {stop : Symbol} {next : State → State}
  (stops : ∀ state symbol, inside state → test symbol = false →
    step state symbol = if symbol = stop then .more (next state) else .rejected)
include stops

/-- A loop that one symbol ends. -/
theorem accepts_until (loops : Loops step inside test grow) (other : test stop = false) (here : inside state) :
    Accepts step (.more state) text result ↔ ∃ taken rest, text = taken ++ stop :: rest ∧
      taken.all test = true ∧ Accepts step (.more (next (grow state taken))) rest result := by
  constructor
  · intro whole
    obtain ⟨taken,tail,rfl,all,last,behind⟩ := (loops.accepts here).mp whole
    obtain ⟨symbol,rest,rfl,onward⟩ := accepts_more.mp behind
    rw [stops _ symbol (loops.inside_grow here all) (last symbol rfl)] at onward
    by_cases same : symbol = stop
    · rw [if_pos same] at onward
      exact ⟨taken,rest,by rw [same],all,onward⟩
    · rw [if_neg same] at onward
      exact absurd onward not_accepts_rejected
  · intro found
    obtain ⟨taken,rest,rfl,all,onward⟩ := found
    rwa [loops.accepts_append here all,accepts_cons,stops _ stop (loops.inside_grow here all) other,if_pos rfl]

/-- A loop that is entered with its first symbol. -/
theorem accepts_some_until (loops : Loops step inside test grow) (other : test stop = false) {entry : State}
    (enters : ∀ symbol, test symbol = true → step entry symbol = .more (grow state [symbol]) ∧ inside (grow state [symbol]))
    (refuses : ∀ symbol, test symbol = false → step entry symbol = .rejected) : Accepts step (.more entry) text result ↔
      ∃ taken rest, text = taken ++ stop :: rest ∧ (taken ≠ [] ∧ taken.all test = true) ∧
        Accepts step (.more (next (grow state taken))) rest result := by
  constructor
  · intro whole
    obtain ⟨symbol,text,rfl,onward⟩ := accepts_more.mp whole
    cases passes : test symbol with
    | true =>
      obtain ⟨enters,inside⟩ := enters symbol passes
      rw [enters,loops.accepts_until stops other inside] at onward
      obtain ⟨taken,rest,rfl,all,onward⟩ := onward
      rw [loops.onward] at onward
      exact ⟨symbol :: taken,rest,rfl,⟨List.cons_ne_nil _ _,Bool.and_eq_true_iff.mpr ⟨passes,all⟩⟩,onward⟩
    | false =>
      rw [refuses symbol passes] at onward
      exact absurd onward not_accepts_rejected
  · intro found
    obtain ⟨taken,rest,rfl,⟨some,all⟩,onward⟩ := found
    obtain ⟨symbol,taken,rfl⟩ := List.exists_cons_of_ne_nil some
    obtain ⟨passes,all⟩ := Bool.and_eq_true_iff.mp all
    obtain ⟨enters,inside⟩ := enters symbol passes
    rw [List.cons_append,accepts_cons,enters,loops.accepts_until stops other inside]
    rw [← loops.onward] at onward
    exact ⟨taken,rest,rfl,all,onward⟩

end Until

end Loops

end FuturesCellProxy.Foundation

import Mathlib.Data.List.Basic
import Mathlib.Data.List.Infix
import Mathlib.Data.List.TakeWhile
import Mathlib.Data.Nat.Find

/-! The first occurrence of a pattern in a list, and how it behaves when the list
is extended, cut, or read only up to a terminator. -/
namespace FuturesCellProxy.Foundation

/-- An element of two lists put together stands in the first one or in the second one. -/
theorem split_append {β : Type} {first second before behind : List β} {x : β}
    (split : first ++ second = before ++ x :: behind) :
    (∃ rest, first = before ++ x :: rest ∧ behind = rest ++ second) ∨
      ∃ rest, before = first ++ rest ∧ second = rest ++ x :: behind := by
  rcases List.append_eq_append_iff.mp split with ⟨rest,rfl,tail⟩ | ⟨rest,rfl,tail⟩
  · exact .inr ⟨rest,rfl,tail⟩
  · cases rest with
    | nil => exact .inr ⟨[],by simp,by simpa using tail.symm⟩
    | cons y rest =>
      obtain ⟨rfl,rfl⟩ := List.cons.inj tail
      exact .inl ⟨rest,rfl,rfl⟩

variable {α : Type} [DecidableEq α]

/-- Where `pattern` first occurs in a list. -/
def findFirst (pattern : List α) : List α → Option Nat
  | [] => if pattern.isEmpty then some 0 else none
  | head :: rest =>
    if pattern.isPrefixOf (head :: rest) then some 0 else (findFirst pattern rest).map (· + 1)

theorem findFirst_eq_some (pattern text : List α) (i : Nat) :
    findFirst pattern text = some i ↔
      i ≤ text.length ∧ pattern <+: text.drop i ∧ ∀ j < i, ¬ pattern <+: text.drop j := by
  induction text generalizing i with
  | nil =>
    cases pattern with
    | nil => cases i <;> simp [findFirst]
    | cons => simp [findFirst]
  | cons head rest ih =>
    unfold findFirst
    split
    next here =>
      rw [List.isPrefixOf_iff_prefix] at here
      constructor
      · intro found
        obtain rfl := Option.some.inj found
        exact ⟨Nat.zero_le _,here,by simp⟩
      · rintro ⟨_,_,least⟩
        cases i with
        | zero => rfl
        | succ i => exact absurd here (least 0 (by omega))
    next elsewhere =>
      rw [List.isPrefixOf_iff_prefix] at elsewhere
      cases i with
      | zero =>
        simp only [Option.map_eq_some_iff,Nat.add_eq_zero_iff,List.drop_zero]
        constructor
        · rintro ⟨_,_,_,absurd⟩
          simp at absurd
        · rintro ⟨_,here,_⟩
          exact absurd here elsewhere
      | succ i =>
        simp only [Option.map_eq_some_iff,Nat.add_right_cancel_iff,exists_eq_right,ih,
          List.length_cons,Nat.add_le_add_iff_right,List.drop_succ_cons]
        constructor
        · rintro ⟨bound,here,least⟩
          refine ⟨bound,here,fun j small => ?_⟩
          cases j with
          | zero => exact elsewhere
          | succ j => exact least j (by omega)
        · rintro ⟨bound,here,least⟩
          exact ⟨bound,here,fun j small => least (j+1) (by omega)⟩

theorem findFirst_eq_none (pattern text : List α) :
    findFirst pattern text = none ↔ ∀ i ≤ text.length, ¬ pattern <+: text.drop i := by
  constructor
  · intro missing i bound here
    classical
    have exists_least : ∃ i, i ≤ text.length ∧ pattern <+: text.drop i := ⟨i,bound,here⟩
    have least := (findFirst_eq_some pattern text (Nat.find exists_least)).mpr
      ⟨(Nat.find_spec exists_least).1,(Nat.find_spec exists_least).2,fun j small present =>
        Nat.find_min exists_least small ⟨by have := (Nat.find_spec exists_least).1; omega,present⟩⟩
    simp [missing] at least
  · intro absent
    cases found : findFirst pattern text with
    | none => rfl
    | some i =>
      obtain ⟨bound,here,_⟩ := (findFirst_eq_some _ _ _).mp found
      exact absurd here (absent i bound)

theorem findFirst_bound {pattern text : List α} {i : Nat} (found : findFirst pattern text = some i) :
    i + pattern.length ≤ text.length := by
  obtain ⟨bound,here,_⟩ := (findFirst_eq_some _ _ _).mp found
  have := here.length_le
  simp only [List.length_drop] at this
  omega

omit [DecidableEq α] in
theorem prefix_drop_append {pattern text : List α} (tail : List α) {i : Nat}
    (fits : i + pattern.length ≤ text.length) :
    pattern <+: (text ++ tail).drop i ↔ pattern <+: text.drop i := by
  rw [List.drop_append_of_le_length (by omega)]
  constructor
  · intro here
    exact List.prefix_of_prefix_length_le here (List.prefix_append _ _) (by simp; omega)
  · intro here
    exact here.trans (List.prefix_append _ _)

theorem findFirst_append {pattern text : List α} (tail : List α) {i : Nat}
    (found : findFirst pattern text = some i) : findFirst pattern (text ++ tail) = some i := by
  have fits := findFirst_bound found
  obtain ⟨bound,here,least⟩ := (findFirst_eq_some _ _ _).mp found
  refine (findFirst_eq_some _ _ _).mpr ⟨by simp; omega,(prefix_drop_append tail fits).mpr here,?_⟩
  intro j small
  rw [prefix_drop_append tail (by omega)]
  exact least j small

theorem findFirst_of_append {pattern text tail : List α} {i : Nat}
    (found : findFirst pattern (text ++ tail) = some i) (fits : i + pattern.length ≤ text.length) :
    findFirst pattern text = some i := by
  obtain ⟨_,here,least⟩ := (findFirst_eq_some _ _ _).mp found
  refine (findFirst_eq_some _ _ _).mpr ⟨by omega,(prefix_drop_append tail fits).mp here,?_⟩
  intro j small
  rw [← prefix_drop_append tail (by omega)]
  exact least j small

theorem findFirst_drop {pattern text : List α} {i k : Nat} (found : findFirst pattern text = some i)
    (early : k ≤ i) : findFirst pattern (text.drop k) = some (i - k) := by
  obtain ⟨bound,here,least⟩ := (findFirst_eq_some _ _ _).mp found
  refine (findFirst_eq_some _ _ _).mpr ⟨by rw [List.length_drop]; omega,?_,?_⟩
  · rwa [List.drop_drop,Nat.add_sub_of_le early]
  · intro j small
    rw [List.drop_drop]
    exact least _ (by omega)

theorem findFirst_skip {pattern before text : List α} {i : Nat} (found : findFirst pattern text = some i)
    (absent : ∀ j < before.length, ¬ pattern <+: (before ++ text).drop j) :
    findFirst pattern (before ++ text) = some (before.length + i) := by
  obtain ⟨bound,here,least⟩ := (findFirst_eq_some _ _ _).mp found
  refine (findFirst_eq_some _ _ _).mpr ⟨by rw [List.length_append]; omega,?_,?_⟩
  · rwa [List.drop_length_add_append]
  · intro j small
    by_cases inside : j < before.length
    · exact absent j inside
    · have shift : j = before.length + (j - before.length) := by omega
      rw [shift,List.drop_length_add_append]
      exact least _ (by omega)

theorem findFirst_split {pattern text : List α} {i : Nat} (found : findFirst pattern text = some i) :
    text = text.take i ++ pattern ++ text.drop (i + pattern.length) := by
  obtain ⟨_,⟨tail,here⟩,_⟩ := (findFirst_eq_some _ _ _).mp found
  have rest : text.drop (i + pattern.length) = tail := by
    rw [← List.drop_drop,← here,List.drop_left]
  rw [rest,List.append_assoc,here,List.take_append_drop]

/-- Reading stops at the first terminator: what stands before it is all that is seen. -/
def upTo (stop : α) (memory : List α) : List α := memory.takeWhile (fun x => x ≠ stop)

theorem upTo_append_of_mem {stop : α} {text : List α} (tail : List α) (member : stop ∈ text) :
    upTo stop (text ++ tail) = upTo stop text := by
  induction text with
  | nil => simp at member
  | cons head rest ih =>
    by_cases same : head = stop
    · simp [upTo,same]
    · have inside : stop ∈ rest := by simpa [Ne.symm same] using member
      simpa [upTo,same] using ih inside

theorem upTo_append_of_not_mem {stop : α} {text : List α} (tail : List α) (absent : stop ∉ text) :
    upTo stop (text ++ tail) = text ++ upTo stop tail :=
  List.takeWhile_append_of_pos (by
    intro x member
    simp only [ne_eq,decide_not,Bool.not_eq_eq_eq_not,Bool.not_true,decide_eq_false_iff_not]
    exact fun same => absent (same ▸ member))

theorem upTo_eq_self {stop : α} {text : List α} (absent : stop ∉ text) : upTo stop text = text := by
  simpa [upTo] using upTo_append_of_not_mem [] absent

theorem upTo_start (stop : α) (memory : List α) : upTo stop memory <+: memory :=
  List.takeWhile_prefix _

theorem not_mem_upTo (stop : α) (memory : List α) : stop ∉ upTo stop memory := by
  intro member
  simpa using List.mem_takeWhile_imp member

end FuturesCellProxy.Foundation

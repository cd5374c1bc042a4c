import Mathlib.Data.List.Sort
import Mathlib.Order.Defs.LinearOrder

/-! Sets that are kept in order, with iterators. An iterator is at an element or behind the
last one, and goes to the next greater element, whatever is erased behind it. -/
namespace FuturesCellProxy.Foundation
variable {α : Type} [LinearOrder α]

structure OrderedSet (α : Type) [LinearOrder α] where
  elements : List α
  sorted : elements.SortedLT

namespace OrderedSet

@[ext] theorem ext {first second : OrderedSet α} (same : first.elements = second.elements) : first = second := by
  cases first
  cases second
  cases same
  rfl

instance : Membership α (OrderedSet α) := ⟨fun set a => a ∈ set.elements⟩

instance (a : α) (set : OrderedSet α) : Decidable (a ∈ set) := inferInstanceAs (Decidable (a ∈ set.elements))

instance : EmptyCollection (OrderedSet α) := ⟨[],List.Pairwise.nil.sortedLT⟩

theorem mem_def {a : α} {set : OrderedSet α} : a ∈ set ↔ a ∈ set.elements := Iff.rfl

@[simp] theorem not_mem_empty (a : α) : a ∉ (∅ : OrderedSet α) := List.not_mem_nil

def insert (set : OrderedSet α) (a : α) : OrderedSet α :=
  if member : a ∈ set.elements then set
  else
    {elements := set.elements.orderedInsert (· ≤ ·) a
     sorted := by
      have sorted := set.sorted.sortedLE.pairwise.orderedInsert a
      have distinct := ((List.perm_orderedInsert (· ≤ ·) a set.elements).nodup_iff).mpr
        (List.nodup_cons.mpr ⟨member,set.sorted.nodup⟩)
      exact sorted.sortedLE.sortedLT_of_nodup distinct}

def filter (set : OrderedSet α) (keep : α → Bool) : OrderedSet α where
  elements := set.elements.filter keep
  sorted := (set.sorted.pairwise.filter keep).sortedLT

def erase (set : OrderedSet α) (a : α) : OrderedSet α where
  elements := set.elements.erase a
  sorted := (set.sorted.pairwise.sublist List.erase_sublist).sortedLT

def first (set : OrderedSet α) : Option α := set.elements.head?

def after (set : OrderedSet α) (a : α) : Option α := set.elements.find? (a < ·)

@[simp] theorem mem_insert {a b : α} {set : OrderedSet α} : a ∈ set.insert b ↔ a = b ∨ a ∈ set := by
  unfold insert
  split
  next member =>
    constructor
    · exact .inr
    · rintro (rfl | other)
      · exact member
      · exact other
  next => simp [mem_def]

@[simp] theorem mem_filter {a : α} {set : OrderedSet α} {keep : α → Bool} :
    a ∈ set.filter keep ↔ a ∈ set ∧ keep a = true := by
  simp [mem_def,filter]

theorem filter_eq_self {set : OrderedSet α} {keep : α → Bool} (keeps : ∀ a ∈ set, keep a = true) :
    set.filter keep = set :=
  ext (List.filter_eq_self.mpr keeps)

theorem filter_eq_empty {set : OrderedSet α} {keep : α → Bool} (drops : ∀ a ∈ set, keep a = false) :
    set.filter keep = ∅ := by
  apply ext
  apply List.filter_eq_nil_iff.mpr
  intro a member
  simp [drops a member]

theorem erase_eq_filter (set : OrderedSet α) (a : α) : set.erase a = set.filter (· ≠ a) := by
  ext1
  simp only [erase,filter]
  rw [set.sorted.nodup.erase_eq_filter]
  congr 1
  funext b
  by_cases same : b = a <;> simp [same]

theorem elements_filter_eq {set : OrderedSet α} {a : α} (member : a ∈ set) :
    set.elements.filter (· = a) = [a] := by
  rw [List.filter_eq,List.count_eq_one_of_mem set.sorted.nodup member,List.replicate_one]

theorem elements_filter_eq_nil {set : OrderedSet α} {a : α} (absent : a ∉ set) :
    set.elements.filter (· = a) = [] := by
  rw [List.filter_eq,List.count_eq_zero_of_not_mem absent,List.replicate_zero]

/-- Behind an element comes what follows it in the order. -/
theorem after_of_split {set : OrderedSet α} {kept todo : List α} {a : α} (split : set.elements = kept ++ a :: todo) :
    set.after a = todo.head? := by
  have sorted := set.sorted.pairwise
  rw [split,List.pairwise_append,List.pairwise_cons] at sorted
  obtain ⟨_,⟨above,_⟩,below⟩ := sorted
  have none : (kept ++ [a]).find? (a < ·) = none := by
    rw [List.find?_eq_none]
    intro b member
    rcases List.mem_append.mp member with before | same
    · simpa using (below b before a List.mem_cons_self).le
    · simp [List.mem_singleton.mp same]
  rw [after,split,List.append_cons,List.find?_append,none,Option.none_or]
  cases todo with
  | nil => rfl
  | cons b todo => simp [above b List.mem_cons_self]

theorem erase_of_split {set : OrderedSet α} {kept todo : List α} {a : α} (split : set.elements = kept ++ a :: todo) :
    (set.erase a).elements = kept ++ todo := by
  have distinct := set.sorted.nodup
  rw [split] at distinct
  have absent : a ∉ kept := fun member => (List.nodup_append.mp distinct).2.2 a member a List.mem_cons_self rfl
  simp only [erase]
  rw [split,List.erase_append_right _ absent,List.erase_cons_head]

end OrderedSet

end FuturesCellProxy.Foundation

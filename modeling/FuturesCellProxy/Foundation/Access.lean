import Mathlib.Data.List.Basic
import Mathlib.Data.Int.Basic

/-! Programs that read an array up to its terminator and copy parts of it, with a record of every
index and of every range. Nothing here is specific to one program. -/
namespace FuturesCellProxy.Foundation

inductive Access where
  | read (index : Int)
  | copy (start length : Int)
  deriving DecidableEq, Repr

/-- At `size` is the terminator, which may be read and is not copied. -/
def Access.Inside (size : Nat) : Access → Prop
  | read index => 0 ≤ index ∧ index ≤ size
  | copy start length => 0 ≤ start ∧ 0 ≤ length ∧ start + length ≤ size

structure Recorded (β : Type) where
  value : β
  record : List Access
  deriving DecidableEq, Repr

namespace Recorded
variable {α β γ : Type}

instance : Monad Recorded where
  pure value := ⟨value,[]⟩
  bind first next := ⟨(next first.value).value,first.record ++ (next first.value).record⟩

@[simp] theorem value_pure (value : β) : (pure value : Recorded β).value = value := rfl

@[simp] theorem value_bind (first : Recorded β) (next : β → Recorded γ) :
    (first >>= next).value = (next first.value).value := rfl

theorem value_ite (condition : Prop) [Decidable condition] (first second : Recorded β) :
    (if condition then first else second).value = if condition then first.value else second.value :=
  apply_ite value condition first second

def Inside (size : Nat) (program : Recorded β) : Prop := ∀ access ∈ program.record, access.Inside size

theorem inside_pure (size : Nat) (value : β) : Inside size (pure value : Recorded β) :=
  fun _ member => nomatch member

theorem Inside.bind {size : Nat} {first : Recorded β} {next : β → Recorded γ} (before : first.Inside size)
    (behind : (next first.value).Inside size) : (first >>= next).Inside size := by
  intro access member
  rcases List.mem_append.mp member with early | late
  · exact before access early
  · exact behind access late

end Recorded

section
variable {α : Type} (array : List α) (stop : α)

def readAt (index : Nat) : Recorded α := ⟨array.getD index stop,[.read index]⟩

def copy (start length : Int) : Recorded (List α) :=
  ⟨(array.drop start.toNat).take length.toNat,[.copy start length]⟩

/-- `while (it < size && test(array[it])) it++`. -/
def scan (test : α → Bool) (it : Nat) : Recorded Nat :=
  if it < array.length then do
    let x ← readAt array stop it
    if test x then scan test (it+1) else return it
  else return it
termination_by array.length - it

variable {array stop}

theorem readAt_inside {index : Nat} (within : index ≤ array.length) : (readAt array stop index).Inside array.length := by
  intro access member
  obtain rfl := List.mem_singleton.mp member
  exact ⟨Int.natCast_nonneg index,Int.ofNat_le.mpr within⟩

theorem copy_inside {start length : Int} (starts : 0 ≤ start) (counts : 0 ≤ length)
    (within : start + length ≤ array.length) : (copy array start length).Inside array.length := by
  intro access member
  obtain rfl := List.mem_singleton.mp member
  exact ⟨starts,counts,within⟩

theorem scan_value (test : α → Bool) (it : Nat) :
    (scan array stop test it).value = it + ((array.drop it).takeWhile test).length := by
  fun_induction scan array stop test it with
  | case1 it within ih =>
    have here : (readAt array stop it).value = array[it] := by simp [readAt,within]
    rw [Recorded.value_bind,here,List.drop_eq_getElem_cons within,List.takeWhile_cons]
    cases passes : test array[it] with
    | false => rfl
    | true =>
      simp only [if_true,ih,List.length_cons]
      omega
  | case2 it outside =>
    rw [List.drop_of_length_le (Nat.le_of_not_lt outside)]
    rfl

theorem scan_inside (test : α → Bool) (it : Nat) : (scan array stop test it).Inside array.length := by
  fun_induction scan array stop test it with
  | case1 it within ih =>
    apply Recorded.Inside.bind (readAt_inside (Nat.le_of_lt within))
    split
    next => exact ih
    next => exact Recorded.inside_pure _ _
  | case2 it outside => exact Recorded.inside_pure _ _

end

end FuturesCellProxy.Foundation

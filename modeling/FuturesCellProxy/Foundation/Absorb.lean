import Mathlib.Data.List.Basic

/-! A stream taken in by blocks: every whole block is compressed into a state, and what is
left is the residue. Nothing here is specific to one compression. -/
namespace FuturesCellProxy.Foundation

variable {σ α : Type} (size : Nat) (compress : σ → List α → σ)

def absorb (state : σ) (text : List α) : σ × List α :=
  if 0 < size ∧ size ≤ text.length then absorb (compress state (text.take size)) (text.drop size)
  else (state,text)
termination_by text.length
decreasing_by simp only [List.length_drop]; omega

variable {size compress}

theorem absorb_short {text : List α} (short : text.length < size) (state : σ) :
    absorb size compress state text = (state,text) := by
  rw [absorb,if_neg (by omega)]

theorem absorb_step {text : List α} (some_size : 0 < size) (long : size ≤ text.length) (state : σ) :
    absorb size compress state text = absorb size compress (compress state (text.take size)) (text.drop size) := by
  rw [absorb,if_pos ⟨some_size,long⟩]

theorem absorb_block {block : List α} (some_size : 0 < size) (whole : block.length = size) (rest : List α)
    (state : σ) : absorb size compress state (block ++ rest) = absorb size compress (compress state block) rest := by
  rw [absorb_step some_size (by simp [whole]),← whole,List.take_left,List.drop_left]

theorem absorb_map {τ : Type} {compress' : τ → List α → τ} (f : σ → τ)
    (agree : ∀ state block, block.length = size → f (compress state block) = compress' (f state) block)
    (state : σ) (text : List α) :
    absorb size compress' (f state) text =
      (f (absorb size compress state text).1,(absorb size compress state text).2) := by
  fun_induction absorb size compress state text with
  | case1 state text whole ih =>
    rw [absorb_step whole.1 whole.2,← agree state _ (List.length_take_of_le whole.2),ih]
  | case2 state text part => rw [absorb,if_neg part]

/-- What is left of a text is at its end, behind whole blocks. -/
theorem absorb_residue (some_size : 0 < size) (state : σ) (text : List α) :
    (absorb size compress state text).2 = text.drop (size * (text.length / size)) := by
  fun_induction absorb size compress state text with
  | case1 state text whole ih =>
    have blocks : text.length / size = (text.length - size) / size + 1 := by
      rw [← Nat.add_div_right _ some_size,Nat.sub_add_cancel whole.2]
    rw [ih,List.drop_drop,List.length_drop,blocks,Nat.mul_succ,Nat.add_comm]
  | case2 state text part =>
    have short : text.length < size := by omega
    rw [Nat.div_eq_of_lt short,Nat.mul_zero,List.drop_zero]

theorem absorb_residue_length (some_size : 0 < size) (state : σ) (text : List α) :
    (absorb size compress state text).2.length = text.length % size := by
  rw [absorb_residue some_size,List.length_drop,Nat.mod_eq_sub]

/-- A text can be taken in by parts: the residue of the first goes in front of the second. -/
theorem absorb_append (some_size : 0 < size) (state : σ) (first second : List α) :
    absorb size compress state (first ++ second) =
      absorb size compress (absorb size compress state first).1
        ((absorb size compress state first).2 ++ second) := by
  fun_induction absorb size compress state first with
  | case1 state first whole ih =>
    have longer : size ≤ (first ++ second).length := by
      rw [List.length_append]
      omega
    rw [absorb_step some_size longer,List.take_append_of_le_length whole.2,List.drop_append_of_le_length whole.2,ih]
  | case2 => rfl

/-- Whole blocks of a text, and another residue behind them. -/
theorem absorb_replace (some_size : 0 < size) (state : σ) (text : List α) {tail : List α} (short : tail.length < size) :
    absorb size compress state (text.take (size * (text.length / size)) ++ tail) =
      ((absorb size compress state text).1,tail) := by
  generalize taken : text.take (size * (text.length / size)) = blocks
  have whole : blocks.length = size * (text.length / size) := by
    rw [← taken]
    exact List.length_take_of_le (Nat.mul_div_le _ _)
  have none_left : (absorb size compress state blocks).2 = [] := by
    apply List.eq_nil_of_length_eq_zero
    rw [absorb_residue_length some_size,whole]
    exact Nat.mul_mod_right _ _
  have rest : (text.drop (size * (text.length / size))).length < size := by
    rw [List.length_drop,← Nat.mod_eq_sub]
    exact Nat.mod_lt _ some_size
  have all := @absorb_append _ _ _ compress some_size state blocks (text.drop (size * (text.length / size)))
  rw [← taken,List.take_append_drop,taken,none_left,List.nil_append,absorb_short rest] at all
  rw [absorb_append some_size,none_left,List.nil_append,absorb_short short,all]

end FuturesCellProxy.Foundation

import Mathlib.Analysis.SpecialFunctions.Trigonometric.Basic
import Mathlib.Tactic.LinearCombination

/-! The sine of whole numbers. Every power of a rational approximation of `exp i` is close
to the same power of `exp i`, so integers decide what the first binary digits are. -/
namespace FuturesCellProxy.Foundation
open Complex

/-- `exp i` in parts of `19!`. -/
def turnScale : Int := 121645100408832000
def turnRe : Int := 65725128248453315
def turnIm : Int := 102360822438075317

def turns : Nat → Int × Int
  | 0 => (1,0)
  | k+1 => ((turns k).1 * turnRe - (turns k).2 * turnIm,(turns k).1 * turnIm + (turns k).2 * turnRe)

noncomputable def turn : ℂ := (turnRe + turnIm * I) / turnScale

theorem turn_eq_sum : ∑ m ∈ Finset.range 20, I ^ m / m.factorial = turn := by
  have pairs : ∑ m ∈ Finset.range 20, I ^ m / (m.factorial : ℂ) =
      ∑ n ∈ Finset.range 10, ((-1)^n / ((2*n).factorial : ℂ) + (-1)^n * I / ((2*n+1).factorial : ℂ)) := by
    simp only [Finset.sum_range_succ,Finset.sum_range_zero,← I_sq,← pow_mul]
    ring
  rw [pairs,turn,turnRe,turnIm,turnScale]
  simp only [Finset.sum_range_succ,Finset.sum_range_zero]
  norm_num [Nat.factorial]
  ring

theorem turn_close : ‖exp I - turn‖ ≤ 1 / 10^18 := by
  have bound := exp_bound (x := I) (by simp) (show 0 < 20 by norm_num)
  rw [turn_eq_sum] at bound
  refine bound.trans ?_
  norm_num [Nat.factorial]

theorem turn_pow (k : Nat) : turn ^ k = ((turns k).1 + (turns k).2 * I) / turnScale ^ k := by
  induction k with
  | zero => simp [turns]
  | succ k ih =>
    have square : I * I = -1 := I_mul_I
    rw [pow_succ,ih,turn,pow_succ,turns]
    push_cast
    rw [div_mul_div_comm]
    congr 1
    linear_combination ((turns k).2 : ℂ) * turnIm * square

theorem turn_pow_close (k : Nat) (small : k ≤ 10^17) : ‖exp I ^ k - turn ^ k‖ ≤ 2 * k / 10^18 := by
  induction k with
  | zero => simp
  | succ k ih =>
    have before := ih (by omega)
    have unit : ‖exp I‖ = 1 := by simpa using norm_exp_ofReal_mul_I 1
    have bounded : ‖turn ^ k‖ ≤ 2 := by
      have powers : ‖exp I ^ k‖ = 1 := by rw [norm_pow,unit,one_pow]
      have far : (2 * k / 10^18 : ℝ) ≤ 1 := by
        have : (k : ℝ) ≤ 10^17 := by exact_mod_cast (by omega : k ≤ 10^17)
        linarith
      have := norm_sub_norm_le (turn ^ k) (exp I ^ k)
      rw [norm_sub_rev] at this
      linarith
    calc ‖exp I ^ (k+1) - turn ^ (k+1)‖
        = ‖exp I * (exp I ^ k - turn ^ k) + (exp I - turn) * turn ^ k‖ := by ring_nf
      _ ≤ ‖exp I‖ * ‖exp I ^ k - turn ^ k‖ + ‖exp I - turn‖ * ‖turn ^ k‖ := by
        rw [← norm_mul,← norm_mul]
        exact norm_add_le _ _
      _ ≤ 1 * (2 * k / 10^18) + 1 / 10^18 * 2 := by
        rw [unit]
        gcongr
        exact turn_close
      _ = 2 * (k+1 : Nat) / 10^18 := by
        push_cast
        ring

theorem sin_close (k : Nat) (small : k ≤ 10^17) :
    |Real.sin k - (turns k).2 / turnScale ^ k| ≤ 2 * k / 10^18 := by
  have imaginary : (exp I ^ k - turn ^ k).im = Real.sin k - (turns k).2 / turnScale ^ k := by
    have power : exp I ^ k = exp ((k : ℝ) * I) := by
      rw [← exp_nat_mul]
      simp
    rw [sub_im,power,exp_ofReal_mul_I_im,turn_pow]
    have scale : (turnScale : ℂ) ^ k = ((turnScale ^ k : ℝ) : ℂ) := by push_cast; rfl
    rw [scale,div_ofReal_im]
    simp
  rw [← imaginary]
  exact (abs_im_le_norm _).trans (turn_pow_close k small)

/-- The integers say that the first 32 binary digits are those of a number. -/
def Digits (k n : Nat) : Prop :=
  10^6 * (n * turnScale ^ k) + turnScale ^ k ≤ 10^6 * (2^32 * |(turns k).2|) ∧
    10^6 * (2^32 * |(turns k).2|) + turnScale ^ k < 10^6 * ((n+1) * turnScale ^ k)

instance (k n : Nat) : Decidable (Digits k n) := inferInstanceAs (Decidable (_ ∧ _))

theorem floor_sine {k n : Nat} (small : k ≤ 100) (digits : Digits k n) :
    ⌊(2^32 : ℝ) * |Real.sin k|⌋₊ = n := by
  have scale : (0 : ℝ) < turnScale ^ k := by
    have : (0 : ℝ) < turnScale := by norm_num [turnScale]
    positivity
  have size : |((turns k).2 : ℝ) / turnScale ^ k| = |((turns k).2 : ℝ)| / turnScale ^ k := by
    rw [abs_div,abs_of_pos scale]
  have close := abs_sub_abs_le_abs_sub (Real.sin k) (((turns k).2 : ℝ) / turnScale ^ k)
  have close' := abs_sub_abs_le_abs_sub (((turns k).2 : ℝ) / turnScale ^ k) (Real.sin k)
  have error := sin_close k (by omega)
  have tiny : (2 * k / 10^18 : ℝ) ≤ 2 / 10^16 := by
    have : (k : ℝ) ≤ 100 := by exact_mod_cast small
    linarith
  rw [abs_sub_comm] at close'
  rw [size] at close close'
  -- the digits as real numbers
  have low : (n : ℝ) + 1 / 10^6 ≤ 2^32 * (|((turns k).2 : ℝ)| / turnScale ^ k) := by
    have whole : (10^6 * (n * turnScale ^ k) + turnScale ^ k : ℝ) ≤ 10^6 * (2^32 * |((turns k).2 : ℝ)|) := by
      exact_mod_cast digits.1
    rw [← mul_div_assoc,le_div_iff₀ scale]
    linarith
  have high : 2^32 * (|((turns k).2 : ℝ)| / turnScale ^ k) + 1 / 10^6 < (n : ℝ) + 1 := by
    have whole : (10^6 * (2^32 * |((turns k).2 : ℝ)|) + turnScale ^ k : ℝ) < 10^6 * ((n+1) * turnScale ^ k) := by
      exact_mod_cast digits.2
    rw [← lt_sub_iff_add_lt,← mul_div_assoc,div_lt_iff₀ scale]
    linarith
  rw [Nat.floor_eq_iff (by positivity)]
  constructor
  · linarith
  · linarith

example : Digits 1 0xd76aa478 := by decide +kernel

end FuturesCellProxy.Foundation

import FuturesCellProxy.Common.MD5
import FuturesCellProxy.Common.Rfc1321

/-! The function `transform` processes one block as the RFC does. Its lines change the
registers in place and name them in turn, where the RFC moves the words. -/
namespace FuturesCellProxy.Common.MD5
open Foundation Rfc1321

theorem or_shiftLeft {n k : Nat} (small : n < 2^k) (m : Nat) : n ||| m <<< k = n + 2^k * m := by
  rw [Nat.or_comm,← Nat.shiftLeft_add_eq_or_of_lt small,Nat.shiftLeft_eq,Nat.mul_comm,Nat.add_comm]

theorem shiftLeft_toNat (b : UInt8) (s : UInt32) (inside : s.toNat ≤ 24) :
    (b.toUInt32 <<< s).toNat = b.toNat <<< s.toNat := by
  have size := b.toNat_lt
  have power : 2^s.toNat ≤ 2^24 := Nat.pow_le_pow_right (by decide) inside
  rw [UInt32.toNat_shiftLeft,UInt8.toNat_toUInt32,Nat.mod_eq_of_lt (by omega : s.toNat < 32)]
  refine Nat.mod_eq_of_lt ?_
  rw [Nat.shiftLeft_eq]
  calc b.toNat * 2^s.toNat ≤ b.toNat * 2^24 := Nat.mul_le_mul_left _ power
    _ < 2^32 := by omega

theorem word_eq (b0 b1 b2 b3 : UInt8) :
    b0.toUInt32 ||| (b1.toUInt32 <<< 8) ||| (b2.toUInt32 <<< 16) ||| (b3.toUInt32 <<< 24) = word [b0,b1,b2,b3] := by
  have first := b0.toNat_lt
  have second := b1.toNat_lt
  have third := b2.toNat_lt
  have fourth := b3.toNat_lt
  apply UInt32.toNat_inj.mp
  rw [UInt32.toNat_or,UInt32.toNat_or,UInt32.toNat_or,shiftLeft_toNat b1 8 (by decide),
    shiftLeft_toNat b2 16 (by decide),shiftLeft_toNat b3 24 (by decide),UInt8.toNat_toUInt32,
    show (8 : UInt32).toNat = 8 from rfl,show (16 : UInt32).toNat = 16 from rfl,
    show (24 : UInt32).toNat = 24 from rfl]
  have low : b0.toNat ||| b1.toNat <<< 8 = b0.toNat + 2^8 * b1.toNat := or_shiftLeft first _
  have middle := @or_shiftLeft (b0.toNat + 2^8 * b1.toNat) 16 (by omega) b2.toNat
  have high := @or_shiftLeft (b0.toNat + 2^8 * b1.toNat + 2^16 * b2.toNat) 24 (by omega) b3.toNat
  rw [low,middle,high]
  simp only [word,value,List.foldr_cons,List.foldr_nil,UInt32.toNat_ofNat']
  omega

theorem decode_getD (block : Bytes) (k : Nat) (inside : 4*k + 4 ≤ block.length) :
    (decode block).getD k 0 = word ((block.drop (4*k)).take 4) := by
  induction k generalizing block with
  | zero =>
    match block with
    | b0 :: b1 :: b2 :: b3 :: rest => exact word_eq b0 b1 b2 b3
  | succ k ih =>
    match block with
    | b0 :: b1 :: b2 :: b3 :: rest =>
      have next := ih rest (by simp only [List.length_cons] at inside; omega)
      rw [decode,List.getD_cons_succ,next]
      rfl

theorem byte_eq (x : UInt32) (s : UInt32) (inside : s.toNat < 32) :
    ((x >>> s) &&& 0xff).toUInt8 = .ofNat (x.toNat / 2^s.toNat) := by
  apply UInt8.toNat_inj.mp
  rw [UInt32.toNat_toUInt8,UInt32.toNat_and,UInt32.toNat_shiftRight,Nat.mod_eq_of_lt inside,UInt8.toNat_ofNat',
    Nat.shiftRight_eq_div_pow]
  exact (congrArg (· % 2^8) (Nat.and_two_pow_sub_one_eq_mod _ 8)).trans (Nat.mod_mod _ _)

theorem encode_cons (x : UInt32) (rest : List UInt32) : encode (x :: rest) = lowFirst 4 x.toNat ++ encode rest := by
  have low : (x &&& 0xff).toUInt8 = .ofNat x.toNat := by
    have bits := byte_eq x 0 (by decide)
    simpa using bits
  rw [encode,List.flatMap_cons,← encode,low,byte_eq x 8 (by decide),byte_eq x 16 (by decide),
    byte_eq x 24 (by decide)]
  simp only [lowFirst,Nat.div_div_eq_div_mul]
  rfl

theorem rotateLeft_eq (x : UInt32) {s : Nat} (some_bits : 0 < s) (inside : s < 32) :
    rotateLeft x (.ofNat s) = rotate x s := by
  have left : (UInt32.ofNat s).toNat = s := UInt32.toNat_ofNat_of_lt' (Nat.lt_trans inside (by decide))
  have right : (32 - UInt32.ofNat s).toNat = 32 - s := by
    rw [UInt32.toNat_sub_of_le _ _ (UInt32.le_iff_toNat_le.mpr (by rw [left]; exact inside.le)),left]
    rfl
  have left' : (UInt32.ofNat s).toBitVec.toNat % 32 = s := by rw [UInt32.toNat_toBitVec,left,Nat.mod_eq_of_lt inside]
  have right' : (32 - UInt32.ofNat s).toBitVec.toNat % 32 = 32 - s := by
    rw [UInt32.toNat_toBitVec,right,Nat.mod_eq_of_lt (by omega)]
  apply UInt32.toBitVec_inj.mp
  rw [rotateLeft,rotate,BitVec.rotateLeft_eq_rotateLeftAux_of_lt inside,BitVec.rotateLeftAux,UInt32.toBitVec_or,
    UInt32.toBitVec_shiftLeft,UInt32.toBitVec_shiftRight,BitVec.shiftLeft_eq',BitVec.ushiftRight_eq',
    BitVec.toNat_umod,BitVec.toNat_umod]
  exact congrArg₂ (fun m n => x.toBitVec <<< m ||| x.toBitVec >>> n) left' right'

def named (i : Nat) : Register × Register × Register × Register :=
  match i % 4 with
  | 0 => (.a,.b,.c,.d)
  | 1 => (.d,.a,.b,.c)
  | 2 => (.c,.d,.a,.b)
  | _ => (.b,.c,.d,.a)

def constant (i : Nat) : UInt32 := (lines.map Line.ac).getD i 0

def lineAt (i : Nat) : Line where
  auxiliary := auxiliary (i/16)
  a := (named i).1
  b := (named i).2.1
  c := (named i).2.2.1
  d := (named i).2.2.2
  k := wordIndex i
  s := .ofNat (shift i)
  ac := constant i

theorem lines_eq : lines = (List.range 64).map lineAt := rfl

theorem sineTable_eq {i : Nat} (inside : i < 64) : sineTable i = constant i := by
  have digits : ∀ i : Fin 64, Digits (i+1) (constant i).toNat := by decide +kernel
  rw [sineTable,floor_sine (by omega) (digits ⟨i,inside⟩),UInt32.ofNat_toNat]

/-- The words of the RFC in front of a line. -/
def view (regs : Registers) (i : Nat) : Words where
  a := regs.get (named i).1
  b := regs.get (named i).2.1
  c := regs.get (named i).2.2.1
  d := regs.get (named i).2.2.2

theorem run_lineAt {block : Bytes} (whole : block.length = 64) {i : Nat} (inside : i < 64) (regs : Registers) :
    view ((lineAt i).run (decode block) regs) (i+1) = operation block (view regs i) i := by
  have index : wordIndex i < 16 := by
    have all : ∀ i : Fin 64, wordIndex i < 16 := by decide
    exact all ⟨i,inside⟩
  have bits : 0 < shift i ∧ shift i < 32 := by
    have all : ∀ i : Fin 64, 0 < shift i ∧ shift i < 32 := by decide
    exact all ⟨i,inside⟩
  have fetched : (decode block).getD (wordIndex i) 0 = word ((block.drop (4 * wordIndex i)).take 4) :=
    decode_getD block _ (by omega)
  have turned := fun x => rotateLeft_eq x bits.1 bits.2
  rw [operation,sineTable_eq inside,← fetched,← turned]
  have turn : i % 4 = 0 ∧ (i+1) % 4 = 1 ∨ i % 4 = 1 ∧ (i+1) % 4 = 2 ∨ i % 4 = 2 ∧ (i+1) % 4 = 3 ∨
      i % 4 = 3 ∧ (i+1) % 4 = 0 := by omega
  rcases turn with ⟨here,next⟩ | ⟨here,next⟩ | ⟨here,next⟩ | ⟨here,next⟩ <;>
  · simp only [view,lineAt,Line.run,named,here,next,Registers.get,Registers.set,UInt32.add_assoc]
    congr 1
    exact UInt32.add_comm _ _

theorem transform_eq {block : Bytes} (whole : block.length = 64) (state : Registers) :
    view (transform state block) 0 = process (view state 0) block := by
  have steps (n : Nat) (within : n ≤ 64) :
      view (((List.range n).map lineAt).foldl (Line.run (decode block)) state) n =
      (List.range n).foldl (operation block) (view state 0) := by
    induction n with
    | zero => rfl
    | succ n ih =>
      rw [List.range_succ,List.map_append,List.foldl_append,List.foldl_append,← ih (by omega)]
      exact run_lineAt whole (by omega) _
  have all := steps 64 (Nat.le_refl _)
  rw [← lines_eq] at all
  rw [process,← all,transform]
  generalize lines.foldl (Line.run (decode block)) state = after
  rfl

end FuturesCellProxy.Common.MD5

import FuturesCellProxy.Foundation.Search
import Mathlib.Data.List.DropRight
import Mathlib.Data.Int.Basic
import Mathlib.Algebra.Group.Nat.Defs
import Mathlib.Algebra.Group.Int.Defs

/-! Byte strings and the C and C++ library functions the server applies to them.
`char` is a byte; memory that a C string function scans is the list of bytes it
may reach, and the end of that list stands for a NUL. -/
namespace FuturesCellProxy
open Foundation

abbrev Bytes := List UInt8

def ascii (text : String) : Bytes := text.toList.map fun c => c.toNat.toUInt8

def nul : UInt8 := 0
def lf : UInt8 := 10
def cr : UInt8 := 13
def space : UInt8 := 32
def slash : UInt8 := 47
def colon : UInt8 := 58

def crlf : Bytes := [cr,lf]

/-- `strstr` on memory that ends at its first NUL. -/
def strstr (memory pattern : Bytes) : Option Nat := findFirst pattern (upTo nul memory)

def byteAt (text : Bytes) (index : Nat) : UInt8 := text.getD index nul

/-- `while (it < size && test(text[it])) it++`. -/
def scanWhile (test : UInt8 → Bool) (text : Bytes) (it : Nat) : Nat :=
  it + ((text.drop it).takeWhile test).length

def isSpace (b : UInt8) : Bool := (9 ≤ b && b ≤ 13) || b == 32

def trim (text : Bytes) : Bytes := (text.rdropWhile isSpace).dropWhile isSpace

/-- `std::tolower` in the classic locale. -/
def tolower (b : UInt8) : UInt8 := if 65 ≤ b && b ≤ 90 then b + 32 else b

def isDigit (b : UInt8) : Bool := 48 ≤ b && b ≤ 57

def digitsValue (text : Bytes) : Nat := text.foldl (fun n b => 10 * n + (b.toNat - 48)) 0

/-- A non-empty string of decimal digits as a number. -/
def readDecimal (text : Bytes) : Option Nat :=
  if text ≠ [] ∧ text.all isDigit then some (digitsValue text) else none

def sizeBound : Nat := 2^64

private def readSize (text : Bytes) : Option Nat :=
  (readDecimal text).filter (· < sizeBound)

/-- `boost::lexical_cast<std::size_t>`: an optional sign and digits below `2^64`,
where a negative number wraps; `none` is `bad_lexical_cast`. -/
def lexicalCastSize : Bytes → Option Nat
  | [] => none
  | sign :: digits =>
    if sign = 45 then (readSize digits).map fun n => (sizeBound - n) % sizeBound
    else if sign = 43 then readSize digits
    else readSize (sign :: digits)

/-- `static_cast<int32_t>` of a size. -/
def toInt32 (n : Nat) : Int := Int.bmod n (2^32)

/-- A number as an `ostream` or `lexical_cast` writes it. -/
def decimal (n : Nat) : Bytes := (Nat.toDigits 10 n).map fun c => c.toNat.toUInt8

def decimalInt (n : Int) : Bytes := if n < 0 then 45 :: decimal n.natAbs else decimal n.natAbs

/-- `boost::algorithm::replace_all(text, pattern, "")`; `skip` counts the bytes of
an occurrence that are still to be passed over. -/
def eraseAll (pattern : Bytes) : (skip : Nat) → Bytes → Bytes
  | _, [] => []
  | skip+1, _ :: rest => eraseAll pattern skip rest
  | 0, b :: rest =>
    if pattern.isPrefixOf (b :: rest) then eraseAll pattern (pattern.length - 1) rest
    else b :: eraseAll pattern 0 rest

theorem toInt32_of_lt {n : Nat} (small : n < 2^31) : toInt32 n = n := by
  unfold toInt32
  rw [Int.bmod_eq_of_le] <;> omega

theorem toInt32_le (n : Nat) : toInt32 n ≤ n := by
  unfold toInt32
  rw [Int.bmod_def]
  split <;> omega

theorem toInt32_neg {n : Nat} (large : 2^31 ≤ n) (bound : n < 2^32) : toInt32 n < 0 := by
  unfold toInt32
  rw [Int.bmod_def]
  split <;> omega

theorem trim_cons_of_isSpace {b : UInt8} (text : Bytes) (blank : isSpace b) :
    trim (b :: text) = trim text := by
  unfold trim List.rdropWhile
  rw [List.reverse_cons,List.dropWhile_append]
  split
  next empty =>
    rw [List.isEmpty_iff] at empty
    simp [empty,blank]
  next => simp [blank]

theorem trim_append_crlf (text : Bytes) : trim (text ++ crlf) = trim text := by
  have blanks : isSpace cr = true ∧ isSpace lf = true := by decide
  have split : text ++ crlf = (text ++ [cr]) ++ [lf] := by simp [crlf]
  rw [trim,trim,split,List.rdropWhile_concat_pos _ _ _ blanks.2,
    List.rdropWhile_concat_pos _ _ _ blanks.1]

theorem isDigit_toUInt8 {c : Char} (digit : c.isDigit) :
    isDigit c.toNat.toUInt8 ∧ c.toNat.toUInt8.toNat = c.toNat := by
  obtain ⟨low,high⟩ : 48 ≤ c.toNat ∧ c.toNat ≤ 57 := Char.isDigit_iff_toNat.mp digit
  have small : c.toNat.toUInt8.toNat = c.toNat := by
    rw [Nat.toUInt8_eq,UInt8.toNat_ofNat',Nat.mod_eq_of_lt (by omega)]
  refine ⟨?_,small⟩
  simp only [isDigit,Bool.and_eq_true,decide_eq_true_eq,UInt8.le_iff_toNat_le,small]
  exact ⟨low,high⟩

theorem isDigit_of_mem_decimal {n : Nat} {b : UInt8} (member : b ∈ decimal n) : isDigit b := by
  obtain ⟨c,digit,rfl⟩ := List.mem_map.mp member
  exact (isDigit_toUInt8 (Nat.isDigit_of_mem_toDigits (by decide) (by decide) digit)).1

theorem digitsValue_decimal (n : Nat) : digitsValue (decimal n) = n := by
  have fold (digits : List Char) (read : ∀ c ∈ digits, c.isDigit) (value : Nat) :
      (digits.map fun c => c.toNat.toUInt8).foldl (fun n b => 10 * n + (b.toNat - 48)) value =
        Nat.ofDigitChars 10 digits value := by
    induction digits generalizing value with
    | nil => rfl
    | cons c digits ih =>
      rw [List.map_cons,List.foldl_cons,(isDigit_toUInt8 (read c (by simp))).2,Nat.ofDigitChars_cons]
      exact ih (fun d member => read d (by simp [member])) _
  have digits := fold (Nat.toDigits 10 n)
    (fun c member => Nat.isDigit_of_mem_toDigits (by decide) (by decide) member) 0
  rw [Nat.ofDigitChars_ten_toDigits] at digits
  exact digits

theorem decimal_ne_nil (n : Nat) : decimal n ≠ [] := by
  simp [decimal,Nat.toDigits_ne_nil]

theorem decimal_injective : Function.Injective decimal :=
  Function.LeftInverse.injective digitsValue_decimal

theorem nul_not_mem_decimalInt (n : Int) : nul ∉ decimalInt n := by
  have digits (n : Nat) : nul ∉ decimal n := fun member => absurd (isDigit_of_mem_decimal member) (by decide)
  unfold decimalInt
  split
  · rw [List.mem_cons]
    rintro (minus | member)
    · exact absurd minus (by decide)
    · exact digits _ member
  · exact digits _

theorem minus_ne_decimal (digits : Bytes) (n : Nat) : 45 :: digits ≠ decimal n := by
  intro same
  have digit : isDigit 45 := isDigit_of_mem_decimal (same ▸ List.mem_cons_self)
  exact absurd digit (by decide)

theorem decimalInt_injective : Function.Injective decimalInt := by
  intro n m same
  unfold decimalInt at same
  split at same <;> split at same
  · have digits := decimal_injective (List.cons.inj same).2
    omega
  · exact absurd same (minus_ne_decimal _ _)
  · exact absurd same.symm (minus_ne_decimal _ _)
  · have digits := decimal_injective same
    omega

theorem lexicalCastSize_of_decimal {text : Bytes} {n : Nat} (value : readDecimal text = some n)
    (small : n < sizeBound) : lexicalCastSize text = some n := by
  have size : readSize text = some n := by simp [readSize,value,small]
  cases text with
  | nil => simp [readDecimal] at value
  | cons sign digits =>
    have digit : isDigit sign = true := by
      by_contra other
      simp [readDecimal,other] at value
    have noMinus : sign ≠ 45 := by
      rintro rfl
      simp [isDigit] at digit
    have noPlus : sign ≠ 43 := by
      rintro rfl
      simp [isDigit] at digit
    rw [lexicalCastSize,if_neg noMinus,if_neg noPlus,size]

/-- A text without its sign. -/
def magnitude (text : Bytes) : Bytes :=
  if text.head? = some 45 ∨ text.head? = some 43 then text.tail else text

theorem lexicalCastSize_eq (text : Bytes) :
    lexicalCastSize text = ((readDecimal (magnitude text)).filter (· < sizeBound)).map fun n =>
      if text.head? = some 45 then (sizeBound - n) % sizeBound else n := by
  cases text with
  | nil => rfl
  | cons sign digits =>
    rw [lexicalCastSize,magnitude,List.head?_cons,List.tail_cons]
    by_cases minus : sign = 45
    · simp [minus,readSize]
    · by_cases plus : sign = 43
      · simp [plus,readSize]
      · simp [minus,plus,readSize]

theorem trim_trim (text : Bytes) : trim (trim text) = trim text := by
  have ends : (trim text).rdropWhile isSpace = trim text := by
    refine List.rdropWhile_eq_self_iff.mpr fun nonempty => ?_
    have behind : trim text <:+ text.rdropWhile isSpace := List.dropWhile_suffix _
    rw [behind.getLast nonempty]
    exact List.rdropWhile_last_not _ _ (behind.ne_nil nonempty)
  rw [trim,ends]
  exact List.dropWhile_idempotent _ _

end FuturesCellProxy

import FuturesCellProxy.Rpc.Interface

/-! The library functions that the proxy calls and whose code is not its own: the digest
and the cipher of a trade signature, C number parsing, floating point, and the JSON reader. -/
namespace FuturesCellProxy
open Foundation

/-- A JSON value; `text` is what `asString` gives for a boolean, a number or a string. -/
inductive Json where
  | null
  | scalar (text : Bytes)
  | array (elements : List Json)
  | object (members : List (Bytes × Json))

namespace Json

def size : Json → Nat
  | array elements => elements.length
  | object members => members.length
  | _ => 0

def index (i : Nat) : Json → Option Json
  | array elements => some (elements.getD i null)
  | null => some null
  | _ => none

def member (name : Bytes) : Json → Option Json
  | object members => some ((members.lookup name).getD null)
  | null => some null
  | _ => none

def asString : Json → Option Bytes
  | null => some []
  | scalar text => some text
  | _ => none

end Json

/-- `md5` is `MD5(text).toString()`; `fixed` and `fixed2` print with six and with two
digits behind the point; `less` is `<`; `atoiOverflow` is what `atoi` makes of a number
that is no `int`. -/
structure Platform where
  md5 : Bytes → Bytes
  aesEncrypt : Bytes → Bytes
  strtod : Bytes → Rpc.Number
  atoiOverflow : Bytes → Int
  add : Rpc.Number → Rpc.Number → Rpc.Number
  sub : Rpc.Number → Rpc.Number → Rpc.Number
  div : Rpc.Number → Rpc.Number → Rpc.Number
  less : Rpc.Number → Rpc.Number → Bool
  fixed : Rpc.Number → Bytes
  fixed2 : Rpc.Number → Bytes
  parseJson : Bytes → Option Json

namespace Platform
variable (platform : Platform)

/-- `atoi` on a C string: blanks, a sign and digits, as far as they go. -/
def atoi (text : Bytes) : Int :=
  let text := (upTo nul text).dropWhile isSpace
  let digits := match text with
    | [] => []
    | sign :: rest => if sign = 45 ∨ sign = 43 then rest else text
  let size : Nat := digitsValue (digits.takeWhile isDigit)
  let value : Int := if text.head? = some 45 then -size else size
  if -(2^31) ≤ value ∧ value < 2^31 then value else platform.atoiOverflow text

/-- What a decimal `int` stands for. -/
theorem atoi_decimalInt {n : Int} (low : -(2^31) ≤ n) (high : n < 2^31) : platform.atoi (decimalInt n) = n := by
  have read (n : Nat) : digitsValue ((decimal n).takeWhile isDigit) = n := by
    rw [List.takeWhile_eq_self_iff.mpr fun _ => isDigit_of_mem_decimal,digitsValue_decimal]
  rw [atoi,upTo_eq_self (nul_not_mem_decimalInt n)]
  unfold decimalInt
  split
  next negative =>
    have value : -(n.natAbs : Int) = n := by omega
    have start : (45 :: decimal n.natAbs).dropWhile isSpace = 45 :: decimal n.natAbs :=
      List.dropWhile_cons_of_neg (by decide)
    simp only [start,List.head?_cons,true_or,if_true,read,value]
    rw [if_pos ⟨low,high⟩]
  next =>
    have value : (n.natAbs : Int) = n := by omega
    obtain ⟨digit,rest,shape⟩ := List.exists_cons_of_ne_nil (decimal_ne_nil n.natAbs)
    have known : isDigit digit := isDigit_of_mem_decimal (shape ▸ List.mem_cons_self)
    obtain ⟨blank,minus,plus⟩ : isSpace digit = false ∧ digit ≠ 45 ∧ digit ≠ 43 := by
      simp only [isDigit,isSpace,Bool.and_eq_true,decide_eq_true_eq] at known ⊢
      grind
    have start : (digit :: rest).dropWhile isSpace = digit :: rest :=
      List.dropWhile_cons_of_neg (by simp [blank])
    have value' : (digitsValue ((digit :: rest).takeWhile isDigit) : Int) = n := by rw [← shape,read,value]
    simp only [shape,start,List.head?_cons,minus,plus,or_self,if_false,Option.some.injEq,value']
    rw [if_pos ⟨low,high⟩]

def atof (text : Bytes) : Rpc.Number := platform.strtod (upTo nul text)

/-- Real on the texts of one order: an account, a contract, one lot bought at 25000. -/
def sample : Platform where
  md5 text := if text = ascii "1001HSI1125000" then ascii "25f0694d993fc43afcae7ac65524e144" else text
  aesEncrypt text :=
    if text = ascii "25f0694d993fc43afcae7ac65524e144" then ascii "FP2dzUO/16FL+Cv//wEZp5Zqy0QPucqas8HlAdePT38="
    else text
  strtod text :=
    if text = ascii "1" then 0x3ff0000000000000 else if text = ascii "25000" then 0x40d86a0000000000 else 0
  atoiOverflow _ := 0
  add left _ := left
  sub left _ := left
  div left _ := left
  less _ _ := false
  fixed _ := ascii "0.000000"
  fixed2 _ := ascii "0.00"
  parseJson text := if text = ascii "[]" then some (.array []) else none

end Platform

end FuturesCellProxy

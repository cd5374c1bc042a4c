import FuturesCellProxy.Foundation.Absorb
import FuturesCellProxy.Foundation.Sine
import FuturesCellProxy.Text

/-! The message digest of RFC 1321, for messages of whole bytes: its steps one to five. -/
namespace FuturesCellProxy.Common.Rfc1321
open Foundation

def value (bytes : Bytes) : Nat := bytes.foldr (fun b n => b.toNat + 256 * n) 0

def word (bytes : Bytes) : UInt32 := .ofNat (value bytes)

def lowFirst : (count : Nat) → Nat → Bytes
  | 0, _ => []
  | count+1, n => .ofNat n :: lowFirst count (n/256)

/-- A one bit and as many zeros as are missing to 448 modulo 512 bits, and then the number of bits. -/
def padding (length : Nat) : Bytes :=
  0x80 :: List.replicate ((119 - length % 64) % 64) 0 ++ lowFirst 8 (8*length)

structure Words where
  a : UInt32
  b : UInt32
  c : UInt32
  d : UInt32
  deriving DecidableEq, Repr

def start : Words where
  a := word [0x01,0x23,0x45,0x67]
  b := word [0x89,0xab,0xcd,0xef]
  c := word [0xfe,0xdc,0xba,0x98]
  d := word [0x76,0x54,0x32,0x10]

def auxiliary : (round : Nat) → UInt32 → UInt32 → UInt32 → UInt32
  | 0, x, y, z => (x &&& y) ||| (~~~x &&& z)
  | 1, x, y, z => (x &&& z) ||| (y &&& ~~~z)
  | 2, x, y, z => x ^^^ y ^^^ z
  | _, x, y, z => y ^^^ (x ||| ~~~z)

def wordIndex (i : Nat) : Nat :=
  match i / 16 with
  | 0 => i
  | 1 => (5*i + 1) % 16
  | 2 => (3*i + 5) % 16
  | _ => 7*i % 16

def shifts : (round : Nat) → List Nat
  | 0 => [7,12,17,22]
  | 1 => [5,9,14,20]
  | 2 => [4,11,16,23]
  | _ => [6,10,15,21]

def shift (i : Nat) : Nat := (shifts (i/16)).getD (i%4) 0

def rotate (x : UInt32) (s : Nat) : UInt32 := ⟨x.toBitVec.rotateLeft s⟩

/-- The integer part of `2^32` times the absolute value of the sine. -/
noncomputable def sineTable (i : Nat) : UInt32 := .ofNat ⌊(2^32 : ℝ) * |Real.sin (i+1 : Nat)|⌋₊

noncomputable def operation (block : Bytes) (words : Words) (i : Nat) : Words where
  a := words.d
  b := words.b + rotate (words.a + auxiliary (i/16) words.b words.c words.d +
    word ((block.drop (4 * wordIndex i)).take 4) + sineTable i) (shift i)
  c := words.b
  d := words.c

noncomputable def process (words : Words) (block : Bytes) : Words :=
  let after := (List.range 64).foldl (operation block) words
  ⟨words.a + after.a,words.b + after.b,words.c + after.c,words.d + after.d⟩

def output (words : Words) : Bytes :=
  lowFirst 4 words.a.toNat ++ lowFirst 4 words.b.toNat ++ lowFirst 4 words.c.toNat ++ lowFirst 4 words.d.toNat

noncomputable def digest (message : Bytes) : Bytes :=
  output (absorb 64 process start (message ++ padding message.length)).1

def hexadecimal (bytes : Bytes) : Bytes :=
  bytes.flatMap fun b => [(b.toNat/16).digitChar.toNat.toUInt8,(b.toNat%16).digitChar.toNat.toUInt8]

end FuturesCellProxy.Common.Rfc1321

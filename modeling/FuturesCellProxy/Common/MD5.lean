import FuturesCellProxy.Text

/-! The class `MD5`. Its buffer and its digest hold whatever the memory holds until they
are written. -/
namespace FuturesCellProxy.Common

structure Registers where
  a : UInt32
  b : UInt32
  c : UInt32
  d : UInt32
  deriving DecidableEq, Repr

inductive Register where
  | a | b | c | d
  deriving DecidableEq, Repr

namespace Registers

def get (regs : Registers) : Register → UInt32
  | .a => regs.a
  | .b => regs.b
  | .c => regs.c
  | .d => regs.d

def set (regs : Registers) (value : UInt32) : Register → Registers
  | .a => {regs with a := value}
  | .b => {regs with b := value}
  | .c => {regs with c := value}
  | .d => {regs with d := value}

def toList (regs : Registers) : List UInt32 := [regs.a,regs.b,regs.c,regs.d]

end Registers

structure MD5 where
  state : Registers
  count : UInt32 × UInt32
  buffer : Vector UInt8 64
  digestArray : Vector UInt8 16
  finished : Bool
  deriving DecidableEq, Repr

def memcpy {n : Nat} (target : Vector UInt8 n) (index : Nat) (source : Bytes) : Vector UInt8 n :=
  .ofFn fun i => if index ≤ i ∧ i - index < source.length then source.getD (i - index) 0 else target[i]

namespace MD5

def S11 : UInt32 := 7
def S12 : UInt32 := 12
def S13 : UInt32 := 17
def S14 : UInt32 := 22
def S21 : UInt32 := 5
def S22 : UInt32 := 9
def S23 : UInt32 := 14
def S24 : UInt32 := 20
def S31 : UInt32 := 4
def S32 : UInt32 := 11
def S33 : UInt32 := 16
def S34 : UInt32 := 23
def S41 : UInt32 := 6
def S42 : UInt32 := 10
def S43 : UInt32 := 15
def S44 : UInt32 := 21

def F (x y z : UInt32) : UInt32 := (x &&& y) ||| (~~~x &&& z)
def G (x y z : UInt32) : UInt32 := (x &&& z) ||| (y &&& ~~~z)
def H (x y z : UInt32) : UInt32 := x ^^^ y ^^^ z
def I (x y z : UInt32) : UInt32 := y ^^^ (x ||| ~~~z)

def rotateLeft (x n : UInt32) : UInt32 := (x <<< n) ||| (x >>> (32 - n))

/-- One line of `transform`: a macro with the registers, the index into `x`, the shift
and the constant that it is given. -/
structure Line where
  auxiliary : UInt32 → UInt32 → UInt32 → UInt32
  a : Register
  b : Register
  c : Register
  d : Register
  k : Nat
  s : UInt32
  ac : UInt32

def FF := Line.mk F
def GG := Line.mk G
def HH := Line.mk H
def II := Line.mk I

/-- What the line does: `(a) += F ((b), (c), (d)) + (x) + ac; (a) = ROTATE_LEFT ((a), (s)); (a) += (b);`. -/
def Line.run (x : List UInt32) (regs : Registers) (line : Line) : Registers :=
  let sum := line.auxiliary (regs.get line.b) (regs.get line.c) (regs.get line.d) + x.getD line.k 0 + line.ac
  let regs := regs.set (regs.get line.a + sum) line.a
  let regs := regs.set (rotateLeft (regs.get line.a) line.s) line.a
  regs.set (regs.get line.a + regs.get line.b) line.a

def lines : List Line := [
  FF .a .b .c .d 0 S11 0xd76aa478,
  FF .d .a .b .c 1 S12 0xe8c7b756,
  FF .c .d .a .b 2 S13 0x242070db,
  FF .b .c .d .a 3 S14 0xc1bdceee,
  FF .a .b .c .d 4 S11 0xf57c0faf,
  FF .d .a .b .c 5 S12 0x4787c62a,
  FF .c .d .a .b 6 S13 0xa8304613,
  FF .b .c .d .a 7 S14 0xfd469501,
  FF .a .b .c .d 8 S11 0x698098d8,
  FF .d .a .b .c 9 S12 0x8b44f7af,
  FF .c .d .a .b 10 S13 0xffff5bb1,
  FF .b .c .d .a 11 S14 0x895cd7be,
  FF .a .b .c .d 12 S11 0x6b901122,
  FF .d .a .b .c 13 S12 0xfd987193,
  FF .c .d .a .b 14 S13 0xa679438e,
  FF .b .c .d .a 15 S14 0x49b40821,
  GG .a .b .c .d 1 S21 0xf61e2562,
  GG .d .a .b .c 6 S22 0xc040b340,
  GG .c .d .a .b 11 S23 0x265e5a51,
  GG .b .c .d .a 0 S24 0xe9b6c7aa,
  GG .a .b .c .d 5 S21 0xd62f105d,
  GG .d .a .b .c 10 S22 0x2441453,
  GG .c .d .a .b 15 S23 0xd8a1e681,
  GG .b .c .d .a 4 S24 0xe7d3fbc8,
  GG .a .b .c .d 9 S21 0x21e1cde6,
  GG .d .a .b .c 14 S22 0xc33707d6,
  GG .c .d .a .b 3 S23 0xf4d50d87,
  GG .b .c .d .a 8 S24 0x455a14ed,
  GG .a .b .c .d 13 S21 0xa9e3e905,
  GG .d .a .b .c 2 S22 0xfcefa3f8,
  GG .c .d .a .b 7 S23 0x676f02d9,
  GG .b .c .d .a 12 S24 0x8d2a4c8a,
  HH .a .b .c .d 5 S31 0xfffa3942,
  HH .d .a .b .c 8 S32 0x8771f681,
  HH .c .d .a .b 11 S33 0x6d9d6122,
  HH .b .c .d .a 14 S34 0xfde5380c,
  HH .a .b .c .d 1 S31 0xa4beea44,
  HH .d .a .b .c 4 S32 0x4bdecfa9,
  HH .c .d .a .b 7 S33 0xf6bb4b60,
  HH .b .c .d .a 10 S34 0xbebfbc70,
  HH .a .b .c .d 13 S31 0x289b7ec6,
  HH .d .a .b .c 0 S32 0xeaa127fa,
  HH .c .d .a .b 3 S33 0xd4ef3085,
  HH .b .c .d .a 6 S34 0x4881d05,
  HH .a .b .c .d 9 S31 0xd9d4d039,
  HH .d .a .b .c 12 S32 0xe6db99e5,
  HH .c .d .a .b 15 S33 0x1fa27cf8,
  HH .b .c .d .a 2 S34 0xc4ac5665,
  II .a .b .c .d 0 S41 0xf4292244,
  II .d .a .b .c 7 S42 0x432aff97,
  II .c .d .a .b 14 S43 0xab9423a7,
  II .b .c .d .a 5 S44 0xfc93a039,
  II .a .b .c .d 12 S41 0x655b59c3,
  II .d .a .b .c 3 S42 0x8f0ccc92,
  II .c .d .a .b 10 S43 0xffeff47d,
  II .b .c .d .a 1 S44 0x85845dd1,
  II .a .b .c .d 8 S41 0x6fa87e4f,
  II .d .a .b .c 15 S42 0xfe2ce6e0,
  II .c .d .a .b 6 S43 0xa3014314,
  II .b .c .d .a 13 S44 0x4e0811a1,
  II .a .b .c .d 4 S41 0xf7537e82,
  II .d .a .b .c 11 S42 0xbd3af235,
  II .c .d .a .b 2 S43 0x2ad7d2bb,
  II .b .c .d .a 9 S44 0xeb86d391]

def encode (input : List UInt32) : Bytes :=
  input.flatMap fun (x : UInt32) => [(x &&& 0xff).toUInt8,((x >>> 8) &&& 0xff).toUInt8,((x >>> 16) &&& 0xff).toUInt8,
    ((x >>> 24) &&& 0xff).toUInt8]

def decode : Bytes → List UInt32
  | b0 :: b1 :: b2 :: b3 :: rest =>
    (b0.toUInt32 ||| (b1.toUInt32 <<< 8) ||| (b2.toUInt32 <<< 16) ||| (b3.toUInt32 <<< 24)) :: decode rest
  | _ => []

def transform (state : Registers) (block : Bytes) : Registers :=
  let after := lines.foldl (Line.run (decode block)) state
  ⟨state.a + after.a,state.b + after.b,state.c + after.c,state.d + after.d⟩

def padding : Bytes := 0x80 :: List.replicate 63 0

def reset (md5 : MD5) : MD5 :=
  {md5 with finished := false,count := (0,0),state := ⟨0x67452301,0xefcdab89,0x98badcfe,0x10325476⟩}

/-- `for (i = partLen; i + 63 < length; i += 64)`; `none` is a loop that has not come to its end. -/
def transformBlocks (input : Bytes) : (fuel : Nat) → (i : UInt32) → Registers → Option (UInt32 × Registers)
  | 0, _, _ => none
  | fuel+1, i, state =>
    if (i + 63).toNat < input.length then
      transformBlocks input fuel (i+64) (transform state ((input.drop i.toNat).take 64))
    else some (i,state)

def bufferIndex (count : UInt32 × UInt32) : UInt32 := (count.1 >>> 3) &&& 0x3f

def addBits (count : UInt32 × UInt32) (length : Nat) : UInt32 × UInt32 :=
  let bits := UInt32.ofNat length <<< 3
  let low := count.1 + bits
  let high := if low < bits then count.2 + 1 else count.2
  (low,high + (UInt32.ofNat length >>> 29))

def padLen (count : UInt32 × UInt32) : UInt32 :=
  let index := bufferIndex count
  if index < 56 then 56 - index else 120 - index

section
variable (fuel : Nat)

/-- `update(const byte* input, size_t length)`. -/
def updateBlock (md5 : MD5) (input : Bytes) : Option MD5 :=
  let index := bufferIndex md5.count
  let md5 := {md5 with finished := false,count := addBits md5.count input.length}
  let partLen := 64 - index
  if partLen.toNat ≤ input.length then do
    let buffer := memcpy md5.buffer index.toNat (input.take partLen.toNat)
    let (i,state) ← transformBlocks input fuel partLen (transform md5.state buffer.toList)
    return {md5 with state,buffer := memcpy buffer 0 (input.drop i.toNat)}
  else some {md5 with buffer := memcpy md5.buffer index.toNat input}

/-- `update(const string& str)`. -/
def update (md5 : MD5) (str : Bytes) : Option MD5 := md5.reset.updateBlock fuel str

/-- `MD5(const string& str)`, in the memory that the object gets. -/
def ofString (memory : MD5) (str : Bytes) : Option MD5 := memory.reset.update fuel str

def final (md5 : MD5) : Option MD5 := do
  let oldState := md5.state
  let oldCount := md5.count
  let bits := encode [md5.count.1,md5.count.2]
  let padLen := padLen md5.count
  let md5 ← md5.updateBlock fuel (padding.take padLen.toNat)
  let md5 ← md5.updateBlock fuel bits
  return {md5 with
    digestArray := memcpy md5.digestArray 0 (encode md5.state.toList)
    state := oldState
    count := oldCount}

/-- The object after it; what is returned is a pointer to its `digestArray`. -/
def digest (md5 : MD5) : Option MD5 :=
  if md5.finished then some md5 else final fuel {md5 with finished := true}

def hex : List UInt8 := ascii "0123456789abcdef"

def bytesToHexString (input : Bytes) : Bytes :=
  input.flatMap fun t => [hex.getD (t.toNat/16) 0,hex.getD (t.toNat%16) 0]

def toString (md5 : MD5) : Option (Bytes × MD5) := do
  let md5 ← md5.digest fuel
  return (bytesToHexString md5.digestArray.toList,md5)

end

end MD5

end FuturesCellProxy.Common

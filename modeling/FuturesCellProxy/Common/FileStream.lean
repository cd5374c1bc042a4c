import FuturesCellProxy.Common.Reread

/-! The digest of a file. The pieces of it are handed to `update(const void*, size_t)`, which
starts over. -/
namespace FuturesCellProxy.Common
open Foundation

/-- An `std::ifstream`: what has not been read, and the bits of its state. -/
structure Ifstream where
  rest : Bytes
  eofbit : Bool
  failbit : Bool
  deriving DecidableEq, Repr

namespace Ifstream

/-- A file that has just been opened. -/
def opened (content : Bytes) : Ifstream := ⟨content,false,false⟩

/-- What `gcount` bytes of the buffer hold afterwards, and the stream. -/
def read (input : Ifstream) (n : Nat) : Bytes × Ifstream :=
  if input.eofbit || input.failbit then ([],{input with failbit := true})
  else if n ≤ input.rest.length then (input.rest.take n,{input with rest := input.rest.drop n})
  else (input.rest,⟨[],true,true⟩)

end Ifstream

namespace MD5

def BUFFER_SIZE : Nat := 1024

section
variable (fuel : Nat)

/-- `update(const void* input, size_t length)`. -/
def updateInput (md5 : MD5) (input : Bytes) : Option MD5 := md5.reset.updateBlock fuel input

/-- `while (!in.eof())`; `none` is a loop that has not come to its end. -/
def updatePieces : (rounds : Nat) → MD5 → Ifstream → Option MD5
  | 0, _, _ => none
  | rounds+1, md5, input =>
    if input.eofbit then some md5
    else do
      let (buffer,input) := input.read BUFFER_SIZE
      let md5 ← if 0 < buffer.length then md5.updateInput fuel buffer else some md5
      updatePieces rounds md5 input

/-- `update(ifstream& in)`. -/
def updateStream (md5 : MD5) (input : Ifstream) : Option MD5 :=
  if input.failbit then some md5 else updatePieces fuel fuel md5 input

/-- `MD5(ifstream& in)`, in the memory that the object gets. -/
def ofStream (memory : MD5) (input : Ifstream) : Option MD5 := memory.reset.updateStream fuel input

end

/-- The bytes that `digest` points to. -/
def shownDigest (fuel : Nat) (md5 : MD5) : Option Bytes := (md5.digest fuel).map (·.digestArray.toList)

/-- Both constructors come to their ends, and so do the digests, which are the same. -/
def Agree (s : Bytes) : Prop :=
  ∀ memory other, ∃ least, ∀ fuel ≥ least, ∃ digest,
    (ofString fuel memory s).bind (shownDigest fuel) = some digest ∧
    (ofStream fuel other (.opened s)).bind (shownDigest fuel) = some digest

/-- What is behind the last whole piece that another byte follows. -/
def lastPiece (content : Bytes) : Bytes := content.drop (1024 * ((content.length - 1) / 1024))

theorem lastPiece_short {content : Bytes} (short : content.length ≤ 1024) : lastPiece content = content := by
  rw [lastPiece,show (content.length - 1) / 1024 = 0 by omega]
  rfl

theorem lastPiece_drop {content : Bytes} (long : 1024 < content.length) :
    lastPiece (content.drop 1024) = lastPiece content := by
  rw [lastPiece,lastPiece,List.drop_drop,List.length_drop]
  congr 1
  omega

section
variable {fuel rounds : Nat} {md5 : MD5} {content : Bytes}

theorem updateInput_holds (md5 : MD5) (short : content.length ≤ 1024) (enough : 16 ≤ fuel) :
    ∃ after, md5.updateInput fuel content = some after ∧ after.finished = false ∧ Holds after content :=
  @updateBlock_holds _ _ content fuel (holds_reset md5) (by omega) (.inl rfl) (by omega)

theorem updatePieces_nil (md5 : MD5) : updatePieces fuel (rounds+2) md5 (.opened []) = some md5 := rfl

theorem updatePieces_short (some_content : content ≠ []) (short : content.length < 1024) (enough : 16 ≤ fuel)
    (md5 : MD5) :
    ∃ after, updatePieces fuel (rounds+2) md5 (.opened content) = some after ∧ after.finished = false ∧
      Holds after content := by
  obtain ⟨after,updated,running,holds⟩ := @updateInput_holds fuel content md5 short.le enough
  refine ⟨after,?_,running,holds⟩
  have part : (Ifstream.opened content).read BUFFER_SIZE = (content,⟨[],true,true⟩) := if_neg (Nat.not_le.mpr short)
  rw [updatePieces,part]
  dsimp only
  rw [if_pos (List.length_pos_of_ne_nil some_content),updated]
  rfl

theorem updatePieces_step (long : 1024 ≤ content.length) (enough : 16 ≤ fuel) (md5 : MD5) :
    ∃ after, updatePieces fuel (rounds+1) md5 (.opened content) =
        updatePieces fuel rounds after (.opened (content.drop 1024)) ∧
      after.finished = false ∧ Holds after (content.take 1024) := by
  have taken : (content.take 1024).length = 1024 := List.length_take_of_le long
  obtain ⟨after,updated,running,holds⟩ := @updateInput_holds fuel (content.take 1024) md5 taken.le enough
  refine ⟨after,?_,running,holds⟩
  have some_bytes : 0 < (content.take 1024).length := by omega
  have whole : (Ifstream.opened content).read BUFFER_SIZE = (content.take 1024,.opened (content.drop 1024)) :=
    if_pos long
  rw [updatePieces,whole]
  dsimp only
  rw [if_pos some_bytes,updated]
  rfl

/-- Whatever the object held, the last piece is what it holds in the end. -/
theorem updatePieces_holds (some_content : content ≠ []) (some_rounds : content.length / 1024 + 2 ≤ rounds)
    (enough : 16 ≤ fuel) (md5 : MD5) :
    ∃ after, updatePieces fuel rounds md5 (.opened content) = some after ∧ after.finished = false ∧
      Holds after (lastPiece content) := by
  induction rounds generalizing content md5 with
  | zero => omega
  | succ rounds ih =>
    rcases Nat.lt_trichotomy content.length 1024 with short | whole | long
    · obtain ⟨rounds,rfl⟩ : ∃ fewer, rounds = fewer + 1 := Nat.exists_eq_add_one.mpr (by omega)
      rw [lastPiece_short short.le]
      exact updatePieces_short some_content short enough md5
    · obtain ⟨after,stepped,running,holds⟩ := @updatePieces_step fuel rounds content whole.ge enough md5
      obtain ⟨rounds,rfl⟩ : ∃ fewer, rounds = fewer + 2 := ⟨rounds - 2,by omega⟩
      have nothing : content.drop 1024 = [] := List.drop_eq_nil_of_le whole.le
      rw [nothing,updatePieces_nil] at stepped
      rw [List.take_of_length_le whole.le] at holds
      rw [lastPiece_short whole.le]
      exact ⟨after,stepped,running,holds⟩
    · obtain ⟨after,stepped,_,_⟩ := @updatePieces_step fuel rounds content long.le enough md5
      have more : content.drop 1024 ≠ [] := by
        rw [Ne,List.drop_eq_nil_iff]
        omega
      obtain ⟨last,looped,running,holds⟩ := ih more (by rw [List.length_drop]; omega) after
      rw [lastPiece_drop long] at holds
      exact ⟨last,stepped.trans looped,running,holds⟩

theorem ofStream_holds (memory : MD5) (enough : content.length + 16 ≤ fuel) :
    ∃ md5, ofStream fuel memory (.opened content) = some md5 ∧ md5.finished = false ∧
      Holds md5 (lastPiece content) := by
  cases content with
  | nil =>
    obtain ⟨fuel,rfl⟩ : ∃ fewer, fuel = fewer + 2 := ⟨fuel - 2,by omega⟩
    exact ⟨memory.reset,rfl,rfl,holds_reset memory⟩
  | cons b content => exact updatePieces_holds (by simp) (by omega) (by omega) memory.reset

theorem shownDigest_holds {message : Bytes} (holds : Holds md5 message) (running : md5.finished = false)
    (some_fuel : 0 < fuel) : md5.shownDigest fuel = some (Rfc1321.digest message) := by
  obtain ⟨after,read,digits,_⟩ := digest_holds holds running some_fuel
  rw [shownDigest,read,Option.map_some,digits]

theorem shownDigest_ofString (memory : MD5) (short : content.length < 2^32) (enough : content.length + 16 ≤ fuel) :
    (ofString fuel memory content).bind (shownDigest fuel) = some (Rfc1321.digest content) := by
  obtain ⟨md5,made,running,holds⟩ := @ofString_holds memory content short fuel (by omega)
  rw [made,Option.bind_some,shownDigest_holds holds running (by omega)]

theorem shownDigest_ofStream (memory : MD5) (enough : content.length + 16 ≤ fuel) :
    (ofStream fuel memory (.opened content)).bind (shownDigest fuel) = some (Rfc1321.digest (lastPiece content)) := by
  obtain ⟨md5,made,running,holds⟩ := ofStream_holds memory enough
  rw [made,Option.bind_some,shownDigest_holds holds running (by omega)]

end

theorem agree_of_same {s : Bytes} (short : s.length < 2^32)
    (same : Rfc1321.digest (lastPiece s) = Rfc1321.digest s) : Agree s := by
  intro memory other
  refine ⟨s.length + 16,?_⟩
  intro fuel enough
  refine ⟨Rfc1321.digest s,shownDigest_ofString memory short enough,?_⟩
  rw [shownDigest_ofStream other enough,same]

theorem short_of_agree {s : Bytes} (agree : Agree s) : s.length < 2^32 := by
  by_contra! long
  obtain ⟨least,runs⟩ := agree stale stale
  obtain ⟨digest,read,_⟩ := runs least le_rfl
  rw [ofString_long stale long] at read
  cases read

theorem same_of_agree {s : Bytes} (agree : Agree s) : Rfc1321.digest (lastPiece s) = Rfc1321.digest s := by
  obtain ⟨least,runs⟩ := agree stale stale
  obtain ⟨digest,string,stream⟩ := runs (least + s.length + 16) (by omega)
  rw [shownDigest_ofString stale (short_of_agree agree) (by omega)] at string
  rw [shownDigest_ofStream stale (by omega)] at stream
  exact Option.some.inj (stream.trans string.symm)

/-- The digest of a file is that of its last piece. -/
theorem agree_iff (s : Bytes) :
    Agree s ↔ s.length < 2^32 ∧ (s.length ≤ 1024 ∨ Rfc1321.digest (lastPiece s) = Rfc1321.digest s) := by
  constructor
  · intro agree
    exact ⟨short_of_agree agree,.inr (same_of_agree agree)⟩
  · rintro ⟨short,piece | same⟩
    · apply agree_of_same short
      rw [lastPiece_short piece]
    · exact agree_of_same short same

theorem not_agree_sample : ¬ Agree (List.replicate 1025 0x78) := by
  intro agree
  have same := same_of_agree agree
  have stream := @digest_ofString (lastPiece (List.replicate 1025 0x78)) (by decide +kernel) 2 (by decide +kernel)
  have string := @digest_ofString (List.replicate 1025 0x78) (by decide +kernel) 17 (by decide +kernel)
  rw [same,← string] at stream
  exact absurd stream (by decide +kernel)

end MD5

end FuturesCellProxy.Common

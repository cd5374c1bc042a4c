import FuturesCellProxy.Common.Digest

/-! An object that is read again and again. `final` works through `update`, which takes `_finished`
back, so every call of `digest` computes; the state and the count are as before it, the buffer is not. -/
namespace FuturesCellProxy.Common
open Foundation Rfc1321

namespace MD5

inductive Reading where
  | digest
  | toString
  deriving DecidableEq, Repr

namespace Reading

def read (fuel : Nat) (md5 : MD5) : Reading → Option (Bytes × MD5)
  | digest => do
    let md5 ← md5.digest fuel
    return (md5.digestArray.toList,md5)
  | toString => md5.toString fuel

/-- The value of a call on an object with this digest. -/
def shown (digest : Bytes) : Reading → Bytes
  | .digest => digest
  | .toString => bytesToHexString digest

end Reading

def readAll (fuel : Nat) (md5 : MD5) : List Reading → Option (List Bytes)
  | [] => some []
  | reading :: rest => do
    let (value,md5) ← reading.read fuel md5
    return value :: (← readAll fuel md5 rest)

/-- The object is built, and all calls on it return, and return the same. -/
def Steady (s : Bytes) : Prop :=
  ∀ memory, ∃ least, ∀ fuel ≥ least, ∃ md5, ofString fuel memory s = some md5 ∧
    ∀ readings, ∃ digest, readAll fuel md5 readings = some (readings.map (Reading.shown digest))

/-- The message with its residue overwritten by the beginning of the last block that `final` pads it to. -/
def overwritten (message : Bytes) : Bytes :=
  message.take (64 * (message.length / 64)) ++
    (List.replicate 56 0 ++ lowFirst 8 (8 * message.length)).take (message.length % 64)

/-- What an object stands for after its digest has been read. -/
def reread (message : Bytes) : Bytes :=
  message.take (64 * (message.length / 64)) ++ (lastBlock message).take (message.length % 64)

section
variable {message : Bytes}

theorem lastBlock_length (message : Bytes) : (lastBlock message).length = 64 := by
  have counted : (lowFirst 8 (8 * message.length)).length = 8 := rfl
  rw [lastBlock,List.length_drop,List.length_append,Rfc1321.padding,List.length_append,List.length_cons,
    List.length_replicate,counted]
  omega

theorem lastBlock_short (short : message.length % 64 < 56) :
    (lastBlock message).take (message.length % 64) = message.drop (64 * (message.length / 64)) := by
  rw [lastBlock,show (message.length + 8) / 64 = message.length / 64 by omega,
    List.drop_append_of_le_length (Nat.mul_div_le _ _)]
  apply List.take_left'
  rw [List.length_drop]
  omega

theorem lastBlock_long (long : 56 ≤ message.length % 64) :
    lastBlock message = List.replicate 56 0 ++ lowFirst 8 (8 * message.length) := by
  have zeros : 0x80 :: List.replicate ((119 - message.length % 64) % 64) (0 : UInt8) =
      (0x80 :: List.replicate (63 - message.length % 64) 0) ++ List.replicate 56 0 := by
    rw [List.cons_append,List.replicate_append_replicate]
    congr 2
    omega
  rw [lastBlock,Rfc1321.padding,zeros,List.append_assoc,← List.append_assoc message]
  apply List.drop_left'
  rw [List.length_append,List.length_cons,List.length_replicate]
  omega

theorem reread_short (short : message.length % 64 < 56) : reread message = message := by
  rw [reread,lastBlock_short short,List.take_append_drop]

theorem reread_long (long : 56 ≤ message.length % 64) : reread message = overwritten message := by
  rw [reread,lastBlock_long long,overwritten]

theorem reread_length (message : Bytes) : (reread message).length = message.length := by
  rw [reread,List.length_append,List.length_take,List.length_take,lastBlock_length]
  omega

theorem reread_reread (message : Bytes) : reread (reread message) = reread message := by
  cases Nat.lt_or_ge (message.length % 64) 56 with
  | inl short => rw [reread_short short,reread_short short]
  | inr long =>
    have again : 56 ≤ (reread message).length % 64 := by rwa [reread_length]
    have blocks : (reread message).take (64 * (message.length / 64)) =
        message.take (64 * (message.length / 64)) := by
      apply List.take_left'
      exact List.length_take_of_le (Nat.mul_div_le _ _)
    rw [reread_long again,overwritten,reread_length,blocks,reread_long long,overwritten]

variable {md5 : MD5} {fuel : Nat}

theorem digest_holds (holds : Holds md5 message) (running : md5.finished = false) (some_fuel : 0 < fuel) :
    ∃ after, md5.digest fuel = some after ∧ after.digestArray.toList = Rfc1321.digest message ∧
      after.finished = false ∧ Holds after (reread message) := by
  obtain ⟨after,read,finished,state,count,buffer,digits⟩ := digest_spec holds running some_fuel
  refine ⟨after,read,digits,finished,?_,?_⟩
  · have small : ((lastBlock message).take (message.length % 64)).length < 64 := by
      rw [List.length_take,lastBlock_length]
      omega
    rw [reread_length,buffer,state,reread,absorb_replace (by decide) _ _ small,holds.absorbed]
  · rw [count,reread_length]
    exact holds.counted

theorem read_holds (holds : Holds md5 message) (running : md5.finished = false) (some_fuel : 0 < fuel)
    (reading : Reading) :
    ∃ after, reading.read fuel md5 = some (reading.shown (Rfc1321.digest message),after) ∧
      after.finished = false ∧ Holds after (reread message) := by
  obtain ⟨after,read,digits,finished,again⟩ := digest_holds holds running some_fuel
  refine ⟨after,?_,finished,again⟩
  cases reading with
  | digest =>
    rw [Reading.read,read]
    simp only [Option.bind_eq_bind,Option.bind_some,Reading.shown,digits]
    rfl
  | toString =>
    rw [Reading.read,MD5.toString,read]
    simp only [Option.bind_eq_bind,Option.bind_some,Reading.shown,digits]
    rfl

/-- Every reading but the first one is of the message that the first one leaves. -/
theorem readAll_holds (holds : Holds md5 message) (running : md5.finished = false) (some_fuel : 0 < fuel)
    (first : Reading) (rest : List Reading) :
    readAll fuel md5 (first :: rest) = some (first.shown (Rfc1321.digest message) ::
      rest.map (Reading.shown (Rfc1321.digest (reread message)))) := by
  induction rest generalizing md5 message first with
  | nil =>
    obtain ⟨after,read,_,_⟩ := read_holds holds running some_fuel first
    rw [readAll,read]
    rfl
  | cons second rest ih =>
    obtain ⟨after,read,finished,again⟩ := read_holds holds running some_fuel first
    have tail := ih again finished second
    rw [reread_reread] at tail
    rw [readAll,read]
    simp only [Option.bind_eq_bind,Option.bind_some,tail]
    rfl

end

theorem steady_of_same {s : Bytes} (short : s.length < 2^32)
    (same : Rfc1321.digest (reread s) = Rfc1321.digest s) : Steady s := by
  intro memory
  refine ⟨s.length + 1,?_⟩
  intro fuel enough
  obtain ⟨md5,made,running,holds⟩ := @ofString_holds memory s short fuel (by omega)
  refine ⟨md5,made,?_⟩
  intro readings
  refine ⟨Rfc1321.digest s,?_⟩
  cases readings with
  | nil => rfl
  | cons first rest =>
    have read := readAll_holds holds running (by omega : 0 < fuel) first rest
    rwa [same] at read

theorem short_of_steady {s : Bytes} (steady : Steady s) : s.length < 2^32 := by
  by_contra! long
  obtain ⟨least,runs⟩ := steady stale
  obtain ⟨md5,made,_⟩ := runs least le_rfl
  rw [ofString_long stale long] at made
  cases made

theorem same_of_steady {s : Bytes} (steady : Steady s) : Rfc1321.digest (reread s) = Rfc1321.digest s := by
  obtain ⟨least,runs⟩ := steady stale
  obtain ⟨md5,made,reads⟩ := runs (least + s.length + 1) (by omega)
  obtain ⟨built,same,running,holds⟩ := @ofString_holds stale s (short_of_steady steady) (least + s.length + 1) (by omega)
  cases made.symm.trans same
  obtain ⟨digest,twice⟩ := reads [.digest,.digest]
  rw [readAll_holds holds running (by omega) .digest [.digest]] at twice
  simp only [List.map_cons,List.map_nil,Reading.shown,Option.some.injEq,List.cons.injEq] at twice
  exact twice.2.1.trans twice.1.symm

/-- Of a string that ends with 56 bytes or more behind its last block, every call but the first reads another. -/
theorem steady_iff (s : Bytes) :
    Steady s ↔ s.length < 2^32 ∧
      (s.length % 64 < 56 ∨ Rfc1321.digest (overwritten s) = Rfc1321.digest s) := by
  constructor
  · intro steady
    refine ⟨short_of_steady steady,?_⟩
    cases Nat.lt_or_ge (s.length % 64) 56 with
    | inl short => exact .inl short
    | inr long =>
      have same := same_of_steady steady
      rw [reread_long long] at same
      exact .inr same
  · rintro ⟨short,below | same⟩
    · apply steady_of_same short
      rw [reread_short below]
    · apply steady_of_same short
      cases Nat.lt_or_ge (s.length % 64) 56 with
      | inl below => rw [reread_short below]
      | inr long => rwa [reread_long long]

theorem digest_ofString {s : Bytes} (short : s.length < 2^32) {fuel : Nat} (enough : s.length < 64 * fuel) :
    ((ofString fuel stale s).bind (MD5.digest fuel)).map (MD5.digestArray · |>.toList) = some (Rfc1321.digest s) := by
  obtain ⟨md5,made,running,holds⟩ := ofString_holds stale short enough.le
  obtain ⟨after,read,digits,_⟩ := @digest_holds s md5 fuel holds running (by omega)
  rw [made,Option.bind_some,read,Option.map_some,digits]

theorem not_steady_sample : ¬ Steady (List.replicate 56 0x78) := by
  intro steady
  have same := same_of_steady steady
  rw [reread_long (by decide)] at same
  have first := @digest_ofString (List.replicate 56 0x78) (by decide) 2 (by decide)
  have second := @digest_ofString (overwritten (List.replicate 56 0x78)) (by decide) 2 (by decide)
  rw [same,← first] at second
  exact absurd second (by decide +kernel)

end MD5

end FuturesCellProxy.Common

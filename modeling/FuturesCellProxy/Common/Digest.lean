import FuturesCellProxy.Common.Transform

/-! The digest of a string: how the buffer, the count and the state follow the bytes that
have been taken in, and what `final` makes of them. -/
namespace FuturesCellProxy.Common
open Foundation Rfc1321

theorem memcpy_getElem {n : Nat} (target : Vector UInt8 n) (index : Nat) (source : Bytes) {i : Nat} (small : i < n) :
    (memcpy target index source)[i] =
      if index ≤ i ∧ i - index < source.length then source.getD (i - index) 0 else target[i] :=
  Vector.getElem_ofFn _

theorem memcpy_toList {n : Nat} (target : Vector UInt8 n) {index : Nat} {source : Bytes}
    (inside : index + source.length ≤ n) :
    (memcpy target index source).toList =
      target.toList.take index ++ source ++ target.toList.drop (index + source.length) := by
  have before : (target.toList.take index).length = index := by
    rw [List.length_take,Vector.length_toList]
    omega
  apply List.ext_getElem?
  intro i
  rw [List.append_assoc,List.getElem?_append,before,List.getElem?_append]
  by_cases small : i < n
  · rw [List.getElem?_eq_getElem (by rwa [Vector.length_toList]),Vector.getElem_toList,
      memcpy_getElem _ _ _ small]
    split
    next written => grind
    next kept => grind
  · grind

theorem memcpy_take {n : Nat} (target : Vector UInt8 n) {index : Nat} {source : Bytes}
    (inside : index + source.length ≤ n) :
    (memcpy target index source).toList.take (index + source.length) = target.toList.take index ++ source := by
  rw [memcpy_toList target inside]
  apply List.take_left'
  rw [List.length_append,List.length_take,Vector.length_toList]
  omega

theorem memcpy_full {n : Nat} (target : Vector UInt8 n) {index : Nat} {source : Bytes}
    (full : index + source.length = n) :
    (memcpy target index source).toList = target.toList.take index ++ source := by
  rw [memcpy_toList target full.le,full,List.drop_of_length_le (by rw [Vector.length_toList]),List.append_nil]

namespace MD5

def bits (count : UInt32 × UInt32) : Nat := count.1.toNat + 2^32 * count.2.toNat

theorem bits_addBits (count : UInt32 × UInt32) {length : Nat} (short : length < 2^32) :
    bits (addBits count length) = (bits count + 8 * length) % 2^64 := by
  obtain ⟨low,high⟩ := count
  have lowSize := low.toNat_lt
  have highSize := high.toNat_lt
  have size : (UInt32.ofNat length).toNat = length := UInt32.toNat_ofNat_of_lt' short
  have shifted : (UInt32.ofNat length <<< 3).toNat = 8 * length % 2^32 := by
    rw [UInt32.toNat_shiftLeft,size,Nat.shiftLeft_eq,Nat.mul_comm]
    rfl
  have upper : (UInt32.ofNat length >>> 29).toNat = length / 2^29 := by
    rw [UInt32.toNat_shiftRight,size,Nat.shiftRight_eq_div_pow]
    rfl
  have sum : (low + (UInt32.ofNat length <<< 3)).toNat = (low.toNat + 8 * length % 2^32) % 2^32 := by
    rw [UInt32.toNat_add,shifted]
  simp only [bits,addBits,UInt32.lt_iff_toNat_lt,shifted,sum,UInt32.toNat_add,upper]
  split
  next carried =>
    simp only [UInt32.toNat_add,UInt32.toNat_one]
    omega
  next => omega

theorem bufferIndex_eq {count : UInt32 × UInt32} {length : Nat} (counted : bits count = 8 * length % 2^64) :
    (bufferIndex count).toNat = length % 64 := by
  have low := count.1.toNat_lt
  have mask : ((count.1 >>> 3) &&& 0x3f).toNat = count.1.toNat / 2^3 % 2^6 := by
    rw [UInt32.toNat_and,UInt32.toNat_shiftRight]
    exact (Nat.and_two_pow_sub_one_eq_mod _ 6).trans (by rw [Nat.shiftRight_eq_div_pow]; rfl)
  rw [bufferIndex,mask]
  unfold bits at counted
  omega

theorem sub_bufferIndex {count : UInt32 × UInt32} {length : Nat} (counted : bits count = 8 * length % 2^64)
    {limit : UInt32} (fits : length % 64 ≤ limit.toNat) :
    (limit - bufferIndex count).toNat = limit.toNat - length % 64 := by
  rw [← bufferIndex_eq counted] at fits ⊢
  exact UInt32.toNat_sub_of_le _ _ (UInt32.le_iff_toNat_le.mpr fits)

theorem transformBlocks_spec {input : Bytes} (short : input.length < 2^32) {fuel : Nat} {i : UInt32}
    (inside : i.toNat ≤ input.length) (room : 64 ∣ i.toNat ∨ input.length + 63 < 2^32)
    (enough : input.length < i.toNat + 64 * fuel) (state : Registers) :
    ∃ rest after, transformBlocks input fuel i state = some (rest,after) ∧
      absorb 64 transform state (input.drop i.toNat) = (after,input.drop rest.toNat) := by
  induction fuel generalizing i state with
  | zero => omega
  | succ fuel ih =>
    have here : (i + 63).toNat = i.toNat + 63 := by
      have size := i.toNat_lt
      rw [UInt32.toNat_add]
      exact Nat.mod_eq_of_lt (by change i.toNat + 63 < 2^32; omega)
    rw [transformBlocks,here]
    split
    next more =>
      have next : (i + 64).toNat = i.toNat + 64 := by
        rw [UInt32.toNat_add]
        exact Nat.mod_eq_of_lt (by change i.toNat + 64 < 2^32; omega)
      have loop := @ih (i+64) (by omega) (by omega) (by omega) (transform state ((input.drop i.toNat).take 64))
      rw [absorb_step (by decide) (by rw [List.length_drop]; omega),List.drop_drop]
      rwa [next] at loop
    next done =>
      exact ⟨i,state,rfl,absorb_short (by rw [List.length_drop]; omega) state⟩

/-- The index of the loop is a word of 32 bits, which no longer input lets come to its end. -/
theorem transformBlocks_long {input : Bytes} (long : 2^32 ≤ input.length) (fuel : Nat) (i : UInt32)
    (state : Registers) : transformBlocks input fuel i state = none := by
  induction fuel generalizing i state with
  | zero => rfl
  | succ fuel ih =>
    have more : (i + 63).toNat < input.length := (UInt32.toNat_lt _).trans_le long
    rw [transformBlocks,if_pos more,ih]

def initial : Registers := ⟨0x67452301,0xefcdab89,0x98badcfe,0x10325476⟩

structure Holds (md5 : MD5) (message : Bytes) : Prop where
  absorbed : absorb 64 transform initial message = (md5.state,md5.buffer.toList.take (message.length % 64))
  counted : bits md5.count = 8 * message.length % 2^64

theorem holds_reset (md5 : MD5) : Holds md5.reset [] := ⟨absorb_short (by decide) _,rfl⟩

section
variable {md5 : MD5} {message input : Bytes} {fuel : Nat}

theorem Holds.residue (holds : Holds md5 message) :
    (md5.buffer.toList.take (message.length % 64)).length = message.length % 64 := by
  have size := @absorb_residue_length _ _ _ transform (by decide : 0 < 64) initial message
  rwa [holds.absorbed] at size

theorem Holds.append (holds : Holds md5 message) (input : Bytes) :
    absorb 64 transform initial (message ++ input) =
      absorb 64 transform md5.state (md5.buffer.toList.take (message.length % 64) ++ input) := by
  rw [absorb_append (by decide),holds.absorbed]

theorem holds_of_absorbed {md5 : MD5} (buffer : Vector UInt8 64) {index : Nat} {source : Bytes}
    (inside : index + source.length ≤ 64)
    (absorbed : absorb 64 transform initial message = (md5.state,buffer.toList.take index ++ source))
    (kept : md5.buffer = memcpy buffer index source) (counted : bits md5.count = 8 * message.length % 2^64) :
    Holds md5 message := by
  have size := @absorb_residue_length _ _ _ transform (by decide : 0 < 64) initial message
  have before : (buffer.toList.take index).length = index := by
    rw [List.length_take,Vector.length_toList]
    omega
  rw [absorbed,List.length_append,before] at size
  refine ⟨?_,counted⟩
  rw [absorbed,kept,← size,memcpy_take _ inside]

theorem updateBlock_holds (holds : Holds md5 message) (short : input.length < 2^32)
    (room : message.length % 64 = 0 ∨ input.length + 63 < 2^32) (enough : input.length ≤ 64 * fuel) :
    ∃ after, md5.updateBlock fuel input = some after ∧ after.finished = false ∧ Holds after (message ++ input) := by
  have index := bufferIndex_eq holds.counted
  have partLen : (64 - bufferIndex md5.count).toNat = 64 - message.length % 64 :=
    @sub_bufferIndex _ _ holds.counted 64 (Nat.mod_lt _ (by decide)).le
  have counted : bits (addBits md5.count input.length) = 8 * (message ++ input).length % 2^64 := by
    rw [bits_addBits md5.count short,holds.counted,List.length_append]
    omega
  have residue := holds.residue
  have appended := holds.append input
  unfold updateBlock
  dsimp only
  rw [partLen,index]
  split
  next long =>
    generalize parted : 64 - message.length % 64 = part at partLen long
    have taken : (input.take part).length = part := List.length_take_of_le long
    have full : message.length % 64 + (input.take part).length = 64 := by omega
    have filled := memcpy_full md5.buffer full
    have block : (md5.buffer.toList.take (message.length % 64) ++ input.take part).length = 64 := by
      rw [List.length_append,residue]
      exact full
    have split : md5.buffer.toList.take (message.length % 64) ++ input =
        (md5.buffer.toList.take (message.length % 64) ++ input.take part) ++ input.drop part := by
      rw [List.append_assoc,List.take_append_drop]
    rw [split,absorb_block (by decide) block,← filled] at appended
    obtain ⟨rest,after,looped,absorbed⟩ := @transformBlocks_spec input short fuel (64 - bufferIndex md5.count)
      (by omega) (by omega) (by omega)
      (transform md5.state (memcpy md5.buffer (message.length % 64) (input.take part)).toList)
    rw [partLen,← appended] at absorbed
    have left := @absorb_residue_length _ _ _ transform (by decide : 0 < 64) initial (message ++ input)
    rw [absorbed] at left
    rw [looped]
    refine ⟨_,rfl,rfl,holds_of_absorbed _ ?_ absorbed rfl counted⟩
    rw [left]
    omega
  next small =>
    refine ⟨_,rfl,rfl,holds_of_absorbed _ ?_ ?_ rfl counted⟩
    · omega
    · rw [appended]
      exact absorb_short (by rw [List.length_append,residue]; omega) _

theorem lowFirst_add (first second n : Nat) :
    lowFirst (first + second) n = lowFirst first n ++ lowFirst second (n / 256^first) := by
  induction first generalizing n with
  | zero => simp [lowFirst]
  | succ first ih =>
    rw [Nat.succ_add,lowFirst,lowFirst,ih,Nat.div_div_eq_div_mul,Nat.pow_succ,Nat.mul_comm]
    rfl

theorem lowFirst_mod (count n : Nat) : lowFirst count (n % 256^count) = lowFirst count n := by
  induction count generalizing n with
  | zero => rfl
  | succ count ih =>
    have low : UInt8.ofNat (n % 256^(count+1)) = .ofNat n := by
      apply UInt8.toNat_inj.mp
      rw [UInt8.toNat_ofNat',UInt8.toNat_ofNat']
      exact Nat.mod_mod_of_dvd n (Dvd.intro_left _ rfl)
    have high : n % 256^(count+1) / 256 = n / 256 % 256^count := by
      rw [Nat.pow_succ,Nat.mul_comm,Nat.mod_mul_right_div_self]
    rw [lowFirst,lowFirst,low,high,ih]

theorem encode_count {count : UInt32 × UInt32} {length : Nat} (counted : bits count = 8 * length % 2^64) :
    encode [count.1,count.2] = lowFirst 8 (8 * length) := by
  have low := count.1.toNat_lt
  have first : lowFirst 4 (bits count) = lowFirst 4 count.1.toNat := by
    rw [← lowFirst_mod,← lowFirst_mod 4 count.1.toNat]
    congr 1
    unfold bits
    omega
  have second : bits count / 256^4 = count.2.toNat := by
    unfold bits
    omega
  rw [← lowFirst_mod,show 256^8 = 2^64 by rfl,← counted,lowFirst_add 4 4,first,second,encode_cons,encode_cons]
  exact congrArg _ (List.append_nil _)

theorem padLen_eq {count : UInt32 × UInt32} {length : Nat} (counted : bits count = 8 * length % 2^64) :
    (padLen count).toNat = (119 - length % 64) % 64 + 1 := by
  have small : length % 64 < 64 := Nat.mod_lt _ (by decide)
  have lower : bufferIndex count < 56 ↔ length % 64 < 56 := by
    rw [UInt32.lt_iff_toNat_lt,bufferIndex_eq counted]
    rfl
  unfold padLen
  dsimp only
  split
  next below =>
    rw [lower] at below
    rw [@sub_bufferIndex _ _ counted 56 below.le]
    change 56 - _ = _
    omega
  next above =>
    rw [lower] at above
    rw [@sub_bufferIndex _ _ counted 120 (small.le.trans (by decide))]
    change 120 - _ = _
    omega

theorem padding_eq {count : UInt32 × UInt32} {length : Nat} (counted : bits count = 8 * length % 2^64) :
    MD5.padding.take (padLen count).toNat ++ encode [count.1,count.2] = Rfc1321.padding length := by
  have within : (119 - length % 64) % 64 ≤ 63 := by omega
  rw [padLen_eq counted,encode_count counted,MD5.padding,List.take_succ_cons,List.take_replicate,
    Nat.min_eq_left within]
  rfl

/-- An input that fills the buffer up leaves it behind residue and all, as the block that it made. -/
theorem updateBlock_full {index : Nat} (begins : (bufferIndex md5.count).toNat = index)
    (full : index + input.length = 64) (some_fuel : 0 < fuel) :
    ∃ after, md5.updateBlock fuel input = some after ∧
      after.buffer.toList = md5.buffer.toList.take index ++ input := by
  have small : index < 64 := by
    rw [← begins,bufferIndex,UInt32.toNat_and]
    exact (Nat.and_le_right).trans_lt (by decide)
  have partLen : (64 - bufferIndex md5.count).toNat = input.length := by
    have fits : bufferIndex md5.count ≤ 64 := UInt32.le_iff_toNat_le.mpr (begins.le.trans small.le)
    rw [UInt32.toNat_sub_of_le _ _ fits,begins]
    change 64 - index = _
    omega
  obtain ⟨fuel,rfl⟩ : ∃ rest, fuel = rest + 1 := Nat.exists_eq_add_one.mpr some_fuel
  have ended : ¬ (64 - bufferIndex md5.count + 63).toNat < input.length := by
    rw [UInt32.toNat_add,partLen]
    change ¬ (input.length + 63) % 2^32 < _
    omega
  unfold updateBlock
  dsimp only
  rw [partLen,begins,if_pos le_rfl,List.take_length,transformBlocks,if_neg ended]
  refine ⟨_,rfl,?_⟩
  dsimp only
  rw [partLen,List.drop_length,memcpy_toList _ (by decide),memcpy_full md5.buffer full]
  rfl

/-- The last block that `final` compresses. -/
def lastBlock (message : Bytes) : Bytes :=
  (message ++ Rfc1321.padding message.length).drop (64 * ((message.length + 8) / 64))

theorem final_spec (given : Holds md5 message) (some_fuel : 0 < fuel) :
    ∃ after, md5.final fuel = some after ∧ after.finished = false ∧ after.state = md5.state ∧
      after.count = md5.count ∧ after.buffer.toList = lastBlock message ∧ after.digestArray.toList =
        encode (absorb 64 transform initial (message ++ Rfc1321.padding message.length)).1.toList := by
  have zeros : (MD5.padding.take (padLen md5.count).toNat).length = (119 - message.length % 64) % 64 + 1 := by
    rw [padLen_eq given.counted]
    exact List.length_take_of_le (Nat.succ_le_of_lt (Nat.mod_lt _ (by decide)))
  have length : (encode [md5.count.1,md5.count.2]).length = 8 := rfl
  obtain ⟨padded,first,_,holds⟩ := @updateBlock_holds md5 message (MD5.padding.take (padLen md5.count).toNat) fuel
    given (by omega) (by omega) (by omega)
  generalize sized : message ++ MD5.padding.take (padLen md5.count).toNat = longer at holds
  have size : longer.length = 64 * ((message.length + 8) / 64) + 56 := by
    rw [← sized,List.length_append,zeros]
    omega
  obtain ⟨counted,second,running,after⟩ := @updateBlock_holds padded _ (encode [md5.count.1,md5.count.2]) fuel
    holds (by omega) (by omega) (by omega)
  obtain ⟨filled,same,kept⟩ := @updateBlock_full padded (encode [md5.count.1,md5.count.2]) fuel 56
    (by rw [bufferIndex_eq holds.counted]; omega) rfl some_fuel
  cases second.symm.trans same
  have residue := @absorb_residue _ _ _ transform (by decide : 0 < 64) initial longer
  rw [holds.absorbed,show longer.length % 64 = 56 by omega,
    show longer.length / 64 = (message.length + 8) / 64 by omega] at residue
  have whole : longer ++ encode [md5.count.1,md5.count.2] = message ++ Rfc1321.padding message.length := by
    rw [← sized,List.append_assoc,padding_eq given.counted]
  have absorbed := after.absorbed
  rw [whole] at absorbed
  have last : counted.buffer.toList = lastBlock message := by
    rw [kept,show padded.buffer.toList.take 56 = _ from residue,lastBlock,← whole,
      List.drop_append_of_le_length (by omega)]
  rw [absorbed,final,first]
  simp only [Option.bind_eq_bind,Option.bind_some,second]
  refine ⟨_,rfl,running,rfl,rfl,last,?_⟩
  exact @memcpy_full 16 counted.digestArray 0 (encode counted.state.toList) rfl

end

theorem encode_toList (state : Registers) : encode state.toList = output (view state 0) := by
  rw [Registers.toList,encode_cons,encode_cons,encode_cons,encode_cons,output,List.append_assoc,List.append_assoc]
  exact congrArg _ (congrArg _ (congrArg _ (List.append_nil _)))

theorem bytesToHexString_eq (bytes : Bytes) : bytesToHexString bytes = hexadecimal bytes := by
  have digits : ∀ n : Fin 256,
      ([hex.getD ((UInt8.ofFin n).toNat/16) 0,hex.getD ((UInt8.ofFin n).toNat%16) 0] : Bytes) =
      [((UInt8.ofFin n).toNat/16).digitChar.toNat.toUInt8,((UInt8.ofFin n).toNat%16).digitChar.toNat.toUInt8] := by
    decide +kernel
  exact congrArg (bytes.flatMap ·) (funext fun b => digits b.toFin)

theorem ofString_holds (memory : MD5) {s : Bytes} (short : s.length < 2^32) {fuel : Nat}
    (enough : s.length ≤ 64 * fuel) :
    ∃ md5, ofString fuel memory s = some md5 ∧ md5.finished = false ∧ Holds md5 s :=
  @updateBlock_holds _ _ s fuel (holds_reset memory.reset) short (.inl rfl) enough

theorem ofString_long (memory : MD5) {s : Bytes} (long : 2^32 ≤ s.length) (fuel : Nat) :
    ofString fuel memory s = none := by
  have partLen : (64 - bufferIndex (0,0)).toNat = 64 := by decide
  have whole : (64 - bufferIndex memory.reset.reset.count).toNat ≤ s.length := by
    change (64 - bufferIndex (0,0)).toNat ≤ s.length
    omega
  rw [ofString,update,updateBlock]
  dsimp only
  rw [if_pos whole,transformBlocks_long long]
  rfl

theorem digest_spec {md5 : MD5} {message : Bytes} (holds : Holds md5 message) (running : md5.finished = false)
    {fuel : Nat} (some_fuel : 0 < fuel) :
    ∃ after, md5.digest fuel = some after ∧ after.finished = false ∧ after.state = md5.state ∧
      after.count = md5.count ∧ after.buffer.toList = lastBlock message ∧
      after.digestArray.toList = Rfc1321.digest message := by
  obtain ⟨after,ended,finished,state,count,buffer,digits⟩ := @final_spec {md5 with finished := true} message fuel
    ⟨holds.absorbed,holds.counted⟩ some_fuel
  refine ⟨after,?_,finished,state,count,buffer,?_⟩
  · rw [MD5.digest,running]
    simpa only [Bool.false_eq_true,if_false] using ended
  have same := @absorb_map _ _ 64 transform _ process (view · 0)
    (fun state _ whole => transform_eq whole state) initial (message ++ Rfc1321.padding message.length)
  have started : view initial 0 = start := by decide
  rw [started] at same
  rw [digits,encode_toList,Rfc1321.digest,same]

theorem toString_ofString (memory : MD5) {s : Bytes} (short : s.length < 2^32) {fuel : Nat}
    (enough : s.length < 64 * fuel) :
    ∃ md5 after, ofString fuel memory s = some md5 ∧
      md5.toString fuel = some (hexadecimal (Rfc1321.digest s),after) := by
  obtain ⟨md5,made,running,holds⟩ := ofString_holds memory short enough.le
  obtain ⟨after,read,_,_,_,_,digits⟩ := @digest_spec md5 s holds running fuel (by omega)
  refine ⟨md5,after,made,?_⟩
  rw [toString,read]
  simp only [Option.bind_eq_bind,Option.bind_some]
  rw [bytesToHexString_eq,digits]
  rfl

def stale : MD5 where
  state := ⟨1,2,3,4⟩
  count := (5,6)
  buffer := .replicate 64 7
  digestArray := .replicate 16 8
  finished := true

theorem toString_ofString_sample : ∃ md5 after, ofString 1 stale (ascii "1001HSI1125000") = some md5 ∧
    md5.toString 1 = some (hexadecimal (Rfc1321.digest (ascii "1001HSI1125000")),after) :=
  toString_ofString stale (by decide) (by decide)

example : ((ofString 1 stale (ascii "1001HSI1125000")).bind (toString 1)).map Prod.fst =
    some (ascii "25f0694d993fc43afcae7ac65524e144") := by decide +kernel

end MD5

end FuturesCellProxy.Common

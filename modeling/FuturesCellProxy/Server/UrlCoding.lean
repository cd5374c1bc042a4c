import FuturesCellProxy.Server.Handler

/-! The encodings of a byte string in a URL, and the texts that are none. -/
namespace FuturesCellProxy.Server

/-- `text` writes every byte of the string in one of the ways a URL allows. -/
inductive Encodes : (string text : Bytes) → Prop
  | nil : Encodes [] []
  | triplet (b high low : UInt8) (h l : Nat) (first : hexDigit high = some h) (second : hexDigit low = some l)
      (value : b.toNat = 16 * h + l) (string text : Bytes) (rest : Encodes string text) :
      Encodes (b :: string) (37 :: high :: low :: text)
  | literal (b : UInt8) (noPercent : b ≠ 37) (noPlus : b ≠ 43) (string text : Bytes)
      (rest : Encodes string text) : Encodes (b :: string) (b :: text)
  | plus (string text : Bytes) (rest : Encodes string text) : Encodes (space :: string) (43 :: text)

/-- A percent sign without two hexadecimal digits behind it. As the sign is no digit
itself, it cannot be inside an earlier triplet. -/
def Malformed (text : Bytes) : Prop :=
  ∃ before behind, text = before ++ 37 :: behind ∧
    ¬ ∃ high low rest, behind = high :: low :: rest ∧ (hexDigit high).isSome ∧ (hexDigit low).isSome

/-- The pairs of bytes in which the stream finds a number: the first one is enough, or
stands for nothing before the second. -/
def Numeric (first second : UInt8) : Prop :=
  (hexDigit first).isSome ∧ ¬ (first = 48 ∧ (second = 120 ∨ second = 88)) ∨
    (isSpace first ∨ first = 45 ∨ first = 43) ∧ (hexDigit second).isSome

/-- Every percent sign that the decoder comes to is followed by a numeric pair. -/
inductive Passable : Bytes → Prop
  | nil : Passable []
  | other (b : UInt8) (noPercent : b ≠ 37) (text : Bytes) (rest : Passable text) : Passable (b :: text)
  | triplet (first second : UInt8) (numeric : Numeric first second) (text : Bytes) (rest : Passable text) :
      Passable (37 :: first :: second :: text)

theorem hexDigit_range {b : UInt8} {n : Nat} (digit : hexDigit b = some n) :
    48 ≤ b.toNat ∧ b.toNat ≤ 57 ∧ n = b.toNat - 48 ∨ 65 ≤ b.toNat ∧ b.toNat ≤ 70 ∧ n = b.toNat - 55 ∨
      97 ≤ b.toNat ∧ b.toNat ≤ 102 ∧ n = b.toNat - 87 := by
  simp only [hexDigit,isDigit,Bool.and_eq_true,decide_eq_true_eq,UInt8.le_iff_toNat_le] at digit
  split at digit
  next range => exact .inl ⟨range.1,range.2,(Option.some.inj digit).symm⟩
  next =>
    split at digit
    next range => exact .inr (.inl ⟨range.1,range.2,(Option.some.inj digit).symm⟩)
    next =>
      split at digit
      next range => exact .inr (.inr ⟨range.1,range.2,(Option.some.inj digit).symm⟩)
      next => contradiction

/-- A digit is neither blank nor a sign nor the letter of the base prefix. -/
theorem hexDigit_solid {b : UInt8} (digit : (hexDigit b).isSome) :
    isSpace b = false ∧ b ≠ 45 ∧ b ≠ 43 ∧ b ≠ 120 ∧ b ≠ 88 ∧ b ≠ 37 := by
  refine ⟨?_,?_,?_,?_,?_,?_⟩
  · obtain ⟨n,value⟩ := Option.isSome_iff_exists.mp digit
    have range := hexDigit_range value
    simp only [isSpace,Bool.or_eq_false_iff,Bool.and_eq_false_iff,decide_eq_false_iff_not,
      UInt8.le_iff_toNat_le,beq_eq_false_iff_ne]
    refine ⟨.inr ?_,?_⟩
    · change ¬ b.toNat ≤ 13
      omega
    · rintro rfl
      exact absurd digit (by decide)
  all_goals
    rintro rfl
    exact absurd digit (by decide)

section
variable {first second : UInt8}

/-- The digits of a pair whose first byte is one. -/
theorem readHex_digit {h : Nat} (digit : hexDigit first = some h) :
    readHex [first,second] =
      if first = 48 ∧ (second = 120 ∨ second = 88) then none
      else some (match hexDigit second with | some l => 16 * h + l | none => h) := by
  obtain ⟨solid,minus,plus,_⟩ := hexDigit_solid (Option.isSome_iff_exists.mpr ⟨h,digit⟩)
  have start : readSign ([first,second].dropWhile isSpace) = (false,[first,second]) := by
    rw [List.dropWhile_cons_of_neg (by simp [solid]),readSign,if_neg minus,if_neg plus]
  rw [readHex,start]
  dsimp only
  rw [skipBase]
  split
  next base => simp
  next =>
    cases known : hexDigit second <;> simp [digit,known]

/-- A first byte that is no digit may only stand before the number. -/
theorem readHex_other (other : hexDigit first = none) :
    readHex [first,second] =
      if isSpace first ∨ first = 45 ∨ first = 43 then
        (hexDigit second).map fun l => if first = 45 then -(l : Int) else l
      else none := by
  by_cases blank : isSpace first = true
  · have noMinus : first ≠ 45 := by
      rintro rfl
      exact absurd blank (by decide)
    rw [readHex,List.dropWhile_cons_of_pos blank]
    cases digit : hexDigit second with
    | some l =>
      obtain ⟨solid,minus,plus,_⟩ := hexDigit_solid (Option.isSome_iff_exists.mpr ⟨l,digit⟩)
      simp [solid,readSign,minus,plus,skipBase,digit,blank,noMinus]
    | none =>
      by_cases solid : isSpace second = true
      · simp [solid,readSign,skipBase]
      · by_cases sign : second = 45 ∨ second = 43
        · rcases sign with rfl | rfl <;> simp [solid,readSign,skipBase]
        · rw [not_or] at sign
          simp [solid,readSign,sign,skipBase,digit]
  · rw [readHex,List.dropWhile_cons_of_neg blank]
    by_cases sign : first = 45 ∨ first = 43
    · rcases sign with rfl | rfl <;> cases digit : hexDigit second <;> simp [readSign,skipBase,digit]
    · rw [not_or] at sign
      have noZero : first ≠ 48 := by
        rintro rfl
        exact absurd other (by decide)
      simp [readSign,sign,skipBase,noZero,other,blank]

theorem readHex_eq_none : readHex [first,second] = none ↔ ¬ Numeric first second := by
  cases digit : hexDigit first with
  | some h =>
    obtain ⟨solid,minus,plus,_⟩ := hexDigit_solid (Option.isSome_iff_exists.mpr ⟨h,digit⟩)
    simp [readHex_digit digit,Numeric,digit,solid,minus,plus]
  | none =>
    rw [readHex_other digit]
    split
    next before => cases known : hexDigit second <;> simp [Numeric,digit,before,known]
    next alone => simp [Numeric,digit,alone]

end

theorem readHex_triplet {high low : UInt8} {h l : Nat} (first : hexDigit high = some h)
    (second : hexDigit low = some l) : readHex [high,low] = some ((16 * h + l : Nat) : Int) := by
  obtain ⟨_,_,_,lower,upper,_⟩ := hexDigit_solid (Option.isSome_iff_exists.mpr ⟨l,second⟩)
  rw [readHex_digit first,if_neg (by simp [lower,upper]),second]
  simp

theorem urlDecode_other {b : UInt8} (noPercent : b ≠ 37) (text : Bytes) :
    urlDecode (b :: text) = (urlDecode text).map fun out => (if b = 43 then space else b) :: out := by
  rw [urlDecode.eq_def]
  exact if_neg noPercent

theorem urlDecode_percent (first second : UInt8) (text : Bytes) :
    urlDecode (37 :: first :: second :: text) = (readHex [first,second]).bind fun value =>
      (urlDecode text).map fun out => (value % 256).toNat.toUInt8 :: out := by
  rw [urlDecode,if_pos rfl]
  cases readHex [first,second] <;> rfl

/-- The decoder gives back what has been encoded, whichever way every byte was written. -/
theorem urlDecode_encodes (string text : Bytes) (encodes : Encodes string text) :
    urlDecode text = some string := by
  induction encodes with
  | nil => rfl
  | triplet b high low h l first second value string text rest ih =>
    have byte : ((16 * h + l : Nat) : Int) % 256 = b.toNat := by
      have := b.toNat_lt
      omega
    rw [urlDecode_percent,readHex_triplet first second,Option.bind_some,ih,byte]
    simp
  | literal b noPercent noPlus string text rest ih =>
    rw [urlDecode_other noPercent,ih,if_neg noPlus]
    rfl
  | plus string text rest ih =>
    rw [urlDecode_other (by decide),ih,if_pos rfl]
    rfl

theorem urlDecode_encodes_sample : urlDecode (ascii "%00a+%fF") = some [0,97,32,255] :=
  urlDecode_encodes _ _ (.triplet 0 48 48 0 0 rfl rfl rfl _ _ (.literal 97 (by decide) (by decide) _ _
    (.plus _ _ (.triplet 255 102 70 15 15 rfl rfl rfl _ _ .nil))))

theorem urlDecode_passable {text : Bytes} (passable : Passable text) : urlDecode text ≠ none := by
  induction passable with
  | nil => simp [urlDecode]
  | other b noPercent text rest ih =>
    rw [urlDecode_other noPercent]
    simpa using ih
  | triplet first second numeric text rest ih =>
    rw [urlDecode_percent]
    cases number : readHex [first,second] with
    | some value => simpa using ih
    | none => exact absurd numeric (readHex_eq_none.mp number)

theorem passable_of_urlDecode (text : Bytes) (decoded : urlDecode text ≠ none) : Passable text := by
  induction text using urlDecode.induct with
  | case1 => exact .nil
  | case2 first second text value number ih =>
    rw [urlDecode_percent,number] at decoded
    refine .triplet first second ?_ text (ih (by simpa using decoded))
    by_contra none
    simp [readHex_eq_none.mpr none] at number
  | case3 first second text number => simp [urlDecode_percent,number] at decoded
  | case4 text short =>
    rw [urlDecode] at decoded
    · simp at decoded
    · exact short
  | case5 b text noPercent ih =>
    rw [urlDecode_other noPercent] at decoded
    exact .other b noPercent text (ih (by simpa using decoded))

theorem urlDecode_eq_none (text : Bytes) : urlDecode text = none ↔ ¬ Passable text :=
  ⟨fun failed passable => urlDecode_passable passable failed,
    fun stuck => by_contra fun decoded => stuck (passable_of_urlDecode text decoded)⟩

def Refused (text : Bytes) : Prop :=
  urlDecode text = none ∧ ∀ (registered : Bytes → Bool) (req : Request) (outData : Bytes) (rep : Reply),
    req.uri = text → handleRequest registered req outData rep = (none,Reply.stockReply .badRequest)

theorem refused_iff (text : Bytes) : Refused text ↔ urlDecode text = none := by
  constructor
  · exact And.left
  · intro failed
    refine ⟨failed,fun registered req outData rep target => ?_⟩
    rw [handleRequest,target,failed]

/-- A malformed text is refused, with a bad request and no function called, unless every
percent sign the decoder comes to is followed by a pair in which the stream finds a number. -/
theorem malformed_refused (text : Bytes) :
    (Malformed text → Refused text) ↔ (Malformed text → ¬ Passable text) := by
  rw [refused_iff,urlDecode_eq_none]

theorem one_digit_not_refused : ¬ (Malformed (ascii "%1g") → Refused (ascii "%1g")) := by
  intro strict
  have malformed : Malformed (ascii "%1g") := by
    refine ⟨[],ascii "1g",rfl,?_⟩
    rintro ⟨high,low,rest,split,_,second⟩
    obtain ⟨_,rfl,_⟩ : (49 : UInt8) = high ∧ 103 = low ∧ [] = rest := by simpa [ascii] using split
    exact absurd second (by decide)
  exact absurd (strict malformed).1 (by decide)

end FuturesCellProxy.Server

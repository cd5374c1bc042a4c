import FuturesCellProxy.Server.PostRequest

/-! Texts that differ in the case of their letters only. No byte that the parser looks
for is a letter, so it finds the same in both. -/
namespace FuturesCellProxy.Server
open Foundation

def CaseVariant (text text' : Bytes) : Prop := text.map tolower = text'.map tolower

instance (text text' : Bytes) : Decidable (CaseVariant text text') := inferInstanceAs (Decidable (_ = _))

namespace CaseVariant

theorem refl (text : Bytes) : CaseVariant text text := Eq.refl _

theorem symm {text text' : Bytes} (variants : CaseVariant text text') : CaseVariant text' text := Eq.symm variants

theorem trans {text text' text'' : Bytes} (first : CaseVariant text text') (second : CaseVariant text' text'') :
    CaseVariant text text'' := Eq.trans first second

theorem append {first first' second second' : Bytes} (left : CaseVariant first first')
    (right : CaseVariant second second') : CaseVariant (first ++ second) (first' ++ second') := by
  rw [CaseVariant,List.map_append,List.map_append,left,right]

theorem length {text text' : Bytes} (variants : CaseVariant text text') : text.length = text'.length := by
  simpa using congrArg List.length variants

theorem take {text text' : Bytes} (variants : CaseVariant text text') (n : Nat) :
    CaseVariant (text.take n) (text'.take n) := by
  rw [CaseVariant,List.map_take,List.map_take,variants]

theorem drop {text text' : Bytes} (variants : CaseVariant text text') (n : Nat) :
    CaseVariant (text.drop n) (text'.drop n) := by
  rw [CaseVariant,List.map_drop,List.map_drop,variants]

end CaseVariant

/-- A byte that is no letter. -/
def Plain (c : UInt8) : Prop := ∀ b, tolower b = c ↔ b = c

theorem plain_of {c : UInt8} (noUpper : c.toNat < 65 ∨ 90 < c.toNat) (noLower : c.toNat < 97 ∨ 122 < c.toNat) :
    Plain c := by
  intro b
  simp only [tolower,Bool.and_eq_true,decide_eq_true_eq,UInt8.le_iff_toNat_le]
  split
  next upper =>
    have range : 65 ≤ b.toNat ∧ b.toNat ≤ 90 := upper
    have shifted : (b + 32).toNat = b.toNat + 32 := by
      rw [UInt8.toNat_add]
      exact Nat.mod_eq_of_lt (by change b.toNat + 32 < 256; omega)
    constructor
    · rintro rfl
      omega
    · rintro rfl
      omega
  next => exact Iff.rfl

theorem plain_nul : Plain nul := plain_of (by decide) (by decide)
theorem plain_cr : Plain cr := plain_of (by decide) (by decide)
theorem plain_lf : Plain lf := plain_of (by decide) (by decide)
theorem plain_colon : Plain colon := plain_of (by decide) (by decide)

theorem isSpace_tolower (b : UInt8) : isSpace (tolower b) = isSpace b := by
  have all : ∀ n : Fin 256, isSpace (tolower (.ofFin n)) = isSpace (.ofFin n) := by decide +kernel
  exact all b.toFin

theorem Plain.mem_map {c : UInt8} (plain : Plain c) (text : Bytes) : c ∈ text.map tolower ↔ c ∈ text := by
  rw [List.mem_map]
  constructor
  · rintro ⟨b,member,same⟩
    rwa [(plain b).mp same] at member
  · exact fun member => ⟨c,member,(plain c).mpr rfl⟩

theorem CaseVariant.mem {text text' : Bytes} {c : UInt8} (variants : CaseVariant text text') (plain : Plain c) :
    c ∈ text ↔ c ∈ text' := by
  rw [← plain.mem_map text,variants,plain.mem_map]

theorem isPrefixOf_map {pattern : Bytes} (plain : ∀ c ∈ pattern, Plain c) (text : Bytes) :
    pattern.isPrefixOf (text.map tolower) = pattern.isPrefixOf text := by
  induction pattern generalizing text with
  | nil => rfl
  | cons c pattern ih =>
    cases text with
    | nil => rfl
    | cons b text =>
      have first : (c == tolower b) = (c == b) := by
        rw [Bool.eq_iff_iff,beq_iff_eq,beq_iff_eq,eq_comm,plain c (by simp) b,eq_comm]
      simp only [List.map_cons,List.isPrefixOf,first,ih (fun d member => plain d (by simp [member])) text]

theorem findFirst_map {pattern : Bytes} (plain : ∀ c ∈ pattern, Plain c) (text : Bytes) :
    findFirst pattern (text.map tolower) = findFirst pattern text := by
  induction text with
  | nil => rfl
  | cons b text ih =>
    have here := isPrefixOf_map plain (b :: text)
    rw [List.map_cons] at here ⊢
    rw [findFirst,findFirst,here,ih]

theorem upTo_map {stop : UInt8} (plain : Plain stop) (text : Bytes) :
    upTo stop (text.map tolower) = (upTo stop text).map tolower := by
  unfold upTo
  rw [List.takeWhile_map]
  congr 2
  funext b
  simp [plain b]

theorem CaseVariant.strstr {text text' pattern : Bytes} (variants : CaseVariant text text')
    (plain : ∀ c ∈ pattern, Plain c) : strstr text pattern = strstr text' pattern := by
  unfold FuturesCellProxy.strstr
  rw [← findFirst_map plain,← upTo_map plain_nul,variants,upTo_map plain_nul,findFirst_map plain]

theorem plain_httpEnd : ∀ c ∈ httpEnd, Plain c := by
  simp only [httpEnd,List.mem_cons,List.not_mem_nil,or_false,forall_eq_or_imp,forall_eq]
  exact ⟨plain_cr,plain_lf,plain_cr,plain_lf⟩

theorem trim_map (text : Bytes) : trim (text.map tolower) = (trim text).map tolower := by
  have same : isSpace ∘ tolower = isSpace := funext isSpace_tolower
  unfold trim List.rdropWhile
  rw [← List.map_reverse,List.dropWhile_map,same,← List.map_reverse,List.dropWhile_map,same]

theorem CaseVariant.trim {text text' : Bytes} (variants : CaseVariant text text') :
    CaseVariant (trim text) (trim text') := by
  rw [CaseVariant,← trim_map,← trim_map,variants]

theorem CaseVariant.headersEqual {name name' : Bytes} (variants : CaseVariant name name') (other : Bytes) :
    headersEqual name other = headersEqual name' other := by
  unfold FuturesCellProxy.Server.headersEqual
  rw [variants.length,variants]

namespace Header

structure Respelled (header header' : Header) : Prop where
  name : CaseVariant header.name header'.name
  value : header.value = header'.value

theorem Respelled.trimmed {header header' : Header} (respelled : Respelled header header') :
    Respelled header.trimmed header'.trimmed :=
  ⟨respelled.name.trim,congrArg trim respelled.value⟩

theorem Respelled.line {header header' : Header} (respelled : Respelled header header') :
    CaseVariant header.line header'.line := by
  unfold Header.line
  rw [respelled.value]
  exact ((respelled.name.append (.refl _)).append (.refl _)).append (.refl _)

end Header

end FuturesCellProxy.Server

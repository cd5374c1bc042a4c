import FuturesCellProxy.Server.Stages

/-! Which header lists the parser takes for a head with a content length, and which ones
give a length that every reader would agree on. -/
namespace FuturesCellProxy.Server

namespace Header

def isLength (header : Header) : Bool := headersEqual header.name contentLengthName

end Header

def lengths (headers : List Header) : List Header := headers.filter Header.isLength

/-- There is a content length, and whichever header is taken for it, it is the number `n`. -/
structure Strict (headers : List Header) (n : Nat) : Prop where
  present : lengths headers ≠ []
  value : ∀ header ∈ lengths headers, readDecimal (trim header.value) = some n
  small : n < sizeBound

/-- The parser goes past the head for such lists only, and with that number. -/
def ReadsStrictly (headers : List Header) (out : Bool × Request) : Prop :=
  ∀ n, out.1 = true ∧ out.2.contentLength = n ↔ Strict headers n

def Castable (text : Bytes) : Prop := ∃ n < sizeBound, readDecimal (magnitude text) = some n

structure Agreeing (headers : List Header) : Prop where
  unsigned : ∀ header ∈ lengths headers,
    (trim header.value).head? ≠ some 45 ∧ (trim header.value).head? ≠ some 43
  same : ∀ header ∈ lengths headers, ∀ other ∈ lengths headers,
    digitsValue (trim header.value) = digitsValue (trim other.value)

theorem readDecimal_iff (text : Bytes) (n : Nat) :
    readDecimal text = some n ↔ (text ≠ [] ∧ text.all isDigit) ∧ digitsValue text = n := by
  unfold readDecimal
  split
  next digits => simp [digits]
  next other => exact iff_of_false nofun fun number => other number.1

theorem lexicalCastSize_isSome (text : Bytes) : (lexicalCastSize text).isSome ↔ Castable text := by
  rw [lexicalCastSize_eq,Option.isSome_map,Castable]
  cases number : readDecimal (magnitude text) with
  | none => simp
  | some n => simp [Option.isSome_filter]

theorem magnitude_of_unsigned {text : Bytes} (unsigned : text.head? ≠ some 45 ∧ text.head? ≠ some 43) :
    magnitude text = text := by
  rw [magnitude,if_neg (by simp [unsigned])]

theorem unsigned_of_readDecimal {text : Bytes} {n : Nat} (value : readDecimal text = some n) :
    text.head? ≠ some 45 ∧ text.head? ≠ some 43 := by
  obtain ⟨⟨_,digits⟩,_⟩ := (readDecimal_iff text n).mp value
  cases text with
  | nil => simp
  | cons b text =>
    rw [List.all_cons,Bool.and_eq_true] at digits
    constructor <;>
    · rintro same
      rw [Option.some.inj same] at digits
      exact absurd digits.1 (by decide)

theorem lengths_cons (header : Header) (rest : List Header) :
    lengths (header :: rest) = if header.isLength then header :: lengths rest else lengths rest :=
  List.filter_cons

/-- When no value ends the loop, the last one stays, and `bheader` says if there was one. -/
theorem readContentLength_castable (headers : List Header) (req : Request)
    (castable : ∀ header ∈ lengths headers, Castable header.value) :
    ∃ after, readContentLength headers req = (true,after) ∧
      (after.bheader = true ↔ req.bheader = true ∨ lengths headers ≠ []) ∧
      (lengths headers ≠ [] → ∃ header ∈ lengths headers,
        lexicalCastSize header.value = some after.contentLength) := by
  induction headers generalizing req with
  | nil => exact ⟨req,rfl,by simp [lengths],fun present => absurd rfl present⟩
  | cons header rest ih =>
    rw [lengths_cons] at castable ⊢
    by_cases named : header.isLength = true
    · rw [if_pos named] at castable ⊢
      obtain ⟨n,value⟩ := Option.isSome_iff_exists.mp
        ((lexicalCastSize_isSome header.value).mpr (castable header List.mem_cons_self))
      have step : readContentLength (header :: rest) req =
          readContentLength rest {req with contentLength := n,bheader := true} := by
        rw [readContentLength]
        exact (if_pos named).trans (by rw [value])
      by_cases more : lengths rest = []
      · rw [step,readContentLength_absent rest _ more]
        exact ⟨_,rfl,by simp,fun _ => ⟨header,List.mem_cons_self,value⟩⟩
      · obtain ⟨after,read,flag,last⟩ := ih {req with contentLength := n,bheader := true}
          fun other member => castable other (List.mem_cons_of_mem _ member)
        rw [step,read]
        refine ⟨after,rfl,by simpa using flag,fun _ => ?_⟩
        obtain ⟨other,member,kept⟩ := last more
        exact ⟨other,List.mem_cons_of_mem _ member,kept⟩
    · rw [if_neg named] at castable ⊢
      obtain ⟨after,read,rest⟩ := ih req castable
      refine ⟨after,?_,rest⟩
      rw [readContentLength]
      exact (if_neg named).trans read

theorem readContentLength_uncastable (headers : List Header) (req : Request)
    (uncastable : ∃ header ∈ lengths headers, ¬ Castable header.value) :
    (readContentLength headers req).1 = false := by
  induction headers generalizing req with
  | nil => simp [lengths] at uncastable
  | cons header rest ih =>
    rw [lengths_cons] at uncastable
    rw [readContentLength]
    by_cases named : header.isLength = true
    · rw [if_pos named] at uncastable
      refine (congrArg Prod.fst (if_pos named)).trans ?_
      cases value : lexicalCastSize header.value with
      | none => rfl
      | some n =>
        obtain ⟨other,member,bad⟩ := uncastable
        rcases List.mem_cons.mp member with rfl | later
        · exact absurd ((lexicalCastSize_isSome other.value).mp (by simp [value])) bad
        · exact ih _ ⟨other,later,bad⟩
    · rw [if_neg named] at uncastable
      exact (congrArg Prod.fst (if_neg named)).trans (ih req uncastable)

theorem Strict.castable {headers : List Header} {n : Nat} (strict : Strict headers n) :
    ∀ header ∈ lengths headers, Castable (trim header.value) := by
  intro header member
  have value := strict.value header member
  refine ⟨n,strict.small,?_⟩
  rwa [magnitude_of_unsigned (unsigned_of_readDecimal value)]

theorem Strict.agreeing {headers : List Header} {n : Nat} (strict : Strict headers n) : Agreeing headers := by
  constructor
  · exact fun header member => unsigned_of_readDecimal (strict.value header member)
  · intro header member other member'
    rw [((readDecimal_iff _ _).mp (strict.value header member)).2,
      ((readDecimal_iff _ _).mp (strict.value other member')).2]

/-- When all values are one number, it is the number that the loop keeps. -/
theorem Agreeing.strict {headers : List Header} {header : Header} {n : Nat} (agreeing : Agreeing headers)
    (trimmed : ∀ header ∈ lengths headers, trim header.value = header.value)
    (castable : ∀ header ∈ lengths headers, Castable header.value) (member : header ∈ lengths headers)
    (value : lexicalCastSize header.value = some n) : Strict headers n := by
  have number (header : Header) (member : header ∈ lengths headers) :
      ∃ n < sizeBound, readDecimal (trim header.value) = some n := by
    have unsigned := agreeing.unsigned header member
    obtain ⟨n,small,digits⟩ := castable header member
    rw [← trimmed header member,magnitude_of_unsigned unsigned] at digits
    exact ⟨n,small,digits⟩
  have first : digitsValue (trim header.value) = n := by
    obtain ⟨m,small,digits⟩ := number header member
    rw [trimmed header member] at digits ⊢
    rw [lexicalCastSize_of_decimal digits small] at value
    rw [((readDecimal_iff _ _).mp digits).2,Option.some.inj value]
  refine ⟨List.ne_nil_of_mem member,fun other member' => ?_,?_⟩
  · obtain ⟨m,_,digits⟩ := number other member'
    rw [digits,← first,← agreeing.same other member' header member,((readDecimal_iff _ _).mp digits).2]
  · obtain ⟨m,small,digits⟩ := number header member
    rw [← first,((readDecimal_iff _ _).mp digits).2]
    exact small

def Stored (req : Request) : Prop := ∀ header ∈ req.headers, trim header.value = header.value

theorem getHttpUri_headers (req : Request) (line : Bytes) : (getHttpUri req line).2.headers = req.headers := by
  unfold getHttpUri
  dsimp only
  split <;> split <;> rfl

theorem getMimeHeader_stored {req : Request} (line : Bytes) (stored : Stored req) :
    Stored (getMimeHeader req line).2 := by
  unfold getMimeHeader
  dsimp only
  split
  · exact stored
  · split
    · exact stored
    · have both (req' : Request) (value : Bytes) (same : ∃ name, req'.headers = req.headers ++ [⟨name,trim value⟩]) :
          Stored req' := by
        obtain ⟨name,headers⟩ := same
        intro header member
        rw [headers,List.mem_append,List.mem_singleton] at member
        rcases member with old | rfl
        · exact stored header old
        · exact trim_trim value
      split
      · exact both _ _ ⟨_,rfl⟩
      · exact both _ _ ⟨_,rfl⟩

theorem takeLine_stored {req : Request} (line : Bytes) (stored : Stored req) : Stored (takeLine req line).2 := by
  unfold takeLine
  split
  · rw [Stored,getHttpUri_headers]
    exact stored
  · split
    · exact stored
    · exact getMimeHeader_stored line stored

theorem readLines_stored (src : Bytes) (len fuel offset : Nat) {req : Request} (stored : Stored req) :
    Stored (readLines src len fuel offset req).2 := by
  induction fuel generalizing offset req with
  | zero => exact stored
  | succ fuel ih =>
    simp only [readLines]
    split
    · exact stored
    · split
      · exact stored
      · split
        · exact stored
        · rename_i line _ _ _ _
          have next := takeLine_stored line stored
          cases taken : takeLine req line with
          | mk accepted after =>
            rw [taken] at next
            cases accepted with
            | false => exact next
            | true => exact ih _ next

section Head
variable {src : Bytes} {len : Nat} {req parsed : Request}
  (lines : readLines src len src.length 0 req = (true,parsed))
include lines

theorem readHead_uncastable (uncastable : ∃ header ∈ lengths parsed.headers, ¬ Castable header.value) :
    (readHead src len req).1 = false := by
  have failed := readContentLength_uncastable parsed.headers parsed uncastable
  rw [readHead,lines]
  dsimp only
  cases read : readContentLength parsed.headers parsed with
  | mk accepted after =>
    rw [read] at failed
    obtain rfl : accepted = false := failed
    rfl

theorem readHead_castable (castable : ∀ header ∈ lengths parsed.headers, Castable header.value) :
    ((readHead src len req).1 = true ↔ req.bheader = true ∨ lengths parsed.headers ≠ []) ∧
      (lengths parsed.headers ≠ [] → ∃ header ∈ lengths parsed.headers,
        lexicalCastSize header.value = some (readHead src len req).2.contentLength) := by
  have kept := readLines_kept src len src.length 0 req
  rw [lines] at kept
  have flag : parsed.bheader = req.bheader := by
    have same := congrArg Request.bheader kept
    exact same
  obtain ⟨after,read,found,last⟩ := readContentLength_castable parsed.headers parsed castable
  rw [readHead,lines]
  dsimp only
  rw [read,← flag]
  exact ⟨found,last⟩

/-- The parser goes past a head for the right header lists only, and with the right number,
unless it takes a sign, or one of several numbers, or an old `bheader` for a length. -/
theorem head_strict (blank : req.headers = []) :
    ReadsStrictly parsed.headers (readHead src len req) ↔
      (∃ header ∈ lengths parsed.headers, ¬ Castable (trim header.value)) ∨
        Agreeing parsed.headers ∧ (req.bheader = true → lengths parsed.headers ≠ []) := by
  have stored : Stored parsed := by
    have kept := @readLines_stored src len src.length 0 req (by simp [Stored,blank])
    rwa [lines] at kept
  have trimmed : ∀ header ∈ lengths parsed.headers, trim header.value = header.value :=
    fun header member => stored header (List.mem_of_mem_filter member)
  by_cases castable : ∀ header ∈ lengths parsed.headers, Castable header.value
  · obtain ⟨passes,last⟩ := readHead_castable lines castable
    have noError : ¬ ∃ header ∈ lengths parsed.headers, ¬ Castable (trim header.value) := by
      rintro ⟨header,member,bad⟩
      rw [trimmed header member] at bad
      exact bad (castable header member)
    rw [or_iff_right noError]
    constructor
    · intro strict
      refine ⟨?_,fun old => ((strict _).mp ⟨passes.mpr (.inl old),rfl⟩).present⟩
      by_cases present : lengths parsed.headers = []
      · exact ⟨by simp [present],by simp [present]⟩
      · exact ((strict _).mp ⟨passes.mpr (.inr present),rfl⟩).agreeing
    · rintro ⟨agreeing,old⟩ n
      by_cases present : lengths parsed.headers = []
      · refine iff_of_false (fun both => ?_) fun right => right.present present
        rcases passes.mp both.1 with flag | some_length
        · exact old flag present
        · exact some_length present
      · obtain ⟨header,member,value⟩ := last present
        have right := agreeing.strict trimmed castable member value
        constructor
        · rintro ⟨_,rfl⟩
          exact right
        · intro right'
          have same := (right.value header member).symm.trans (right'.value header member)
          exact ⟨passes.mpr (.inr present),Option.some.inj same⟩
  · simp only [not_forall] at castable
    obtain ⟨header,member,bad⟩ := castable
    have refused := readHead_uncastable lines ⟨header,member,bad⟩
    rw [← trimmed header member] at bad
    refine iff_of_true (fun n => iff_of_false ?_ fun right => ?_) (.inl ⟨header,member,bad⟩)
    · rw [refused]
      exact fun both => absurd both.1 (by decide)
    · exact bad (right.castable header member)

end Head

def headOf (fields : String) : Bytes := ascii "POST /a HTTP/1.1" ++ crlf ++ ascii fields ++ httpEnd

def parsedHead (headers : List Header) : Request :=
  {Request.reset with method := ascii "POST",uri := ascii "a",headers}

theorem head_strict_sample :
    ReadsStrictly [⟨ascii "content-length",ascii "07"⟩]
        (readHead (headOf "content-length:  07 ") 42 .reset) ↔
      (∃ header ∈ lengths [⟨ascii "content-length",ascii "07"⟩], ¬ Castable (trim header.value)) ∨
        Agreeing [⟨ascii "content-length",ascii "07"⟩] ∧
          (Request.reset.bheader = true → lengths [⟨ascii "content-length",ascii "07"⟩] ≠ []) :=
  @head_strict _ _ _ (parsedHead [⟨ascii "content-length",ascii "07"⟩]) (by decide +kernel) rfl

theorem negative_not_strict : ∃ parsed : Request,
    readLines (headOf "Content-Length: -1") 40 (headOf "Content-Length: -1").length 0 .reset = (true,parsed) ∧
      (readHead (headOf "Content-Length: -1") 40 .reset).2.contentLength = 2^64 - 1 ∧
      ¬ ReadsStrictly parsed.headers (readHead (headOf "Content-Length: -1") 40 .reset) := by
  refine ⟨parsedHead [⟨ascii "Content-Length",ascii "-1"⟩],by decide +kernel,by decide +kernel,fun strict => ?_⟩
  have right := (strict (2^64 - 1)).mp (by decide +kernel)
  have value := right.value ⟨ascii "Content-Length",ascii "-1"⟩ (by decide +kernel)
  revert value
  decide +kernel

end FuturesCellProxy.Server

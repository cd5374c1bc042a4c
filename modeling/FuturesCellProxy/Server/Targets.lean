import FuturesCellProxy.Server.PostRequest
import Mathlib.Data.List.Count

/-! What the server makes of a request target: of one with the host in front, and of the
same one without it. -/
namespace FuturesCellProxy.Server
open Foundation

def question : UInt8 := 63

theorem eraseAll_append {pattern : Bytes} (name rest : Bytes)
    (apart : ∀ part, part <:+ name → ¬ pattern <+: part ++ rest) :
    eraseAll pattern 0 (name ++ rest) = name ++ eraseAll pattern 0 rest := by
  induction name with
  | nil => rfl
  | cons b name ih =>
    have here : ¬ pattern.isPrefixOf (b :: (name ++ rest)) = true := by
      rw [List.isPrefixOf_iff_prefix]
      exact apart (b :: name) List.suffix_rfl
    rw [List.cons_append,eraseAll,if_neg here,ih fun part inside =>
      apart part (inside.trans (List.suffix_cons b name)),List.cons_append]

/-- A scheme has a colon behind a word. -/
structure Scheme (pattern word rest : Bytes) : Prop where
  shape : pattern = word ++ colon :: rest
  noSlash : slash ∉ word
  noQuestion : question ∉ word

theorem scheme_lower : Scheme (ascii "http://") (ascii "http") (ascii "//") :=
  ⟨by decide,by decide,by decide⟩

theorem scheme_upper : Scheme (ascii "HTTP://") (ascii "HTTP") (ascii "//") :=
  ⟨by decide,by decide,by decide⟩

theorem takeWhile_until (stop : UInt8) {name : Bytes} (absent : stop ∉ name) (text : Bytes) :
    (name ++ text).takeWhile (· ≠ stop) = name ++ text.takeWhile (· ≠ stop) := by
  apply List.takeWhile_append_of_pos
  intro b member
  rw [decide_eq_true_iff]
  rintro rfl
  exact absent member

theorem eraseAll_skip (pattern passed rest : Bytes) :
    eraseAll pattern passed.length (passed ++ rest) = eraseAll pattern 0 rest := by
  induction passed with
  | nil => rfl
  | cons b passed ih =>
    rw [List.cons_append,List.length_cons,eraseAll]
    exact ih

theorem eraseAll_start {pattern : Bytes} (nonempty : pattern ≠ []) (rest : Bytes) :
    eraseAll pattern 0 (pattern ++ rest) = eraseAll pattern 0 rest := by
  obtain ⟨b,tail,rfl⟩ := List.exists_cons_of_ne_nil nonempty
  have here : (b :: tail).isPrefixOf (b :: (tail ++ rest)) = true :=
    List.isPrefixOf_iff_prefix.mpr (List.prefix_append (b :: tail) rest)
  rw [List.cons_append,eraseAll,if_pos here]
  exact eraseAll_skip _ tail rest

theorem eraseAll_absent {pattern text : Bytes} (absent : ¬ pattern <:+: text) :
    eraseAll pattern 0 text = text := by
  have same := @eraseAll_append pattern text [] (by
    intro part inside here
    rw [List.append_nil] at here
    exact absent (here.isInfix.trans inside.isInfix))
  simpa [eraseAll] using same

theorem eraseAll_sublist (pattern : Bytes) (skip : Nat) (text : Bytes) :
    (eraseAll pattern skip text).Sublist text := by
  induction text generalizing skip with
  | nil => cases skip <;> simp [eraseAll]
  | cons b text ih =>
    cases skip with
    | succ skip => exact (ih skip).cons b
    | zero =>
      rw [eraseAll]
      split
      · exact (ih _).cons b
      · exact (ih 0).cons_cons b

theorem eraseAll_count {pattern text : Bytes} (nonempty : pattern ≠ []) (inside : pattern <:+: text) (b : UInt8) :
    (eraseAll pattern 0 text).count b + pattern.count b ≤ text.count b := by
  induction text with
  | nil => exact absurd (List.infix_nil.mp inside) nonempty
  | cons c text ih =>
    by_cases here : pattern <+: c :: text
    · obtain ⟨rest,split⟩ := here
      rw [← split,eraseAll_start nonempty,List.count_append]
      have := (eraseAll_sublist pattern 0 rest).count_le b
      omega
    · have later := ih ((List.infix_cons_iff.mp inside).resolve_left here)
      rw [eraseAll,if_neg (by rwa [List.isPrefixOf_iff_prefix]),List.count_cons,List.count_cons]
      omega

theorem prefix_stop {pattern rest : Bytes} {stop : UInt8} (absent : stop ∉ pattern) (text : Bytes)
    (start : ∀ b ∈ rest.head?, b = stop) : pattern <+: text ++ rest ↔ pattern <+: text := by
  constructor
  · rintro ⟨tail,here⟩
    rcases List.append_eq_append_iff.mp here with ⟨middle,inside,_⟩ | ⟨middle,beyond,behind⟩
    · exact ⟨middle,inside.symm⟩
    · cases middle with
      | nil => exact ⟨[],by simpa using beyond⟩
      | cons b middle =>
        obtain rfl : b = stop := start b (by simp [behind])
        exact absurd (by simp [beyond]) absent
  · exact fun here => here.trans (List.prefix_append _ _)

theorem eraseAll_stop {pattern rest : Bytes} {stop : UInt8} (absent : stop ∉ pattern) (text : Bytes)
    (start : ∀ b ∈ rest.head?, b = stop) (skip : Nat) (inside : skip ≤ text.length) :
    eraseAll pattern skip (text ++ rest) = eraseAll pattern skip text ++ eraseAll pattern 0 rest := by
  induction text generalizing skip with
  | nil =>
    obtain rfl : skip = 0 := Nat.le_zero.mp inside
    rfl
  | cons b text ih =>
    cases skip with
    | succ skip => exact ih skip (Nat.le_of_succ_le_succ inside)
    | zero =>
      have same := prefix_stop absent (b :: text) start
      simp only [List.cons_append,eraseAll,List.isPrefixOf_iff_prefix] at same ⊢
      by_cases here : pattern <+: b :: text
      · have fits := here.length_le
        rw [List.length_cons] at fits
        rw [if_pos (same.mpr here),if_pos here]
        exact ih _ (by omega)
      · rw [if_neg (mt same.mp here),if_neg here,ih 0 (Nat.zero_le _)]
        rfl

theorem eraseAll_head {pattern rest : Bytes} {stop : UInt8} (absent : stop ∉ pattern) (nonempty : pattern ≠ [])
    (start : ∀ b ∈ rest.head?, b = stop) : ∀ b ∈ (eraseAll pattern 0 rest).head?, b = stop := by
  cases rest with
  | nil => simp [eraseAll]
  | cons b rest =>
    obtain rfl : b = stop := start b rfl
    have elsewhere : ¬ pattern <+: b :: rest := by
      have same := prefix_stop absent [] start
      rw [List.nil_append,List.prefix_nil] at same
      exact mt same.mp nonempty
    rw [eraseAll,if_neg (by rwa [List.isPrefixOf_iff_prefix])]
    simp

/-- The end of `TrimUri`: at the first slash that is not the first byte. -/
def cutPath (uri : Bytes) : Bytes :=
  if uri.head? = some slash then uri else uri.takeWhile (· ≠ slash)

theorem cutPath_sublist (uri : Bytes) : (cutPath uri).Sublist uri := by
  unfold cutPath
  split
  · exact List.Sublist.refl uri
  · exact List.takeWhile_sublist _

theorem cutPath_host {host : Bytes} (nonempty : host ≠ []) (noSlash : slash ∉ host) (path : Bytes) :
    cutPath (host ++ slash :: path) = host := by
  obtain ⟨b,more,split⟩ := List.exists_cons_of_ne_nil nonempty
  have other : (host ++ slash :: path).head? ≠ some slash := by
    rw [split]
    intro same
    exact noSlash (by simp [split,Option.some.inj same])
  rw [cutPath,if_neg other,takeWhile_until slash noSlash]
  simp

theorem trimUri_query {path query : Bytes} (noQuestion : question ∉ path)
    (start : ∀ b ∈ query.head?, b = question) :
    trimUri (path ++ query) = cutPath (eraseAll (ascii "HTTP://") 0 (eraseAll (ascii "http://") 0 path)) := by
  have lower : question ∉ ascii "http://" := by decide
  have upper : question ∉ ascii "HTTP://" := by decide
  have start' := eraseAll_head lower (by decide) start
  have start'' := eraseAll_head upper (by decide) start'
  have kept (pattern text : Bytes) (noQuestion : question ∉ text) : question ∉ eraseAll pattern 0 text :=
    fun member => noQuestion ((eraseAll_sublist pattern 0 text).mem member)
  rw [trimUri]
  simp only [eraseAll_stop lower path start 0 (Nat.zero_le _),
    eraseAll_stop upper _ start' 0 (Nat.zero_le _)]
  rw [takeWhile_until 63 (kept _ _ (kept _ _ noQuestion))]
  have cut : ∀ rest : Bytes, (∀ b ∈ rest.head?, b = question) → rest.takeWhile (· ≠ 63) = [] := by
    intro rest first
    cases rest with
    | nil => rfl
    | cons b rest => rw [first b rfl]; rfl
  rw [cut _ start'',List.append_nil]
  rfl

theorem infix_host {stem host path : Bytes} (noSlash : slash ∉ host) (noSlash' : slash ∉ stem)
    (absent : ¬ stem ++ [slash,slash] <:+: slash :: path)
    (inside : stem ++ [slash,slash] <:+: host ++ slash :: path) : path.head? = some slash := by
  obtain ⟨before,behind,split⟩ := inside
  have shape : (before ++ stem) ++ (slash :: slash :: behind) = host ++ slash :: path := by
    simpa using split
  rcases split_append shape with ⟨rest,stem_eq,path_eq⟩ | ⟨rest,host_eq,tail⟩
  · rcases split_append stem_eq with ⟨part,_,inner⟩ | ⟨part,_,inner⟩
    · -- the scheme would be in the path alone
      refine absurd ⟨slash :: part,behind,?_⟩ absent
      simp [path_eq,inner]
    · exact absurd (by simp [inner]) noSlash'
  · cases rest with
    | nil => simpa using congrArg (fun text => text.tail.head?) tail.symm
    | cons b rest =>
      obtain rfl : slash = b := (List.cons.inj tail).1
      exact absurd (by simp [host_eq]) noSlash

/-- Neither a blank nor a control character. -/
def Visible (text : Bytes) : Prop := ∀ b ∈ text, 32 < b ∧ b ≠ 127

structure NoScheme (text : Bytes) : Prop where
  lower : ¬ ascii "http://" <:+: text
  upper : ¬ ascii "HTTP://" <:+: text

/-- A request target; `below` is its path behind the first slash. -/
structure Target where
  host : Bytes
  below : Bytes
  query : Option Bytes
  hostSome : host ≠ []
  hostNoSlash : slash ∉ host
  hostNoQuestion : question ∉ host
  belowSome : below ≠ []
  visible : Visible host ∧ Visible below ∧ ∀ text ∈ query, Visible text
  noScheme : NoScheme host ∧ NoScheme (slash :: below) ∧ ∀ text ∈ query, NoScheme text

namespace Target
variable (target : Target)

def queryText : Bytes := target.query.elim [] (question :: ·)

def originForm : Bytes := slash :: target.below ++ target.queryText

def absoluteForm : Bytes := ascii "http://" ++ target.host ++ target.originForm

/-- The path behind its first slash, up to a question mark. -/
def reached : Bytes := target.below.takeWhile (· ≠ question)

theorem queryText_noSpace : space ∉ target.queryText := by
  cases known : target.query with
  | none => simp [queryText,known]
  | some text =>
    have visible := target.visible.2.2 text known
    rw [queryText,known,Option.elim_some,List.mem_cons,not_or]
    exact ⟨by decide,fun member => absurd (visible space member).1 (by decide)⟩

theorem below_noSpace : space ∉ target.below :=
  fun member => absurd (target.visible.2.1 space member).1 (by decide)

theorem host_noSpace : space ∉ target.host :=
  fun member => absurd (target.visible.1 space member).1 (by decide)

theorem trimUri_below (before : Bytes) (noQuestion : question ∉ before) :
    trimUri (before ++ (target.below ++ target.queryText)) =
      cutPath (eraseAll (ascii "HTTP://") 0 (eraseAll (ascii "http://") 0 (before ++ target.reached))) := by
  have split : before ++ (target.below ++ target.queryText) =
      (before ++ target.reached) ++ (target.below.dropWhile (· ≠ question) ++ target.queryText) := by
    rw [reached,List.append_assoc,← List.append_assoc (target.below.takeWhile _),
      List.takeWhile_append_dropWhile]
  rw [split,trimUri_query]
  · rw [List.mem_append,not_or]
    refine ⟨noQuestion,fun member => ?_⟩
    simpa using List.mem_takeWhile_imp member
  · intro b first
    cases rest : target.below.dropWhile (· ≠ question) with
    | nil =>
      rw [rest,List.nil_append,queryText] at first
      cases known : target.query with
      | none => simp [known] at first
      | some text => simpa [known] using first.symm
    | cons c more =>
      have stop := List.head?_dropWhile_not (· ≠ question) target.below
      rw [rest] at stop first
      obtain rfl : c = b := by simpa using first
      simpa using stop

theorem originForm_uri (ending : Bytes) (req : Request) :
    getHttpUri req (ascii "POST " ++ target.originForm ++ ascii " HTTP/1.1" ++ ending) =
      (true,{req with method := req.method ++ ascii "POST",uri := cutPath target.reached}) := by
  have noSpace : space ∉ target.below ++ target.queryText := by
    rw [List.mem_append,not_or]
    exact ⟨target.below_noSpace,target.queryText_noSpace⟩
  have absent (pattern : Bytes) (clear : ¬ pattern <:+: slash :: target.below) : ¬ pattern <:+: target.reached :=
    fun inside => clear ((inside.trans (List.takeWhile_prefix _).isInfix).trans (List.suffix_cons _ _).isInfix)
  have line := @getHttpUri_line [slash] (target.below ++ target.queryText) ending (.inl rfl)
    (by simp [target.belowSome]) noSpace req
  have uri := target.trimUri_below [] List.not_mem_nil
  rw [List.nil_append,List.nil_append,eraseAll_absent (absent _ target.noScheme.2.1.lower),
    eraseAll_absent (absent _ target.noScheme.2.1.upper)] at uri
  rw [uri] at line
  exact line

theorem absoluteForm_uri (ending : Bytes) (req : Request) :
    getHttpUri req (ascii "POST " ++ target.absoluteForm ++ ascii " HTTP/1.1" ++ ending) =
      (true,{req with
        method := req.method ++ ascii "POST"
        uri := cutPath (eraseAll (ascii "HTTP://") 0 (eraseAll (ascii "http://") 0
          (target.host ++ slash :: target.reached)))}) := by
  have noSpace : space ∉ target.absoluteForm := by
    simp only [absoluteForm,originForm,List.mem_append,List.mem_cons,not_or]
    exact ⟨⟨by decide,target.host_noSpace⟩,⟨by decide,target.below_noSpace⟩,target.queryText_noSpace⟩
  have line := @getHttpUri_line [] target.absoluteForm ending (.inr ⟨rfl,by simp [absoluteForm,ascii,slash]⟩)
    (by simp [absoluteForm,ascii]) noSpace req
  have noQuestion : question ∉ ascii "http://" ++ (target.host ++ [slash]) := by
    simp only [List.mem_append,List.mem_singleton,not_or]
    exact ⟨by decide,target.hostNoQuestion,by decide⟩
  have uri := target.trimUri_below _ noQuestion
  rw [List.append_assoc,List.append_assoc,List.append_assoc,List.append_assoc,eraseAll_start (by decide)] at uri
  have shape : target.absoluteForm =
      ascii "http://" ++ (target.host ++ ([slash] ++ (target.below ++ target.queryText))) := by
    simp [absoluteForm,originForm]
  rw [← shape] at uri
  rw [uri] at line
  exact line

theorem erased_count {path : Bytes} (changed : ∃ pattern ∈ [ascii "http://",ascii "HTTP://"],
    pattern <:+: target.host ++ slash :: path) :
    (eraseAll (ascii "HTTP://") 0 (eraseAll (ascii "http://") 0 (target.host ++ slash :: path))).count slash <
      path.count slash := by
  have whole : (target.host ++ slash :: path).count slash = path.count slash + 1 := by
    rw [List.count_append,List.count_eq_zero_of_not_mem target.hostNoSlash,List.count_cons_self]
    omega
  have lower : (ascii "http://").count slash = 2 := by decide
  have upper : (ascii "HTTP://").count slash = 2 := by decide
  have fewer := (eraseAll_sublist (ascii "HTTP://") 0
    (eraseAll (ascii "http://") 0 (target.host ++ slash :: path))).count_le slash
  by_cases first : ascii "http://" <:+: target.host ++ slash :: path
  · have := eraseAll_count (by decide) first slash
    omega
  · rw [eraseAll_absent first] at fewer ⊢
    have second : ascii "HTTP://" <:+: target.host ++ slash :: path := by
      obtain ⟨pattern,member,inside⟩ := changed
      rcases List.mem_pair.mp member with rfl | rfl
      · exact absurd inside first
      · exact inside
    have := eraseAll_count (by decide) second slash
    omega

theorem erased_same {path : Bytes} (same : ∀ pattern ∈ [ascii "http://",ascii "HTTP://"],
    ¬ pattern <:+: target.host ++ slash :: path) :
    eraseAll (ascii "HTTP://") 0 (eraseAll (ascii "http://") 0 (target.host ++ slash :: path)) =
      target.host ++ slash :: path := by
  rw [eraseAll_absent (same _ (by simp)),eraseAll_absent (same _ (by simp))]

/-- With the host in front the path is lost: both forms name the same only if the host is
the first segment of the path. -/
theorem forms_alike (ending : Bytes) (req : Request) :
    (getHttpUri req (ascii "POST " ++ target.absoluteForm ++ ascii " HTTP/1.1" ++ ending)).2.uri =
        (getHttpUri req (ascii "POST " ++ target.originForm ++ ascii " HTTP/1.1" ++ ending)).2.uri ↔
      target.host = target.below.takeWhile (fun b => b ≠ slash && b ≠ question) := by
  have segment : target.below.takeWhile (fun b => b ≠ slash && b ≠ question) =
      target.reached.takeWhile (· ≠ slash) := by
    rw [reached,List.takeWhile_takeWhile]
    simp
  have kept : slash :: target.reached <:+: slash :: target.below :=
    ((List.cons_prefix_cons).mpr ⟨rfl,List.takeWhile_prefix _⟩).isInfix
  rw [target.absoluteForm_uri,target.originForm_uri,segment]
  dsimp only
  by_cases doubled : target.reached.head? = some slash
  · have empty : target.reached.takeWhile (· ≠ slash) = [] := by
      obtain ⟨rest,shape⟩ := List.head?_eq_some_iff.mp doubled
      simp [shape]
    rw [empty,cutPath.eq_def target.reached,if_pos doubled]
    refine iff_of_false (fun alike => ?_) target.hostSome
    by_cases changed : ∃ pattern ∈ [ascii "http://",ascii "HTTP://"],
        pattern <:+: target.host ++ slash :: target.reached
    · have fewer := target.erased_count changed
      have cut := (cutPath_sublist (eraseAll (ascii "HTTP://") 0
        (eraseAll (ascii "http://") 0 (target.host ++ slash :: target.reached)))).count_le slash
      rw [alike] at cut
      omega
    · rw [target.erased_same (by simpa using changed),cutPath_host target.hostSome target.hostNoSlash] at alike
      obtain ⟨rest,shape⟩ := List.head?_eq_some_iff.mp doubled
      exact target.hostNoSlash (by simp [alike,shape])
  · have apart : ∀ pattern ∈ [ascii "http://",ascii "HTTP://"],
        ¬ pattern <:+: target.host ++ slash :: target.reached := by
      intro pattern member inside
      rcases List.mem_pair.mp member with rfl | rfl
      · exact doubled (@infix_host (ascii "http:") _ _ target.hostNoSlash (by decide)
          (fun there => target.noScheme.2.1.lower (there.trans kept)) inside)
      · exact doubled (@infix_host (ascii "HTTP:") _ _ target.hostNoSlash (by decide)
          (fun there => target.noScheme.2.1.upper (there.trans kept)) inside)
    rw [target.erased_same apart,cutPath_host target.hostSome target.hostNoSlash,
      cutPath,if_neg doubled]

/-- `http://a/b` and `/b`. -/
def sample : Target where
  host := ascii "a"
  below := ascii "b"
  query := none
  hostSome := by decide
  hostNoSlash := by decide
  hostNoQuestion := by decide
  belowSome := by decide
  visible := by
    refine ⟨?_,?_,by simp⟩ <;> unfold Visible <;> decide +kernel
  noScheme := by
    refine ⟨⟨?_,?_⟩,⟨?_,?_⟩,by simp⟩ <;> decide

theorem sample_unlike :
    (getHttpUri .reset (ascii "POST " ++ sample.absoluteForm ++ ascii " HTTP/1.1" ++ crlf)).2.uri ≠
      (getHttpUri .reset (ascii "POST " ++ sample.originForm ++ ascii " HTTP/1.1" ++ crlf)).2.uri := by
  decide +kernel

end Target

end FuturesCellProxy.Server

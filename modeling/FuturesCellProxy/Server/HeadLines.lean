import FuturesCellProxy.Server.RequestParser
import Mathlib.Tactic.Common

/-! The head as a sequence of lines. The loop over `getline_from_buf2` hands over the
lines that stand before the first empty line, whatever follows the head in memory. -/
namespace FuturesCellProxy.Server
open Foundation

/-- A line of a head: it ends with its first CRLF and holds something before it. -/
def IsLine (line : Bytes) : Prop :=
  nul ∉ line ∧ findFirst crlf line = some (line.length - 2) ∧ 2 < line.length

/-- The lines of a text, each up to its CRLF. -/
def splitLines (text : Bytes) : List Bytes :=
  match found : findFirst crlf text with
  | none => []
  | some i => text.take i :: splitLines (text.drop (i + 2))
termination_by text.length
decreasing_by
  have fits := findFirst_bound found
  simp only [crlf,List.length_cons,List.length_nil] at fits
  rw [List.length_drop]
  omega

def takeLines : List Bytes → Request → Bool × Request
  | [], req => (true,req)
  | line :: rest, req =>
    match takeLine req line with
    | (false,req) => (false,req)
    | (true,req) => takeLines rest req

/-- The lines the loop reaches while the offset behind them stays below the limit. -/
def reached (limit : Int) : (offset : Nat) → List Bytes → List Bytes
  | _, [] => []
  | offset, line :: rest =>
    if ((offset + line.length : Nat) : Int) < limit then line :: reached limit (offset + line.length) rest
    else []

theorem reached_all (limit : Int) (lines : List Bytes) (offset : Nat)
    (below : ((offset + lines.flatten.length : Nat) : Int) < limit) :
    reached limit offset lines = lines := by
  induction lines generalizing offset with
  | nil => rfl
  | cons line rest ih =>
    simp only [List.flatten_cons,List.length_append] at below
    rw [reached,if_pos (by omega),ih _ (by omega)]

theorem reached_neg (limit : Int) (lines : List Bytes) (offset : Nat) (negative : limit < 0) :
    reached limit offset lines = [] := by
  cases lines with
  | nil => rfl
  | cons line rest => rw [reached,if_neg (by omega)]

theorem splitLines_nil : splitLines [] = [] := by
  rw [splitLines]
  rfl

theorem splitLines_line {line : Bytes} (rest : Bytes) (found : findFirst crlf (line ++ crlf) = some line.length) :
    splitLines (line ++ crlf ++ rest) = line :: splitLines rest := by
  rw [splitLines]
  split
  next missing => rw [findFirst_append rest found] at missing; cases missing
  next i here =>
    rw [findFirst_append rest found] at here
    cases here
    rw [List.append_assoc,List.take_left,← List.drop_drop,List.drop_left]
    rfl

theorem splitLines_terminated (lines : List Bytes) (rest : Bytes)
    (all : ∀ line ∈ lines.map (· ++ crlf), IsLine line) :
    splitLines ((lines.map (· ++ crlf)).flatten ++ rest) = lines ++ splitLines rest := by
  induction lines with
  | nil => rfl
  | cons line lines ih =>
    have ends := (all (line ++ crlf) (by simp)).2.1
    rw [List.length_append,show crlf.length = 2 from rfl,Nat.add_sub_cancel] at ends
    rw [List.map_cons,List.flatten_cons,List.append_assoc,splitLines_line _ ends,
      ih fun l member => all l (by simp [member])]
    rfl

theorem strstr_append {text pattern : Bytes} {i : Nat} (tail : Bytes) (noNul : nul ∉ text)
    (found : findFirst pattern text = some i) : strstr (text ++ tail) pattern = some i := by
  rw [strstr,upTo_append_of_not_mem tail noNul]
  exact findFirst_append _ found

theorem getline_line (src line tail : Bytes) (offset : Nat) (isLine : IsLine line)
    (here : src.drop offset = line ++ tail) :
    getlineFromBuf2 src offset = some (line,offset + line.length) := by
  obtain ⟨noNul,ends,long⟩ := isLine
  have size : line.length - 2 + 2 = line.length := by omega
  simp [getlineFromBuf2,here,strstr_append tail noNul ends,size]

theorem getline_crlf (src tail : Bytes) (offset : Nat) (here : src.drop offset = crlf ++ tail) :
    getlineFromBuf2 src offset = some (crlf,offset + 2) := by
  have found : strstr (crlf ++ tail) crlf = some 0 := strstr_append tail (by decide) (by decide)
  rw [getlineFromBuf2,here,found]
  rfl

theorem IsLine.ne_crlf {line : Bytes} (isLine : IsLine line) : line ≠ crlf := by
  rintro rfl
  simpa [crlf] using isLine.2.2

theorem length_le_flatten (lines : List Bytes) (all : ∀ line ∈ lines, IsLine line) :
    lines.length ≤ lines.flatten.length := by
  induction lines with
  | nil => simp
  | cons line rest ih =>
    have long := (all line (by simp)).2.2
    have := ih fun l member => all l (by simp [member])
    simp only [List.length_cons,List.flatten_cons,List.length_append]
    omega

theorem readLines_eq (src tail : Bytes) (len : Nat) (lines : List Bytes)
    (all : ∀ line ∈ lines, IsLine line) (fuel offset : Nat) (req : Request)
    (here : src.drop offset = lines.flatten ++ crlf ++ tail) (enough : lines.length < fuel) :
    readLines src len fuel offset req = takeLines (reached (toInt32 len) offset lines) req := by
  induction lines generalizing fuel offset req with
  | nil =>
    obtain ⟨fuel,rfl⟩ := Nat.exists_eq_succ_of_ne_zero (Nat.ne_of_gt enough)
    rw [readLines,getline_crlf src tail offset (by simpa using here)]
    dsimp only
    split <;> rfl
  | cons line rest ih =>
    obtain ⟨fuel,rfl⟩ := Nat.exists_eq_succ_of_ne_zero (Nat.ne_of_gt (Nat.zero_lt_of_lt enough))
    have isLine := all line (by simp)
    have behind : src.drop (offset + line.length) = rest.flatten ++ crlf ++ tail := by
      rw [← List.drop_drop,here]
      simp
    rw [readLines,getline_line src line (rest.flatten ++ crlf ++ tail) offset isLine (by simp [here])]
    by_cases below : ((offset + line.length : Nat) : Int) < toInt32 len
    · simp only [reached,below,not_true,if_true,if_false,isLine.ne_crlf,takeLines]
      cases taken : takeLine req line with
      | mk accepted next =>
        cases accepted with
        | false => rfl
        | true =>
          exact ih (fun l member => all l (by simp [member])) fuel _ next behind
            (by simpa using enough)
    · simp only [reached,below,not_false_eq_true,if_true,if_false,takeLines]

private theorem crlf_prefix_httpEnd : crlf <+: httpEnd := by decide

/-- CRLF and CRLFCRLF cannot overlap in one byte: the first ends with a line feed. -/
private theorem crlf_not_before {text : Bytes} {i : Nat} (first : crlf <+: text.drop i)
    (second : httpEnd <+: text.drop (i+1)) : False := by
  obtain ⟨a,here⟩ := first
  obtain ⟨b,there⟩ := second
  rw [← List.drop_drop,← here] at there
  simp [crlf,httpEnd,cr,lf] at there

/-- A text with a CRLFCRLF has a CRLF no later. -/
private theorem exists_crlf {text : Bytes} {i : Nat} (found : findFirst httpEnd text = some i) :
    ∃ j, findFirst crlf text = some j ∧ j ≤ i := by
  obtain ⟨_,here,_⟩ := (findFirst_eq_some _ _ _).mp found
  have crlfHere : crlf <+: text.drop i := crlf_prefix_httpEnd.trans here
  have fits := findFirst_bound found
  cases first : findFirst crlf text with
  | none => exact absurd crlfHere ((findFirst_eq_none _ _).mp first i (by omega))
  | some j =>
    obtain ⟨_,_,least⟩ := (findFirst_eq_some _ _ _).mp first
    refine ⟨j,rfl,?_⟩
    by_contra late
    exact least i (by omega) crlfHere

private theorem isLine_take {text : Bytes} {j : Nat} (noNul : nul ∉ text) (first : findFirst crlf text = some (j+1))
    (width : (text.take (j+3)).length = j + 3) : IsLine (text.take (j+3)) := by
  refine ⟨fun member => noNul (List.mem_of_mem_take member),?_,by omega⟩
  rw [width]
  rw [← List.take_append_drop (j+3) text] at first
  exact findFirst_of_append first (by simp [width,crlf])

theorem exists_lines (text : Bytes) (i : Nat) (noNul : nul ∉ text)
    (found : findFirst httpEnd text = some i) :
    ∃ (lines : List Bytes) (tail : Bytes), (∀ line ∈ lines, IsLine line) ∧
      text = lines.flatten ++ crlf ++ tail ∧
      lines.flatten.length ≤ i + 2 := by
  induction size : text.length using Nat.strong_induction_on generalizing text i with
  | _ n ih =>
    obtain ⟨_,here,_⟩ := (findFirst_eq_some _ _ _).mp found
    have fits := findFirst_bound found
    simp only [show httpEnd.length = 4 from rfl] at fits
    obtain ⟨j,first,early⟩ := exists_crlf found
    obtain ⟨_,crlfFirst,_⟩ := (findFirst_eq_some _ _ _).mp first
    cases j with
    | zero =>
      obtain ⟨tail,split⟩ := crlfFirst
      exact ⟨[],tail,by simp,by simpa using split.symm,by simp⟩
    | succ j =>
      let line := text.take (j+3)
      let rest := text.drop (j+3)
      have split : text = line ++ rest := (List.take_append_drop _ _).symm
      have width : line.length = j + 3 := by simp [line]; omega
      have isLine : IsLine line := isLine_take noNul first width
      by_cases last : j + 1 = i
      · -- the line ends where CRLFCRLF begins, so the next one is empty
        obtain ⟨tail,ends⟩ := here
        have after : rest = crlf ++ tail := by
          have moved : rest = (text.drop i).drop 2 := by rw [List.drop_drop,← last]
          rw [moved,← ends]
          rfl
        refine ⟨[line],tail,by simpa using isLine,?_,by simp [width]; omega⟩
        rw [split,after]
        simp
      · have apart : j + 2 ≠ i := by
          rintro rfl
          exact crlf_not_before crlfFirst here
        have later : findFirst httpEnd rest = some (i - (j+3)) := findFirst_drop found (by omega)
        obtain ⟨lines,tail,all,restSplit,short⟩ := ih rest.length (by simp [rest]; omega) rest _
          (fun member => noNul (List.mem_of_mem_drop member)) later rfl
        refine ⟨line :: lines,tail,?_,?_,?_⟩
        · intro l member
          rcases List.mem_cons.mp member with rfl | inside
          · exact isLine
          · exact all l inside
        · rw [List.flatten_cons,List.append_assoc,List.append_assoc,← List.append_assoc lines.flatten,
            ← restSplit]
          exact split
        · rw [List.flatten_cons,List.length_append,width]
          omega

theorem readLines_head (head : Bytes) (i : Nat) (noNul : nul ∉ head)
    (found : findFirst httpEnd head = some i) :
    ∃ lines : List Bytes, (∀ line ∈ lines, IsLine line) ∧ ∀ (tail : Bytes) (len : Nat) (req : Request),
      readLines (head ++ tail) len (head ++ tail).length 0 req =
        takeLines (reached (toInt32 len) 0 lines) req := by
  obtain ⟨lines,left,all,split,_⟩ := exists_lines head i noNul found
  refine ⟨lines,all,fun tail len req => ?_⟩
  have room := length_le_flatten lines all
  refine readLines_eq (head ++ tail) (left ++ tail) len lines all _ 0 req ?_ ?_
  · rw [List.drop_zero,split]
    simp
  · rw [split]
    simp only [List.length_append,crlf,List.length_cons,List.length_nil]
    omega

theorem readHead_append (head first second : Bytes) (i len : Nat) (req : Request) (noNul : nul ∉ head)
    (found : findFirst httpEnd head = some i) :
    readHead (head ++ first) len req = readHead (head ++ second) len req := by
  obtain ⟨lines,_,same⟩ := readLines_head head i noNul found
  rw [readHead,readHead,same,same]

end FuturesCellProxy.Server

import FuturesCellProxy.Foundation.Access
import FuturesCellProxy.Server.PostRequest

/-! The loop over the lines of a head, with a record of what it hands over and of where the two
functions that take a line read and copy. -/
namespace FuturesCellProxy.Server
open Foundation

def getHttpUriRecorded (req : Request) (line : Bytes) : Recorded (Bool × Request) := do
  let it ← scan line nul (· ≠ space) 0
  let method ← copy line 0 it
  let req := {req with method := req.method ++ method}
  let it ← scan line nul (· = space) it
  let b ← readAt line nul it
  let it := if b = slash then it + 1 else it
  let it2 ← scan line nul (· ≠ space) (it+1)
  if it2 = line.length then return (false,req)
  let tempUri ← copy line it ((it2 : Int) - it)
  let _ ← scan line nul (· = space) (it2+1)
  return (true,{req with uri := trimUri tempUri})

def getMimeHeaderRecorded (req : Request) (buffer : Bytes) : Recorded (Bool × Request) := do
  let iterator ← scan buffer nul (fun b => b ≠ nul && b ≠ colon) 0
  let b ← readAt buffer nul iterator
  if b ≠ colon then return (false,req)
  let name ← copy buffer 0 iterator
  let iterator2 ← scan buffer nul (fun b => b ≠ nul && b ≠ lf) (iterator+1)
  let b ← readAt buffer nul iterator2
  if b ≠ lf then return (false,req)
  let value ← copy buffer ((iterator : Int) + 1) ((iterator2 : Int) - iterator)
  let req := {req with headers := req.headers ++ [⟨trim name,trim value⟩]}
  return (true,if trim name = ascii "User-cmd" then {req with reqCmd := trim value} else req)

/-- The functions that take a line. -/
inductive Taker where
  | getHttpUri | getMimeHeader
  deriving DecidableEq, Repr

def Taker.take (taker : Taker) (req : Request) (line : Bytes) : Recorded (Bool × Request) :=
  match taker with
  | getHttpUri => getHttpUriRecorded req line
  | getMimeHeader => getMimeHeaderRecorded req line

structure Handed where
  taker : Taker
  line : Bytes
  record : List Access
  deriving DecidableEq, Repr

/-- What the loop has handed over when it ends, and whether no line was rejected. -/
structure HeadResult where
  handed : List Handed
  accepted : Bool
  request : Request
  deriving DecidableEq, Repr

/-- The function that a line is handed to; none for a header line in front of the start line. -/
def takerOf (req : Request) (linebuf : Bytes) : Option Taker :=
  if ncmp linebuf (ascii "POST ") 5 then some .getHttpUri
  else if req.uri.isEmpty then none
  else some .getMimeHeader

/-- `while ((m_ret = getline_from_buf2(m_phead, linebuf, m_offset)) > 0 && m_offset < static_cast<int>(len))`;
`none` is a loop that has not come to its end. -/
def headLoop (src : Bytes) (len : Nat) : (fuel offset : Nat) → Request → Option HeadResult
  | 0, _, _ => none
  | fuel+1, offset, req =>
    match getlineFromBuf2 src offset with
    | none => some ⟨[],true,req⟩
    | some (linebuf,offset) =>
      if ¬ (offset : Int) < toInt32 len then some ⟨[],true,req⟩
      else if linebuf = crlf then some ⟨[],true,req⟩
      else
        match takerOf req linebuf with
        | none => some ⟨[],false,req⟩
        | some taker =>
          let taken := taker.take req linebuf
          let handed := ⟨taker,linebuf,taken.record⟩
          if taken.value.1 then
            (headLoop src len fuel offset taken.value.2).map fun rest => {rest with handed := handed :: rest.handed}
          else some ⟨[handed],false,taken.value.2⟩

theorem scan_scanWhile (test : UInt8 → Bool) (line : Bytes) (it : Nat) :
    (scan line nul test it).value = scanWhile test line it := scan_value test it

theorem le_scanWhile (test : UInt8 → Bool) (line : Bytes) (it : Nat) : it ≤ scanWhile test line it :=
  Nat.le_add_right _ _

theorem readAt_value (line : Bytes) (index : Nat) : (readAt line nul index).value = byteAt line index := (rfl)

theorem copy_start (line : Bytes) (length : Nat) : (copy line 0 length).value = line.take length := (rfl)

theorem copy_value (line : Bytes) {start : Int} {first : Nat} (begins : start = first) (it it2 : Nat) :
    (copy line start ((it2 : Int) - it)).value = (line.drop first).take (it2 - it) := by
  rw [begins,copy,Int.toNat_sub,Int.toNat_natCast]

theorem getHttpUriRecorded_value (req : Request) (line : Bytes) :
    (getHttpUriRecorded req line).value = getHttpUri req line := by
  simp only [getHttpUriRecorded,getHttpUri,Recorded.value_bind,Recorded.value_ite,Recorded.value_pure,
    scan_scanWhile,readAt_value,copy_start,copy_value line rfl]

theorem getMimeHeaderRecorded_value (req : Request) (line : Bytes) :
    (getMimeHeaderRecorded req line).value = getMimeHeader req line := by
  simp only [getMimeHeaderRecorded,getMimeHeader,Recorded.value_bind,Recorded.value_ite,Recorded.value_pure,
    scan_scanWhile,readAt_value,copy_start,copy_value line (Int.natCast_succ _).symm]

theorem takeLine_eq (req : Request) (linebuf : Bytes) :
    takeLine req linebuf =
      (takerOf req linebuf).elim (false,req) fun taker => (taker.take req linebuf).value := by
  rw [takeLine,takerOf]
  by_cases starts : ncmp linebuf (ascii "POST ") 5 = true
  · rw [if_pos starts,if_pos starts]
    exact (getHttpUriRecorded_value req linebuf).symm
  · rw [if_neg starts,if_neg starts]
    by_cases missing : req.uri.isEmpty = true
    · rw [if_pos missing,if_pos missing]
      rfl
    · rw [if_neg missing,if_neg missing]
      exact (getMimeHeaderRecorded_value req linebuf).symm

theorem byteAt_eq_getElem {linebuf : Bytes} {index : Nat} (inside : index < linebuf.length) :
    byteAt linebuf index = linebuf[index] := by
  rw [byteAt,List.getD_eq_getElem?_getD,List.getElem?_eq_getElem inside,Option.getD_some]

theorem scanWhile_le {test : UInt8 → Bool} {linebuf : Bytes} {it stop : Nat} (starts : it ≤ stop)
    (inside : stop < linebuf.length) (fails : test (byteAt linebuf stop) = false) :
    scanWhile test linebuf it ≤ stop := by
  rw [scanWhile]
  by_contra late
  have within : stop - it < ((linebuf.drop it).takeWhile test).length := by omega
  have same : ((linebuf.drop it).takeWhile test)[stop - it] = byteAt linebuf stop := by
    rw [(List.takeWhile_prefix test).getElem within,List.getElem_drop,byteAt_eq_getElem inside]
    congr 1
    omega
  have passes := List.mem_takeWhile_imp (List.getElem_mem within)
  rw [same,fails] at passes
  cases passes

theorem scanWhile_le_length {test : UInt8 → Bool} {line : Bytes} {it : Nat} (starts : it ≤ line.length) :
    scanWhile test line it ≤ line.length := by
  have short := (List.takeWhile_sublist test (l := line.drop it)).length_le
  rw [List.length_drop] at short
  rw [scanWhile]
  omega

theorem lt_of_byteAt {line : Bytes} {index : Nat} {b : UInt8} (here : byteAt line index = b) (other : b ≠ nul) :
    index < line.length := by
  by_contra behind
  rw [byteAt,List.getD_eq_getElem?_getD,List.getElem?_eq_none (Nat.le_of_not_lt behind)] at here
  exact other here.symm

theorem getMimeHeader_inside (req : Request) (line : Bytes) :
    (getMimeHeaderRecorded req line).Inside line.length := by
  rw [getMimeHeaderRecorded]
  apply (scan_inside _ _).bind
  rw [scan_scanWhile]
  have first : scanWhile (fun b => b ≠ nul && b ≠ colon) line 0 ≤ line.length := scanWhile_le_length (Nat.zero_le _)
  generalize scanWhile (fun b => b ≠ nul && b ≠ colon) line 0 = iterator at first
  apply (readAt_inside first).bind
  rw [readAt_value]
  split
  next => exact Recorded.inside_pure _ _
  next found =>
    have within := lt_of_byteAt (not_not.mp found) (by decide)
    apply (copy_inside (by omega) (by omega) (by omega)).bind
    apply (scan_inside _ _).bind
    rw [scan_scanWhile]
    have second : scanWhile (fun b => b ≠ nul && b ≠ lf) line (iterator+1) ≤ line.length := scanWhile_le_length within
    have forward := le_scanWhile (fun b => b ≠ nul && b ≠ lf) line (iterator+1)
    generalize scanWhile (fun b => b ≠ nul && b ≠ lf) line (iterator+1) = iterator2 at second forward
    apply (readAt_inside second).bind
    rw [readAt_value]
    split
    next => exact Recorded.inside_pure _ _
    next ended =>
      have last := lt_of_byteAt (not_not.mp ended) (by decide)
      apply (copy_inside (by omega) (by omega) (by omega)).bind
      exact Recorded.inside_pure _ _

/-- The word in front of the first blank is whole, and CR stands in front of the end. -/
structure StartLine (linebuf : Bytes) (stop : Nat) : Prop where
  size : linebuf.length = stop + 2
  behind : 4 < stop
  blank : byteAt linebuf 4 = space
  ending : byteAt linebuf stop = cr

theorem IsLine.startLine {linebuf : Bytes} (isLine : IsLine linebuf)
    (starts : ncmp linebuf (ascii "POST ") 5 = true) : ∃ stop, StartLine linebuf stop := by
  have long := isLine.2.2
  have size : linebuf.length = (linebuf.take (linebuf.length - 2)).length + 2 := by
    rw [List.length_take]
    omega
  have split := isLine.split
  generalize linebuf.take (linebuf.length - 2) = text at size split
  have word : ascii "POST " <+: linebuf := ncmp_loop_start 5 rfl starts
  have letter (index : Nat) (inside : index < (ascii "POST ").length) :
      byteAt linebuf index = (ascii "POST ")[index] := by
    rw [byteAt_eq_getElem (by have fits := word.length_le; omega),word.getElem inside]
  have ending : byteAt linebuf text.length = cr := by
    rw [byteAt_eq_getElem (by omega)]
    simp [split,crlf]
  refine ⟨text.length,size,?_,letter 4 (by decide),ending⟩
  -- CR is none of the letters, nor the blank
  have fits : 5 ≤ linebuf.length := word.length_le
  by_contra early
  obtain three | four : text.length = 3 ∨ text.length = 4 := by omega
  · rw [three,letter 3 (by decide)] at ending
    exact absurd ending (by decide)
  · rw [four,letter 4 (by decide)] at ending
    exact absurd ending (by decide)

theorem getHttpUri_inside (req : Request) {linebuf : Bytes} {stop : Nat} (shape : StartLine linebuf stop) :
    (getHttpUriRecorded req linebuf).Inside linebuf.length := by
  obtain ⟨size,behind,blank,ending⟩ := shape
  rw [getHttpUriRecorded]
  apply (scan_inside _ _).bind
  rw [scan_scanWhile]
  have method : scanWhile (· ≠ space) linebuf 0 ≤ 4 := scanWhile_le (Nat.zero_le _) (by omega) (by simp [blank])
  generalize scanWhile (· ≠ space) linebuf 0 = it at method
  apply (copy_inside (by omega) (by omega) (by omega)).bind
  apply (scan_inside _ _).bind
  rw [scan_scanWhile]
  have blanks : scanWhile (· = space) linebuf it ≤ stop :=
    scanWhile_le (by omega) (by omega) (by rw [ending]; decide)
  generalize scanWhile (· = space) linebuf it = it at blanks
  apply (readAt_inside (by omega)).bind
  rw [readAt_value]
  have start : (if byteAt linebuf it = slash then it + 1 else it) ≤ stop := by
    split
    next slashed =>
      have inside : it ≠ stop := by
        rintro rfl
        exact absurd (ending.symm.trans slashed) (by decide)
      omega
    next => exact blanks
  generalize (if byteAt linebuf it = slash then it + 1 else it) = it at start
  apply (scan_inside _ _).bind
  rw [scan_scanWhile]
  have uri : scanWhile (· ≠ space) linebuf (it+1) ≤ linebuf.length := scanWhile_le_length (by omega)
  have forward := le_scanWhile (· ≠ space) linebuf (it+1)
  generalize scanWhile (· ≠ space) linebuf (it+1) = it2 at uri forward
  split
  next => exact Recorded.inside_pure _ _
  next =>
    apply (copy_inside (by omega) (by omega) (by omega)).bind
    apply (scan_inside _ _).bind
    exact Recorded.inside_pure _ _

theorem take_inside {req : Request} {line : Bytes} (isLine : IsLine line) {taker : Taker}
    (taken : takerOf req line = some taker) (req' : Request) : (taker.take req' line).Inside line.length := by
  cases taker with
  | getMimeHeader => exact getMimeHeader_inside req' line
  | getHttpUri =>
    have starts : ncmp line (ascii "POST ") 5 = true := by
      by_contra other
      rw [takerOf,if_neg other] at taken
      split at taken <;> cases taken
    obtain ⟨stop,shape⟩ := isLine.startLine starts
    exact getHttpUri_inside req' shape

/-- What becomes of lines that are all reached. -/
def handLines : List Bytes → Request → HeadResult
  | [], req => ⟨[],true,req⟩
  | line :: rest, req =>
    match takerOf req line with
    | none => ⟨[],false,req⟩
    | some taker =>
      let taken := taker.take req line
      let handed := ⟨taker,line,taken.record⟩
      if taken.value.1 then
        let result := handLines rest taken.value.2
        {result with handed := handed :: result.handed}
      else ⟨[handed],false,taken.value.2⟩

theorem headLoop_eq (src tail : Bytes) (len : Nat) (lines : List Bytes) (all : ∀ line ∈ lines, IsLine line)
    (fuel offset : Nat) (req : Request) (here : src.drop offset = lines.flatten ++ crlf ++ tail)
    (enough : lines.length < fuel) (below : ((offset + lines.flatten.length : Nat) : Int) < toInt32 len) :
    headLoop src len fuel offset req = some (handLines lines req) := by
  induction lines generalizing fuel offset req with
  | nil =>
    obtain ⟨fuel,rfl⟩ := Nat.exists_eq_succ_of_ne_zero (Nat.ne_of_gt enough)
    rw [headLoop,getline_crlf src tail offset (by simpa using here)]
    dsimp only
    split <;> rfl
  | cons line rest ih =>
    obtain ⟨fuel,rfl⟩ := Nat.exists_eq_succ_of_ne_zero (Nat.ne_of_gt (Nat.zero_lt_of_lt enough))
    have isLine := all line (by simp)
    rw [List.flatten_cons,List.length_append] at below
    have behind : src.drop (offset + line.length) = rest.flatten ++ crlf ++ tail := by
      rw [← List.drop_drop,here]
      simp
    have loop (next : Request) := ih (fun l member => all l (by simp [member])) fuel _ next behind
      (by simpa using enough) (by omega)
    have reached : ((offset + line.length : Nat) : Int) < toInt32 len := by omega
    rw [headLoop,getline_line src line (rest.flatten ++ crlf ++ tail) offset isLine (by simp [here])]
    simp only [reached,not_true,if_false,isLine.ne_crlf,handLines,loop,Option.map_some]
    cases takerOf req line with
    | none => rfl
    | some taker =>
      dsimp only
      split <;> rfl

section
variable (lines : List Bytes) (req : Request)

theorem handLines_takeLines :
    takeLines lines req = ((handLines lines req).accepted,(handLines lines req).request) := by
  induction lines generalizing req with
  | nil => rfl
  | cons line rest ih =>
    rw [takeLines,takeLine_eq,handLines]
    cases takerOf req line with
    | none => rfl
    | some taker =>
      dsimp only [Option.elim_some]
      rcases (taker.take req line).value with ⟨accepted,next⟩
      cases accepted with
      | false => rfl
      | true => exact ih next

theorem handLines_prefix : (handLines lines req).handed.map Handed.line <+: lines := by
  induction lines generalizing req with
  | nil => exact List.nil_prefix
  | cons line rest ih =>
    rw [handLines]
    cases takerOf req line with
    | none => exact List.nil_prefix
    | some taker =>
      dsimp only
      split
      next => exact List.cons_prefix_cons.mpr ⟨rfl,ih _⟩
      next => exact List.cons_prefix_cons.mpr ⟨rfl,List.nil_prefix⟩

theorem handLines_accepted (accepted : (handLines lines req).accepted = true) :
    (handLines lines req).handed.map Handed.line = lines := by
  induction lines generalizing req with
  | nil => rfl
  | cons line rest ih =>
    rw [handLines] at accepted ⊢
    cases taken : takerOf req line with
    | none =>
      rw [taken] at accepted
      cases accepted
    | some taker =>
      rw [taken] at accepted
      dsimp only at accepted ⊢
      split
      next passes =>
        rw [if_pos passes] at accepted
        exact congrArg (line :: ·) (ih _ accepted)
      next fails =>
        rw [if_neg fails] at accepted
        cases accepted

theorem handLines_inside (all : ∀ line ∈ lines, IsLine line) :
    ∀ handed ∈ (handLines lines req).handed, ∀ access ∈ handed.record, access.Inside handed.line.length := by
  induction lines generalizing req with
  | nil => exact fun _ member => nomatch member
  | cons line rest ih =>
    rw [handLines]
    cases taken : takerOf req line with
    | none => exact fun _ member => nomatch member
    | some taker =>
      have inside := take_inside (all line (by simp)) taken req
      dsimp only
      split
      next =>
        intro handed member
        rcases List.mem_cons.mp member with rfl | later
        · exact inside
        · exact ih _ (fun l member => all l (by simp [member])) handed later
      next =>
        intro handed member
        obtain rfl := List.mem_singleton.mp member
        exact inside

end

/-- The lines of a text that stand before its first empty line, with their CRLFs. -/
def linesBeforeEmpty (text : Bytes) : List Bytes :=
  ((splitLines text).takeWhile (· ≠ [])).map (· ++ crlf)

theorem linesBeforeEmpty_eq (lines : List Bytes) (all : ∀ line ∈ lines, IsLine line) (tail : Bytes) :
    linesBeforeEmpty (lines.flatten ++ crlf ++ tail) = lines := by
  have terminated : (lines.map fun line => line.take (line.length - 2)).map (· ++ crlf) = lines := by
    have each : ∀ line ∈ lines, ((· ++ crlf) ∘ fun line : Bytes => line.take (line.length - 2)) line = id line :=
      fun line member => (all line member).split.symm
    rw [List.map_map,List.map_congr_left each,List.map_id]
  have nonempty : ∀ line ∈ lines.map fun line => line.take (line.length - 2), (decide (line ≠ [])) = true := by
    intro text member
    obtain ⟨line,inside,rfl⟩ := List.mem_map.mp member
    have long := (all line inside).2.2
    rw [decide_eq_true_iff,ne_eq,List.take_eq_nil_iff]
    rintro (short | empty)
    · omega
    · rw [empty] at long
      cases long
  have split := splitLines_terminated (lines.map fun line => line.take (line.length - 2)) (crlf ++ tail)
    (by rwa [terminated])
  have empty : splitLines (crlf ++ tail) = [] :: splitLines tail := @splitLines_line [] tail (by decide)
  rw [terminated,empty,← List.append_assoc] at split
  rw [linesBeforeEmpty,split,List.takeWhile_append_of_pos nonempty,List.takeWhile_cons_of_neg (by decide),
    List.append_nil,terminated]

/-- Where the length, as an `int`, covers the head, the loop comes to its end and has handed over the
lines in front of the first empty one, or those up to one that is rejected. -/
theorem header_loop (text tail : Bytes) (i len : Nat) (req : Request) (noNul : nul ∉ text)
    (found : findFirst httpEnd text = some i) (covers : ((i + 4 : Nat) : Int) ≤ toInt32 len) :
    ∃ result, (∀ fuel ≥ text.length, headLoop (text ++ tail) len fuel 0 req = some result) ∧
      readLines (text ++ tail) len (text ++ tail).length 0 req = (result.accepted,result.request) ∧
      result.handed.map Handed.line <+: linesBeforeEmpty text ∧
      (result.accepted = true → result.handed.map Handed.line = linesBeforeEmpty text) ∧
      ∀ handed ∈ result.handed, ∀ access ∈ handed.record, access.Inside handed.line.length := by
  obtain ⟨lines,left,all,split,short⟩ := exists_lines text i noNul found
  have room := length_le_flatten lines all
  have size : text.length = lines.flatten.length + 2 + left.length := by
    rw [split,List.length_append,List.length_append]
    rfl
  have here : (text ++ tail).drop 0 = lines.flatten ++ crlf ++ (left ++ tail) := by
    rw [List.drop_zero,split,List.append_assoc _ left]
  have before : linesBeforeEmpty text = lines := by
    rw [split]
    exact linesBeforeEmpty_eq lines all left
  have reached : reached (toInt32 len) 0 lines = lines := reached_all _ _ _ (by omega)
  refine ⟨handLines lines req,?_,?_,?_,?_,handLines_inside lines req all⟩
  · intro fuel enough
    exact headLoop_eq _ _ len lines all fuel 0 req here (by omega) (by omega)
  · rw [readLines_eq _ _ len lines all _ 0 req here (by rw [List.length_append]; omega),reached]
    exact handLines_takeLines lines req
  · rw [before]
    exact handLines_prefix lines req
  · rw [before]
    exact handLines_accepted lines req

/-- A start line, two header lines, and the body behind them. -/
def headedText : Bytes :=
  ascii "POST /a HTTP/1.1" ++ crlf ++ ascii "User-cmd:  FuturesTrade" ++ crlf ++ ascii "Content-Length: 3" ++ httpEnd ++ ascii "abc"

theorem header_loop_headed :
    ∃ result, (∀ fuel ≥ headedText.length, headLoop (headedText ++ [nul]) 67 fuel 0 .reset = some result) ∧
      readLines (headedText ++ [nul]) 67 (headedText ++ [nul]).length 0 .reset = (result.accepted,result.request) ∧
      result.handed.map Handed.line <+: linesBeforeEmpty headedText ∧
      (result.accepted = true → result.handed.map Handed.line = linesBeforeEmpty headedText) ∧
      ∀ handed ∈ result.handed, ∀ access ∈ handed.record, access.Inside handed.line.length :=
  header_loop headedText [nul] 60 67 .reset (by decide) (by decide) (by decide)

def smallHead : Bytes := ascii "POST /a HTTP/1.1" ++ httpEnd

/-- A length of `2^31` is negative as an `int`: no line is rejected, and none is handed over. -/
theorem long_head_unread :
    nul ∉ smallHead ∧ findFirst httpEnd smallHead = some 16 ∧ 16 + 4 ≤ 2^31 ∧
    (∀ fuel, headLoop smallHead (2^31) (fuel + 1) 0 .reset = some ⟨[],true,.reset⟩) ∧
    linesBeforeEmpty smallHead = [ascii "POST /a HTTP/1.1" ++ crlf] := by
  refine ⟨by decide,by decide,by decide,?_,?_⟩
  · intro fuel
    have line : getlineFromBuf2 smallHead 0 = some (ascii "POST /a HTTP/1.1" ++ crlf,18) := by decide
    have negative : ¬ ((18 : Nat) : Int) < toInt32 (2^31) := by decide
    rw [headLoop,line]
    dsimp only
    rw [if_pos negative]
  · have all : ∀ line ∈ [ascii "POST /a HTTP/1.1" ++ crlf], IsLine line := by
      rw [List.forall_mem_singleton]
      exact ⟨by decide,by decide,by decide⟩
    exact linesBeforeEmpty_eq _ all []

end FuturesCellProxy.Server

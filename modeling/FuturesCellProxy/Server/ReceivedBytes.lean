import FuturesCellProxy.Server.Connection
import FuturesCellProxy.Server.Stages

/-! Which bytes of the receive buffer a call of `parse` depends on: those of the read,
unless the read ends inside a CRLFCRLF that older bytes behind it can complete. -/
namespace FuturesCellProxy.Server
open Foundation

/-- The rest of the receive buffer has no influence on what a call answers and leaves. -/
def OnlyReceived (parser : RequestParser) (req : Request) (chunk : Bytes) : Prop :=
  ∀ rest rest' : Bytes, chunk.length + rest.length = httpRecvBuf →
    chunk.length + rest'.length = httpRecvBuf →
    parser.parse req chunk rest = parser.parse req chunk rest'

/-- The length of the content that a call computes does not wrap. -/
def NoWrap (parser : RequestParser) (chunk : Bytes) : Prop :=
  parser.resume = .start → ∀ rest : Bytes, chunk.length + rest.length = httpRecvBuf → Closed chunk rest

/-- A first read that ends inside CRLFCRLF, with `missing` bytes of it still to come. -/
structure Dangling (parser : RequestParser) (chunk : Bytes) (missing : Nat) : Prop where
  start : parser.resume = .start
  noNul : nul ∉ chunk
  incomplete : strstr chunk httpEnd = none
  some : 0 < missing ∧ missing < 4
  ends : httpEnd.take (4 - missing) <:+ chunk
  room : chunk.length + missing ≤ httpRecvBuf

theorem parse_ignores_rest {parser : RequestParser} (req : Request) (chunk rest rest' : Bytes)
    (later : parser.resume ≠ .start) : parser.parse req chunk rest = parser.parse req chunk rest' := by
  unfold RequestParser.parse RequestParser.praseHttp
  cases here : parser.resume with
  | start => exact absurd here later
  | header => rfl
  | content => rfl
  | done => rfl

theorem parse_start_closed {parser : RequestParser} (req : Request) (chunk rest : Bytes)
    (start : parser.resume = .start) (closed : Closed chunk rest) (small : chunk.length < 2^31) :
    parser.parse req chunk rest =
      match strstr chunk httpEnd with
      | some i => parser.leave (finishHead (req.received chunk) chunk (i+4) chunk.length)
      | none => parser.collectHead (req.received chunk) chunk := by
  rw [RequestParser.parse_eq]
  unfold RequestParser.praseHttp
  rw [start]
  dsimp only
  cases here : strstr chunk httpEnd with
  | some i =>
    have fits := strstr_bound here
    simp only [show httpEnd.length = 4 from rfl] at fits
    rw [strstr_append_some rest here]
    dsimp only
    rw [if_pos (by rw [toInt32_of_lt small]; omega),finishHead_tail _ _ _ _ here]
  | none =>
    cases found : strstr (chunk ++ rest) httpEnd with
    | none => rfl
    | some i =>
      dsimp only
      split
      next inside =>
        rw [strstr_of_append found (closed i found inside)] at here
        contradiction
      next => rfl

theorem dangling_of_not_closed {parser : RequestParser} {chunk rest : Bytes}
    (start : parser.resume = .start) (size : chunk.length + rest.length = httpRecvBuf)
    (opened : ¬ Closed chunk rest) : ∃ missing, Dangling parser chunk missing := by
  simp only [Closed,not_forall] at opened
  obtain ⟨i,found,inside,beyond⟩ := opened
  have begins : i < chunk.length := by
    have := toInt32_le chunk.length
    omega
  have noNul : nul ∉ chunk := by
    intro member
    rw [strstr,upTo_append_of_mem rest member] at found
    have fits := findFirst_bound found
    have short := (upTo_start nul chunk).length_le
    simp only [show httpEnd.length = 4 from rfl] at fits
    omega
  have incomplete : strstr chunk httpEnd = none := by
    cases here : strstr chunk httpEnd with
    | none => rfl
    | some j =>
      have fits := strstr_bound here
      rw [strstr_append_some rest here] at found
      simp only [show httpEnd.length = 4 from rfl] at fits
      have same := Option.some.inj found
      omega
  have fits := strstr_bound found
  simp only [show httpEnd.length = 4 from rfl,List.length_append] at fits
  have ends : httpEnd.take (4 - (i + 4 - chunk.length)) <:+ chunk := by
    rw [strstr] at found
    obtain ⟨_,here,_⟩ := (findFirst_eq_some _ _ _).mp found
    have seen : httpEnd <+: (chunk ++ rest).drop i := here.trans ((upTo_start nul (chunk ++ rest)).drop i)
    rw [List.drop_append_of_le_length (by omega)] at seen
    have count : 4 - (i + 4 - chunk.length) = (chunk.drop i).length := by
      rw [List.length_drop]
      omega
    have short : (chunk.drop i).length ≤ httpEnd.length := by
      rw [← count,show httpEnd.length = 4 from rfl]
      omega
    obtain ⟨tail,split⟩ := seen
    have cut := congrArg (List.take (chunk.drop i).length) split
    rw [List.take_append_of_le_length short,List.take_left] at cut
    rw [count,cut]
    exact List.drop_suffix i chunk
  exact ⟨i + 4 - chunk.length,start,noNul,incomplete,⟨by omega,by omega⟩,ends,by omega⟩

section Dangling
variable {parser : RequestParser} {chunk : Bytes} {missing : Nat}

def completing (chunk : Bytes) (missing : Nat) : Bytes :=
  httpEnd.drop (4 - missing) ++ List.replicate (httpRecvBuf - (chunk.length + missing)) nul

theorem Dangling.opened (dangling : Dangling parser chunk missing) :
    ¬ Closed chunk (completing chunk missing) := by
  obtain ⟨before,split⟩ := dangling.ends
  have whole : chunk ++ httpEnd.drop (4 - missing) = before ++ httpEnd := by
    rw [← split,List.append_assoc,List.take_append_drop]
  have noNul : nul ∉ chunk ++ httpEnd.drop (4 - missing) := by
    rw [List.mem_append,not_or]
    exact ⟨dangling.noNul,fun member => absurd (List.mem_of_mem_drop member) (by decide)⟩
  have zeros : upTo nul (List.replicate (httpRecvBuf - (chunk.length + missing)) nul) = [] := by
    cases httpRecvBuf - (chunk.length + missing) with
    | zero => rfl
    | succ n => simp [upTo,List.replicate_succ]
  have seen : strstr (chunk ++ completing chunk missing) httpEnd = findFirst httpEnd (before ++ httpEnd) := by
    rw [completing,← List.append_assoc,strstr,upTo_append_of_not_mem _ noNul,zeros,whole,List.append_nil]
  have size : before.length + (4 - missing) = chunk.length := by
    have length := congrArg List.length split
    rw [List.length_append,List.length_take,show httpEnd.length = 4 from rfl] at length
    omega
  intro closed
  cases found : findFirst httpEnd (before ++ httpEnd) with
  | none =>
    have absent := (findFirst_eq_none _ _).mp found before.length (by simp)
    simp at absent
  | some i =>
    rw [found] at seen
    obtain ⟨_,_,least⟩ := (findFirst_eq_some _ _ _).mp found
    have early : i ≤ before.length := by
      by_contra late
      exact least before.length (by omega) (by simp)
    have small : chunk.length < 2^31 := by
      have room := dangling.room
      rw [httpRecvBuf] at room
      omega
    obtain ⟨some,few⟩ := dangling.some
    have inside : (i : Int) < toInt32 chunk.length := by
      rw [toInt32_of_lt small]
      omega
    have none := dangling.incomplete
    rw [strstr_of_append seen (closed i seen inside)] at none
    exact Option.some_ne_none _ none

theorem Dangling.completing_size (dangling : Dangling parser chunk missing) :
    chunk.length + (completing chunk missing).length = httpRecvBuf := by
  have room := dangling.room
  have few := dangling.some.2
  rw [completing,List.length_append,List.length_drop,List.length_replicate,
    show httpEnd.length = 4 from rfl]
  omega

theorem Dangling.not_noWrap (dangling : Dangling parser chunk missing) : ¬ NoWrap parser chunk :=
  fun noWrap => dangling.opened (noWrap dangling.start _ dangling.completing_size)

theorem collectHead_httpheader (parser : RequestParser) (req : Request) (chunk : Bytes) :
    (parser.collectHead req chunk).2.1.httpheader = parser.httpheader ++ chunk := by
  unfold RequestParser.collectHead
  dsimp only
  split <;> rfl

theorem parse_opened_httpheader (req : Request) (rest : Bytes) (start : parser.resume = .start)
    (opened : ¬ Closed chunk rest) : (parser.parse req chunk rest).2.1.httpheader = parser.httpheader := by
  obtain ⟨i,_,spec⟩ := parse_opened start opened
  rw [spec,RequestParser.leave]

theorem Dangling.not_onlyReceived (dangling : Dangling parser chunk missing) (req : Request) :
    ¬ OnlyReceived parser req chunk := by
  intro only
  have room := dangling.room
  have zerosClosed : Closed chunk (List.replicate (httpRecvBuf - chunk.length) nul) := by
    refine closed_of_terminated _ _ ?_
    cases httpRecvBuf - chunk.length <;> rfl
  have same := only (completing chunk missing) (List.replicate (httpRecvBuf - chunk.length) nul)
    dangling.completing_size (by rw [List.length_replicate]; omega)
  have left := parse_opened_httpheader req _ dangling.start dangling.opened
  rw [same,parse_start_closed req _ _ dangling.start zerosClosed (by rw [httpRecvBuf] at room; omega),
    dangling.incomplete] at left
  dsimp only at left
  rw [collectHead_httpheader] at left
  have empty : chunk = [] := by simpa using left
  have few := dangling.some.2
  have ends := dangling.ends.length_le
  rw [empty,List.length_take,show httpEnd.length = 4 from rfl,List.length_nil] at ends
  omega

end Dangling

/-- The parser reads only received bytes, and never computes a length that wraps, exactly
when the read does not end inside a CRLFCRLF that the rest of the buffer can complete. -/
theorem received_bytes (parser : RequestParser) (req : Request) (chunk : Bytes)
    (fits : chunk.length ≤ httpRecvBuf) :
    (OnlyReceived parser req chunk ↔ ∀ missing, ¬ Dangling parser chunk missing) ∧
    (NoWrap parser chunk ↔ ∀ missing, ¬ Dangling parser chunk missing) := by
  have small : chunk.length < 2^31 := by
    rw [httpRecvBuf] at fits
    omega
  have closed (none : ∀ missing, ¬ Dangling parser chunk missing) : NoWrap parser chunk := by
    intro start rest size
    by_contra opened
    obtain ⟨missing,dangling⟩ := dangling_of_not_closed start size opened
    exact none missing dangling
  refine ⟨⟨fun only missing dangling => dangling.not_onlyReceived req only,fun none => ?_⟩,
    ⟨fun noWrap missing dangling => dangling.not_noWrap noWrap,closed⟩⟩
  · intro rest rest' size size'
    by_cases start : parser.resume = .start
    · rw [parse_start_closed req chunk rest start (closed none start rest size) small,
        parse_start_closed req chunk rest' start (closed none start rest' size') small]
    · exact parse_ignores_rest req chunk rest rest' start

def brokenHead : Bytes := ascii "POST /a HTTP/1.1" ++ crlf ++ ascii "Content-Length: 0" ++ crlf ++ [cr]

theorem received_bytes_short :
    (OnlyReceived {} Request.reset (ascii "POST /a") ↔ ∀ missing, ¬ Dangling {} (ascii "POST /a") missing) ∧
    (NoWrap {} (ascii "POST /a") ↔ ∀ missing, ¬ Dangling {} (ascii "POST /a") missing) :=
  received_bytes {} Request.reset (ascii "POST /a") (by decide)

theorem brokenHead_differs :
    ¬ OnlyReceived {} Request.reset brokenHead ∧ ¬ NoWrap {} brokenHead := by
  have dangling : Dangling {} brokenHead 1 :=
    ⟨rfl,by decide,by decide,by decide,by decide,by decide⟩
  exact ⟨dangling.not_onlyReceived _,dangling.not_noWrap⟩

end FuturesCellProxy.Server

import FuturesCellProxy.Server.ContentLength

/-! When the parser comes to a verdict: as soon as it has enough, if it can see the end
of the head. -/
namespace FuturesCellProxy.Server
open Foundation

/-- The bytes received by the end of the read that completes a CRLFCRLF, whatever stands
before it. -/
def completionFrom : (before : Bytes) → List Bytes → Bytes
  | before, [] => before
  | before, chunk :: rest =>
    if (findFirst httpEnd (before ++ chunk)).isSome then before ++ chunk
    else completionFrom (before ++ chunk) rest

def completion (reads : List Bytes) : Bytes := completionFrom [] reads

/-- A head that ends at `i` has been received, and it is refused, or all of its content
has been received too. -/
structure Sufficient (initial : Request) (reads : List Bytes) (i : Nat) : Prop where
  found : findFirst httpEnd reads.flatten = some i
  enough : (readHead (completion reads) (completion reads).length initial).1 = false ∨
    i + 4 + (readHead (completion reads) (completion reads).length initial).2.contentLength ≤ reads.flatten.length

/-- Every call of `parse` so far has asked for more. -/
def Undecided (initial : Request) (reads : List Received) : Prop :=
  (feed {} initial reads).1 = List.replicate reads.length .indeterminate

instance (initial : Request) (reads : List Received) : Decidable (Undecided initial reads) :=
  inferInstanceAs (Decidable (_ = _))

/-- Memory behind the first read completes a CRLFCRLF that begins in the read. -/
def Overrun (reads : List Received) : Prop :=
  ∃ read ∈ reads.head?, ¬ Closed read.chunk read.rest

theorem strstr_of_findFirst {pattern text : Bytes} {i : Nat} (found : findFirst pattern text = some i)
    (clear : nul ∉ text.take (i + pattern.length)) : strstr text pattern = some i := by
  have fits := findFirst_bound found
  rw [← List.take_append_drop (i + pattern.length) text] at found
  rw [strstr,← List.take_append_drop (i + pattern.length) text,upTo_append_of_not_mem _ clear]
  apply findFirst_append
  exact findFirst_of_append found (by rw [List.length_take]; omega)

theorem findFirst_of_strstr {pattern text : Bytes} {i : Nat} (found : strstr text pattern = some i) :
    findFirst pattern text = some i := by
  obtain ⟨tail,split⟩ := upTo_start nul text
  rw [← split]
  exact findFirst_append tail found

/-- A CRLFCRLF behind a NUL is not seen. -/
theorem strstr_eq_some_iff {text : Bytes} {i : Nat} (found : findFirst httpEnd text = some i) :
    strstr text httpEnd = some i ↔ nul ∉ text.take i := by
  have split := findFirst_split found
  constructor
  · intro seen member
    exact (head_of_strstr seen).1 (List.take_subset_take_left text (by omega) member)
  · intro clear
    refine strstr_of_findFirst found ?_
    have whole : text.take (i + httpEnd.length) = text.take i ++ httpEnd := by
      have fits := findFirst_bound found
      conv_lhs => rw [split]
      exact List.take_left' (by rw [List.length_append,List.length_take]; omega)
    rw [whole,List.mem_append,not_or]
    exact ⟨clear,by decide⟩

theorem arrivalFrom_eq_completionFrom {i : Nat} (reads : List Bytes) (before : Bytes)
    (found : findFirst httpEnd (before ++ reads.flatten) = some i)
    (clear : nul ∉ (before ++ reads.flatten).take i) :
    arrivalFrom before reads = completionFrom before reads := by
  induction reads generalizing before with
  | nil => rfl
  | cons chunk rest ih =>
    rw [List.flatten_cons,← List.append_assoc] at found clear
    have same : (strstr (before ++ chunk) httpEnd).isSome = (findFirst httpEnd (before ++ chunk)).isSome := by
      cases here : findFirst httpEnd (before ++ chunk) with
      | none =>
        cases seen : strstr (before ++ chunk) httpEnd with
        | none => rfl
        | some j =>
          rw [findFirst_of_strstr seen] at here
          contradiction
      | some j =>
        obtain rfl : j = i := Option.some.inj ((findFirst_append rest.flatten here).symm.trans found)
        have fits := findFirst_bound here
        rw [List.take_append_of_le_length (by omega)] at clear
        rw [(strstr_eq_some_iff here).mpr clear]
    rw [arrivalFrom,completionFrom,same]
    split
    · rfl
    · exact ih _ found clear

section
variable {initial req : Request} {parser : RequestParser}

theorem Arrived.found_all {chunks : List Bytes} {i : Nat} {head : Request}
    (arrived : Arrived initial (arrival chunks) i head) : strstr chunks.flatten httpEnd = some i := by
  obtain ⟨tail,split⟩ := arrival_start chunks
  rw [← split]
  exact strstr_append_some tail arrived.found

theorem Called.waits {chunks : List Bytes} {verdict : Verdict} (called : Called initial chunks verdict parser req)
    (unseen : strstr chunks.flatten httpEnd = none) :
    verdict = .indeterminate ∧ Stage initial chunks parser req := by
  cases called with
  | more _ _ stage => exact ⟨rfl,stage⟩
  | refused i _ _ _ found _ =>
    rw [unseen] at found
    contradiction
  | atOnce i head _ _ arrived _ =>
    have found := arrived.found_all
    rw [unseen] at found
    contradiction
  | later i head _ arrived _ _ =>
    have found := arrived.found_all
    rw [unseen] at found
    contradiction

/-- While no call decides, the parser is in the state that the bytes determine. -/
theorem feed_stage (before : List Bytes) (reads : List Received) (empty : initial.content = [])
    (stage : Stage initial before parser req)
    (waiting : (feed parser req reads).1 = List.replicate reads.length .indeterminate) :
    Stage initial (before ++ reads.map Received.chunk) (feed parser req reads).2.1 (feed parser req reads).2.2 := by
  induction reads generalizing before parser req with
  | nil => simpa [feed] using stage
  | cons read rest ih =>
    have verdict : (parser.parse req read.chunk read.rest).1 = .indeterminate := by
      by_contra decided
      rw [feed_decided rest decided] at waiting
      exact decided (by simpa [List.replicate_succ] using congrArg List.head? waiting)
    have called := feed_cons_called read empty stage (by rw [verdict]; decide)
    rw [feed_undecided rest verdict] at waiting ⊢
    rw [verdict] at called
    obtain ⟨_,_,next⟩ := called
    rw [List.map_cons,List.append_cons]
    exact ih _ next (by simpa [List.replicate_succ] using waiting)

/-- As long as no end of the head is seen, every call asks for more. -/
theorem feed_waits (before : List Bytes) (reads : List Received) (empty : initial.content = [])
    (stage : Stage initial before parser req) (closed : parser.resume = .start → ¬ Overrun reads)
    (missing : strstr (before.flatten ++ (reads.map Received.chunk).flatten) httpEnd = none) :
    (feed parser req reads).1 = List.replicate reads.length .indeterminate := by
  induction reads generalizing before parser req with
  | nil => rfl
  | cons read rest ih =>
    have unseen : strstr (before ++ [read.chunk]).flatten httpEnd = none := by
      apply strstr_none_of_append
      rw [List.flatten_append,List.flatten_singleton,List.append_assoc]
      exact missing
    have inside : parser.resume = .start → Closed read.chunk read.rest := by
      intro start
      by_contra opened
      exact closed start ⟨read,rfl,opened⟩
    obtain ⟨verdict,next⟩ := (parse_called read.chunk read.rest empty stage inside).waits unseen
    rw [feed_undecided rest verdict]
    dsimp only
    rw [List.length_cons,List.replicate_succ]
    refine congrArg _ (ih _ next (fun start => absurd start next.started) ?_)
    rwa [List.flatten_append,List.flatten_singleton,List.append_assoc]

theorem undecided_of_hidden {reads : List Received} {i : Nat} (empty : initial.content = [])
    (found : findFirst httpEnd (reads.map Received.chunk).flatten = some i)
    (hidden : nul ∈ (reads.map Received.chunk).flatten.take i) (inside : ¬ Overrun reads) :
    Undecided initial reads := by
  have missing : strstr (reads.map Received.chunk).flatten httpEnd = none := by
    cases seen : strstr (reads.map Received.chunk).flatten httpEnd with
    | none => rfl
    | some j =>
      obtain rfl : j = i := Option.some.inj ((findFirst_of_strstr seen).symm.trans found)
      exact absurd hidden ((strstr_eq_some_iff found).mp seen)
  exact feed_waits [] reads empty .fresh (fun _ => inside) (by simpa using missing)

theorem decided_of_overrun {reads : List Received} (overrun : Overrun reads) : ¬ Undecided initial reads := by
  intro waiting
  obtain ⟨read,first,opened⟩ := overrun
  obtain ⟨rest,rfl⟩ : ∃ rest, reads = read :: rest := List.head?_eq_some_iff.mp first
  have refused := @parse_invalid_of_not_closed {} initial _ _ rfl opened
  rw [Undecided,feed_decided rest (by rw [refused]; decide),refused] at waiting
  cases rest <;> simp [List.replicate_succ] at waiting

/-- The stages in which the parser waits have either not seen the head or not got the content. -/
theorem Stage.insufficient {chunks : List Bytes} {i : Nat} (stage : Stage initial chunks parser req)
    (found : strstr chunks.flatten httpEnd = some i)
    (enough : (readHead (arrival chunks) (arrival chunks).length initial).1 = false ∨
      i + 4 + (readHead (arrival chunks) (arrival chunks).length initial).2.contentLength ≤ chunks.flatten.length) :
    False := by
  cases stage with
  | fresh => contradiction
  | header _ missing => simp [found] at missing
  | content _ j head kept arrived short =>
    obtain rfl := Option.some.inj (arrived.found_all.symm.trans found)
    rw [arrived.read] at enough
    dsimp only at enough
    rcases enough with refused | all
    · contradiction
    · omega

theorem decided_of_visible {reads : List Received} {i : Nat} (empty : initial.content = [])
    (sufficient : Sufficient initial (reads.map Received.chunk) i)
    (clear : nul ∉ (reads.map Received.chunk).flatten.take i) : ¬ Undecided initial reads := by
  intro waiting
  have stage := feed_stage [] reads empty .fresh waiting
  have same := arrivalFrom_eq_completionFrom (reads.map Received.chunk) []
    (by simpa using sufficient.found) (by simpa using clear)
  have enough := sufficient.enough
  rw [completion,← same,← arrival] at enough
  exact stage.insufficient ((strstr_eq_some_iff sufficient.found).mpr clear) enough

end

/-- Once there is enough, the parser decides if and only if no NUL stands before the end
of the head, or memory that does not belong to the first read makes it refuse. -/
theorem decides_iff (initial : Request) (reads : List Received) (i : Nat) (empty : initial.content = [])
    (sufficient : Sufficient initial (reads.map Received.chunk) i) :
    ¬ Undecided initial reads ↔
      nul ∉ (reads.map Received.chunk).flatten.take i ∨ Overrun reads := by
  constructor
  · intro decided
    by_contra hidden
    rw [not_or,not_not] at hidden
    exact decided (undecided_of_hidden empty sufficient.found hidden.1 hidden.2)
  · rintro (clear | overrun)
    · exact decided_of_visible empty sufficient clear
    · exact decided_of_overrun overrun

def visible : List Received :=
  [⟨ascii "POST /a HTTP/1.1" ++ crlf ++ ascii "Content-Length: 2" ++ httpEnd,[]⟩,⟨[nul],[]⟩,⟨[nul],[]⟩]

theorem decides_iff_visible :
    ¬ Undecided .reset visible ↔ nul ∉ (visible.map Received.chunk).flatten.take 35 ∨ Overrun visible :=
  decides_iff .reset visible 35 rfl ⟨by decide +kernel,by decide +kernel⟩

def hidden : List Received :=
  [⟨ascii "POST /a HTTP/1.1" ++ crlf ++ ascii "Content-Length: 0" ++ crlf ++ ascii "A: " ++ [nul] ++ httpEnd,[]⟩]

theorem hidden_undecided : Sufficient .reset (hidden.map Received.chunk) 41 ∧ Undecided .reset hidden :=
  ⟨⟨by decide +kernel,by decide +kernel⟩,by decide +kernel⟩

end FuturesCellProxy.Server

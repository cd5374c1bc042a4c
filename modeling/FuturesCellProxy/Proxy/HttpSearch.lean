import FuturesCellProxy.Proxy.FuturesProxy

/-! The search by HTTP against a web of responses: what each attempt delivers, its result
code, and the status of its response. -/
namespace FuturesCellProxy.Proxy
open Foundation Rpc

structure Exchange extends Transfer where
  status : Int

def Exchange.body (exchange : Exchange) : Bytes := exchange.chunks.flatten

/-- Whether there is a handle, and what `curl_easy_perform` meets each time. -/
structure Web where
  opened : Bool
  exchange : Nat → Exchange

def attempts (trace : Trace) : Nat :=
  trace.countP fun step => match step.query with
    | .curlPerform _ => true
    | _ => false

theorem attempts_append (first second : Trace) : attempts (first ++ second) = attempts first + attempts second :=
  List.countP_append

theorem attempts_cons (step : Step) (trace : Trace) : attempts (step :: trace) = attempts [step] + attempts trace :=
  attempts_append [step] trace

namespace Web

section
variable (web : Web)

/-- The answers in a run are those of the web, after some attempts. -/
def Answers : (made : Nat) → Trace → Prop
  | _, [] => True
  | made, ⟨.curlInit,opened⟩ :: trace => opened = web.opened ∧ Answers made trace
  | made, ⟨.curlPerform _,transfer⟩ :: trace => transfer = (web.exchange made).toTransfer ∧ Answers (made+1) trace
  | made, ⟨.curlResponseCode,status⟩ :: trace => status = (web.exchange (made-1)).status ∧ Answers made trace
  | made, _ :: trace => Answers made trace

def collected (made : Nat) : Bytes := ((List.range made).map fun i => (web.exchange i).body).flatten

/-- The attempt that is made and returns `CURLE_OK`. -/
structure Completes (i : Nat) : Prop where
  opened : web.opened = true
  within : i < 2
  code : (web.exchange i).code = curleOk
  failed : ∀ j < i, (web.exchange j).code ≠ curleOk

end

variable {web : Web}

theorem collected_succ (made : Nat) : web.collected (made+1) = web.collected made ++ (web.exchange made).body := by
  simp [collected,List.range_succ]

theorem Answers.left {made : Nat} {first second : Trace} (answers : web.Answers made (first ++ second)) :
    web.Answers made first := by
  induction first generalizing made with
  | nil => trivial
  | cons step first ih =>
    obtain ⟨query,answer⟩ := step
    cases query with
    | curlInit | curlPerform _ | curlResponseCode => exact ⟨answers.1,ih answers.2⟩
    | _ => exact ih answers

theorem performUntilOk_run {url old : Bytes} {tryNums made res : Nat} {trace : Trace} {result : Nat × Bytes}
    (run : Run (performUntilOk url tryNums res (old ++ web.collected made)) trace result)
    (answers : web.Answers made trace) :
    (∃ k < tryNums, (web.exchange (made+k)).code = curleOk ∧ (∀ j < k, (web.exchange (made+j)).code ≠ curleOk) ∧
      attempts trace = k + 1 ∧ result = (curleOk,old ++ web.collected (made+k+1))) ∨
    (∀ j < tryNums, (web.exchange (made+j)).code ≠ curleOk) ∧ (0 < tryNums ∨ res ≠ curleOk → result.1 ≠ curleOk) := by
  induction tryNums generalizing made res trace with
  | zero =>
    obtain ⟨rfl,rfl⟩ := (Run.pure_iff _ _ _).mp run
    exact .inr ⟨nofun,fun failed => failed.resolve_left (Nat.lt_irrefl 0)⟩
  | succ tryNums ih =>
    obtain ⟨_,transfer,second,first,rest,rfl⟩ := (Run.bind_iff _ _ _ _).mp run
    rw [(Run.call_iff _ _ _).mp first] at answers ⊢
    obtain ⟨rfl,answers⟩ := answers
    rw [List.append_assoc] at rest
    have more : web.collected made ++ (web.exchange made).chunks.flatten = web.collected (made+1) :=
      (collected_succ made).symm
    rw [more] at rest
    by_cases completed : (web.exchange made).code = curleOk
    · rw [if_pos completed] at rest
      obtain ⟨rfl,rfl⟩ := (Run.pure_iff _ _ _).mp rest
      exact .inl ⟨0,Nat.succ_pos _,completed,nofun,rfl,rfl⟩
    · rw [if_neg completed] at rest
      have shift (j : Nat) : made + 1 + j = made + (j+1) := by omega
      have here {k : Nat} (others : ∀ j < k, (web.exchange (made+1+j)).code ≠ curleOk) :
          ∀ j < k + 1, (web.exchange (made+j)).code ≠ curleOk := by
        intro j within
        cases j with
        | zero => exact completed
        | succ j => exact shift j ▸ others j (Nat.lt_of_succ_lt_succ within)
      rcases ih rest answers with ⟨k,within,code,others,count,rfl⟩ | ⟨others,failed⟩
      · refine .inl ⟨k+1,Nat.succ_lt_succ within,shift k ▸ code,here others,?_,by rw [shift]⟩
        rw [attempts_append,count]
        exact Nat.add_comm 1 (k+1)
      · exact .inr ⟨here others,fun _ => failed (.inr completed)⟩

end Web

/-- The status is asked for, but what is returned does not depend on it. -/
theorem fnDoCurl_cases {url old : Bytes} {trace : Trace} {result : Nat × Bytes}
    (run : Run (fnDoCurl url old) trace result) :
    trace = [⟨.curlInit,false⟩] ∧ result = (curleFailedInit,old) ∨
      ∃ performed asked, trace = ⟨.curlInit,true⟩ :: (performed ++ asked) ∧ attempts asked = 0 ∧
        Run (performUntilOk (upTo nul url) 2 curleOk old) performed result := by
  obtain ⟨_,opened,later,first,rest,rfl⟩ := (Run.bind_iff _ _ _ _).mp run
  rw [(Run.call_iff _ _ _).mp first]
  cases opened with
  | false =>
    obtain ⟨rfl,rfl⟩ := (Run.pure_iff _ _ _).mp rest
    exact .inl ⟨rfl,rfl⟩
  | true =>
    obtain ⟨performed,⟨res,strRst⟩,asked,loop,ending,rfl⟩ := (Run.bind_iff _ _ _ _).mp rest
    refine .inr ⟨performed,asked,rfl,?_⟩
    dsimp only at ending
    by_cases ok : res = curleOk
    · rw [if_neg (not_not_intro ok),← ok] at ending
      split at ending
      · obtain ⟨_,status,last,question,answered,rfl⟩ := (Run.bind_iff _ _ _ _).mp ending
        rw [(Run.call_iff _ _ _).mp question]
        split at answered <;> (obtain ⟨rfl,rfl⟩ := (Run.pure_iff _ _ _).mp answered; exact ⟨rfl,loop⟩)
      · obtain ⟨rfl,rfl⟩ := (Run.pure_iff _ _ _).mp ending
        exact ⟨rfl,loop⟩
    · rw [if_pos ok] at ending
      obtain ⟨rfl,rfl⟩ := (Run.pure_iff _ _ _).mp ending
      exact ⟨rfl,loop⟩

namespace Web
variable {web : Web}

theorem fnDoCurl_run {url old : Bytes} {trace : Trace} {result : Nat × Bytes}
    (run : Run (fnDoCurl url old) trace result) (answers : web.Answers 0 trace) :
    (∃ i, web.Completes i ∧ attempts trace = i + 1 ∧ result = (curleOk,old ++ web.collected (i+1))) ∨
      (∀ i, ¬ web.Completes i) ∧ result.1 ≠ curleOk := by
  rcases fnDoCurl_cases run with ⟨rfl,rfl⟩ | ⟨performed,asked,rfl,unasked,loop⟩
  · exact .inr ⟨fun i completes => absurd (answers.1.trans completes.opened) (by decide),nofun⟩
  · obtain ⟨opened,answers⟩ := answers
    rw [← List.append_nil old] at loop
    rcases performUntilOk_run loop (Answers.left answers) with ⟨i,within,code,failed,count,rfl⟩ | ⟨others,failed⟩
    · rw [Nat.zero_add] at code ⊢
      refine .inl ⟨i,⟨opened.symm,within,code,fun j before => ?_⟩,?_,rfl⟩
      · exact Nat.zero_add j ▸ failed j before
      · rw [attempts_cons,attempts_append,unasked,count]
        exact Nat.zero_add _
    · refine .inr ⟨fun i completes => ?_,failed (.inl Nat.two_pos)⟩
      exact others i completes.within (by rw [Nat.zero_add]; exact completes.code)

/-- What fnDoCurl delivers is one response, and not a mixture. -/
def OneResponse (web : Web) (trace : Trace) (result : Nat × Bytes) : Prop :=
  result.1 = curleOk →
    ∃ i < attempts trace, (web.exchange i).code = curleOk ∧ result.2 = (web.exchange i).body

theorem Completes.last {i j : Nat} (completes : web.Completes i) (made : j < i + 1)
    (code : (web.exchange j).code = curleOk) : j = i := by
  by_contra other
  exact completes.failed j (by omega) code

theorem Completes.eq {i j : Nat} (completes : web.Completes i) (completes' : web.Completes j) : j = i := by
  by_contra other
  rcases Nat.lt_or_gt_of_ne other with before | after
  · exact completes.failed j before completes'.code
  · exact completes'.failed i after completes.code

/-- What the earlier attempts delivered stays in front of the response. -/
theorem oneResponse_iff {url : Bytes} {trace : Trace} {result : Nat × Bytes}
    (run : Run (fnDoCurl url []) trace result) (answers : web.Answers 0 trace) :
    web.OneResponse trace result ↔ ∀ i, web.Completes i → web.collected i = [] := by
  rcases fnDoCurl_run run answers with ⟨i,completes,count,rfl⟩ | ⟨none_,failed⟩
  · rw [OneResponse,count,List.nil_append,collected_succ]
    constructor
    · intro single j completes'
      obtain rfl := completes.eq completes'
      obtain ⟨k,made,code,same⟩ := single rfl
      obtain rfl := completes.last made code
      exact List.self_eq_append_left.mp same.symm
    · intro nothing _
      exact ⟨i,Nat.lt_succ_self i,completes.code,by rw [nothing i completes]; rfl⟩
  · exact ⟨fun _ i completes => absurd completes (none_ i),fun _ ok => absurd ok failed⟩

/-- The first transfer breaks (`CURLE_PARTIAL_FILE`) after these chunks, and the second is complete. -/
def broken (chunks : List Bytes) : Web where
  opened := true
  exchange i := if i = 0 then {chunks,code := 18,status := 200} else {chunks := [ascii "[]"],code := 0,status := 200}

def brokenTrace (chunks : List Bytes) : Trace :=
  [⟨.curlInit,true⟩,⟨.curlPerform (ascii "http://search/"),⟨chunks,18⟩⟩,
    ⟨.curlPerform (ascii "http://search/"),⟨[ascii "[]"],0⟩⟩]

theorem broken_run (chunks : List Bytes) :
    Run (fnDoCurl (ascii "http://search/") []) (brokenTrace chunks) (0,chunks.flatten ++ ascii "[]") := by
  refine @Run.ask Query Query.Answer _ .curlInit _ true _ _ ?_
  refine @Run.ask Query Query.Answer _ (.curlPerform _) _ ⟨chunks,18⟩ _ _ ?_
  refine @Run.ask Query Query.Answer _ (.curlPerform _) _ ⟨[ascii "[]"],0⟩ _ _ ?_
  change Run (if (chunks.flatten ++ ascii "[]").isEmpty = true then _ else _) _ _
  rw [if_neg (by simp [ascii])]
  exact .ret _

theorem broken_answers (chunks : List Bytes) : (broken chunks).Answers 0 (brokenTrace chunks) := ⟨rfl,rfl,rfl,trivial⟩

theorem oneResponse_silent : (broken []).OneResponse (brokenTrace []) (0,ascii "[]") := by
  refine (oneResponse_iff (broken_run []) (broken_answers [])).mpr fun i completes => ?_
  obtain rfl | rfl : i = 0 ∨ i = 1 := by have := completes.within; omega
  · rfl
  · rfl

theorem broken_mixes :
    Run (fnDoCurl (ascii "http://search/") []) (brokenTrace [ascii "["]) (0,ascii "[[]") ∧
      (broken [ascii "["]).Answers 0 (brokenTrace [ascii "["]) ∧
      ¬ (broken [ascii "["]).OneResponse (brokenTrace [ascii "["]) (0,ascii "[[]") := by
  refine ⟨broken_run _,broken_answers _,fun single => ?_⟩
  obtain ⟨i,made,_,same⟩ := single rfl
  obtain rfl | rfl : i = 0 ∨ i = 1 := by change i < 2 at made; omega
  · exact absurd same (by decide)
  · exact absurd same (by decide)

def symbolsOf (platform : Platform) (text : Bytes) : Option Symbols :=
  (platform.parseJson text).bind fun root => FuturesConvert.toProtoSymbolByName root {}

def Fetched (web : Web) (trace : Trace) (holds : Exchange → Prop) : Prop :=
  ∃ i < attempts trace, (web.exchange i).code = curleOk ∧ (web.exchange i).status = 200 ∧ holds (web.exchange i)

/-- `fnDoCurl` returns 0 only for a response with status 200. -/
def CurlReports (web : Web) : Prop :=
  ∀ url old trace result, Run (fnDoCurl url old) trace result → web.Answers 0 trace →
    result.1 = curleOk → web.Fetched trace fun _ => True

structure ReportsFailure (platform : Platform) (web : Web) : Prop where
  curl : web.CurlReports
  symbols : ∀ flags req trace response,
    Run (FuturesProxy.querySymbolByName flags platform req) trace (some response) → web.Answers 0 trace →
    response.status = some FuturesError.success.code →
    web.Fetched trace fun exchange => symbolsOf platform exchange.body = some response.body

section
variable {flags : Flags} {platform : Platform} {req : QuerySymbolByNameRequest} {trace : Trace}

theorem querySymbolByName_run {response : QuerySymbolByNameReturn}
    (run : Run (FuturesProxy.querySymbolByName flags platform req) trace (some response)) :
    ∃ ret, Run (fnDoCurl (flags.futuresSearchUrl ++ ascii "futures/" ++ req.key) []) trace ret ∧
      (response.status = some FuturesError.success.code →
        ret.1 = curleOk ∧ symbolsOf platform ret.2 = some response.body) := by
  obtain ⟨first,ret,second,fetch,rest,rfl⟩ := (Run.bind_iff _ _ _ _).mp run
  have none_left (empty : second = []) :
      Run (fnDoCurl (flags.futuresSearchUrl ++ ascii "futures/" ++ req.key) []) (first ++ second) ret := by
    rwa [empty,List.append_nil]
  dsimp only at rest
  by_cases ok : ret.1 = curleOk
  · rw [if_neg (not_not_intro ok)] at rest
    cases read : platform.parseJson ret.2 with
    | none =>
      rw [read] at rest
      obtain ⟨empty,same⟩ := (Run.pure_iff _ _ _).mp rest
      obtain rfl := Option.some.inj same
      exact ⟨ret,none_left empty,by simp [Return.status,fillStatusInfo,FuturesError.code]⟩
    | some root =>
      rw [read] at rest
      obtain ⟨empty,same⟩ := (Run.pure_iff _ _ _).mp rest
      obtain ⟨found,symbols,rfl⟩ := Option.map_eq_some_iff.mp same.symm
      exact ⟨ret,none_left empty,fun _ => ⟨ok,by rw [symbolsOf,read]; exact symbols⟩⟩
  · rw [if_pos ok] at rest
    obtain ⟨empty,same⟩ := (Run.pure_iff _ _ _).mp rest
    obtain rfl := Option.some.inj same
    exact ⟨ret,none_left empty,by simp [Return.status,fillStatusInfo,FuturesError.code]⟩

theorem querySymbolByName_success {ret : Nat × Bytes} {symbols : Symbols}
    (fetch : Run (fnDoCurl (flags.futuresSearchUrl ++ ascii "futures/" ++ req.key) []) trace ret)
    (ok : ret.1 = curleOk) (read : symbolsOf platform ret.2 = some symbols) :
    Run (FuturesProxy.querySymbolByName flags platform req) trace
      (some (fillStatusInfo {body := symbols} .success "SUCCESS")) := by
  obtain ⟨root,parsed,converted⟩ := Option.bind_eq_some_iff.mp read
  rw [← List.append_nil trace]
  refine Run.bind fetch ?_
  dsimp only
  rw [if_neg (not_not_intro ok),parsed]
  dsimp only
  rw [converted]
  exact .ret _

end

theorem exists_run {α : Type} (web : Web) (program : Prog α) (made : Nat) :
    ∃ trace result, Run program trace result ∧ web.Answers made trace := by
  induction program generalizing made with
  | ret value => exact ⟨[],value,.ret value,trivial⟩
  | ask query next ih =>
    have step (answer : query.Answer) (made' : Nat)
        (follows : ∀ trace, web.Answers made' trace → web.Answers made (⟨query,answer⟩ :: trace)) :
        ∃ trace result, Run (.ask query next) trace result ∧ web.Answers made trace := by
      obtain ⟨trace,result,run,answers⟩ := ih answer made'
      exact ⟨_,result,.ask _ _ _ _ _ run,follows trace answers⟩
    cases query with
    | curlInit => exact step web.opened made fun _ answers => ⟨rfl,answers⟩
    | curlPerform _ => exact step (web.exchange made).toTransfer (made+1) fun _ answers => ⟨rfl,answers⟩
    | curlResponseCode => exact step (web.exchange (made-1)).status made fun _ answers => ⟨rfl,answers⟩
    | systemClock => exact step (0 : Int) made fun _ answers => answers
    | getClient _ => exact step none made fun _ answers => answers
    | newClient _ => exact step (0 : Nat) made fun _ answers => answers
    | openTransport _ _ => exact step false made fun _ answers => answers
    | validateSession _ _ => exact step none made fun _ answers => answers
    | tradeCall _ _ => exact step none made fun _ answers => answers
    | freeClient _ _ _ => exact step () made fun _ answers => answers

theorem Completes.fetched {i : Nat} {trace : Trace} {holds : Exchange → Prop} (completes : web.Completes i)
    (count : attempts trace = i + 1) :
    web.Fetched trace holds ↔ (web.exchange i).status = 200 ∧ holds (web.exchange i) := by
  constructor
  · rintro ⟨j,made,code,status,held⟩
    obtain rfl := completes.last (count ▸ made) code
    exact ⟨status,held⟩
  · exact fun ⟨status,held⟩ => ⟨i,count ▸ Nat.lt_succ_self i,completes.code,status,held⟩

theorem Completes.exists_fetch {i : Nat} (completes : web.Completes i) (url : Bytes) :
    ∃ trace, Run (fnDoCurl url []) trace (curleOk,web.collected (i+1)) ∧ web.Answers 0 trace ∧
      attempts trace = i + 1 := by
  obtain ⟨trace,result,run,answers⟩ := web.exists_run (fnDoCurl url []) 0
  rcases fnDoCurl_run run answers with ⟨j,completes',count,rfl⟩ | ⟨none_,_⟩
  · obtain rfl := completes.eq completes'
    exact ⟨trace,run,answers,count⟩
  · exact absurd completes (none_ i)

theorem curlReports_iff (web : Web) :
    web.CurlReports ↔ ∀ i, web.Completes i → (web.exchange i).status = 200 := by
  constructor
  · intro reports i completes
    obtain ⟨trace,run,answers,count⟩ := completes.exists_fetch []
    exact ((completes.fetched count).mp (reports _ _ _ _ run answers rfl)).1
  · intro all url old trace result run answers ok
    rcases fnDoCurl_run run answers with ⟨i,completes,count,_⟩ | ⟨_,failed⟩
    · exact (completes.fetched count).mpr ⟨all i completes,trivial⟩
    · exact absurd ok failed

theorem collected_eq_nil {made : Nat} : web.collected made = [] ↔ ∀ j < made, (web.exchange j).body = [] := by
  simp [collected,List.flatten_eq_nil_iff]

/-- A response with status 200, and nothing in front of it. -/
def Sole (web : Web) : Prop :=
  ∀ i, web.Completes i → (web.exchange i).status = 200 ∧ ∀ j < i, (web.exchange j).body = []

theorem Sole.reportsFailure (sole : web.Sole) (platform : Platform) : ReportsFailure platform web := by
  refine ⟨(curlReports_iff web).mpr fun i completes => (sole i completes).1,?_⟩
  intro flags req trace response run answers success
  obtain ⟨ret,fetch,spec⟩ := querySymbolByName_run run
  obtain ⟨ok,read⟩ := spec success
  rcases fnDoCurl_run fetch answers with ⟨i,completes,count,rfl⟩ | ⟨_,failed⟩
  · obtain ⟨status,nothing⟩ := sole i completes
    refine (completes.fetched count).mpr ⟨status,?_⟩
    rwa [List.nil_append,collected_succ,collected_eq_nil.mpr nothing,List.nil_append] at read
  · exact absurd ok failed

/-- A reader that takes one text only. -/
def onlyReads (text : Bytes) : Platform :=
  {Platform.sample with parseJson := fun other => if other = text then some (.array []) else none}

/-- With what earlier attempts delivered in front of it, a response is another text. -/
theorem not_reportsFailure_of_mixture {i : Nat} (completes : web.Completes i) (mixed : web.collected i ≠ []) :
    ¬ ReportsFailure (onlyReads (web.collected (i+1))) web := by
  intro reports
  obtain ⟨trace,fetch,answers,count⟩ := completes.exists_fetch (({} : Flags).futuresSearchUrl ++ ascii "futures/" ++ [])
  have read : symbolsOf (onlyReads (web.collected (i+1))) (web.collected (i+1)) = some {} := by
    simp [symbolsOf,onlyReads,FuturesConvert.toProtoSymbolByName,Json.size]
  have run := @querySymbolByName_success {} _ {key := []} _ _ _ fetch rfl read
  have same := ((completes.fetched count).mp (reports.symbols _ _ _ _ run answers rfl)).2
  have other : (web.exchange i).body ≠ web.collected (i+1) := by
    rw [collected_succ]
    exact fun same => mixed (List.self_eq_append_left.mp same)
  simp [symbolsOf,onlyReads,other] at same

/-- `fnDoCurl` fails on a failed exchange exactly if the attempt that completes has status
200; and the symbols, whatever reads them, are those of that response exactly if the
attempts before it delivered nothing. -/
theorem reportsFailure_iff (web : Web) :
    (web.CurlReports ↔ ∀ i, web.Completes i → (web.exchange i).status = 200) ∧
    ((∀ platform, ReportsFailure platform web) ↔ web.Sole) := by
  refine ⟨curlReports_iff web,fun reports i completes => ⟨?_,?_⟩,fun sole platform => sole.reportsFailure platform⟩
  · exact (curlReports_iff web).mp (reports .sample).curl i completes
  · by_contra mixed
    exact not_reportsFailure_of_mixture completes (mt collected_eq_nil.mp mixed) (reports _)

def notFound : Web where
  opened := true
  exchange _ := {chunks := [ascii "[]"],code := 0,status := 404}

theorem notFound_succeeds : ¬ ReportsFailure .sample notFound := by
  intro reports
  have run : Run (fnDoCurl [] []) [⟨.curlInit,true⟩,⟨.curlPerform [],⟨[ascii "[]"],0⟩⟩] (0,ascii "[]") := by
    refine @Run.ask Query Query.Answer _ .curlInit _ true _ _ ?_
    refine @Run.ask Query Query.Answer _ (.curlPerform []) _ ⟨[ascii "[]"],0⟩ _ _ ?_
    exact .ret _
  obtain ⟨_,_,_,status,_⟩ := reports.curl _ _ _ _ run ⟨rfl,rfl,trivial⟩ rfl
  exact absurd status (show ¬ (404 : Int) = 200 by decide)

end Web

end FuturesCellProxy.Proxy

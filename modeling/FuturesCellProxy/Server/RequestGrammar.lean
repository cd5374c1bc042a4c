import FuturesCellProxy.Server.Consume

/-! The requests that `consume` accepts, and what it makes of them. -/
namespace FuturesCellProxy.Server
open Foundation

theorem onBack_snoc (change : Header → Header) (headers : List Header) (last : Header) :
    onBack change (headers ++ [last]) = headers ++ [change last] := by
  induction headers with
  | nil => rfl
  | cons header rest ih =>
    cases split : rest ++ [last] with
    | nil => simp at split
    | cons next more =>
      rw [List.cons_append,split,onBack,← split,ih,List.cons_append]
      simp

theorem onBack_eq_nil {change : Header → Header} {headers : List Header} : onBack change headers = [] ↔ headers = [] := by
  cases headers using List.reverseRecOn with
  | nil => exact iff_of_true rfl rfl
  | append_singleton headers last => simp [onBack_snoc]

theorem onBack_onBack (first second : Header → Header) (headers : List Header) :
    onBack second (onBack first headers) = onBack (second ∘ first) headers := by
  cases headers using List.reverseRecOn with
  | nil => rfl
  | append_singleton headers last => simp only [onBack_snoc,Function.comp_apply]

theorem onBack_self (headers : List Header) : onBack (fun back => back) headers = headers := by
  cases headers using List.reverseRecOn with
  | nil => rfl
  | append_singleton headers last => rw [onBack_snoc]

/-- A line behind the start line: a header, or more of the value above it. -/
inductive HeadLine where
  | field (name value : Bytes)
  | folded (blanks value : Bytes)
  deriving DecidableEq, Repr

namespace HeadLine

def bytes : HeadLine → Bytes
  | field name value => name ++ (colon :: space :: (value ++ crlf))
  | folded blanks value => blanks ++ (value ++ crlf)

def add (headers : List Header) : HeadLine → List Header
  | field name value => headers ++ [⟨name,value⟩]
  | folded _ value => onBack (fun back => {back with value := back.value ++ value}) headers

def isField : HeadLine → Bool
  | field .. => true
  | folded .. => false

def WellFormed : HeadLine → Prop
  | field name value => name ≠ [] ∧ name.all isToken = true ∧ value.all isText = true
  | folded blanks value => blanks ≠ [] ∧ blanks.all isBlank = true ∧ value.all isText = true ∧
      value.head?.all (!isBlank ·) = true

instance : DecidablePred WellFormed
  | field name value => inferInstanceAs (Decidable (name ≠ [] ∧ name.all isToken = true ∧ value.all isText = true))
  | folded blanks value => inferInstanceAs (Decidable (blanks ≠ [] ∧ blanks.all isBlank = true ∧
      value.all isText = true ∧ value.head?.all (!isBlank ·) = true))

theorem bytes_pos (line : HeadLine) : 0 < line.bytes.length := by
  cases line <;> simp only [bytes,crlf,List.length_append,List.length_cons,List.length_nil] <;> omega

theorem add_ne_nil (line : HeadLine) {headers : List Header} (behind : line.isField = false → headers ≠ []) :
    line.add headers ≠ [] := by
  cases line with
  | field name value => simp [add]
  | folded blanks value =>
    intro none
    exact behind rfl (onBack_eq_nil.mp none)

end HeadLine

structure Message where
  method : Bytes
  uri : Bytes
  major : Bytes
  minor : Bytes
  lines : List HeadLine
  body : Bytes
  methodToken : method ≠ [] ∧ method.all isToken = true
  uriTarget : uri ≠ [] ∧ uri.all isTarget = true
  majorDigits : major ≠ [] ∧ major.all isDigit = true
  minorDigits : minor ≠ [] ∧ minor.all isDigit = true
  wellFormed : ∀ line ∈ lines, line.WellFormed
  opens : lines.head?.all HeadLine.isField = true
  length : readLengths (lines.foldl HeadLine.add []) 0 = (true,body.length)

namespace Message
variable (message : Message)

def startLine : Bytes :=
  message.method ++ (space :: (message.uri ++ (space :: (ascii "HTTP/" ++ (message.major ++ (46 :: (message.minor ++ crlf)))))))

def bytes : Bytes := message.startLine ++ ((message.lines.map HeadLine.bytes).flatten ++ (crlf ++ message.body))

def headers : List Header := message.lines.foldl HeadLine.add []

/-- The request that holds what the message says, its version numbers as an `int` holds them. -/
def request (initial : Request) : Request := {initial with
  method := message.method
  uri := message.uri
  httpVersionMajor := toInt32 (digitsValue message.major)
  httpVersionMinor := toInt32 (digitsValue message.minor)
  headers := message.headers
  content := message.body}

theorem request_versions (initial : Request) (major : digitsValue message.major < 2^31)
    (minor : digitsValue message.minor < 2^31) :
    (message.request initial).httpVersionMajor = digitsValue message.major ∧
      (message.request initial).httpVersionMinor = digitsValue message.minor := by
  simp only [request,toInt32_of_lt major,toInt32_of_lt minor,and_self]

end Message

namespace Consumer

abbrev Reads (reenter : Reenter) (length : Nat) (req : Request) (text : Bytes) (out : Request) : Prop :=
  Accepts take (.more (⟨reenter,length⟩,req)) text out

section Steps
variable {length : Nat} {req out : Request} {text : Bytes}

theorem outcome_unless {parser : Consumer} {c expected : UInt8} {after : Verdict × Consumer × Request} :
    outcome (if c ≠ expected then parser.fail req else after) = if c = expected then outcome after else .rejected := by
  by_cases same : c = expected
  · rw [if_neg (not_not.mpr same),if_pos same]
  · rw [if_pos same,if_neg same]
    rfl

theorem protocol_reads {seen : Nat} : Reads (.protocol seen) length req text out ↔
    ∃ rest, text = (ascii "HTTP/").getD seen 0 :: rest ∧
      Reads (if seen < 4 then .protocol (seen + 1) else .majorFirst) length req rest out :=
  accepts_literal fun _ => outcome_unless

theorem startLineEnd_reads : Reads .startLineEnd length req text out ↔
    ∃ rest, text = lf :: rest ∧ Reads .headers length req rest out :=
  accepts_literal fun _ => outcome_unless

theorem nameEnd_reads : Reads .nameEnd length req text out ↔
    ∃ rest, text = space :: rest ∧ Reads .value length req rest out :=
  accepts_literal fun _ => outcome_unless

theorem lineEnd_reads : Reads .lineEnd length req text out ↔
    ∃ rest, text = lf :: rest ∧ Reads .headers length req rest out :=
  accepts_literal fun _ => outcome_unless

theorem headEnd_reads : Reads .headEnd length req text out ↔
    ∃ rest, text = lf :: rest ∧ Accepts take (outcome (endHead ⟨.headEnd,length⟩ req)) rest out :=
  accepts_literal fun _ => outcome_unless

theorem httpName_reads : Reads (.protocol 0) length req text out ↔
    ∃ rest, text = ascii "HTTP/" ++ rest ∧ Reads .majorFirst length req rest out := by
  simp only [protocol_reads,Nat.reduceLT,if_true,if_false,Nat.reduceAdd]
  constructor
  · intro found
    obtain ⟨_,rfl,_,rfl,_,rfl,_,rfl,rest,rfl,onward⟩ := found
    exact ⟨rest,rfl,onward⟩
  · intro found
    obtain ⟨rest,rfl,onward⟩ := found
    exact ⟨_,rfl,_,rfl,_,rfl,_,rfl,rest,rfl,onward⟩

/-- What a test keeps apart from a character that fails it. -/
theorem apart {test : UInt8 → Bool} {c d : UInt8} (passes : test c = true) (fails : test d = false) : c ≠ d := by
  intro same
  rw [same,fails] at passes
  cases passes

def pushMethod (req : Request) (taken : Bytes) : Request := {req with method := req.method ++ taken}

def pushUri (req : Request) (taken : Bytes) : Request := {req with uri := req.uri ++ taken}

def accumulate (n : Int) (digits : Bytes) : Int := digits.foldl versionDigit n

def pushMajor (req : Request) (taken : Bytes) : Request :=
  {req with httpVersionMajor := accumulate req.httpVersionMajor taken}

def pushMinor (req : Request) (taken : Bytes) : Request :=
  {req with httpVersionMinor := accumulate req.httpVersionMinor taken}

def pushName (req : Request) (taken : Bytes) : Request :=
  {req with headers := onBack (fun back => {back with name := back.name ++ taken}) req.headers}

def pushValue (req : Request) (taken : Bytes) : Request :=
  {req with headers := onBack (fun back => {back with value := back.value ++ taken}) req.headers}

/-- A loop that stays at its `yield` and pushes each character into the request. -/
abbrev Pushes (reenter : Reenter) (test : UInt8 → Bool) (push : Request → Bytes → Request) (holds : Request → Prop) : Prop :=
  Loops take (fun state => state.1.reenter = reenter ∧ holds state.2) test (fun state taken => (state.1,push state.2 taken))

theorem pushing {reenter : Reenter} {test : UInt8 → Bool} {push : Request → Bytes → Request} {holds : Request → Prop}
    (nothing : ∀ req, push req [] = req) (onward : ∀ req c rest, push (push req [c]) rest = push req (c :: rest))
    (keeps : ∀ req c, holds req → holds (push req [c]))
    (stays : ∀ length req c, test c = true →
      (⟨reenter,length⟩ : Consumer).consume req c = await ⟨reenter,length⟩ (push req [c]) reenter) :
    Pushes reenter test push holds where
  nothing state := congrArg (Prod.mk state.1) (nothing state.2)
  onward state c rest := congrArg (Prod.mk state.1) (onward state.2 c rest)
  keeps state c inside _ := ⟨inside.1,keeps state.2 c inside.2⟩
  stays state c inside passes := by
    obtain ⟨⟨_,length⟩,req⟩ := state
    obtain ⟨rfl,_⟩ := inside
    rw [take,stays length req c passes]
    rfl

theorem methodLoops : Pushes .method isToken pushMethod (fun req => req.method ≠ []) := by
  refine pushing (by simp [pushMethod]) (by simp [pushMethod]) (by simp [pushMethod]) fun length req c token => ?_
  have other : c ≠ space := apart token (by decide)
  simp [consume,methodLoop,token,other,pushMethod]

theorem uriLoops : Pushes .uri isTarget pushUri (fun req => req.uri ≠ []) := by
  refine pushing (by simp [pushUri]) (by simp [pushUri]) (by simp [pushUri]) fun length req c target => ?_
  simp [consume,uriLoop,target,pushUri]

theorem majorLoops : Pushes .major isDigit pushMajor (fun _ => True) := by
  refine pushing (fun _ => rfl) (fun _ _ _ => rfl) (fun _ _ _ => trivial) fun length req c digit => ?_
  simp [consume,majorLoop,digit,pushMajor,accumulate]

theorem minorLoops : Pushes .minor isDigit pushMinor (fun _ => True) := by
  refine pushing (fun _ => rfl) (fun _ _ _ => rfl) (fun _ _ _ => trivial) fun length req c digit => ?_
  simp [consume,minorLoop,digit,pushMinor,accumulate]

theorem pushName_cons (req : Request) (c : UInt8) (rest : Bytes) :
    pushName (pushName req [c]) rest = pushName req (c :: rest) := by
  simp only [pushName,onBack_onBack,Function.comp_def,List.append_assoc,List.singleton_append]

theorem pushValue_cons (req : Request) (c : UInt8) (rest : Bytes) :
    pushValue (pushValue req [c]) rest = pushValue req (c :: rest) := by
  simp only [pushValue,onBack_onBack,Function.comp_def,List.append_assoc,List.singleton_append]

theorem nameLoops : Pushes .name isToken pushName (fun _ => True) := by
  refine pushing ?_ pushName_cons (fun _ _ _ => trivial) fun length req c token => ?_
  · intro req
    simp only [pushName,List.append_nil,onBack_self]
  · have other : c ≠ colon := apart token (by decide)
    simp [consume,nameLoop,token,other,pushName]

theorem valueLoops : Pushes .value isText pushValue (fun _ => True) := by
  refine pushing ?_ pushValue_cons (fun _ _ _ => trivial) fun length req c text => ?_
  · intro req
    simp only [pushValue,List.append_nil,onBack_self]
  · have other : c ≠ cr := apart text (by decide)
    simp [consume,valueLoop,text,other,pushValue]

theorem blanksLoops : Pushes .blanks isBlank (fun req _ => req) (fun _ => True) := by
  refine pushing (fun _ => rfl) (fun _ _ _ => rfl) (fun _ _ _ => trivial) fun length req c blank => ?_
  simp [consume,blanksLoop,blank]

section Until
variable {reenter after : Reenter} {test : UInt8 → Bool} {push : Request → Bytes → Request} {holds : Request → Prop}
  {stop : UInt8} (pushes : Pushes reenter test push holds)
  (stops : ∀ length req c, holds req → test c = false → (⟨reenter,length⟩ : Consumer).consume req c =
    if c ≠ stop then fail ⟨reenter,length⟩ req else await ⟨reenter,length⟩ req after)
include stops

theorem stops_take : ∀ (state : Consumer × Request) (c : UInt8), state.1.reenter = reenter ∧ holds state.2 →
    test c = false → take state c = if c = stop then .more ({state.1 with reenter := after},state.2) else .rejected := by
  intro state c inside fails
  obtain ⟨⟨_,length⟩,req⟩ := state
  obtain ⟨rfl,holds⟩ := inside
  rw [take,stops length req c holds fails,outcome_unless]
  rfl

include pushes

theorem until_reads (other : test stop = false) (here : holds req) : Reads reenter length req text out ↔
    ∃ taken rest, text = taken ++ stop :: rest ∧ taken.all test = true ∧
      Reads after length (push req taken) rest out :=
  pushes.accepts_until (stops_take stops) other ⟨rfl,here⟩

theorem some_until_reads (other : test stop = false) {entry : Consumer × Request}
    (enters : ∀ c, test c = true → take entry c = .more (⟨reenter,length⟩,push req [c]) ∧ holds (push req [c]))
    (refuses : ∀ c, test c = false → take entry c = .rejected) : Accepts take (.more entry) text out ↔
      ∃ taken rest, text = taken ++ stop :: rest ∧ (taken ≠ [] ∧ taken.all test = true) ∧
        Reads after length (push req taken) rest out := by
  refine @Loops.accepts_some_until _ _ _ take _ test _ (⟨reenter,length⟩,req) text out _ stop _ (stops_take stops) pushes
    other entry (fun c passes => ?_) refuses
  obtain ⟨goes,kept⟩ := enters c passes
  exact ⟨goes,rfl,kept⟩

end Until

def cleared (req : Request) : Request :=
  {req with method := [],uri := [],httpVersionMajor := 0,httpVersionMinor := 0,headers := [],content := []}

theorem start_reads : Reads .start length req text out ↔
    ∃ method rest, text = method ++ space :: rest ∧ (method ≠ [] ∧ method.all isToken = true) ∧
      Reads .uri 0 (pushMethod (cleared req) method) rest out := by
  refine some_until_reads methodLoops ?_ (by decide) ?_ ?_
  · intro length req c some fails
    simp [consume,methodLoop,fails,some]
  · intro c token
    have other : c ≠ space := apart token (by decide)
    refine ⟨?_,by simp [pushMethod]⟩
    simp [take,consume,methodLoop,token,other,await,outcome,pushMethod,cleared]
  · intro c fails
    simp [take,consume,methodLoop,fails,fail,outcome]

theorem uri_reads (blank : req.uri = []) : Reads .uri length req text out ↔
    ∃ uri rest, text = uri ++ space :: rest ∧ (uri ≠ [] ∧ uri.all isTarget = true) ∧
      Reads (.protocol 0) length (pushUri req uri) rest out := by
  refine some_until_reads uriLoops ?_ (by decide) ?_ ?_
  · intro length req c some fails
    simp [consume,uriLoop,fails,some]
  · intro c target
    refine ⟨?_,by simp [pushUri]⟩
    simp [take,consume,uriLoop,target,await,outcome,pushUri]
  · intro c fails
    simp [take,consume,uriLoop,fails,fail,outcome,blank]

theorem majorFirst_reads : Reads .majorFirst length req text out ↔
    ∃ digits rest, text = digits ++ 46 :: rest ∧ (digits ≠ [] ∧ digits.all isDigit = true) ∧
      Reads .minorFirst length (pushMajor req digits) rest out := by
  refine some_until_reads majorLoops ?_ (by decide) ?_ ?_
  · intro length req c _ fails
    simp [consume,majorLoop,fails]
  · intro c digit
    refine ⟨?_,trivial⟩
    simp [take,consume,majorLoop,digit,await,outcome,pushMajor,accumulate]
  · intro c fails
    simp [take,consume,fails,fail,outcome]

theorem minorFirst_reads : Reads .minorFirst length req text out ↔
    ∃ digits rest, text = digits ++ cr :: rest ∧ (digits ≠ [] ∧ digits.all isDigit = true) ∧
      Reads .startLineEnd length (pushMinor req digits) rest out := by
  refine some_until_reads minorLoops ?_ (by decide) ?_ ?_
  · intro length req c _ fails
    simp [consume,minorLoop,fails]
  · intro c digit
    refine ⟨?_,trivial⟩
    simp [take,consume,minorLoop,digit,await,outcome,pushMinor,accumulate]
  · intro c fails
    simp [take,consume,fails,fail,outcome]

theorem value_reads : Reads .value length req text out ↔
    ∃ value rest, text = value ++ (crlf ++ rest) ∧ value.all isText = true ∧
      Reads .headers length (pushValue req value) rest out := by
  have stops (length : Nat) (req : Request) (c : UInt8) (_ : True) (fails : isText c = false) :
      (⟨.value,length⟩ : Consumer).consume req c =
        if c ≠ cr then fail ⟨.value,length⟩ req else await ⟨.value,length⟩ req .lineEnd := by
    simp [consume,valueLoop,fails]
  rw [until_reads valueLoops stops (by decide) trivial]
  constructor
  · intro found
    obtain ⟨value,_,rfl,all,behind⟩ := found
    obtain ⟨rest,rfl,onward⟩ := lineEnd_reads.mp behind
    exact ⟨value,rest,rfl,all,onward⟩
  · intro found
    obtain ⟨value,rest,rfl,all,onward⟩ := found
    exact ⟨value,lf :: rest,rfl,all,lineEnd_reads.mpr ⟨rest,rfl,onward⟩⟩

theorem name_reads : Reads .name length req text out ↔
    ∃ name rest, text = name ++ (colon :: space :: rest) ∧ name.all isToken = true ∧
      Reads .value length (pushName req name) rest out := by
  have stops (length : Nat) (req : Request) (c : UInt8) (_ : True) (fails : isToken c = false) :
      (⟨.name,length⟩ : Consumer).consume req c =
        if c ≠ colon then fail ⟨.name,length⟩ req else await ⟨.name,length⟩ req .nameEnd := by
    simp [consume,nameLoop,fails]
  rw [until_reads nameLoops stops (by decide) trivial]
  constructor
  · intro found
    obtain ⟨name,_,rfl,all,behind⟩ := found
    obtain ⟨rest,rfl,onward⟩ := nameEnd_reads.mp behind
    exact ⟨name,rest,rfl,all,onward⟩
  · intro found
    obtain ⟨name,rest,rfl,all,onward⟩ := found
    exact ⟨name,space :: rest,rfl,all,nameEnd_reads.mpr ⟨rest,rfl,onward⟩⟩

theorem headers_blank {c : UInt8} (blank : isBlank c = true) : Reads .headers length req (c :: text) out ↔
    req.headers ≠ [] ∧ Reads .blanks length req text out := by
  rw [Reads,accepts_cons]
  by_cases none : req.headers = []
  · simp [take,consume,headerLoop,blank,none,fail,outcome]
  · simp [take,consume,headerLoop,blanksLoop,blank,none,await,outcome]

def opened (req : Request) : Request := {req with headers := req.headers ++ [⟨[],[]⟩]}

theorem headers_token {c : UInt8} (token : isToken c = true) : Reads .headers length req (c :: text) out ↔
    Reads .name length (pushName (opened req) [c]) text out := by
  have notBlank : isBlank c = false := by
    have other : c ≠ space ∧ c ≠ 9 := ⟨apart token (by decide),apart token (by decide)⟩
    simp [isBlank,other]
  have other : c ≠ cr ∧ c ≠ colon := ⟨apart token (by decide),apart token (by decide)⟩
  rw [Reads,accepts_cons]
  simp [take,consume,headerLoop,nameLoop,token,notBlank,other,await,outcome,pushName,opened]

theorem headers_end {c : UInt8} (notBlank : isBlank c = false) (notToken : isToken c = false) :
    Reads .headers length req (c :: text) out ↔ c = cr ∧ Reads .headEnd length req text out := by
  rw [Reads,accepts_cons]
  by_cases last : c = cr
  · subst last
    simp [take,consume,headerLoop,notToken,notBlank,await,outcome]
  · simp [take,consume,headerLoop,notToken,notBlank,last,fail,outcome]

theorem blanks_reads (first : ∀ c ∈ text.head?, isBlank c = false) : Reads .blanks length req text out ↔
    Reads .value length req text out := by
  cases text with
  | nil => simp
  | cons c text =>
    have notBlank : isBlank c = false := first c rfl
    have same : take (⟨.blanks,length⟩,req) c = take (⟨.value,length⟩,req) c := by
      simp only [take,consume,blanksLoop,notBlank,Bool.false_eq_true,if_false,valueLoop]
      split_ifs <;> rfl
    rw [Reads,Reads,accepts_cons,accepts_cons,same]

def addLine (req : Request) (line : HeadLine) : Request := {req with headers := line.add req.headers}

theorem push_field (name value : Bytes) : pushValue (pushName (opened req) name) value = addLine req (.field name value) := by
  simp [pushValue,pushName,opened,addLine,HeadLine.add,onBack_snoc]

theorem reads_line {line : HeadLine} (wellFormed : line.WellFormed) (behind : line.isField = false → req.headers ≠ [])
    {rest : Bytes} (onward : Reads .headers length (addLine req line) rest out) :
    Reads .headers length req (line.bytes ++ rest) out := by
  cases line with
  | field name value =>
    obtain ⟨some,token,all⟩ := wellFormed
    obtain ⟨c,name,rfl⟩ := List.exists_cons_of_ne_nil some
    obtain ⟨first,token⟩ := Bool.and_eq_true_iff.mp token
    rw [← push_field,← pushName_cons] at onward
    simp only [HeadLine.bytes,List.cons_append,List.append_assoc]
    rw [headers_token first]
    exact name_reads.mpr ⟨name,_,rfl,token,value_reads.mpr ⟨value,rest,rfl,all,onward⟩⟩
  | folded blanks value =>
    obtain ⟨some,blank,all,first⟩ := wellFormed
    obtain ⟨c,blanks,rfl⟩ := List.exists_cons_of_ne_nil some
    obtain ⟨leads,blank⟩ := Bool.and_eq_true_iff.mp blank
    have stop : ∀ c ∈ (value ++ (crlf ++ rest)).head?, isBlank c = false := by
      intro d leads
      cases value with
      | nil =>
        obtain rfl : cr = d := Option.some.inj leads
        decide
      | cons e value =>
        obtain rfl : e = d := Option.some.inj leads
        simpa using first
    simp only [HeadLine.bytes,List.cons_append,List.append_assoc]
    rw [headers_blank leads,Reads,blanksLoops.accepts_append ⟨rfl,trivial⟩ blank]
    exact ⟨behind rfl,(blanks_reads stop).mpr (value_reads.mpr ⟨value,rest,rfl,all,onward⟩)⟩

theorem line_of_reads (whole : Reads .headers length req text out) :
    (∃ line rest, text = line.bytes ++ rest ∧ line.WellFormed ∧ (line.isField = false → req.headers ≠ []) ∧
      Reads .headers length (addLine req line) rest out) ∨
    ∃ rest, text = crlf ++ rest ∧ Accepts take (outcome (endHead ⟨.headEnd,length⟩ req)) rest out := by
  cases text with
  | nil => exact absurd whole not_accepts_nil
  | cons c text =>
    cases leads : isBlank c with
    | true =>
      left
      obtain ⟨some,inside⟩ := (headers_blank leads).mp whole
      obtain ⟨blanks,behind,rfl,blank,stop,tail⟩ := (blanksLoops.accepts ⟨rfl,trivial⟩).mp inside
      obtain ⟨value,rest,rfl,all,onward⟩ := value_reads.mp ((blanks_reads stop).mp tail)
      refine ⟨.folded (c :: blanks) value,rest,by simp [HeadLine.bytes],?_,fun _ => some,onward⟩
      refine ⟨List.cons_ne_nil _ _,Bool.and_eq_true_iff.mpr ⟨leads,blank⟩,all,?_⟩
      cases value with
      | nil => rfl
      | cons d value => simp [stop d rfl]
    | false =>
      cases token : isToken c with
      | true =>
        left
        obtain ⟨name,tail,rfl,tokens,behind⟩ := name_reads.mp ((headers_token token).mp whole)
        obtain ⟨value,rest,rfl,all,onward⟩ := value_reads.mp behind
        rw [pushName_cons,push_field] at onward
        refine ⟨.field (c :: name) value,rest,by simp [HeadLine.bytes],?_,?_,onward⟩
        · exact ⟨List.cons_ne_nil _ _,Bool.and_eq_true_iff.mpr ⟨token,tokens⟩,all⟩
        · intro folded
          cases folded
      | false =>
        right
        obtain ⟨rfl,behind⟩ := (headers_end leads token).mp whole
        obtain ⟨rest,rfl,onward⟩ := headEnd_reads.mp behind
        exact ⟨rest,rfl,onward⟩

theorem addLines_eq (lines : List HeadLine) (req : Request) :
    lines.foldl addLine req = {req with headers := lines.foldl HeadLine.add req.headers} := by
  induction lines generalizing req with
  | nil => rfl
  | cons line lines ih => rw [List.foldl_cons,ih]; rfl

theorem lines_reads : Reads .headers length req text out ↔
    ∃ (lines : List HeadLine) (rest : Bytes), text = (lines.map HeadLine.bytes).flatten ++ (crlf ++ rest) ∧
      (∀ line ∈ lines, line.WellFormed) ∧ (req.headers = [] → lines.head?.all HeadLine.isField = true) ∧
      Accepts take (outcome (endHead ⟨.headEnd,length⟩ (lines.foldl addLine req))) rest out := by
  constructor
  · intro whole
    induction long : text.length using Nat.strong_induction_on generalizing req text with
    | _ n ih =>
      rcases line_of_reads whole with ⟨line,tail,rfl,wellFormed,behind,onward⟩ | ⟨rest,rfl,onward⟩
      · have shorter : tail.length < n := by
          rw [← long,List.length_append]
          exact Nat.lt_add_of_pos_left line.bytes_pos
        obtain ⟨lines,rest,rfl,all,_,last⟩ := ih tail.length shorter onward rfl
        refine ⟨line :: lines,rest,by simp,List.forall_mem_cons.mpr ⟨wellFormed,all⟩,?_,last⟩
        intro none
        by_contra folded
        exact behind (Bool.eq_false_iff.mpr folded) none
      · exact ⟨[],rest,rfl,List.forall_mem_nil _,fun _ => rfl,onward⟩
  · intro found
    obtain ⟨lines,rest,same,wellFormed,opens,onward⟩ := found
    subst same
    induction lines generalizing req with
    | nil =>
      have stops : isBlank cr = false ∧ isToken cr = false := by decide
      exact (headers_end stops.1 stops.2).mpr ⟨rfl,headEnd_reads.mpr ⟨rest,rfl,onward⟩⟩
    | cons line lines ih =>
      obtain ⟨first,wellFormed⟩ := List.forall_mem_cons.mp wellFormed
      have behind : line.isField = false → req.headers ≠ [] := by
        intro folded none
        cases folded.symm.trans (opens none)
      rw [List.map_cons,List.flatten_cons,List.append_assoc]
      refine reads_line first behind (ih wellFormed ?_ onward)
      intro none
      exact absurd none (line.add_ne_nil behind)

theorem content_reads {reenter : Reenter} (fits : req.content.length ≤ length) :
    Accepts take (outcome (contentLoop ⟨reenter,length⟩ req)) text out ↔
      req.content.length + text.length = length ∧ out = {req with content := req.content ++ text} := by
  induction text generalizing reenter req with
  | nil =>
    by_cases more : req.content.length < length
    · simp [contentLoop,more,await,outcome]
      omega
    · simp [contentLoop,more,outcome]
      omega
  | cons c text ih =>
    by_cases more : req.content.length < length
    · have step : outcome (contentLoop ⟨reenter,length⟩ req) = .more (⟨.content,length⟩,req) := by
        simp [contentLoop,more,await,outcome]
      rw [step,accepts_cons,take,consume,ih (by simp; omega)]
      simp
      omega
    · simp [contentLoop,more,outcome]
      omega

theorem endHead_reads (blank : req.content = []) : Accepts take (outcome (endHead ⟨.headEnd,length⟩ req)) text out ↔
    readLengths req.headers length = (true,text.length) ∧ out = {req with content := text} := by
  rw [endHead]
  generalize readLengths req.headers length = read
  obtain ⟨ok,declared⟩ := read
  cases ok with
  | true =>
    dsimp only
    rw [content_reads (by simp [blank])]
    simp [blank,eq_comm]
  | false => simp [fail,outcome]

theorem toInt32_digit (n d : Nat) : (toInt32 n * 10 + d).bmod (2^32) = toInt32 (10 * n + d) := by
  have wrapped (n c : Int) (m : Nat) : (n.bmod m * 10 + c).bmod m = (n * 10 + c).bmod m := by
    rw [← Int.bmod_add_bmod,Int.bmod_mul_bmod,Int.bmod_add_bmod]
  have next : (n : Int) * 10 + d = (10 * n + d : Nat) := by omega
  unfold toInt32
  rw [wrapped,next]

theorem versionDigit_toInt32 {c : UInt8} (n : Nat) (digit : isDigit c = true) :
    versionDigit (toInt32 n) c = toInt32 (10 * n + (c.toNat - 48)) := by
  have low : 48 ≤ c.toNat := by
    simp only [isDigit,Bool.and_eq_true,decide_eq_true_iff,UInt8.le_iff_toNat_le] at digit
    exact digit.1
  have value : (c.toNat : Int) - 48 = (c.toNat - 48 : Nat) := by omega
  rw [versionDigit,Int.add_sub_assoc,value,toInt32_digit]

theorem accumulate_eq {digits : Bytes} (all : digits.all isDigit = true) (n : Nat) :
    accumulate (toInt32 n) digits = toInt32 (digits.foldl (fun n b => 10 * n + (b.toNat - 48)) n) := by
  unfold accumulate
  induction digits generalizing n with
  | nil => rw [List.foldl_nil,List.foldl_nil]
  | cons c digits ih =>
    obtain ⟨digit,all⟩ := Bool.and_eq_true_iff.mp all
    rw [List.foldl_cons,List.foldl_cons,versionDigit_toInt32 n digit,ih all]

end Steps

end Consumer

namespace Message
open Consumer

def started (message : Message) (initial : Request) : Request :=
  pushMinor (pushMajor (pushUri (pushMethod (cleared initial) message.method) message.uri) message.major) message.minor

theorem request_eq (message : Message) (initial : Request) :
    {message.started initial with headers := message.headers,content := message.body} = message.request initial := by
  have major := accumulate_eq message.majorDigits.2 0
  have minor := accumulate_eq message.minorDigits.2 0
  have zero : toInt32 0 = 0 := rfl
  rw [zero] at major minor
  simp only [started,request,pushMinor,pushMajor,pushUri,pushMethod,cleared,List.nil_append,major,minor,digitsValue]

/-- `consume` reads the text of a message. -/
theorem accepted (message : Message) (initial : Request) (length : Nat) :
    Accepts take (.more (⟨.start,length⟩,initial)) message.bytes (message.request initial) := by
  rw [← message.request_eq]
  have content : Accepts take (outcome (endHead ⟨.headEnd,0⟩
      (message.lines.foldl addLine (message.started initial)))) message.body
      {message.started initial with headers := message.headers,content := message.body} := by
    rw [addLines_eq,endHead_reads rfl]
    exact ⟨message.length,rfl⟩
  have head := lines_reads.mpr ⟨message.lines,message.body,rfl,message.wellFormed,fun _ => message.opens,content⟩
  have lines := startLineEnd_reads.mpr ⟨_,rfl,head⟩
  have minor := minorFirst_reads.mpr ⟨message.minor,_,rfl,message.minorDigits,lines⟩
  have major := majorFirst_reads.mpr ⟨message.major,_,rfl,message.majorDigits,minor⟩
  have name := httpName_reads.mpr ⟨_,rfl,major⟩
  have uri := (uri_reads rfl).mpr ⟨message.uri,_,rfl,message.uriTarget,name⟩
  have method := (@start_reads length).mpr ⟨message.method,_,rfl,message.methodToken,uri⟩
  simpa [Message.bytes,Message.startLine,crlf] using method

end Message

/-- From a new parser on, `consume` takes a text to its end, and accepts it with its last character
and no earlier, exactly if it is the text of a message; and the request is then what the message
says. -/
theorem consume_accepts (initial : Request) (length : Nat) (text : Bytes) (out : Request) :
    Accepts Consumer.take (.more (⟨.start,length⟩,initial)) text out ↔
      ∃ message : Message, text = message.bytes ∧ out = message.request initial := by
  constructor
  · intro whole
    obtain ⟨method,_,rfl,methodToken,behindMethod⟩ := Consumer.start_reads.mp whole
    obtain ⟨uri,_,rfl,uriTarget,behindUri⟩ := (Consumer.uri_reads rfl).mp behindMethod
    obtain ⟨_,rfl,behindName⟩ := Consumer.httpName_reads.mp behindUri
    obtain ⟨major,_,rfl,majorDigits,behindMajor⟩ := Consumer.majorFirst_reads.mp behindName
    obtain ⟨minor,_,rfl,minorDigits,behindMinor⟩ := Consumer.minorFirst_reads.mp behindMajor
    obtain ⟨_,rfl,behindStart⟩ := Consumer.startLineEnd_reads.mp behindMinor
    obtain ⟨lines,body,rfl,wellFormed,opens,behindHead⟩ := Consumer.lines_reads.mp behindStart
    rw [Consumer.addLines_eq,Consumer.endHead_reads rfl] at behindHead
    obtain ⟨declared,rfl⟩ := behindHead
    let message : Message :=
      ⟨method,uri,major,minor,lines,body,methodToken,uriTarget,majorDigits,minorDigits,wellFormed,opens rfl,declared⟩
    refine ⟨message,?_,message.request_eq initial⟩
    simp [message,Message.bytes,Message.startLine,crlf]
  · intro found
    obtain ⟨message,rfl,rfl⟩ := found
    exact message.accepted initial length

def foldedMessage : Message where
  method := ascii "PUT"
  uri := ascii "*"
  major := ascii "01"
  minor := ascii "10"
  lines := [.field (ascii "Content-Length") (ascii "1"),.folded (ascii "  ") (ascii "0"),.field (ascii "To") []]
  body := ascii "0123456789"
  methodToken := by decide
  uriTarget := by decide
  majorDigits := by decide
  minorDigits := by decide
  wellFormed := by decide
  opens := by decide
  length := by decide

/-- Nothing stands between the parts of a value. -/
example : foldedMessage.headers = [⟨ascii "Content-Length",ascii "10"⟩,⟨ascii "To",[]⟩] := by decide

end FuturesCellProxy.Server

import FuturesCellProxy.Proxy.RequestHandler
import FuturesCellProxy.Server.Targets

/-! From the request line to the operation that is run: nothing that follows the name of an
operation in the request line reaches into the name. -/
namespace FuturesCellProxy.Server
open Foundation

def percent : UInt8 := 37
def plus : UInt8 := 43

/-- What may follow the name of an operation in a request line. -/
structure Suffix where
  text : Bytes
  start : ∀ b ∈ text.head?, b = slash ∨ b = question
  inside : Inline text
  noSpace : space ∉ text

/-- No byte of a name means anything to the functions that a request line goes through. -/
structure PlainName (name : Bytes) : Prop where
  nonempty : name ≠ []
  noColon : colon ∉ name
  noSlash : slash ∉ name
  noQuestion : question ∉ name
  noSpace : space ∉ name
  noPercent : percent ∉ name
  noPlus : plus ∉ name

instance (name : Bytes) : Decidable (PlainName name) :=
  decidable_of_iff (name ≠ [] ∧ colon ∉ name ∧ slash ∉ name ∧ question ∉ name ∧ space ∉ name ∧
      percent ∉ name ∧ plus ∉ name)
    ⟨fun ⟨nonempty,noColon,noSlash,noQuestion,noSpace,noPercent,noPlus⟩ =>
      ⟨nonempty,noColon,noSlash,noQuestion,noSpace,noPercent,noPlus⟩,
      fun plain => ⟨plain.nonempty,plain.noColon,plain.noSlash,plain.noQuestion,plain.noSpace,
        plain.noPercent,plain.noPlus⟩⟩

section
variable {pattern word rest : Bytes} (scheme : Scheme pattern word rest)
include scheme

/-- A scheme does not begin in a text without colon that ends at a slash, at a question
mark or with the line. -/
theorem Scheme.apart {part text : Bytes} (noColon : colon ∉ part)
    (start : ∀ b ∈ text.head?, b = slash ∨ b = question) : ¬ pattern <+: part ++ text := by
  rintro ⟨tail,here⟩
  rw [scheme.shape,List.append_assoc,List.cons_append] at here
  rcases split_append here.symm with ⟨_,inside,_⟩ | ⟨behind,shape,first⟩
  · exact noColon (by simp [inside])
  · cases behind with
    | nil => rcases start colon (by simp [first]) with same | same <;> revert same <;> decide
    | cons b behind =>
      have member : b ∈ word := by simp [shape]
      rcases start b (by simp [first]) with rfl | rfl
      · exact scheme.noSlash member
      · exact scheme.noQuestion member

/-- Erasing a scheme touches neither the name nor the byte behind it. -/
theorem Scheme.eraseAll_name {name text : Bytes} (plain : PlainName name)
    (start : ∀ b ∈ text.head?, b = slash ∨ b = question) :
    ∃ text', eraseAll pattern 0 (name ++ text) = name ++ text' ∧ text'.head? = text.head? := by
  refine ⟨eraseAll pattern 0 text,?_,?_⟩
  · apply eraseAll_append
    intro part inside
    exact scheme.apart (fun member => plain.noColon (inside.mem member)) start
  · cases text with
    | nil => rfl
    | cons b text =>
      have elsewhere : ¬ pattern.isPrefixOf (b :: text) = true := by
        rw [List.isPrefixOf_iff_prefix]
        exact scheme.apart List.not_mem_nil start
      rw [eraseAll,if_neg elsewhere]
      rfl

end

theorem trimUri_name {name : Bytes} (plain : PlainName name) (suffix : Suffix) :
    trimUri (name ++ suffix.text) = name := by
  obtain ⟨text,lower,first⟩ := scheme_lower.eraseAll_name plain suffix.start
  have start : ∀ b ∈ text.head?, b = slash ∨ b = question := first ▸ suffix.start
  obtain ⟨text',upper,first'⟩ := scheme_upper.eraseAll_name plain start
  have start' : ∀ b ∈ text'.head?, b = slash ∨ b = question := first' ▸ start
  obtain ⟨b,more,split⟩ := List.exists_cons_of_ne_nil plain.nonempty
  have notSlash : (name ++ text'.takeWhile (· ≠ 63)).head? ≠ some slash := by
    rw [split]
    intro same
    exact plain.noSlash (by simp [split,Option.some.inj same])
  rw [trimUri]
  simp only [lower,upper]
  rw [takeWhile_until 63 plain.noQuestion,if_neg notSlash,takeWhile_until slash plain.noSlash]
  -- whichever of the two comes first, the text behind the name is cut off
  cases text' with
  | nil => simp
  | cons c rest => rcases start' c rfl with rfl | rfl <;> simp [slash,question]

theorem urlDecode_name {name : Bytes} (noPercent : percent ∉ name) (noPlus : plus ∉ name) :
    urlDecode name = some name := by
  induction name with
  | nil => rfl
  | cons b name ih =>
    rw [List.mem_cons,not_or] at noPercent noPlus
    have b_percent : b ≠ 37 := Ne.symm noPercent.1
    have b_plus : b ≠ 43 := Ne.symm noPlus.1
    unfold urlDecode
    rw [if_neg b_percent,ih noPercent.2 noPlus.2,if_neg b_plus]
    rfl

end FuturesCellProxy.Server

namespace FuturesCellProxy.Proxy
open Foundation Rpc

theorem find_empty : Operation.find [] = none := by decide +kernel

theorem registrations_plain : ∀ entry ∈ Operation.registrations, Server.PlainName (ascii entry.2) := by
  decide +kernel

section
variable (flags : Flags) (platform : Platform) (codec : Codec)

/-- A request at this path runs the handler of this operation once, on its content, and is
answered with what the handler puts out. -/
structure Runs (op : Operation) (reqPath : Bytes) (received : Server.Request) (rep : Server.Reply) : Prop where
  invoked : ∃ name, Operation.find name = some op ∧ ∀ outData,
    Server.proccessReqFromHandle Operation.registered reqPath received outData rep =
      (some ⟨name,received.content⟩,Server.buidlReply outData)
  runs : ∀ trace result, Run (proccessReq flags platform codec reqPath received rep) trace result ↔
    ∃ handled, Run (op.addHandle flags platform codec received.content) trace handled ∧
      result = handled.map fun handled => Server.buidlReply handled.out

structure NotFound (reqPath : Bytes) (received : Server.Request) (rep : Server.Reply) : Prop where
  uninvoked : ∀ outData, Server.proccessReqFromHandle Operation.registered reqPath received outData rep =
    (none,{rep with status := .notFound})
  runs : ∀ trace result, Run (proccessReq flags platform codec reqPath received rep) trace result ↔
    trace = [] ∧ result = some {rep with status := .notFound}

variable {reqPath : Bytes} {received : Server.Request} (rep : Server.Reply)

theorem runs_of_findHandle {op : Operation} {name : Bytes}
    (found : Server.findHandle Operation.registered received reqPath = some name) (known : Operation.find name = some op) :
    Runs flags platform codec op reqPath received rep := by
  obtain ⟨op',known',runs⟩ := proccessReq_run flags platform codec rep found
  obtain rfl := Option.some.inj (known.symm.trans known')
  refine ⟨⟨name,known,fun outData => ?_⟩,runs⟩
  simp [Server.proccessReqFromHandle,found,not_echo_of_registered (registered_of_findHandle found)]

theorem notFound_of_findHandle (missing : Server.findHandle Operation.registered received reqPath = none) :
    NotFound flags platform codec reqPath received rep := by
  have uninvoked (outData : Bytes) : Server.proccessReqFromHandle Operation.registered reqPath received outData rep =
      (none,{rep with status := .notFound}) := by
    simp [Server.proccessReqFromHandle,missing]
  refine ⟨uninvoked,fun trace result => ?_⟩
  rw [proccessReq,missing,Option.bind_none]
  simp only [uninvoked,Run.pure_iff]

/-- A request line with the name of an operation leads to that operation, whatever follows
the name; any other path leads to the operation that the command names, if it names one. -/
theorem routing :
    (∀ entry ∈ Operation.registrations, ∀ suffix : Server.Suffix,
      (∀ req, Server.getHttpUri req (ascii "POST /" ++ (ascii entry.2 ++ suffix.text) ++ ascii " HTTP/1.1" ++ crlf) =
        (true,{req with method := req.method ++ ascii "POST",uri := ascii entry.2})) ∧
      Server.urlDecode (ascii entry.2) = some (ascii entry.2) ∧
      ∀ received rep, Runs flags platform codec entry.1 (ascii entry.2) received rep) ∧
    (∀ received rep reqPath, Server.urlDecode received.uri = some reqPath → Operation.find reqPath = none →
      match Operation.find received.reqCmd with
      | some op => Runs flags platform codec op reqPath received rep
      | none => NotFound flags platform codec reqPath received rep) := by
  constructor
  · intro entry member suffix
    have plain := registrations_plain entry member
    have known := (Operation.find_registrations entry member).1
    have nonempty : ascii entry.2 ++ suffix.text ≠ [] := by simp [plain.nonempty]
    have noSpace : space ∉ ascii entry.2 ++ suffix.text := by
      rw [List.mem_append,not_or]
      exact ⟨plain.noSpace,suffix.noSpace⟩
    refine ⟨fun req => ?_,Server.urlDecode_name plain.noPercent plain.noPlus,fun received rep => ?_⟩
    · rw [Server.getHttpUri_startLine nonempty noSpace,Server.trimUri_name plain suffix]
    · apply runs_of_findHandle flags platform codec rep _ known
      simp [Server.findHandle,Operation.registered,known]
  · intro received rep reqPath _ unknown
    split
    next op command =>
      have some_command : received.reqCmd ≠ [] := by
        intro empty
        rw [empty,find_empty] at command
        cases command
      apply runs_of_findHandle flags platform codec rep _ command
      simp [Server.findHandle,Operation.registered,unknown,command,some_command]
    next command =>
      apply notFound_of_findHandle
      simp [Server.findHandle,Operation.registered,unknown,command]

end

/-- A suffix with a scheme, percent signs and a query of its own. -/
def sampleSuffix : Server.Suffix where
  text := ascii "/http://%zz+/HTTP://?a=/FuturesTrade"
  start := by decide +kernel
  inside := by decide +kernel
  noSpace := by decide +kernel

def byCommand : Server.Request := {Server.Request.reset with uri := ascii "Stray",reqCmd := ascii "FuturesKLine"}

/-- A codec for messages without fields. -/
def blankCodec : Codec where
  parseFromString op _ := (true,op.emptyRequest)
  serializeToString _ _ := []

theorem routing_sample :
    (∀ req, Server.getHttpUri req
        (ascii "POST /" ++ (ascii "QueryUserStatus" ++ sampleSuffix.text) ++ ascii " HTTP/1.1" ++ crlf) =
      (true,{req with method := req.method ++ ascii "POST",uri := ascii "QueryUserStatus"})) ∧
    Runs {} .sample blankCodec .futuresKLine (ascii "Stray") byCommand {status := .ok} := by
  have member : (Operation.queryUserStatus,"QueryUserStatus") ∈ Operation.registrations := by decide
  have command : Operation.find byCommand.reqCmd = some .futuresKLine := by decide +kernel
  have stray := (routing {} .sample blankCodec).2 byCommand {status := .ok} (ascii "Stray") (by decide +kernel)
    (by decide +kernel)
  rw [command] at stray
  exact ⟨((routing {} .sample blankCodec).1 _ member sampleSuffix).1,stray⟩

end FuturesCellProxy.Proxy

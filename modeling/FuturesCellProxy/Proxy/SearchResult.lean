import FuturesCellProxy.Proxy.HttpSearch

/-! The answer of the search server, of whatever shape: which JSON values the conversion takes, and
which end it with an exception. -/
namespace FuturesCellProxy
open Foundation

namespace Json

/-- What `asString` gives for a value that has a text. -/
def text : Json → Bytes
  | scalar text => text
  | _ => []

def HasText : Json → Prop
  | null | scalar _ => True
  | _ => False

/-- The member of that name of an object; null when there is none. -/
def field (name : Bytes) : Json → Json
  | object members => (members.lookup name).getD null
  | _ => null

/-- Null, or an object whose two members, if they are there, have texts. -/
def IsSymbol : Json → Prop
  | null => True
  | object members => (field (ascii "futureId") (object members)).HasText ∧
      (field (ascii "futureName") (object members)).HasText
  | _ => False

/-- An array of symbols; or a value without elements. -/
def Convertible : Json → Prop
  | null | scalar _ => True
  | array elements => ∀ element ∈ elements, element.IsSymbol
  | object members => members = []

theorem asString_text {json : Json} (hasText : json.HasText) : json.asString = some json.text := by
  cases json with
  | null => rfl
  | scalar text => rfl
  | array elements => exact hasText.elim
  | object members => exact hasText.elim

theorem asString_none {json : Json} (noText : ¬ json.HasText) : json.asString = none := by
  cases json with
  | null => exact absurd trivial noText
  | scalar text => exact absurd trivial noText
  | array elements => rfl
  | object members => rfl

end Json

namespace Proxy
open Rpc

def symbolItem (element : Json) : FuturesSymbolItem :=
  ⟨some (element.field (ascii "futureId")).text,some (element.field (ascii "futureName")).text⟩

/-- Member access and string conversion on one element. -/
def readSymbol (element : Json) : Option FuturesSymbolItem := do
  let symbol ← (← element.member (ascii "futureId")).asString
  let name ← (← element.member (ascii "futureName")).asString
  return ⟨some symbol,some name⟩

theorem readSymbol_some {element : Json} (isSymbol : element.IsSymbol) :
    readSymbol element = some (symbolItem element) := by
  cases element with
  | null => rfl
  | scalar text => exact isSymbol.elim
  | array elements => exact isSymbol.elim
  | object members =>
    obtain ⟨symbol,name⟩ := isSymbol
    have first : (Json.object members).member (ascii "futureId") = some ((Json.object members).field (ascii "futureId")) :=
      rfl
    have second : (Json.object members).member (ascii "futureName") =
        some ((Json.object members).field (ascii "futureName")) := rfl
    rw [readSymbol,first,second]
    simp only [Option.bind_eq_bind,Option.bind_some,Json.asString_text symbol,Json.asString_text name]
    rfl

theorem readSymbol_none {element : Json} (noSymbol : ¬ element.IsSymbol) : readSymbol element = none := by
  cases element with
  | null => exact absurd trivial noSymbol
  | scalar text => rfl
  | array elements => rfl
  | object members =>
    have first : (Json.object members).member (ascii "futureId") = some ((Json.object members).field (ascii "futureId")) :=
      rfl
    have second : (Json.object members).member (ascii "futureName") =
        some ((Json.object members).field (ascii "futureName")) := rfl
    rw [readSymbol,first,second]
    by_cases symbol : ((Json.object members).field (ascii "futureId")).HasText
    · have name : ¬ ((Json.object members).field (ascii "futureName")).HasText := fun name => noSymbol ⟨symbol,name⟩
      simp only [Option.bind_eq_bind,Option.bind_some,Json.asString_text symbol,Json.asString_none name,Option.bind_none]
    · simp only [Option.bind_eq_bind,Option.bind_some,Json.asString_none symbol,Option.bind_none]

namespace FuturesConvert

theorem toProto_array (elements : List Json) (resp : Symbols) :
    toProtoSymbolByName (.array elements) resp = elements.foldlM (fun resp element =>
      (readSymbol element).map fun item => {resp with symbols := resp.symbols ++ [item]}) resp := by
  have listed : elements = (List.range elements.length).map fun i => elements.getD i .null := by
    apply List.ext_getElem
    · simp
    · intro i inside _
      simp [inside]
  conv_rhs => rw [listed,List.foldlM_map]
  rw [toProtoSymbolByName]
  congr 1
  funext resp i
  simp only [Json.index,Option.bind_eq_bind,Option.bind_some,readSymbol,Option.map_bind,Function.comp_def]
  rfl

theorem toProto_symbols {elements : List Json} (all : ∀ element ∈ elements, element.IsSymbol) (resp : Symbols) :
    toProtoSymbolByName (.array elements) resp =
      some {resp with symbols := resp.symbols ++ elements.map symbolItem} := by
  rw [toProto_array]
  induction elements generalizing resp with
  | nil => simp
  | cons element elements ih =>
    rw [List.foldlM_cons,readSymbol_some (all element (by simp)),Option.map_some,Option.bind_eq_bind,Option.bind_some,
      ih fun other member => all other (by simp [member])]
    simp

theorem toProto_none {elements : List Json} {element : Json} (member : element ∈ elements)
    (noSymbol : ¬ element.IsSymbol) (resp : Symbols) : toProtoSymbolByName (.array elements) resp = none := by
  rw [toProto_array]
  induction elements generalizing resp with
  | nil => cases member
  | cons first elements ih =>
    rw [List.foldlM_cons]
    by_cases here : first.IsSymbol
    · have later : element ∈ elements := by
        rcases List.mem_cons.mp member with rfl | later
        · exact absurd here noSymbol
        · exact later
      rw [readSymbol_some here,Option.map_some,Option.bind_eq_bind,Option.bind_some,ih later]
    · rw [readSymbol_none here]
      rfl

theorem toProto_isSome (root : Json) (resp : Symbols) :
    (toProtoSymbolByName root resp).isSome ↔ root.Convertible := by
  cases root with
  | null => exact iff_of_true rfl trivial
  | scalar text => exact iff_of_true rfl trivial
  | array elements =>
    constructor
    · intro converted element member
      by_contra noSymbol
      rw [toProto_none member noSymbol] at converted
      cases converted
    · intro all
      rw [toProto_symbols all]
      rfl
  | object members =>
    cases members with
    | nil => exact iff_of_true rfl rfl
    | cons first members =>
      -- the first index is already applied to an object
      have failed : toProtoSymbolByName (.object (first :: members)) resp = none := by
        rw [toProtoSymbolByName,Json.size,List.length_cons,List.range_succ_eq_map,List.foldlM_cons]
        rfl
      rw [failed]
      exact iff_of_false (by decide) (List.cons_ne_nil _ _)

end FuturesConvert

/-- The operation returns, with its status; and if this says that it succeeded, the symbols are
those of the elements of the array, one for each, in their order. -/
def Returns (root : Json) (result : Option QuerySymbolByNameReturn) : Prop :=
  ∃ response, result = some response ∧ response.statusInfo.isSome ∧
    (response.status = some FuturesError.success.code → ∀ elements, root = .array elements →
      response.body.symbols = elements.map symbolItem)

section
variable {flags : Flags} {platform : Platform} {req : QuerySymbolByNameRequest} {trace : Trace} {text : Bytes}
variable {root : Json}

theorem querySymbolByName_converts
    (fetch : Run (fnDoCurl (flags.futuresSearchUrl ++ ascii "futures/" ++ req.key) []) trace (curleOk,text))
    (parsed : platform.parseJson text = some root) (result : Option QuerySymbolByNameReturn) :
    Run (FuturesProxy.querySymbolByName flags platform req) trace result ↔
      result = (FuturesConvert.toProtoSymbolByName root {}).map
        fun body => fillStatusInfo {body} .success "SUCCESS" := by
  constructor
  · intro run
    obtain ⟨first,ret,second,fetch',rest,split⟩ := (Run.bind_iff _ _ _ _).mp run
    rw [← List.append_nil trace] at split
    obtain ⟨_,rfl⟩ := Run.unique fetch fetch' split
    dsimp only at rest
    rw [if_neg (not_not_intro rfl),parsed] at rest
    exact ((Run.pure_iff _ _ _).mp rest).2
  · rintro rfl
    rw [← List.append_nil trace]
    refine Run.bind fetch ?_
    dsimp only
    rw [if_neg (not_not_intro rfl),parsed]
    exact .ret _

theorem search_returns_iff
    (fetch : Run (fnDoCurl (flags.futuresSearchUrl ++ ascii "futures/" ++ req.key) []) trace (curleOk,text))
    (parsed : platform.parseJson text = some root) :
    (∀ result, Run (FuturesProxy.querySymbolByName flags platform req) trace result → Returns root result) ↔
      root.Convertible := by
  rw [← FuturesConvert.toProto_isSome root {}]
  constructor
  · intro returns
    obtain ⟨response,same,_⟩ := returns _ ((querySymbolByName_converts fetch parsed _).mpr rfl)
    obtain ⟨symbols,converted,_⟩ := Option.map_eq_some_iff.mp same
    rw [converted]
    rfl
  · intro converted result run
    obtain ⟨symbols,found⟩ := Option.isSome_iff_exists.mp converted
    rw [(querySymbolByName_converts fetch parsed _).mp run,found]
    refine ⟨_,rfl,rfl,?_⟩
    rintro _ elements rfl
    have all : ∀ element ∈ elements, element.IsSymbol := (FuturesConvert.toProto_isSome (.array elements) {}).mp converted
    rw [FuturesConvert.toProto_symbols all] at found
    obtain rfl := Option.some.inj found
    rfl

end

/-- A search server that delivers a text at once. -/
def searchTrace (text : Bytes) : Trace :=
  [⟨.curlInit,true⟩,⟨.curlPerform (ascii "http://search/futures/HSI"),⟨[text],0⟩⟩]

theorem searchTrace_run {text : Bytes} (some_text : text ≠ []) :
    Run (fnDoCurl (ascii "http://search/" ++ ascii "futures/" ++ ascii "HSI") []) (searchTrace text) (curleOk,text) := by
  refine @Run.ask Query Query.Answer _ .curlInit _ true _ _ ?_
  refine @Run.ask Query Query.Answer _ (.curlPerform _) _ ⟨[text],0⟩ _ _ ?_
  change Run (if ([text].flatten).isEmpty = true then _ else pure (curleOk,[text].flatten)) _ _
  rw [List.flatten_cons,List.flatten_nil,List.append_nil,if_neg (by rwa [List.isEmpty_iff])]
  exact .ret _

def listing : Bytes :=
  ascii "[\x7b\"futureId\":\"HSI1612\",\"futureName\":\"Hang Seng\"\x7d,null,\x7b\"futureName\":\"Gold\",\"futureId\":1\x7d]"

def listed : Json :=
  .array [.object [(ascii "futureId",.scalar (ascii "HSI1612")),(ascii "futureName",.scalar (ascii "Hang Seng"))],
    .null,.object [(ascii "futureName",.scalar (ascii "Gold")),(ascii "futureId",.scalar (ascii "1"))]]

def parseSample (text : Bytes) : Option Json :=
  if text = ascii "[1]" then some (.array [.scalar (ascii "1")])
  else if text = listing then some listed
  else none

def searchServer : Platform where
  __ := Platform.sample
  parseJson := parseSample

def searchFlags : Flags where
  futuresSearchUrl := ascii "http://search/"

theorem returns_listed :
    (∀ result, Run (FuturesProxy.querySymbolByName searchFlags searchServer {key := ascii "HSI"})
      (searchTrace listing) result → Returns listed result) ↔ listed.Convertible :=
  search_returns_iff (searchTrace_run (by decide)) (by rfl)

theorem number_escapes :
    Run (fnDoCurl (ascii "http://search/" ++ ascii "futures/" ++ ascii "HSI") []) (searchTrace (ascii "[1]"))
      (curleOk,ascii "[1]") ∧
    searchServer.parseJson (ascii "[1]") = some (.array [.scalar (ascii "1")]) ∧
    ¬ ∀ result, Run (FuturesProxy.querySymbolByName searchFlags searchServer {key := ascii "HSI"})
      (searchTrace (ascii "[1]")) result → Returns (.array [.scalar (ascii "1")]) result := by
  have fetch := @searchTrace_run (ascii "[1]") (by decide)
  have parsed : searchServer.parseJson (ascii "[1]") = some (.array [.scalar (ascii "1")]) := rfl
  refine ⟨fetch,parsed,?_⟩
  intro returns
  have escaped : Run (FuturesProxy.querySymbolByName searchFlags searchServer {key := ascii "HSI"})
      (searchTrace (ascii "[1]")) none :=
    (@querySymbolByName_converts searchFlags _ _ _ _ _ fetch parsed none).mpr rfl
  obtain ⟨_,absurd,_⟩ := returns none escaped
  cases absurd

end Proxy

end FuturesCellProxy

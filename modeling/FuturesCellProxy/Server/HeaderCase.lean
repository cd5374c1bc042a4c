import FuturesCellProxy.Server.Fragmentation
import FuturesCellProxy.Server.LetterCase
import Mathlib.Data.List.Forall2

/-! Two runs of the parser on texts that differ in the case of the letters of their header
names. They stay together where no command is given, and no header that is spelled as a
request line in one of them names another target. -/
namespace FuturesCellProxy.Server
open Foundation

namespace PostText

structure Respelled (post post' : PostText) : Prop where
  uri : post.uri = post'.uri
  body : post.body = post'.body
  fields : List.Forall₂ Header.Respelled post.fields post'.fields

end PostText

/-- Reads of these sizes, with what the memory holds behind each. -/
def pieces : (sizes : List (Nat × Bytes)) → Bytes → List Received
  | [], _ => []
  | (size,rest) :: more, bytes => ⟨bytes.take size,rest⟩ :: pieces more (bytes.drop size)

theorem reached_take (limit : Int) {lines lines' : List Bytes} (offset : Nat)
    (same : lines.map List.length = lines'.map List.length) :
    ∃ k, reached limit offset lines = lines.take k ∧ reached limit offset lines' = lines'.take k := by
  induction lines generalizing lines' offset with
  | nil =>
    obtain rfl : lines' = [] := by simpa using same.symm
    exact ⟨0,rfl,rfl⟩
  | cons line lines ih =>
    obtain ⟨line',lines',rfl⟩ : ∃ line' rest, lines' = line' :: rest := by
      cases lines' with
      | nil => simp at same
      | cons line' rest => exact ⟨line',rest,rfl⟩
    obtain ⟨size,rest⟩ := List.cons.inj same
    rw [reached,reached,← size]
    split
    · obtain ⟨k,left,right⟩ := ih (offset + line.length) rest
      exact ⟨k+1,by rw [left,List.take_succ_cons],by rw [right,List.take_succ_cons]⟩
    · exact ⟨0,rfl,rfl⟩

theorem map_eq_of_forall₂ {α β γ : Type} {related : α → β → Prop} {f : α → γ} {g : β → γ} {xs : List α}
    {ys : List β} (pairs : List.Forall₂ related xs ys) (same : ∀ x y, related x y → f x = g y) :
    xs.map f = ys.map g := by
  induction pairs with
  | nil => rfl
  | cons head _ ih => rw [List.map_cons,List.map_cons,same _ _ head,ih]

theorem forall_of_forall₂ {α β : Type} {related : α → β → Prop} {xs : List α} {ys : List β} {holds : α → Prop}
    {holds' : β → Prop} (pairs : List.Forall₂ related xs ys) (transfer : ∀ x y, related x y → holds x → holds' y)
    (all : ∀ x ∈ xs, holds x) : ∀ y ∈ ys, holds' y := by
  induction pairs with
  | nil => exact nofun
  | cons same _ ih =>
    rw [List.forall_mem_cons] at all ⊢
    exact ⟨transfer _ _ same all.1,ih all.2⟩

namespace PostText.Respelled
variable {post post' : PostText} (respelled : post.Respelled post')
include respelled

theorem startLine : post.startLine = post'.startLine := by
  rw [PostText.startLine,PostText.startLine,respelled.uri]

theorem lines_map {γ : Type} (f : Bytes → γ) (same : ∀ line line', CaseVariant line line' → f line = f line') :
    post.lines.map f = post'.lines.map f := by
  rw [PostText.lines,PostText.lines,respelled.startLine,List.map_cons,List.map_cons,List.map_map,List.map_map]
  exact congrArg _ (map_eq_of_forall₂ respelled.fields fun _ _ pair => same _ _ pair.line)

theorem head : CaseVariant post.head post'.head := by
  have lines := respelled.lines_map (List.map tolower) fun _ _ same => same
  unfold PostText.head
  refine CaseVariant.append ?_ (.refl _)
  rw [CaseVariant,List.map_flatten,List.map_flatten,lines]

theorem bytes : CaseVariant post.bytes post'.bytes := by
  unfold PostText.bytes
  rw [respelled.body]
  exact respelled.head.append (.refl _)

end PostText.Respelled

def commandName : Bytes := ascii "User-cmd"
def startName : Bytes := ascii "POST "

/-- The target that `get_http_uri` reads in a header line, if the name begins as a request
line does: behind the blanks and one slash, up to the next blank. -/
def namedTarget (name : Bytes) : Bytes :=
  let text := (name.drop startName.length).dropWhile (· = space) ++ [colon]
  let text := if text.head? = some slash then text.tail else text
  trimUri (text.take 1 ++ (text.drop 1).takeWhile (· ≠ space))

theorem getHttpUri_named {name : Bytes} (value : Bytes) (start : startName <+: name) (req : Request) :
    getHttpUri req (Header.line ⟨name,value⟩) =
      (true,{req with method := req.method ++ ascii "POST",uri := namedTarget name}) := by
  obtain ⟨rest,rfl⟩ := start
  have blank : ∀ b ∈ rest.takeWhile (· = space), b = space :=
    fun b member => by simpa using List.mem_takeWhile_imp member
  have solid : ∀ b ∈ (rest.dropWhile (· = space)).head?, b ≠ space := by
    rintro b first rfl
    have stops := List.head?_dropWhile_not (· = space) rest
    rw [first] at stops
    cases stops
  have line (text : Bytes) (here : rest.dropWhile (· = space) ++ [colon] = text) :
      Header.line ⟨startName ++ rest,value⟩ =
        ascii "POST" ++ (space :: rest.takeWhile (· = space)) ++ text ++ space :: (value ++ crlf) := by
    have parts : rest.takeWhile (· = space) ++ rest.dropWhile (· = space) = rest := List.takeWhile_append_dropWhile
    generalize rest.takeWhile (· = space) = blanks at *
    generalize rest.dropWhile (· = space) = word at *
    rw [← here,← parts]
    simp [Header.line,startName,ascii,colon,space]
  obtain ⟨first,more,text,unblank⟩ : ∃ first more, rest.dropWhile (· = space) ++ [colon] = first :: more ∧
      first ≠ space := by
    cases word : rest.dropWhile (· = space) with
    | nil => exact ⟨colon,[],rfl,by decide⟩
    | cons b word' => exact ⟨b,word' ++ [colon],rfl,solid b (by rw [word]; rfl)⟩
  have target : namedTarget (startName ++ rest) =
      let text := if first = slash then more else first :: more
      trimUri (text.take 1 ++ (text.drop 1).takeWhile (· ≠ space)) := by
    rw [namedTarget,List.drop_left,text]
    simp only [List.head?_cons,Option.some.injEq,List.tail_cons]
  by_cases slashed : first = slash
  · -- behind a slash there is at least the colon
    obtain ⟨c,u,rfl⟩ : ∃ c u, more = c :: u := by
      cases more with
      | cons c u => exact ⟨c,u,rfl⟩
      | nil =>
        have last := congrArg List.getLast? text
        simp [slashed] at last
        exact absurd last (by decide)
    rw [target,if_pos slashed]
    exact @getHttpUri_word _ _ [slash] u (value ++ crlf) c (by rw [line _ text,slashed]; simp) blank (.inl rfl) req
  · rw [target,if_neg slashed]
    exact @getHttpUri_word _ _ [] more (value ++ crlf) first (by rw [line _ text]; simp) blank
      (.inr ⟨rfl,slashed,unblank⟩) req

theorem takeLine_named {name : Bytes} (value : Bytes) (start : startName <+: name) (req : Request) :
    takeLine req (Header.line ⟨name,value⟩) =
      (true,{req with method := req.method ++ ascii "POST",uri := namedTarget name}) := by
  have word : ncmp (Header.line ⟨name,value⟩) (ascii "POST ") 5 = true := by
    obtain ⟨rest,spelled⟩ := start
    have text : Header.line ⟨name,value⟩ = ascii "POST " ++ (rest ++ ascii ": " ++ value ++ crlf) := by
      simp [Header.line,← spelled,startName]
    rw [text]
    simp [ncmp,ncmp.loop,ascii,nul]
  rw [takeLine,if_pos word]
  exact getHttpUri_named value start req

namespace Header

/-- The name begins with the first letter of a request line. -/
def Starts (header : Header) : Prop := header.name.head?.map tolower = some 112

theorem trim_cons {b : UInt8} (text : Bytes) (solid : isSpace b = false) : ∃ more, trim (b :: text) = b :: more := by
  unfold trim
  have before : (b :: text).rdropWhile isSpace <+: b :: text := List.rdropWhile_prefix _ _
  cases left : (b :: text).rdropWhile isSpace with
  | nil =>
    have blank := List.rdropWhile_eq_nil_iff.mp left b List.mem_cons_self
    exact absurd blank (by simp [solid])
  | cons c more =>
    rw [left,List.cons_prefix_cons] at before
    obtain rfl := before.1
    exact ⟨more,List.dropWhile_cons_of_neg (by simp [solid])⟩

theorem Starts.ne {header : Header} (starts : header.Starts) {name : Bytes} (other : name.head?.map tolower ≠ some 112) :
    ¬ CaseVariant header.name name := by
  intro variant
  have same := congrArg List.head? variant
  rw [List.head?_map,List.head?_map] at same
  exact other (same.symm.trans starts)

theorem Starts.notLength {header : Header} (starts : header.Starts) :
    ¬ headersEqual header.name contentLengthName = true := by
  intro same
  simp only [headersEqual,Bool.and_eq_true,beq_iff_eq] at same
  exact starts.ne (by decide) same.2

section Respelled
variable {header header' : Header} (respelled : header.Respelled header')
include respelled

theorem Respelled.starts (start : startName <+: header'.name) : header.trimmed.Starts := by
  obtain ⟨rest,named⟩ := start
  have variant := respelled.name
  rw [← named] at variant
  cases spelled : header.name with
  | nil =>
    rw [spelled] at variant
    cases variant
  | cons b more =>
    rw [spelled] at variant
    have letter : tolower b = 112 := (List.cons.inj variant).1
    have solid : isSpace b = false := by
      rw [← isSpace_tolower,letter]
      decide
    obtain ⟨kept,trimmed⟩ := trim_cons more solid
    rw [Starts,Header.trimmed,spelled,trimmed,List.head?_cons,Option.map_some,letter]

theorem Respelled.noChange {c : UInt8} (plain : Plain c) (absent : c ∉ header.name) : c ∉ header'.name :=
  (not_congr (respelled.name.mem plain)).mp absent

theorem Respelled.inline (inside : Inline header.name) : Inline header'.name :=
  ⟨respelled.noChange plain_cr inside.noCr,respelled.noChange plain_lf inside.noLf,
    respelled.noChange plain_nul inside.noNul⟩

theorem Respelled.isLine (wellFormed : header.WellFormed) : IsLine header'.line := by
  have value := wellFormed.value
  rw [respelled.value] at value
  refine isLine_of_inline (.append (.append (respelled.inline wellFormed.name) ?_) value) (by simp [ascii])
  exact ⟨by decide,by decide,by decide⟩

theorem Respelled.wellFormed (wellFormed : header.WellFormed) (notStart : ¬ startName <+: header'.name) :
    header'.WellFormed := by
  refine ⟨respelled.inline wellFormed.name,respelled.noChange plain_colon wellFormed.noColon,
    respelled.value ▸ wellFormed.value,fun start => ?_⟩
  rw [Header.line,List.append_assoc,List.append_assoc] at start
  by_cases long : startName.length ≤ header'.name.length
  · exact notStart (List.prefix_of_prefix_length_le start (List.prefix_append _ _) long)
  · -- a colon ends the shorter name
    have short : header'.name ++ [colon] <+: startName := by
      refine List.prefix_of_prefix_length_le ?_ start (by simp; omega)
      exact ⟨ascii " " ++ (header'.value ++ crlf),by simp [ascii,colon]⟩
    have member : colon ∈ startName := short.subset (by simp)
    exact absurd member (by decide)

end Respelled

end Header

/-- Headers in two spellings; one that is taken for a request line is missing in the second. -/
inductive Thinned : List Header → List Header → Prop
  | nil : Thinned [] []
  | cons {header header' : Header} {headers headers' : List Header} (same : header.Respelled header')
      (rest : Thinned headers headers') : Thinned (header :: headers) (header' :: headers')
  | start {header : Header} {headers headers' : List Header} (starts : header.Starts)
      (rest : Thinned headers headers') : Thinned (header :: headers) headers'

theorem Thinned.append {headers headers' others others' : List Header} (thinned : Thinned headers headers')
    (more : Thinned others others') : Thinned (headers ++ others) (headers' ++ others') := by
  induction thinned with
  | nil => exact more
  | cons same _ ih => exact .cons same ih
  | start starts _ ih => exact .start starts ih

structure Alike (req req' : Request) : Prop where
  uri : req.uri = req'.uri
  content : req.content = req'.content
  contentLength : req.contentLength = req'.contentLength
  bheader : req.bheader = req'.bheader
  headers : Thinned req.headers req'.headers
  command : req.reqCmd = []
  command' : req'.reqCmd = []

theorem readContentLength_thinned {headers headers' : List Header} (thinned : Thinned headers headers')
    {req req' : Request} (length : req.contentLength = req'.contentLength) (flag : req.bheader = req'.bheader) :
    ∃ accepted n b, readContentLength headers req = (accepted,{req with contentLength := n,bheader := b}) ∧
      readContentLength headers' req' = (accepted,{req' with contentLength := n,bheader := b}) := by
  induction thinned generalizing req req' with
  | nil => exact ⟨true,req.contentLength,req.bheader,rfl,by rw [length,flag]; rfl⟩
  | cons same _ ih =>
    rw [readContentLength,readContentLength,← same.name.headersEqual,← same.value]
    split
    · split
      · exact ⟨false,req.contentLength,req.bheader,rfl,by rw [length,flag]⟩
      · exact ih rfl rfl
    · exact ih length flag
  | start starts _ ih =>
    rw [readContentLength,if_neg starts.notLength]
    exact ih length flag

/-- A header line and another spelling of it which neither gives a command nor names a target
other than `uri`. -/
structure Harmless (uri : Bytes) (field field' : Header) : Prop where
  same : field.Respelled field'
  wellFormed : field.WellFormed
  blank : CaseVariant (trim field.name) commandName → trim field.value = []
  own : startName <+: field'.name → namedTarget field'.name = uri

theorem addHeader_command {req : Request} {header : Header} (none : req.reqCmd = [])
    (blank : CaseVariant header.name commandName → header.value = []) : (req.addHeader header).reqCmd = [] := by
  rw [Request.addHeader]
  split
  next named => exact blank (named ▸ .refl _)
  next => exact none

theorem Alike.addHeader {req req' : Request} {header header' : Header} (alike : Alike req req')
    (same : header.Respelled header') (blank : CaseVariant header.name commandName → header.value = []) :
    Alike (req.addHeader header) (req'.addHeader header') := by
  have kept := addHeaders_eq [header] req
  have kept' := addHeaders_eq [header'] req'
  rw [List.foldl_cons,List.foldl_nil] at kept kept'
  exact {
    uri := by rw [kept,kept']; exact alike.uri
    content := by rw [kept,kept']; exact alike.content
    contentLength := by rw [kept,kept']; exact alike.contentLength
    bheader := by rw [kept,kept']; exact alike.bheader
    headers := by rw [kept,kept']; exact alike.headers.append (.cons same .nil)
    command := addHeader_command alike.command blank
    command' := addHeader_command alike.command' fun named => same.value ▸ blank (same.name.trans named)}

/-- The second line is another request line, for the same target. -/
theorem Alike.restarted {req req' : Request} {header : Header} (alike : Alike req req') (starts : header.Starts)
    (method : Bytes) : Alike (req.addHeader header) {req' with method := method,uri := req.uri} := by
  have kept := addHeaders_eq [header] req
  rw [List.foldl_cons,List.foldl_nil] at kept
  exact {
    uri := by rw [kept]
    content := by rw [kept]; exact alike.content
    contentLength := by rw [kept]; exact alike.contentLength
    bheader := by rw [kept]; exact alike.bheader
    headers := by
      rw [kept]
      have headers := alike.headers.append (.start starts .nil)
      rwa [List.append_nil] at headers
    command := addHeader_command alike.command fun named => absurd named (starts.ne (by decide))
    command' := alike.command'}

theorem takeLine_alike {uri : Bytes} {field field' : Header} (harmless : Harmless uri field field') {req req' : Request}
    (alike : Alike req req') (named : req.uri = uri) (some_uri : uri ≠ []) :
    ∃ next next', takeLine req field.line = (true,next) ∧ takeLine req' field'.line = (true,next') ∧
      Alike next next' ∧ next.uri = uri := by
  have kept : (req.addHeader field.trimmed).uri = uri := (Request.addHeaders_uri [field.trimmed] req).trans named
  have taken := takeLine_line harmless.wellFormed req (named ▸ some_uri)
  by_cases start : startName <+: field'.name
  · have restarted := alike.restarted (harmless.same.starts start) (req'.method ++ ascii "POST")
    rw [named,← harmless.own start] at restarted
    exact ⟨_,_,taken,takeLine_named field'.value start req',restarted,kept⟩
  · have taken' := takeLine_line (harmless.same.wellFormed harmless.wellFormed start) req'
      (alike.uri ▸ named ▸ some_uri)
    exact ⟨_,_,taken,taken',alike.addHeader harmless.same.trimmed harmless.blank,kept⟩

theorem takeLines_alike {uri : Bytes} {fields fields' : List Header} (pairs : List.Forall₂ (Harmless uri) fields fields')
    {req req' : Request} (alike : Alike req req') (named : req.uri = uri) (some_uri : uri ≠ []) :
    ∃ next next', takeLines (fields.map Header.line) req = (true,next) ∧
      takeLines (fields'.map Header.line) req' = (true,next') ∧ Alike next next' := by
  induction pairs generalizing req req' with
  | nil => exact ⟨req,req',rfl,rfl,alike⟩
  | cons harmless _ ih =>
    obtain ⟨next,next',taken,taken',alike,named⟩ := takeLine_alike harmless alike named some_uri
    rw [List.map_cons,List.map_cons,takeLines,takeLines,taken,taken']
    exact ih alike named

/-- The heads of two texts are read alike, from requests that are alike. -/
structure SameHeads (post post' : PostText) : Prop where
  respelled : post.Respelled post'
  lined : post.Lined
  lined' : post'.Lined
  read : ∀ {req req' : Request}, Alike req req' → ∀ tail len, ∃ accepted after after',
    readHead (post.head ++ tail) len req = (accepted,after) ∧
      readHead (post'.head ++ tail) len req' = (accepted,after') ∧ Alike after after'

theorem respelled_lined {post : PostRequest} {post' : PostText} (respelled : post.Respelled post') : post'.Lined := by
  intro line member
  rcases List.mem_cons.mp member with rfl | inside
  · exact respelled.startLine ▸ post.startLine_isLine
  · obtain ⟨field',among,rfl⟩ := List.mem_map.mp inside
    exact @forall_of_forall₂ _ _ _ _ _ Header.WellFormed (fun field => IsLine field.line) respelled.fields
      (fun _ _ same => same.isLine) post.wellFormed field' among

theorem readHead_alike {post : PostRequest} {post' : PostText} (respelled : post.Respelled post')
    (harmless : List.Forall₂ (Harmless (trimUri post.uri)) post.fields post'.fields) {req req' : Request}
    (alike : Alike req req') (tail : Bytes) (len : Nat) :
    ∃ accepted after after', readHead (post.head ++ tail) len req = (accepted,after) ∧
      readHead (post'.head ++ tail) len req' = (accepted,after') ∧ Alike after after' := by
  obtain ⟨lines,reached,reached'⟩ := reached_take (toInt32 len) 0
    (respelled.lines_map List.length fun _ _ same => same.length)
  obtain ⟨parsed,parsed',taken,taken',alike⟩ : ∃ parsed parsed', takeLines (post.lines.take lines) req = (true,parsed) ∧
      takeLines (post'.lines.take lines) req' = (true,parsed') ∧ Alike parsed parsed' := by
    cases lines with
    | zero => exact ⟨req,req',rfl,rfl,alike⟩
    | succ fields =>
      rw [PostText.lines,PostText.lines,← respelled.startLine,List.take_succ_cons,List.take_succ_cons,takeLines,takeLines,
        takeLine_startLine,takeLine_startLine,← List.map_take,← List.map_take]
      exact takeLines_alike (List.forall₂_take fields harmless) {alike with uri := rfl} rfl post.uriTrims
  have read := post.lined.readLines_eq req tail len
  have read' := (respelled_lined respelled).readLines_eq req' tail len
  rw [reached,taken] at read
  rw [reached',taken'] at read'
  obtain ⟨accepted,n,b,length,length'⟩ :=
    readContentLength_thinned alike.headers alike.contentLength alike.bheader
  refine ⟨accepted && b,{parsed with contentLength := n,bheader := b},
    {parsed' with contentLength := n,bheader := b},?_,?_,?_⟩
  · rw [readHead,read]
    dsimp only
    rw [length]
    cases accepted <;> rfl
  · rw [readHead,read']
    dsimp only
    rw [length']
    cases accepted <;> rfl
  · exact {alike with contentLength := rfl,bheader := rfl}

structure SameVerdict (out out' : Verdict × Resume × Request) : Prop where
  verdict : out.1 = out'.1
  resume : out.2.1 = out'.2.1
  alike : out.1 ≠ .invalid → Alike out.2.2 out'.2.2

section
variable {post post' : PostText} {req req' : Request}

theorem Alike.received (alike : Alike req req') (chunk chunk' : Bytes) :
    Alike (req.received chunk) (req'.received chunk') :=
  {alike with}

theorem finishHead_alike (heads : SameHeads post post') (alike : Alike req req') (tail : Bytes) (len : Nat) :
    SameVerdict (finishHead req (post.head ++ tail) post.head.length len)
      (finishHead req' (post'.head ++ tail) post'.head.length len) := by
  obtain ⟨accepted,after,after',read,read',alike⟩ := heads.read alike tail len
  rw [finishHead,finishHead,read,read',List.drop_left,List.drop_left,← heads.respelled.head.length]
  cases accepted with
  | false => exact ⟨rfl,rfl,fun accepted => absurd rfl accepted⟩
  | true =>
    dsimp only
    rw [← alike.content,← alike.contentLength]
    split
    · exact ⟨rfl,rfl,fun accepted => absurd rfl accepted⟩
    · split
      · exact ⟨rfl,rfl,fun _ => {alike with content := rfl,contentLength := rfl}⟩
      · exact ⟨rfl,rfl,fun _ => {alike with content := rfl,contentLength := rfl}⟩

theorem collectContent_alike (alike : Alike req req') (chunk : Bytes) :
    SameVerdict (collectContent req chunk) (collectContent req' chunk) := by
  unfold collectContent
  dsimp only
  rw [← alike.content,← alike.contentLength]
  split
  · split <;> exact ⟨rfl,rfl,fun _ => {alike with content := rfl,contentLength := rfl}⟩
  · split <;> exact ⟨rfl,rfl,fun _ => {alike with content := rfl,contentLength := rfl}⟩

end

/-- Where the two runs are after some bytes. -/
inductive Paired (post : PostText) (seen seen' : Bytes) :
    RequestParser → Request → RequestParser → Request → Prop
  | head (parser parser' : RequestParser) (req req' : Request)
      (atHead : parser = {} ∧ seen = [] ∧ parser' = {} ∧ seen' = [] ∨
        parser = ⟨.header,seen⟩ ∧ parser' = ⟨.header,seen'⟩)
      (alike : Alike req req') : Paired post seen seen' parser req parser' req'
  | content (kept kept' : Bytes) (req req' : Request) (past : post.head.length ≤ seen.length)
      (alike : Alike req req') :
      Paired post seen seen' ⟨.content,kept⟩ req ⟨.content,kept'⟩ req'

theorem closed_variant {chunk chunk' : Bytes} (variants : CaseVariant chunk chunk') (rest : Bytes) :
    Closed chunk rest ↔ Closed chunk' rest := by
  unfold Closed
  rw [(variants.append (.refl rest)).strstr plain_httpEnd,variants.length]

structure SameCall (post : PostText) (seen seen' : Bytes) (out out' : Verdict × RequestParser × Request) :
    Prop where
  verdict : out.1 = out'.1
  alike : out.1 ≠ .invalid → Alike out.2.2 out'.2.2
  paired : out.1 = .indeterminate → Paired post seen seen' out.2.1 out.2.2 out'.2.1 out'.2.2

section
variable {post post' : PostText} {seen seen' chunk chunk' more more' : Bytes}
  {parser parser' : RequestParser} {req req' : Request}

theorem part_variant (respelled : post.Respelled post') (part : seen ++ more = post.bytes)
    (part' : seen' ++ more' = post'.bytes) (size : seen.length = seen'.length) : CaseVariant seen seen' := by
  have variants := respelled.bytes.take seen.length
  rw [← part,← part',List.take_left,size,List.take_left] at variants
  exact variants

/-- Behind the head the two streams are the same. -/
theorem part_content (respelled : post.Respelled post') (part : seen ++ more = post.bytes)
    (part' : seen' ++ more' = post'.bytes) (size : seen.length = seen'.length)
    (past : post.head.length ≤ seen.length) : more = more' := by
  have body : post.bytes.drop seen.length = post'.bytes.drop seen.length := by
    unfold PostText.bytes
    have past' : post'.head.length ≤ seen.length := respelled.head.length ▸ past
    rw [List.drop_append,List.drop_append,List.drop_eq_nil_of_le past,List.drop_eq_nil_of_le past',
      respelled.body,respelled.head.length]
  rwa [← part,← part',List.drop_left,size,List.drop_left] at body

theorem found_alike (heads : SameHeads post post') {i : Nat} (part : seen ++ more = post.bytes)
    (part' : seen' ++ more' = post'.bytes) (size : seen.length = seen'.length)
    (found : strstr seen httpEnd = some i) (alike : Alike req req') :
    post.head.length ≤ seen.length ∧
      SameVerdict (finishHead req seen (i+4) seen.length) (finishHead req' seen' (i+4) seen'.length) := by
  obtain ⟨index,tail,split⟩ := heads.lined.found_part ⟨more,part⟩ found
  have found' : strstr seen' httpEnd = some i := by
    rw [← (part_variant heads.respelled part part' size).strstr plain_httpEnd,found]
  obtain ⟨index',tail',split'⟩ := heads.lined'.found_part ⟨more',part'⟩ found'
  have same : tail = tail' := by
    have rest : tail ++ more = tail' ++ more' := by
      rw [split,List.append_assoc] at part
      rw [split',List.append_assoc] at part'
      exact part_content heads.respelled part part' heads.respelled.head.length (Nat.le_refl _)
    have lengths : tail.length = tail'.length := by
      have := congrArg List.length split
      have := congrArg List.length split'
      simp only [List.length_append] at *
      omega
    exact (List.append_inj rest lengths).1
  refine ⟨by simp [split],?_⟩
  have verdict := finishHead_alike heads alike tail seen.length
  rw [← size,index,split',← same]
  rwa [← heads.respelled.head.length,← split] at verdict

theorem head_sameCall (heads : SameHeads post post') (rest : Bytes)
    (part : (seen ++ chunk) ++ more = post.bytes) (part' : (seen' ++ chunk') ++ more' = post'.bytes)
    (sizes : seen.length = seen'.length ∧ chunk.length = chunk'.length)
    (atHead : parser = {} ∧ seen = [] ∧ parser' = {} ∧ seen' = [] ∨
      parser = ⟨.header,seen⟩ ∧ parser' = ⟨.header,seen'⟩)
    (alike : Alike req req') :
    SameCall post (seen ++ chunk) (seen' ++ chunk') (parser.parse req chunk rest)
      (parser'.parse req' chunk' rest) := by
  have total : (seen ++ chunk).length = (seen' ++ chunk').length := by
    rw [List.length_append,List.length_append,sizes.1,sizes.2]
  have variants := part_variant heads.respelled part part' total
  have variants' : CaseVariant chunk chunk' := by
    have behind := variants.drop seen.length
    rwa [List.drop_left,sizes.1,List.drop_left] at behind
  have starts : parser.resume = .start ↔ parser'.resume = .start := by
    rcases atHead with ⟨rfl,_,rfl,_⟩ | ⟨rfl,rfl⟩ <;> rfl
  by_cases closed : parser.resume = .start → Closed chunk rest
  · obtain ⟨kept,spec⟩ := parse_head chunk rest
      (atHead.imp (fun fresh => ⟨fresh.1,fresh.2.1⟩) And.left) closed
    obtain ⟨kept',spec'⟩ := parse_head chunk' rest
      (atHead.imp (fun fresh => ⟨fresh.2.2.1,fresh.2.2.2⟩) And.right)
      fun start => (closed_variant variants' rest).mp (closed (starts.mpr start))
    have received := alike.received chunk chunk'
    rw [spec,spec',← variants.strstr plain_httpEnd]
    cases found : strstr (seen ++ chunk) httpEnd with
    | none =>
      exact ⟨rfl,fun _ => received,fun _ => .head _ _ _ _ (.inr ⟨rfl,rfl⟩) received⟩
    | some i =>
      obtain ⟨past,same⟩ := found_alike heads part part' total found received
      refine ⟨same.verdict,same.alike,fun more => ?_⟩
      have resume := finishHead_more more
      have resume' := same.resume.symm.trans resume
      dsimp only
      rw [resume,resume']
      exact .content _ _ _ _ past (same.alike (by rw [more]; decide))
  · rw [not_forall] at closed
    obtain ⟨start,opened⟩ := closed
    have refused := @parse_invalid_of_not_closed _ req _ _ start opened
    have refused' := @parse_invalid_of_not_closed _ req' _ _ (starts.mp start)
      (mt (closed_variant variants' rest).mpr opened)
    refine ⟨refused.trans refused'.symm,fun accepted => absurd refused accepted,fun more => ?_⟩
    rw [refused] at more
    contradiction

theorem content_sameCall (respelled : post.Respelled post') (rest : Bytes) (kept kept' : Bytes)
    (part : (seen ++ chunk) ++ more = post.bytes) (part' : (seen' ++ chunk') ++ more' = post'.bytes)
    (sizes : seen.length = seen'.length ∧ chunk.length = chunk'.length)
    (past : post.head.length ≤ seen.length) (alike : Alike req req') :
    SameCall post (seen ++ chunk) (seen' ++ chunk')
      (RequestParser.parse ⟨.content,kept⟩ req chunk rest)
      (RequestParser.parse ⟨.content,kept'⟩ req' chunk' rest) := by
  have same : chunk = chunk' := by
    rw [List.append_assoc] at part part'
    exact (List.append_inj (part_content respelled part part' sizes.1 past) sizes.2).1
  have call := collectContent_alike (alike.received chunk chunk') chunk
  rw [← same]
  rw [← same] at call
  refine ⟨call.verdict,call.alike,fun more => ?_⟩
  have going : (collectContent (req.received chunk) chunk).1 = .indeterminate := more
  have resume := collectContent_more going
  have resume' := call.resume.symm.trans resume
  have within : post.head.length ≤ (seen ++ chunk).length := by
    rw [List.length_append]
    omega
  have paired : Paired post (seen ++ chunk) (seen' ++ chunk)
      ⟨(collectContent (req.received chunk) chunk).2.1,kept⟩ (collectContent (req.received chunk) chunk).2.2
      ⟨(collectContent (req'.received chunk) chunk).2.1,kept'⟩ (collectContent (req'.received chunk) chunk).2.2 := by
    rw [resume,resume']
    exact .content _ _ _ _ within (call.alike (by rw [going]; decide))
  exact paired

theorem paired_sameCall (heads : SameHeads post post') (rest : Bytes)
    (part : (seen ++ chunk) ++ more = post.bytes) (part' : (seen' ++ chunk') ++ more' = post'.bytes)
    (sizes : seen.length = seen'.length ∧ chunk.length = chunk'.length)
    (paired : Paired post seen seen' parser req parser' req') :
    SameCall post (seen ++ chunk) (seen' ++ chunk') (parser.parse req chunk rest)
      (parser'.parse req' chunk' rest) := by
  cases paired with
  | head _ _ _ _ atHead alike => exact head_sameCall heads rest part part' sizes atHead alike
  | content kept kept' _ _ past alike => exact content_sameCall heads.respelled rest kept kept' part part' sizes past alike

theorem Paired.alike (paired : Paired post seen seen' parser req parser' req') : Alike req req' := by
  cases paired with
  | head _ _ _ _ _ alike => exact alike
  | content _ _ _ _ _ alike => exact alike

end

theorem feed_alike {post post' : PostText} (heads : SameHeads post post')
    (sizes : List (Nat × Bytes)) {seen seen' bytes bytes' : Bytes} {parser parser' : RequestParser} {req req' : Request}
    (whole : seen ++ bytes = post.bytes) (whole' : seen' ++ bytes' = post'.bytes) (size : seen.length = seen'.length)
    (paired : Paired post seen seen' parser req parser' req') :
    let out := feed parser req (pieces sizes bytes)
    let out' := feed parser' req' (pieces sizes bytes')
    out.1 = out'.1 ∧ (.invalid ∉ out.1 → Alike out.2.2 out'.2.2) := by
  induction sizes generalizing seen seen' bytes bytes' parser parser' req req' with
  | nil => exact ⟨rfl,fun _ => paired.alike⟩
  | cons entry sizes ih =>
    obtain ⟨n,rest⟩ := entry
    have total : bytes.length = bytes'.length := by
      have lengths := heads.respelled.bytes.length
      rw [← whole,← whole',List.length_append,List.length_append,size] at lengths
      omega
    have taken : (bytes.take n).length = (bytes'.take n).length := by
      rw [List.length_take,List.length_take,total]
    have part : (seen ++ bytes.take n) ++ bytes.drop n = post.bytes := by
      rw [List.append_assoc,List.take_append_drop,whole]
    have part' : (seen' ++ bytes'.take n) ++ bytes'.drop n = post'.bytes := by
      rw [List.append_assoc,List.take_append_drop,whole']
    have call := paired_sameCall heads rest part part' ⟨size,taken⟩ paired
    dsimp only [pieces]
    by_cases going : (parser.parse req (bytes.take n) rest).1 = .indeterminate
    · obtain ⟨verdicts,alike⟩ := ih part part' (by rw [List.length_append,List.length_append,size,taken])
        (call.paired going)
      rw [@feed_undecided _ _ ⟨bytes.take n,rest⟩ _ going,
        @feed_undecided _ _ ⟨bytes'.take n,rest⟩ _ (call.verdict.symm.trans going)]
      refine ⟨congrArg (Verdict.indeterminate :: ·) verdicts,fun accepted => alike fun member => ?_⟩
      exact accepted (List.mem_cons_of_mem _ member)
    · rw [@feed_decided _ _ ⟨bytes.take n,rest⟩ _ going,
        @feed_decided _ _ ⟨bytes'.take n,rest⟩ _ (call.verdict ▸ going)]
      refine ⟨congrArg (fun verdict => [verdict]) call.verdict,fun accepted => call.alike fun refused => ?_⟩
      exact accepted (by simp [refused])

end FuturesCellProxy.Server

import FuturesCellProxy.Server.Connection
import FuturesCellProxy.Server.HeaderCase

/-! What the spelling of the header names decides: the command, and with it the function
that is called. -/
namespace FuturesCellProxy.Server
open Foundation

structure SameRequest (req req' : Request) : Prop where
  contentLength : req.contentLength = req'.contentLength
  content : req.content = req'.content
  uri : req.uri = req'.uri
  reqCmd : req.reqCmd = req'.reqCmd
  keepAlive : requestKeepAlive req.headers = requestKeepAlive req'.headers
  handler : ∀ registered path, findHandle registered req path = findHandle registered req' path

structure SameParsing (out out' : List Verdict × RequestParser × Request) : Prop where
  verdicts : out.1 = out'.1
  request : .invalid ∉ out.1 → SameRequest out.2.2 out'.2.2

/-- What is parsed does not depend on how the header names are spelled, whatever the sizes of
the reads and the memory the request is built in. -/
def CaseInsensitive (post : PostRequest) : Prop :=
  ∀ post' : PostText, post.Respelled post' → ∀ sizes bheader contentLength,
    SameParsing (feed {} {bheader,contentLength} (pieces sizes post.bytes))
      (feed {} {bheader,contentLength} (pieces sizes post'.bytes))

/-- No command is given that is not blank. -/
def Uncommanded (post : PostText) : Prop :=
  ∀ header ∈ post.headers, CaseVariant header.name commandName → header.value = []

/-- A header that in some spelling is taken for a request line names the target that the
request has anyway. -/
def Untargeted (post : PostText) : Prop :=
  ∀ field ∈ post.fields, ∀ name, CaseVariant field.name name → startName <+: name →
    namedTarget name = trimUri post.uri

theorem requestKeepAlive_thinned {headers headers' : List Header} (thinned : Thinned headers headers') :
    requestKeepAlive headers = requestKeepAlive headers' := by
  unfold requestKeepAlive
  induction thinned with
  | nil => rfl
  | cons same _ ih =>
    have name : _ = _ := same.name
    rw [List.any_cons,List.any_cons,ih,name,same.value]
  | start starts _ ih =>
    have other : _ ≠ ascii "connection" := fun same =>
      @Header.Starts.ne _ starts (ascii "connection") (by decide) (same.trans (by decide))
    rw [List.any_cons,ih]
    simp [other]

theorem Alike.sameRequest {req req' : Request} (alike : Alike req req') : SameRequest req req' where
  contentLength := alike.contentLength
  content := alike.content
  uri := alike.uri
  reqCmd := alike.command.trans alike.command'.symm
  keepAlive := requestKeepAlive_thinned alike.headers
  handler := fun registered path => by rw [findHandle,findHandle,alike.command,alike.command']

theorem userCmd_eq_nil {headers : List Header}
    (blank : ∀ header ∈ headers, header.name = commandName → header.value = []) :
    userCmd headers [] = [] := by
  induction headers with
  | nil => rfl
  | cons header rest ih =>
    have first : (if header.name = ascii "User-cmd" then header.value else []) = [] := by
      split
      next named => exact blank header List.mem_cons_self named
      next => rfl
    rw [userCmd_cons,first]
    exact ih fun other member => blank other (List.mem_cons_of_mem _ member)

theorem userCmd_ne_nil {headers : List Header} (old : Bytes)
    (filled : ∀ header ∈ headers, header.name = commandName → header.value ≠ [])
    (some_command : old ≠ [] ∨ ∃ header ∈ headers, header.name = commandName) : userCmd headers old ≠ [] := by
  induction headers generalizing old with
  | nil => simpa [userCmd] using some_command
  | cons header rest ih =>
    rw [userCmd_cons]
    refine ih _ (fun other member => filled other (List.mem_cons_of_mem _ member)) ?_
    split
    next named => exact .inl (filled header List.mem_cons_self named)
    next other =>
      refine some_command.imp id ?_
      rintro ⟨found,member,named⟩
      rcases List.mem_cons.mp member with rfl | later
      · exact absurd named other
      · exact ⟨found,later,named⟩

/-- The head in one read and the content in another. -/
def headFirst (post : PostText) : List (Nat × Bytes) :=
  if post.body = [] then [(post.head.length,[])] else [(post.head.length,[]),(post.body.length,[])]

theorem headFirst_reads (post : PostText) :
    pieces (headFirst post) post.bytes =
      if post.body = [] then [⟨post.head,[]⟩] else [⟨post.head,[]⟩,⟨post.body,[]⟩] := by
  unfold headFirst PostText.bytes
  split <;> simp [pieces]

theorem feed_headFirst (post : PostRequest) (bheader : Bool) (contentLength : Nat) :
    let out := feed {} {bheader,contentLength} (pieces (headFirst post.toPostText) post.bytes)
    .invalid ∉ out.1 ∧ out.2.2.uri = trimUri post.uri ∧ out.2.2.reqCmd = userCmd post.headers [] := by
  have complete : (strstr post.head httpEnd).isSome = true := by
    rw [post.lined.strstr_part (List.prefix_append _ _),if_pos (Nat.le_refl _)]
    rfl
  have small : (arrival ((pieces (headFirst post.toPostText) post.bytes).map Received.chunk)).length < 2^31 := by
    have here : arrival ((pieces (headFirst post.toPostText) post.bytes).map Received.chunk) = post.head := by
      rw [headFirst_reads]
      split <;> simp [arrival,arrivalFrom,complete]
    rw [here]
    exact post.headSize
  have some_head : post.head ≠ [] := by
    have long := post.head_length
    intro empty
    simp [empty] at long
  obtain ⟨verdicts,request⟩ := post.feed_part {bheader,contentLength}
    (pieces (headFirst post.toPostText) post.bytes) ⟨rfl,rfl⟩ .fresh
    (by rw [headFirst_reads]; split <;> simp_all [PostText.bytes])
    (by rw [headFirst_reads]; split <;> simp_all)
    (by rw [headFirst_reads]; split <;> simp)
    small (by rw [headFirst_reads]; split <;> simp)
  dsimp only
  rw [verdicts,request]
  exact ⟨by simp,post.accepted_uri _,post.accepted_reqCmd _⟩

theorem finishHead_uri (req : Request) (src : Bytes) (pend len : Nat) :
    (finishHead req src pend len).2.2.uri = (readHead src len req).2.uri := by
  unfold finishHead
  cases readHead src len req with
  | mk accepted after =>
    cases accepted with
    | false => rfl
    | true =>
      dsimp only
      split
      · rfl
      · split <;> rfl

theorem collectContent_uri (req : Request) (chunk : Bytes) : (collectContent req chunk).2.2.uri = req.uri := by
  unfold collectContent
  dsimp only
  split <;> split <;> rfl

theorem feed_content_uri (kept : Bytes) (req : Request) (reads : List Received) :
    (feed ⟨.content,kept⟩ req reads).2.2.uri = req.uri := by
  induction reads generalizing req with
  | nil => rfl
  | cons read reads ih =>
    have uri : (collectContent (req.received read.chunk) read.chunk).2.2.uri = req.uri := collectContent_uri _ _
    by_cases more : (collectContent (req.received read.chunk) read.chunk).1 = .indeterminate
    · have rest := ih (collectContent (req.received read.chunk) read.chunk).2.2
      rw [← collectContent_more more] at rest
      rw [@feed_undecided ⟨.content,kept⟩ req read reads more]
      exact rest.trans uri
    · rw [@feed_decided ⟨.content,kept⟩ req read reads more]
      exact uri

/-- Behind the head nothing changes the target. -/
theorem feed_head_uri {post : PostText} (lined : post.Lined) (req : Request) (reads : List Received) :
    (feed {} req (⟨post.head,[]⟩ :: reads)).2.2.uri =
      (readHead post.head post.head.length (req.received post.head)).2.uri := by
  obtain ⟨kept,spec⟩ := @parse_head [] {} post.head [] (.inl ⟨rfl,rfl⟩) fun _ => closed_of_terminated _ _ rfl
  have found : strstr ([] ++ post.head) httpEnd = some (post.head.length - 4) := by
    rw [List.nil_append,lined.strstr_part (List.prefix_append _ _),if_pos (Nat.le_refl _)]
  have call := spec req
  rw [found] at call
  dsimp only at call
  have uri := finishHead_uri (req.received post.head) post.head (post.head.length - 4 + 4) post.head.length
  by_cases more : (RequestParser.parse {} req post.head []).1 = .indeterminate
  · rw [@feed_undecided _ _ ⟨post.head,[]⟩ reads more]
    dsimp only
    rw [call] at more ⊢
    dsimp only at more ⊢
    rw [finishHead_more more,feed_content_uri]
    exact uri
  · rw [@feed_decided _ _ ⟨post.head,[]⟩ reads more,call]
    exact uri

theorem readContentLength_uri (headers : List Header) (req : Request) :
    (readContentLength headers req).2.uri = req.uri := by
  induction headers generalizing req with
  | nil => rfl
  | cons header rest ih =>
    rw [readContentLength]
    split
    · split
      · rfl
      · exact ih _
    · exact ih req

theorem readHead_uri (src : Bytes) (len : Nat) (req : Request) :
    (readHead src len req).2.uri = (readLines src len src.length 0 req).2.uri := by
  rw [readHead]
  cases readLines src len src.length 0 req with
  | mk accepted after =>
    cases accepted with
    | false => rfl
    | true =>
      have kept := readContentLength_uri after.headers after
      dsimp only
      revert kept
      cases readContentLength after.headers after with
      | mk found last => cases found <;> exact id

theorem takeLines_append {lines : List Bytes} {req next : Request} (more : List Bytes)
    (taken : takeLines lines req = (true,next)) : takeLines (lines ++ more) req = takeLines more next := by
  induction lines generalizing req with
  | nil =>
    obtain rfl : req = next := (Prod.mk.inj taken).2
    rfl
  | cons line lines ih =>
    rw [takeLines] at taken
    rw [List.cons_append,takeLines]
    revert taken
    cases takeLine req line with
    | mk accepted after =>
      cases accepted with
      | false =>
        intro taken
        cases taken
      | true => exact ih

theorem takeLines_uri {fields : List Header} (wellFormed : ∀ field ∈ fields, field.WellFormed) (req : Request) :
    (takeLines (fields.map Header.line) req).2.uri = req.uri := by
  by_cases empty : req.uri = []
  · cases fields with
    | nil => rfl
    | cons field rest =>
      have notStart : ¬ ncmp field.line (ascii "POST ") 5 = true :=
        fun same => (wellFormed field List.mem_cons_self).notStart (ncmp_loop_start 5 rfl same)
      rw [List.map_cons,takeLines,takeLine,if_neg notStart,if_pos (by simp [empty])]
  · rw [takeLines_fields fields wellFormed req empty]
    exact Request.addHeaders_uri _ req

namespace Header

/-- A header with another name between the blanks around its name. -/
def spelled (header : Header) (name : Bytes) : Header where
  name := (header.name.rdropWhile isSpace).takeWhile isSpace ++ name ++ header.name.rtakeWhile isSpace
  value := header.value

end Header

theorem trim_split (text : Bytes) :
    text = (text.rdropWhile isSpace).takeWhile isSpace ++ trim text ++ text.rtakeWhile isSpace := by
  rw [trim,List.takeWhile_append_dropWhile,List.rdropWhile_append_rtakeWhile]

theorem trim_around (text : Bytes) {before behind : Bytes} (blank : ∀ b ∈ before, isSpace b)
    (blank' : ∀ b ∈ behind, isSpace b) : trim (before ++ text ++ behind) = trim text := by
  induction behind generalizing text with
  | nil =>
    rw [List.append_nil]
    induction before with
    | nil => rfl
    | cons b before ih =>
      rw [List.cons_append,trim_cons_of_isSpace _ (blank b List.mem_cons_self)]
      exact ih fun c member => blank c (List.mem_cons_of_mem _ member)
  | cons b behind ih =>
    have more := ih (text ++ [b]) fun c member => blank' c (List.mem_cons_of_mem _ member)
    have last : trim (text ++ [b]) = trim text := by
      rw [trim,List.rdropWhile_concat_pos _ _ _ (blank' b List.mem_cons_self),← trim]
    rw [last] at more
    simpa using more

namespace Header
variable {header : Header} {name : Bytes}

theorem spelled_name (trimmed : trim name = name) : (header.spelled name).trimmed.name = name := by
  refine (trim_around name ?_ ?_).trans trimmed
  · exact fun b member => List.mem_takeWhile_imp member
  · exact fun b member => List.mem_rtakeWhile_imp member

theorem spelled_respelled (variant : CaseVariant (trim header.name) name) :
    header.Respelled (header.spelled name) := by
  have same := ((CaseVariant.refl ((header.name.rdropWhile isSpace).takeWhile isSpace)).append variant).append
    (.refl (header.name.rtakeWhile isSpace))
  rw [← trim_split] at same
  exact ⟨same,rfl⟩

/-- No line with the command is taken for a request line. -/
theorem command_wellFormed {header' : Header} (respelled : header.Respelled header') (wellFormed : header.WellFormed)
    (command : CaseVariant (trim header.name) commandName) : header'.WellFormed :=
  respelled.wellFormed wellFormed fun start => (respelled.starts start).ne (by decide) command

/-- The command with its name in another spelling, and any other header as it is. -/
def respell (spelling : Header → Bytes) (header : Header) : Header :=
  if CaseVariant (trim header.name) commandName then header.spelled (spelling header) else header

section Respell
variable {spelling : Header → Bytes} (variant : ∀ header, CaseVariant (spelling header) commandName)
include variant

theorem respell_respelled (header : Header) : header.Respelled (header.respell spelling) := by
  unfold respell
  split
  next command => exact spelled_respelled (command.trans (variant header).symm)
  next => exact ⟨.refl _,rfl⟩

theorem respell_wellFormed (wellFormed : header.WellFormed) : (header.respell spelling).WellFormed := by
  by_cases command : CaseVariant (trim header.name) commandName
  · exact command_wellFormed (respell_respelled variant header) wellFormed command
  · rwa [respell,if_neg command]

theorem filter_respell (headers : List Header) :
    ((headers.map (respell spelling)).map trimmed).filter (fun h => headersEqual h.name contentLengthName) =
      (headers.map trimmed).filter fun h => headersEqual h.name contentLengthName := by
  induction headers with
  | nil => rfl
  | cons header headers ih =>
    have same := (respell_respelled variant header).trimmed.name.headersEqual contentLengthName
    simp only [List.map_cons,List.filter_cons,ih,← same]
    split
    next found =>
      have other : ¬ CaseVariant (trim header.name) commandName := by
        intro command
        have sizes := command.length
        have long : (trim header.name).length = contentLengthName.length := by
          simp only [headersEqual,Bool.and_eq_true,beq_iff_eq] at found
          exact found.1
        rw [long] at sizes
        exact absurd sizes (by decide)
      rw [respell,if_neg other]
    next => rfl

theorem forall₂_respell (fields : List Header) :
    List.Forall₂ Respelled fields (fields.map (respell spelling)) := by
  rw [List.forall₂_map_right_iff,List.forall₂_same]
  exact fun field _ => respell_respelled variant field

end Respell

theorem respell_command {spelling : Header → Bytes} (solid : ∀ header, trim (spelling header) = spelling header)
    (named : (header.respell spelling).trimmed.name = commandName) :
    CaseVariant (trim header.name) commandName ∧ spelling header = commandName := by
  unfold respell at named
  split at named
  next command => exact ⟨command,(spelled_name (solid header)).symm.trans named⟩
  next other =>
    have same : trim header.name = commandName := named
    exact absurd (same ▸ .refl _) other

end Header

namespace PostRequest
variable (post : PostRequest) {spelling : Header → Bytes}
  (variant : ∀ header, CaseVariant (spelling header) commandName)

def respell : PostRequest where
  uri := post.uri
  fields := post.fields.map (Header.respell spelling)
  body := post.body
  uriInline := post.uriInline
  uriNoSpace := post.uriNoSpace
  uriTrims := post.uriTrims
  wellFormed := by
    intro field member
    obtain ⟨origin,inside,rfl⟩ := List.mem_map.mp member
    exact Header.respell_wellFormed variant (post.wellFormed origin inside)
  length := post.length
  lengthOnly := (Header.filter_respell variant post.fields).trans post.lengthOnly
  lengthValue := post.lengthValue
  bodySize := post.bodySize
  headSize := by
    have respelled : post.Respelled ⟨post.uri,post.fields.map (Header.respell spelling),post.body⟩ :=
      ⟨rfl,rfl,Header.forall₂_respell variant post.fields⟩
    rw [← respelled.head.length]
    exact post.headSize

theorem respell_respelled : post.Respelled (post.respell variant).toPostText :=
  ⟨rfl,rfl,Header.forall₂_respell variant post.fields⟩

theorem headFirst_respell : headFirst (post.respell variant).toPostText = headFirst post.toPostText := by
  have size := (post.respell_respelled variant).head.length
  rw [headFirst,headFirst,← size]
  rfl

end PostRequest

def lowerName : Bytes := ascii "user-cmd"

/-- The command is seen only where it has a value. -/
def showValues (header : Header) : Bytes := if trim header.value = [] then lowerName else commandName

theorem lowerName_variant (_header : Header) : CaseVariant lowerName commandName := by decide

theorem showValues_variant (header : Header) : CaseVariant (showValues header) commandName := by
  unfold showValues
  split <;> decide

theorem showValues_trim (header : Header) : trim (showValues header) = showValues header := by
  unfold showValues
  split <;> decide +kernel

theorem hidden_command (post : PostRequest) : userCmd (post.respell lowerName_variant).headers [] = [] := by
  refine userCmd_eq_nil fun header member named => ?_
  obtain ⟨field,inside,rfl⟩ := List.mem_map.mp member
  obtain ⟨origin,_,rfl⟩ := List.mem_map.mp inside
  obtain ⟨_,other⟩ := Header.respell_command (fun _ => by decide +kernel) named
  exact absurd other (by decide)

theorem shown_command {post : PostRequest} {header : Header} (member : header ∈ post.headers)
    (named : CaseVariant header.name commandName) (value : header.value ≠ []) :
    userCmd (post.respell showValues_variant).headers [] ≠ [] := by
  refine userCmd_ne_nil [] (fun other found same => ?_) (.inr ?_)
  · obtain ⟨field,inside,rfl⟩ := List.mem_map.mp found
    obtain ⟨origin,_,rfl⟩ := List.mem_map.mp inside
    obtain ⟨_,shown⟩ := Header.respell_command showValues_trim same
    intro blank
    have empty : trim origin.value = [] :=
      (Header.respell_respelled showValues_variant origin).trimmed.value.trans blank
    rw [showValues,if_pos empty] at shown
    exact absurd shown (by decide)
  · obtain ⟨field,inside,rfl⟩ := List.mem_map.mp member
    refine ⟨(field.respell showValues).trimmed,List.mem_map_of_mem (List.mem_map_of_mem inside),?_⟩
    have shown : showValues field = commandName := if_neg value
    have command : CaseVariant (trim field.name) commandName := named
    rw [Header.respell,if_pos command,Header.spelled_name (showValues_trim field),shown]

theorem harmless_sameParsing {post : PostRequest} {post' : PostText} (respelled : post.Respelled post')
    (blank : Uncommanded post.toPostText) (own : Untargeted post.toPostText) (sizes : List (Nat × Bytes))
    (bheader : Bool) (contentLength : Nat) :
    SameParsing (feed {} {bheader,contentLength} (pieces sizes post.bytes))
      (feed {} {bheader,contentLength} (pieces sizes post'.bytes)) := by
  have harmless : List.Forall₂ (Harmless (trimUri post.uri)) post.fields post'.fields := by
    refine List.forall₂_iff_get.mpr ⟨respelled.fields.length_eq,fun i inside inside' => ?_⟩
    have same := (List.forall₂_iff_get.mp respelled.fields).2 i inside inside'
    have member : post.fields.get ⟨i,inside⟩ ∈ post.fields := List.get_mem _ _
    exact ⟨same,post.wellFormed _ member,blank _ (List.mem_map_of_mem member),
      own _ member _ same.name⟩
  have heads : SameHeads post.toPostText post' := {
    respelled
    lined := post.lined
    lined' := respelled_lined respelled
    read := fun alike tail len => readHead_alike respelled harmless alike tail len}
  have alike : Alike {bheader,contentLength} {bheader,contentLength} :=
    ⟨rfl,rfl,rfl,rfl,.nil,rfl,rfl⟩
  obtain ⟨verdicts,requests⟩ := @feed_alike _ _ heads sizes [] [] _ _ {} {} _ _ rfl rfl rfl
    (.head _ _ _ _ (.inl ⟨rfl,rfl,rfl,rfl⟩) alike)
  exact ⟨verdicts,fun accepted => (requests accepted).sameRequest⟩

/-- A request with one name in the spelling of a request line is read for the target named there. -/
theorem retargeted {post : PostRequest} {before behind : List Header} {field : Header} {name : Bytes}
    (split : post.fields = before ++ field :: behind) (variant : CaseVariant field.name name)
    (start : startName <+: name) (req : Request) :
    ∃ post' : PostText, post.Respelled post' ∧
      (feed {} req (pieces (headFirst post.toPostText) post'.bytes)).2.2.uri = namedTarget name := by
  let post' : PostText := {post.toPostText with fields := before ++ ⟨name,field.value⟩ :: behind}
  have respelled : post.Respelled post' := by
    refine ⟨rfl,rfl,?_⟩
    have same (fields : List Header) : List.Forall₂ Header.Respelled fields fields :=
      List.forall₂_same.mpr fun _ _ => ⟨.refl _,rfl⟩
    rw [split]
    exact List.rel_append (same before) (.cons ⟨variant,rfl⟩ (same behind))
  have lined := respelled_lined respelled
  have size := respelled.head.length
  refine ⟨post',respelled,?_⟩
  have reads : headFirst post.toPostText = headFirst post' := by rw [headFirst,headFirst,size]
  have whole : post'.head.length = post'.lines.flatten.length + 2 := by
    rw [PostText.head,List.length_append]
    rfl
  have below : ((0 + post'.lines.flatten.length : Nat) : Int) < toInt32 post'.head.length := by
    have small := post.headSize
    rw [toInt32_of_lt (size ▸ small)]
    omega
  have wellFormed : ∀ other ∈ before ++ field :: behind, other.WellFormed := split ▸ post.wellFormed
  let started : Request := {req.received post'.head with
    method := (req.received post'.head).method ++ ascii "POST",uri := trimUri post.uri}
  have front := takeLines_fields before (fun other member => wellFormed other (by simp [member])) started post.uriTrims
  have taken : (takeLines post'.lines (req.received post'.head)).2.uri = namedTarget name := by
    have lines : post'.lines = post.startLine :: (before.map Header.line ++
        (Header.line ⟨name,field.value⟩ :: behind.map Header.line)) := by
      rw [PostText.lines,List.map_append,List.map_cons]
      rfl
    rw [lines,takeLines,takeLine_startLine]
    dsimp only
    rw [takeLines_append _ front,takeLines,takeLine_named field.value start]
    exact takeLines_uri (fun other member => wellFormed other (by simp [member])) _
  have read := lined.readLines_eq (req.received post'.head) [] post'.head.length
  rw [List.append_nil,reached_all _ _ _ below] at read
  rw [reads,headFirst_reads]
  split <;> rw [feed_head_uri lined,readHead_uri,read,taken]

/-- The letter case of the names does not count exactly if no command is given, and no header
that is spelled as a request line names another target. -/
theorem caseInsensitive_iff (post : PostRequest) :
    CaseInsensitive post ↔ Uncommanded post.toPostText ∧ Untargeted post.toPostText := by
  constructor
  · intro insensitive
    have accepted := (feed_headFirst post false 0).1
    constructor
    · intro header member named
      by_contra value
      have outcome {spelling : Header → Bytes} (variant : ∀ header, CaseVariant (spelling header) commandName) :
          (feed {} {bheader := false,contentLength := 0} (pieces (headFirst post.toPostText) post.bytes)).2.2.reqCmd =
            userCmd (post.respell variant).headers [] := by
        have same := insensitive (post.respell variant).toPostText (post.respell_respelled variant)
          (headFirst post.toPostText) false 0
        rw [(same.request accepted).reqCmd,← post.headFirst_respell variant]
        exact (feed_headFirst (post.respell variant) false 0).2.2
      have hidden := (outcome lowerName_variant).trans (hidden_command post)
      exact shown_command member named value ((outcome showValues_variant).symm.trans hidden)
    · intro field member name variant start
      obtain ⟨before,behind,split⟩ := List.append_of_mem member
      obtain ⟨post',respelled,target⟩ := retargeted split variant start {bheader := false,contentLength := 0}
      have same := ((insensitive post' respelled (headFirst post.toPostText) false 0).request accepted).uri
      rw [(feed_headFirst post false 0).2.1,target] at same
      exact same.symm
  · rintro ⟨blank,own⟩ post' respelled
    exact harmless_sameParsing respelled blank own

def commandRequest : PostRequest where
  uri := ascii "futures"
  fields := [⟨ascii "User-cmd",ascii "1"⟩,⟨ascii "Content-Length",ascii "1"⟩]
  body := ascii "q"
  uriInline := ⟨by decide,by decide,by decide⟩
  uriNoSpace := by decide
  uriTrims := by decide +kernel
  wellFormed := by decide +kernel
  length := ⟨ascii "Content-Length",ascii "1"⟩
  lengthOnly := by decide +kernel
  lengthValue := by decide +kernel
  bodySize := by decide
  headSize := by decide +kernel

theorem commandRequest_not_insensitive : ¬ CaseInsensitive commandRequest := by
  intro insensitive
  have respelled := commandRequest.respell_respelled lowerName_variant
  have outcome := insensitive (commandRequest.respell lowerName_variant).toPostText respelled
    (headFirst commandRequest.toPostText) false 0
  have accepted := (feed_headFirst commandRequest false 0).1
  have same := (outcome.request accepted).reqCmd
  have here := (feed_headFirst commandRequest false 0).2.2
  have there := (feed_headFirst (commandRequest.respell lowerName_variant) false 0).2.2
  rw [commandRequest.headFirst_respell] at there
  rw [here,there,hidden_command] at same
  exact absurd same (by decide +kernel)

end FuturesCellProxy.Server

import FuturesCellProxy.Server.Handler
import FuturesCellProxy.Server.PostRequest

/-! What a client makes of a reply: it takes the head up to the first CRLFCRLF, and behind it as many
bytes as Content-Length says. -/
namespace FuturesCellProxy.Server
open Foundation

namespace StatusType

def code : StatusType → Nat
  | ok => 200
  | created => 201
  | accepted => 202
  | noContent => 204
  | multipleChoices => 300
  | movedPermanently => 301
  | movedTemporarily => 302
  | notModified => 304
  | badRequest => 400
  | unauthorized => 401
  | forbidden => 403
  | notFound => 404
  | internalServerError => 500
  | notImplemented => 501
  | badGateway => 502
  | serviceUnavailable => 503

end StatusType

/-- `std::vector::resize`. -/
def resize (n : Nat) (headers : List Header) : List Header :=
  headers.take n ++ List.replicate (n - headers.length) ⟨[],[]⟩

namespace Reply

/-- `BuidlReply`, on a reply in any state. -/
def build (rep : Reply) (replyMsg : Bytes) : Reply :=
  let rep := {rep with status := .ok}
  let rep := {rep with content := replyMsg}
  let rep := {rep with headers := resize 2 rep.headers}
  let rep := {rep with headers := rep.headers.modify 0 fun h => {h with name := ascii "Content-Length"}}
  let rep := {rep with headers := rep.headers.modify 0 fun h => {h with value := decimal rep.content.length}}
  let rep := {rep with headers := rep.headers.modify 1 fun h => {h with name := ascii "Content-Type"}}
  {rep with headers := rep.headers.modify 1 fun h => {h with value := ascii "text/plain"}}

theorem build_eq (rep : Reply) (replyMsg : Bytes) : rep.build replyMsg = buidlReply replyMsg := by
  obtain ⟨status,headers,content⟩ := rep
  match headers with
  | [] => rfl
  | [_] => rfl
  | first :: second :: others =>
    have none_missing : 2 - (first :: second :: others).length = 0 := Nat.sub_eq_zero_of_le (by simp)
    simp only [build,resize,none_missing,List.replicate_zero,List.append_nil]
    rfl

end Reply

structure Response where
  statusCode : Nat
  headers : List Header
  content : Bytes
  rest : Bytes
  deriving DecidableEq, Repr

def readStatus (line : Bytes) : Option Nat :=
  readDecimal (((line.dropWhile (· ≠ space)).drop 1).takeWhile (· ≠ space))

def readHeader (line : Bytes) : Option Header :=
  (findFirst (ascii ": ") line).map fun i => ⟨line.take i,line.drop (i + 2)⟩

def readLength (headers : List Header) : Option Nat :=
  (headers.find? fun h => headersEqual h.name (ascii "Content-Length")).bind fun h => readDecimal h.value

def receive (bytes : Bytes) : Option Response := do
  let i ← findFirst (crlf ++ crlf) bytes
  let lines := splitLines (bytes.take (i + 2))
  let statusCode ← lines.head?.bind readStatus
  let headers ← lines.tail.mapM readHeader
  let length ← readLength headers
  let behind := bytes.drop (i + 4)
  if length ≤ behind.length then return ⟨statusCode,headers,behind.take length,behind.drop length⟩
  else none

namespace Reply

structure Framed (rep : Reply) : Prop where
  name : ∀ h ∈ rep.headers, Inline h.name ∧ colon ∉ h.name
  value : ∀ h ∈ rep.headers, Inline h.value
  length : readLength rep.headers = some rep.content.length

def headLines (rep : Reply) : List Bytes :=
  (ascii "HTTP/1.0 " ++ ascii rep.status.text) :: rep.headers.map fun h => h.name ++ ascii ": " ++ h.value

theorem toBuffers_eq (rep : Reply) :
    rep.toBuffers = (rep.headLines.map (· ++ crlf)).flatten ++ crlf ++ rep.content := by
  rw [toBuffers,headLines,List.map_cons,List.flatten_cons,List.map_map]
  rfl

end Reply

theorem inline_statusLine (status : StatusType) : Inline (ascii "HTTP/1.0 " ++ ascii status.text) := by
  cases status <;> decide +kernel

theorem readStatus_statusLine (status : StatusType) :
    readStatus (ascii "HTTP/1.0 " ++ ascii status.text) = some status.code := by
  cases status <;> decide +kernel

theorem readHeader_line {h : Header} (noColon : colon ∉ h.name) :
    readHeader (h.name ++ ascii ": " ++ h.value) = some h := by
  have found : findFirst (ascii ": ") (h.name ++ (ascii ": " ++ h.value)) = some (h.name.length + 0) := by
    apply findFirst_skip
    · exact findFirst_append h.value (by decide)
    · intro j inside
      rintro ⟨tail,here⟩
      -- the separator would begin with a byte of the name
      rw [List.drop_append_of_le_length inside.le,List.drop_eq_getElem_cons inside] at here
      have same : colon = h.name[j] := (List.cons.inj here).1
      exact noColon (same ▸ List.getElem_mem inside)
  rw [List.append_assoc,readHeader,found,Option.map_some,Nat.add_zero,List.take_left,← List.drop_drop,List.drop_left]
  rfl

namespace Reply

variable {rep : Reply}

theorem Framed.inline (framed : rep.Framed) {line : Bytes} (member : line ∈ rep.headLines) : Inline line := by
  rcases List.mem_cons.mp member with rfl | header
  · exact inline_statusLine _
  · obtain ⟨h,inside,rfl⟩ := List.mem_map.mp header
    exact ((framed.name h inside).1.append (by decide +kernel)).append (framed.value h inside)

theorem headLines_ne_nil {line : Bytes} (member : line ∈ rep.headLines) : line ≠ [] := by
  rcases List.mem_cons.mp member with rfl | header
  · exact fun absurd => List.append_ne_nil_of_left_ne_nil (by decide) _ absurd
  · obtain ⟨h,_,rfl⟩ := List.mem_map.mp header
    simp [ascii]

theorem Framed.isLine (framed : rep.Framed) : ∀ line ∈ rep.headLines.map (· ++ crlf), IsLine line := by
  intro line member
  obtain ⟨text,inside,rfl⟩ := List.mem_map.mp member
  exact isLine_of_inline (framed.inline inside) (headLines_ne_nil inside)

theorem readHeaders_lines (headers : List Header) (noColon : ∀ h ∈ headers, colon ∉ h.name) :
    (headers.map fun h => h.name ++ ascii ": " ++ h.value).mapM readHeader = some headers := by
  induction headers with
  | nil => rfl
  | cons h headers ih =>
    rw [List.map_cons,List.mapM_cons,readHeader_line (noColon h (by simp)),
      ih fun other member => noColon other (by simp [member])]
    rfl

/-- Whatever is behind the reply is left over. -/
theorem receive_toBuffers (framed : rep.Framed) (tail : Bytes) :
    receive (rep.toBuffers ++ tail) = some ⟨rep.status.code,rep.headers,rep.content,tail⟩ := by
  have isLine := framed.isLine
  generalize whole : (rep.headLines.map (· ++ crlf)).flatten = head
  have bytes : rep.toBuffers ++ tail = (head ++ crlf) ++ (rep.content ++ tail) := by
    rw [toBuffers_eq,whole,List.append_assoc]
  have ends : findFirst (crlf ++ crlf) (head ++ crlf) = some (head.length - 2) := by
    rw [← whole]
    exact findFirst_httpEnd _ isLine (by simp [headLines])
  have long : 2 ≤ head.length := by
    rw [← whole,headLines,List.map_cons,List.flatten_cons]
    simp only [crlf,List.length_append,List.length_cons]
    omega
  have lines : splitLines ((rep.toBuffers ++ tail).take (head.length - 2 + 2)) = rep.headLines := by
    rw [bytes,Nat.sub_add_cancel long,List.append_assoc,List.take_left,← whole]
    have split := splitLines_terminated rep.headLines [] isLine
    rwa [List.append_nil,splitLines_nil,List.append_nil] at split
  have behind : (rep.toBuffers ++ tail).drop (head.length - 2 + 4) = rep.content ++ tail := by
    rw [bytes]
    apply List.drop_left'
    rw [List.length_append]
    simp only [crlf,List.length_cons,List.length_nil]
    omega
  have status : (headLines rep).head?.bind readStatus = some rep.status.code := readStatus_statusLine _
  have headers : (headLines rep).tail.mapM readHeader = some rep.headers :=
    readHeaders_lines _ fun h inside => (framed.name h inside).2
  have fits : rep.content.length ≤ (rep.content ++ tail).length := by simp
  rw [receive,bytes,findFirst_append _ ends,← bytes]
  simp only [Option.bind_eq_bind,Option.bind_some,lines,behind,status,headers,framed.length,if_pos fits,
    List.take_left,List.drop_left]
  rfl

theorem readLength_contentHeaders (content : Bytes) (type : String) :
    readLength (contentHeaders content type) = some content.length := by
  have first : (contentHeaders content type).find? (fun h => headersEqual h.name (ascii "Content-Length")) =
      some ⟨ascii "Content-Length",decimal content.length⟩ := by
    apply List.find?_cons_of_pos
    exact (by decide : headersEqual (ascii "Content-Length") (ascii "Content-Length") = true)
  have digits : (decimal content.length).all isDigit = true := List.all_eq_true.mpr fun _ => isDigit_of_mem_decimal
  rw [readLength,first,Option.bind_some,readDecimal,if_pos ⟨decimal_ne_nil _,digits⟩,digitsValue_decimal]

theorem inline_decimal (n : Nat) : Inline (decimal n) where
  noCr := fun member => absurd (isDigit_of_mem_decimal member) (by decide)
  noLf := fun member => absurd (isDigit_of_mem_decimal member) (by decide)
  noNul := fun member => absurd (isDigit_of_mem_decimal member) (by decide)

theorem framed_contentHeaders (status : StatusType) (content : Bytes) {type : String} (inline : Inline (ascii type)) :
    Framed ⟨status,contentHeaders content type,content⟩ where
  name := by
    change ∀ h ∈ contentHeaders content type, _
    simp only [contentHeaders,List.forall_mem_cons,List.not_mem_nil,false_implies,implies_true,and_true]
    decide +kernel
  value := by
    change ∀ h ∈ contentHeaders content type, _
    simp only [contentHeaders,List.forall_mem_cons,List.not_mem_nil,false_implies,implies_true,and_true]
    exact ⟨inline_decimal _,inline⟩
  length := readLength_contentHeaders content type

theorem framed_buidlReply (replyMsg : Bytes) : (buidlReply replyMsg).Framed :=
  framed_contentHeaders .ok replyMsg (by decide +kernel)

theorem framed_stockReply (status : StatusType) : (stockReply status).Framed :=
  framed_contentHeaders status status.page (by decide +kernel)

theorem received_replies (rep : Reply) (replyMsg : Bytes) (status : StatusType) :
    (rep.build replyMsg).headers = contentHeaders replyMsg "text/plain" ∧
    receive (rep.build replyMsg).toBuffers = some ⟨200,(rep.build replyMsg).headers,replyMsg,[]⟩ ∧
    receive (stockReply status).toBuffers =
      some ⟨status.code,(stockReply status).headers,(stockReply status).content,[]⟩ := by
  have built := receive_toBuffers (framed_buidlReply replyMsg) []
  have stock := receive_toBuffers (framed_stockReply status) []
  rw [List.append_nil] at built stock
  rw [build_eq]
  exact ⟨rfl,built,stock⟩

end Reply

end FuturesCellProxy.Server

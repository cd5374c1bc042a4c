import FuturesCellProxy.Server.Request

/-! The re-entrant request parser. `praseHttp` is a coroutine: `resume` is the point
at which the next call goes on, and `httpheader` the only other member whose value
survives from one call to the next; the remaining members are locals here. -/
namespace FuturesCellProxy.Server

def httpEnd : Bytes := [cr,lf,cr,lf]
def contentLengthName : Bytes := ascii "Content-Length"

/-- `std::string::max_size`; a longer `append` throws `length_error`. -/
def maxSize : Nat := 2^63 - 1

inductive Verdict where
  | complete | invalid | indeterminate
  deriving DecidableEq, Repr

inductive Resume where
  /-- before the first statement -/
  | start
  /-- after the `yield` in the loop that collects the head -/
  | header
  /-- before the loop that collects the content, where both later `yield`s lead -/
  | content
  /-- after a `return` or an exception inside the `reenter` block -/
  | done
  deriving DecidableEq, Repr

structure RequestParser where
  resume : Resume := .start
  httpheader : Bytes := []
  deriving DecidableEq, Repr

/-- The line that starts at `offset`, with its CRLF, and the offset behind it;
`none` is the result -1. -/
def getlineFromBuf2 (src : Bytes) (offset : Nat) : Option (Bytes × Nat) :=
  (strstr (src.drop offset) crlf).map fun i => ((src.drop offset).take (i+2),offset + (i+2))

def ncmp : (string1 string2 : Bytes) → (bytes : Nat) → Bool
  | _, _, 0 => false
  | string1, string2, bytes => loop string1 string2 bytes
where
  loop : Bytes → Bytes → Nat → Bool
    | _, _, 0 => true
    | [], _, _+1 => false
    | a :: string1, string2, bytes+1 =>
      if a = nul then false
      else if a ≠ string2.headD nul then false
      else loop string1 string2.tail bytes

def trimUri (uri : Bytes) : Bytes :=
  let uri := eraseAll (ascii "http://") 0 uri
  let uri := eraseAll (ascii "HTTP://") 0 uri
  let uri := uri.takeWhile (· ≠ 63)
  -- a slash at index 0 is not `found > 0`
  if uri.head? = some slash then uri else uri.takeWhile (· ≠ slash)

def getHttpUri (req : Request) (line : Bytes) : Bool × Request :=
  let it := scanWhile (· ≠ space) line 0
  let req := {req with method := req.method ++ line.take it}
  let it := scanWhile (· = space) line it
  let it := if byteAt line it = slash then it + 1 else it
  let it2 := scanWhile (· ≠ space) line (it+1)
  if it2 = line.length then (false,req)
  else (true,{req with uri := trimUri ((line.drop it).take (it2 - it))})

def getMimeHeader (req : Request) (buffer : Bytes) : Bool × Request :=
  let iterator := scanWhile (fun b => b ≠ nul && b ≠ colon) buffer 0
  if byteAt buffer iterator ≠ colon then (false,req)
  else
    let name := trim (buffer.take iterator)
    let iterator2 := scanWhile (fun b => b ≠ nul && b ≠ lf) buffer (iterator+1)
    if byteAt buffer iterator2 ≠ lf then (false,req)
    else
      let value := trim ((buffer.drop (iterator+1)).take (iterator2 - iterator))
      let req := {req with headers := req.headers ++ [⟨name,value⟩]}
      (true,if name = ascii "User-cmd" then {req with reqCmd := value} else req)

def takeLine (req : Request) (linebuf : Bytes) : Bool × Request :=
  if ncmp linebuf (ascii "POST ") 5 then getHttpUri req linebuf
  else if req.uri.isEmpty then (false,req)
  else getMimeHeader req linebuf

/-- The loop over the lines of the head. Every line is at least two bytes long, so
`src.length` turns are more than it can take. -/
def readLines (src : Bytes) (len : Nat) : (fuel offset : Nat) → Request → Bool × Request
  | 0, _, req => (true,req)
  | fuel+1, offset, req =>
    match getlineFromBuf2 src offset with
    | none => (true,req)
    | some (linebuf,offset) =>
      if ¬ (offset : Int) < toInt32 len then (true,req)
      else if linebuf = crlf then (true,req)
      else match takeLine req linebuf with
        | (false,req) => (false,req)
        | (true,req) => readLines src len fuel offset req

def readContentLength : List Header → Request → Bool × Request
  | [], req => (true,req)
  | header :: rest, req =>
    if headersEqual header.name contentLengthName then
      match lexicalCastSize header.value with
      | none => (false,req)
      | some n => readContentLength rest {req with contentLength := n,bheader := true}
    else readContentLength rest req

def readHead (src : Bytes) (len : Nat) (req : Request) : Bool × Request :=
  match readLines src len src.length 0 req with
  | (false,req) => (false,req)
  | (true,req) =>
    match readContentLength req.headers req with
    | (false,req) => (false,req)
    | (true,req) => (req.bheader,req)

/-- `m_content_size = len - (m_pend - m_phead)`, which wraps in `size_t`. -/
def contentSize (len pend : Nat) : Nat :=
  if pend ≤ len then len - pend else sizeBound - (pend - len)

/-- Everything after the search for the end of the head: `pend` is the index behind
the CRLFCRLF and `len` the number of bytes received into `src`. -/
def finishHead (req : Request) (src : Bytes) (pend len : Nat) : Verdict × Resume × Request :=
  match readHead src len req with
  | (false,req) => (.invalid,.done,req)
  | (true,req) =>
    -- `append` throws and `parse` answers with a default `tribool`
    if maxSize < req.content.length + contentSize len pend then (.invalid,.done,req)
    else
      let req := {req with content := req.content ++ (src.drop pend).take (contentSize len pend)}
      if req.contentLength ≤ req.content.length then (.complete,.done,req)
      else (.indeterminate,.content,req)

def collectContent (req : Request) (chunk : Bytes) : Verdict × Resume × Request :=
  let missing := req.contentLength - req.content.length
  let req :=
    if chunk.length < missing then {req with content := req.content ++ chunk}
    else {req with content := req.content ++ chunk.take missing}
  if req.contentLength ≤ req.content.length then (.complete,.done,req)
  else (.indeterminate,.content,req)

namespace RequestParser

def leave (parser : RequestParser) (outcome : Verdict × Resume × Request) :
    Verdict × RequestParser × Request :=
  (outcome.1,{parser with resume := outcome.2.1},outcome.2.2)

def collectHead (parser : RequestParser) (req : Request) (chunk : Bytes) :
    Verdict × RequestParser × Request :=
  let parser := {parser with httpheader := parser.httpheader ++ chunk}
  match strstr parser.httpheader httpEnd with
  | some i => parser.leave (finishHead req parser.httpheader (i+4) parser.httpheader.length)
  | none => parser.leave (.indeterminate,.header,req)

/-- `chunk` is what has been received and `rest` what the memory holds behind it. -/
def praseHttp (parser : RequestParser) (req : Request) (chunk rest : Bytes) :
    Verdict × RequestParser × Request :=
  match parser.resume with
  | .start =>
    match strstr (chunk ++ rest) httpEnd with
    | some i =>
      if (i : Int) < toInt32 chunk.length then
        parser.leave (finishHead req (chunk ++ rest) (i+4) chunk.length)
      else parser.collectHead req chunk
    | none => parser.collectHead req chunk
  | .header => parser.collectHead req chunk
  | .content => parser.leave (collectContent req chunk)
  | .done => (.complete,parser,req)

def parse (parser : RequestParser) (req : Request) (chunk rest : Bytes) :
    Verdict × RequestParser × Request :=
  parser.praseHttp {req with httpReqData := req.httpReqData ++ chunk} chunk rest

end RequestParser

structure Received where
  chunk : Bytes
  rest : Bytes

/-- `parse` is called for one read after the other until it decides. -/
def feed (parser : RequestParser) (req : Request) : List Received → List Verdict × RequestParser × Request
  | [] => ([],parser,req)
  | read :: reads =>
    match parser.parse req read.chunk read.rest with
    | (.indeterminate,parser,req) =>
      let rest := feed parser req reads
      (.indeterminate :: rest.1,rest.2)
    | (verdict,parser,req) => ([verdict],parser,req)

section Feed
variable {parser : RequestParser} {req : Request} {read : Received}

theorem feed_decided (reads : List Received)
    (decided : (parser.parse req read.chunk read.rest).1 ≠ .indeterminate) :
    feed parser req (read :: reads) = ([(parser.parse req read.chunk read.rest).1],
      (parser.parse req read.chunk read.rest).2) := by
  rw [feed]
  revert decided
  generalize parser.parse req read.chunk read.rest = out
  obtain ⟨verdict,parser,req⟩ := out
  cases verdict with
  | complete => exact fun _ => rfl
  | invalid => exact fun _ => rfl
  | indeterminate => exact fun decided => absurd rfl decided

theorem feed_undecided (reads : List Received)
    (undecided : (parser.parse req read.chunk read.rest).1 = .indeterminate) :
    feed parser req (read :: reads) =
      let out := parser.parse req read.chunk read.rest
      (.indeterminate :: (feed out.2.1 out.2.2 reads).1,(feed out.2.1 out.2.2 reads).2) := by
  rw [feed]
  revert undecided
  generalize parser.parse req read.chunk read.rest = out
  obtain ⟨verdict,parser,req⟩ := out
  rintro rfl
  rfl

end Feed

end FuturesCellProxy.Server

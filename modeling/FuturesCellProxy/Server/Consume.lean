import FuturesCellProxy.Foundation.Scanner
import FuturesCellProxy.Server.RequestParser

/-! The parser that takes one character at a time. -/
namespace FuturesCellProxy.Server
open Foundation

/-- A `char` is signed: a byte above 127 is a negative number. -/
def isChar (c : UInt8) : Bool := c ≤ 127
def isCtl (c : UInt8) : Bool := c ≤ 31 || c == 127
def isTspecial (c : UInt8) : Bool := (ascii "()<>@,;:\\\"/[]?=\x7b\x7d \t").contains c

def isBlank (c : UInt8) : Bool := c == space || c == 9
def isToken (c : UInt8) : Bool := isChar c && !isCtl c && !isTspecial c
def isText (c : UInt8) : Bool := isChar c && !isCtl c
def isTarget (c : UInt8) : Bool := !isCtl c && c != space

/-- Where `consume` goes on with the next character. -/
inductive Reenter where
  | start
  | method
  | uri
  /-- So many characters of `HTTP/` have come. -/
  | protocol (seen : Nat)
  | majorFirst
  | major
  | minorFirst
  | minor
  | startLineEnd
  | headers
  | blanks
  | name
  | nameEnd
  | value
  | lineEnd
  | headEnd
  | content
  | done
  deriving DecidableEq, Repr

structure Consumer where
  reenter : Reenter := .start
  contentLength : Nat := 0
  deriving DecidableEq, Repr

/-- What is done to `headers.back()`. -/
def onBack (change : Header → Header) : List Header → List Header
  | [] => []
  | [last] => [change last]
  | header :: rest => header :: onBack change rest

/-- The loop over the headers; `false` is a `bad_lexical_cast`. -/
def readLengths : List Header → Nat → Bool × Nat
  | [], length => (true,length)
  | header :: rest, length =>
    if headersEqual header.name contentLengthName then
      match lexicalCastSize header.value with
      | some length => readLengths rest length
      | none => (false,length)
    else readLengths rest length

/-- One more digit of a version number. An `int` that cannot hold it wraps, as on the machine;
the language leaves that undefined. -/
def versionDigit (version : Int) (c : UInt8) : Int := (version * 10 + c.toNat - 48).bmod (2^32)

namespace Consumer

/-- `yield return boost::indeterminate`. -/
def await (parser : Consumer) (req : Request) (reenter : Reenter) : Verdict × Consumer × Request :=
  (.indeterminate,{parser with reenter},req)

/-- `return false`, behind which the coroutine is at its end. -/
def fail (parser : Consumer) (req : Request) : Verdict × Consumer × Request :=
  (.invalid,{parser with reenter := .done},req)

def methodLoop (parser : Consumer) (req : Request) (c : UInt8) : Verdict × Consumer × Request :=
  if isToken c && c != space then parser.await {req with method := req.method ++ [c]} .method
  else if req.method.isEmpty then parser.fail req
  else if c ≠ space then parser.fail req
  else parser.await req .uri

def uriLoop (parser : Consumer) (req : Request) (c : UInt8) : Verdict × Consumer × Request :=
  if isTarget c then parser.await {req with uri := req.uri ++ [c]} .uri
  else if req.uri.isEmpty then parser.fail req
  else if c ≠ space then parser.fail req
  else parser.await req (.protocol 0)

def majorLoop (parser : Consumer) (req : Request) (c : UInt8) : Verdict × Consumer × Request :=
  if isDigit c then
    parser.await {req with httpVersionMajor := versionDigit req.httpVersionMajor c} .major
  else if c ≠ 46 then parser.fail req
  else parser.await req .minorFirst

def minorLoop (parser : Consumer) (req : Request) (c : UInt8) : Verdict × Consumer × Request :=
  if isDigit c then
    parser.await {req with httpVersionMinor := versionDigit req.httpVersionMinor c} .minor
  else if c ≠ cr then parser.fail req
  else parser.await req .startLineEnd

def valueLoop (parser : Consumer) (req : Request) (c : UInt8) : Verdict × Consumer × Request :=
  if isText c && c != cr then
    parser.await {req with headers := onBack (fun back => {back with value := back.value ++ [c]}) req.headers} .value
  else if c ≠ cr then parser.fail req
  else parser.await req .lineEnd

def blanksLoop (parser : Consumer) (req : Request) (c : UInt8) : Verdict × Consumer × Request :=
  if isBlank c then parser.await req .blanks else parser.valueLoop req c

def nameLoop (parser : Consumer) (req : Request) (c : UInt8) : Verdict × Consumer × Request :=
  if isToken c && c != colon then
    parser.await {req with headers := onBack (fun back => {back with name := back.name ++ [c]}) req.headers} .name
  else if c ≠ colon then parser.fail req
  else parser.await req .nameEnd

def headerLoop (parser : Consumer) (req : Request) (c : UInt8) : Verdict × Consumer × Request :=
  if (isToken c && c != cr) || isBlank c then
    if isBlank c then if req.headers.isEmpty then parser.fail req else parser.blanksLoop req c
    else parser.nameLoop {req with headers := req.headers ++ [⟨[],[]⟩]} c
  else if c ≠ cr then parser.fail req
  else parser.await req .headEnd

/-- The loop over the content, in front of its `yield`. -/
def contentLoop (parser : Consumer) (req : Request) : Verdict × Consumer × Request :=
  if req.content.length < parser.contentLength then parser.await req .content
  else (.complete,{parser with reenter := .done},req)

def endHead (parser : Consumer) (req : Request) : Verdict × Consumer × Request :=
  match readLengths req.headers parser.contentLength with
  | (true,contentLength) => contentLoop {parser with contentLength} req
  | (false,contentLength) => fail {parser with contentLength} req

def consume (parser : Consumer) (req : Request) (c : UInt8) : Verdict × Consumer × Request :=
  match parser.reenter with
  | .start =>
    methodLoop {parser with contentLength := 0} {req with
      method := [],uri := [],httpVersionMajor := 0,httpVersionMinor := 0,headers := [],content := []} c
  | .method => parser.methodLoop req c
  | .uri => parser.uriLoop req c
  | .protocol seen =>
    if c ≠ (ascii "HTTP/").getD seen 0 then parser.fail req
    else parser.await req (if seen < 4 then .protocol (seen + 1) else .majorFirst)
  | .majorFirst => if !isDigit c then parser.fail req else parser.majorLoop req c
  | .major => parser.majorLoop req c
  | .minorFirst => if !isDigit c then parser.fail req else parser.minorLoop req c
  | .minor => parser.minorLoop req c
  | .startLineEnd => if c ≠ lf then parser.fail req else parser.await req .headers
  | .headers => parser.headerLoop req c
  | .blanks => parser.blanksLoop req c
  | .name => parser.nameLoop req c
  | .nameEnd => if c ≠ space then parser.fail req else parser.await req .value
  | .value => parser.valueLoop req c
  | .lineEnd => if c ≠ lf then parser.fail req else parser.await req .headers
  | .headEnd => if c ≠ lf then parser.fail req else parser.endHead req
  | .content => parser.contentLoop {req with content := req.content ++ [c]}
  | .done => (.complete,parser,req)

/-- What a verdict means for the caller, who goes on as long as it is indeterminate. -/
def outcome : Verdict × Consumer × Request → Outcome (Consumer × Request) Request
  | (.indeterminate,parser,req) => .more (parser,req)
  | (.complete,_,req) => .accepted req
  | (.invalid,_,_) => .rejected

def take (state : Consumer × Request) (c : UInt8) : Outcome (Consumer × Request) Request :=
  outcome (state.1.consume state.2 c)

end Consumer

end FuturesCellProxy.Server

import FuturesCellProxy.Server.Request

/-! A reply as it is written to the client, and the stock replies. -/
namespace FuturesCellProxy.Server

inductive StatusType where
  | ok | created | accepted | noContent
  | multipleChoices | movedPermanently | movedTemporarily | notModified
  | badRequest | unauthorized | forbidden | notFound
  | internalServerError | notImplemented | badGateway | serviceUnavailable
  deriving DecidableEq, Repr

/-- `status` has no initial value. -/
structure Reply where
  status : StatusType
  headers : List Header := []
  content : Bytes := []
  deriving DecidableEq, Repr

namespace StatusType

def text : StatusType → String
  | ok => "200 OK"
  | created => "201 Created"
  | accepted => "202 Accepted"
  | noContent => "204 No Content"
  | multipleChoices => "300 Multiple Choices"
  | movedPermanently => "301 Moved Permanently"
  | movedTemporarily => "302 Moved Temporarily"
  | notModified => "304 Not Modified"
  | badRequest => "400 Bad Request"
  | unauthorized => "401 Unauthorized"
  | forbidden => "403 Forbidden"
  | notFound => "404 Not Found"
  | internalServerError => "500 Internal Server Error"
  | notImplemented => "501 Not Implemented"
  | badGateway => "502 Bad Gateway"
  | serviceUnavailable => "503 Service Unavailable"

/-- The headline of a stock page; the one of `noContent` lacks a word. -/
def heading : StatusType → String
  | noContent => "204 Content"
  | status => status.text

def statusLine (status : StatusType) : Bytes := ascii "HTTP/1.0 " ++ ascii status.text ++ crlf

/-- The page of a stock reply: its title is the status text behind the number. -/
def page : StatusType → Bytes
  | ok => []
  | status => ascii "<html><head><title>" ++ (ascii status.text).drop 4 ++
      ascii "</title></head><body><h1>" ++ ascii status.heading ++ ascii "</h1></body></html>"

end StatusType

namespace Reply

def toBuffers (rep : Reply) : Bytes :=
  rep.status.statusLine ++
    (rep.headers.map fun h => h.name ++ ascii ": " ++ h.value ++ crlf).flatten ++ crlf ++ rep.content

def contentHeaders (content : Bytes) (type : String) : List Header :=
  [⟨ascii "Content-Length",decimal content.length⟩,⟨ascii "Content-Type",ascii type⟩]

def stockReply (status : StatusType) : Reply :=
  {status,headers := contentHeaders status.page "text/html",content := status.page}

end Reply

end FuturesCellProxy.Server

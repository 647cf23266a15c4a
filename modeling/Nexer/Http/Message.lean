import Nexer.Text.Url
import Nexer.Transition.Machine
import Mathlib.Data.List.ModifyLast

/-!
# HTTP messages

A `Request` collects what the parser reports and owns the response to it.  One object
serves all requests of a connection; `Reset` makes it ready for the next one.  The
parser itself is not part of the program: it is a state with a function that consumes
bytes and reports callbacks.
-/

namespace Nexer.Http

open Nexer.Transition

/-- The callbacks of `InitParserSettings`. -/
inductive Callback where
  | url (bytes : Bytes)
  | headerField (bytes : Bytes)
  | headerValue (bytes : Bytes)
  | headersComplete
  | body (bytes : Bytes)
  | messageComplete
  deriving DecidableEq

/-- `llhttp_init` and `llhttp_execute`, with the callbacks and the error of a call. -/
structure Parser where
  State : Type
  init : State
  execute : State → Bytes → State × List Callback × Nat

/-- A `StringBuffer`, with the `badbit` of its `ostream`. -/
structure Contents where
  bytes : Bytes := []
  bad : Bool := false
  deriving DecidableEq

namespace Contents

/-- `MAX_SIZE` of `Reserve`. -/
def limit : Nat := 268435456

variable (contents : Contents) (bytes : Bytes)

/-- `Reserve` makes room for the bytes and a NUL. -/
def Fits : Prop := contents.bytes.length + bytes.length + 1 ≤ limit

instance : Decidable (contents.Fits bytes) := inferInstanceAs (Decidable (_ ≤ _))

/-- `Write`. -/
def write : Contents :=
  if contents.Fits bytes then { contents with bytes := contents.bytes ++ bytes } else contents

/-- `<<`. -/
def insert : Contents :=
  if contents.bad then contents
  else if contents.Fits bytes then { contents with bytes := contents.bytes ++ bytes }
  else { contents with bad := true }

/-- `Clear`. -/
def clear : Contents := { contents with bytes := [] }

end Contents

structure Header where
  key : Bytes
  value : Bytes := []
  deriving DecidableEq

/-- The buffers that `End` gives to `Write`. -/
inductive Part where
  | startLine
  | head
  | body
  deriving DecidableEq

/-- `outgoing::Response`. -/
structure Response where
  status : Nat := 501
  startLine : Contents := {}
  head : Contents := {}
  body : Contents := {}

/-- `incoming::Request`.  `headerField` and `complete` are those of `parser_state_`. -/
structure Request (parser : Parser) where
  parser : parser.State
  headerField : Bool := false
  complete : Bool := false
  headers : List Header := []
  body : Contents := {}
  urlString : Bytes := []
  url : Url := {}
  response : Response := {}

/-- What the function of `OnRequest` can read. -/
structure Received where
  url : Bytes
  parsed : Url
  headers : List Header
  body : Bytes
  deriving DecidableEq

/-- What it writes: the calls of `SetHeader`, what it puts into `body()` and the
argument of `End`. -/
structure Reply where
  headers : List (Bytes × Bytes) := []
  body : List Bytes := []
  status : Nat := 0

/-- The function of `OnRequest`. -/
abbrev Handler := Received → Reply

namespace Response

variable (response : Response)

/-- `Response::Reset`. -/
def reset : Response where
  status := 501
  startLine := response.startLine.clear
  head := response.head.clear
  body := response.body.clear

/-- `SetHeader`. -/
def setHeader (name value : Bytes) : Response :=
  { response with
    head := (((response.head.insert name).insert (ascii ": ")).insert value).insert (ascii "\r\n") }

def writeBody (bytes : Bytes) : Response :=
  { response with body := response.body.insert bytes }

/-- `End`, before it calls `Write`. -/
def finish (statusName : Nat → Bytes) (status : Nat) : Response :=
  let status := if status > 0 then status else response.status
  let startLine := ((((response.startLine.insert (ascii "HTTP/1.1 ")).insert
    (decimal status)).insert (ascii " ")).insert (statusName status)).insert (ascii "\r\n")
  let head := (((response.head.insert (ascii "Connection: Keep-Alive\r\n")).insert
    (ascii "Content-Length: ")).insert (decimal response.body.bytes.length)).insert
    (ascii "\r\n\r\n")
  { response with status, startLine, head }

/-- The function of `OnRequest`, up to the call of `Write`. -/
def answer (statusName : Nat → Bytes) (reply : Reply) : Response :=
  let headed := reply.headers.foldl (fun response header => response.setHeader header.1 header.2)
    response
  (reply.body.foldl writeBody headed).finish statusName reply.status

end Response

namespace Request

variable {parser : Parser}

/-- The constructor. -/
def initial (parser : Parser) : Request parser := { parser := parser.init }

variable (request : Request parser)

/-- `Request::Reset`. -/
def reset : Request parser where
  parser := parser.init
  body := request.body.clear
  response := request.response.reset

def onUrl (bytes : Bytes) : Request parser :=
  if bytes.length > 0 then { request with urlString := request.urlString ++ bytes } else request

def onHeaderField (bytes : Bytes) : Request parser :=
  if bytes.length > 0 then
    if request.headerField then
      { request with
        headers := request.headers.modifyLast fun header =>
          { header with key := header.key ++ bytes } }
    else
      { request with headers := request.headers ++ [{ key := bytes }], headerField := true }
  else request

def onHeaderValue (bytes : Bytes) : Request parser :=
  if bytes.length > 0 then
    { request with
      headers := request.headers.modifyLast fun header =>
        { header with value := header.value ++ bytes }
      headerField := false }
  else request

def onHeadersComplete : Request parser :=
  { request with url := .parse request.urlString }

def onBody (bytes : Bytes) : Request parser :=
  if bytes.length > 0 then { request with body := request.body.write bytes } else request

/-- What the function of `OnRequest` is shown. -/
def received : Received where
  url := request.urlString
  parsed := request.url
  headers := request.headers
  body := request.body.bytes

end Request

end Nexer.Http

import Nexer.Http.Message
import Nexer.TcpClient.State

/-!
# A connection of the HTTP server

The closures of `Server::Init` feed what a client sends to its `Request`, and close the
client on errors.  A response is written from the buffers of the request, which
`uv_write` reads until its callback has run.
-/

namespace Nexer.Http

open Nexer.Transition

/-- A call of `uv_write` whose callback has not run: the lengths of the `buf_`. -/
structure Flight where
  startLine : Nat
  head : Nat
  body : Nat
  deriving DecidableEq

/-- `client` is the handle of the connection. -/
structure State (parser : Parser) where
  client : TcpClient.Phase := .opened
  request : Request parser
  flights : List Flight := []

inductive Event where
  | read (bytes : Bytes)
  /-- `on_request_` is called. -/
  | request (received : Received)
  /-- A buffer of the response is cleared or written to. -/
  | touched (part : Part)
  /-- `uv_write` takes the buffers. -/
  | write (bytes : Bytes)
  /-- The callback of `uv_write` runs; the bytes are those that the buffers then hold. -/
  | written (status : Int) (bytes : Bytes)
  | closing
  | closed
  deriving DecidableEq

abbrev Effect (parser : Parser) := Reaction (State parser) Event

variable {parser : Parser}

def State.initial (parser : Parser) : State parser := { request := .initial parser }

/-- `Handle::Close`. -/
def close (state : State parser) : Effect parser :=
  if state.client = .opened then ({ state with client := .closing }, [.closing]) else (state, [])

/-- The buffers that `Response::Reset` clears. -/
def reset (state : State parser) : Effect parser :=
  ({ state with request := state.request.reset },
    [.touched .startLine, .touched .head, .touched .body])

/-- The bytes that a `buf_` of this length points to.  `Clear` leaves NULs, which later bytes
overwrite from the front; a buffer that `Reserve` moves meanwhile is not followed. -/
def Contents.pointed (contents : Contents) (length : Nat) : Bytes :=
  contents.bytes.take length ++ List.replicate (length - contents.bytes.length) 0

@[simp] theorem Contents.pointed_length (contents : Contents) :
    contents.pointed contents.bytes.length = contents.bytes := by
  simp [Contents.pointed]

/-- The bytes of the three `buf_`. -/
def Response.held (response : Response) (flight : Flight) : Bytes :=
  response.startLine.pointed flight.startLine ++ response.head.pointed flight.head ++
    response.body.pointed flight.body

/-- The call of `Write` in `End`; `uv_write` refuses a client that is closing. -/
def write (state : State parser) : Effect parser :=
  let response := state.request.response
  let flight : Flight :=
    ⟨response.startLine.bytes.length, response.head.bytes.length, response.body.bytes.length⟩
  if state.client = .opened then
    ({ state with flights := state.flights ++ [flight] }, [.write (response.held flight)])
  else close state

/-- `OnRequestComplete`, with a function that answers at once. -/
def onRequestComplete (statusName : Nat → Bytes) (handler : Option Handler)
    (state : State parser) : Effect parser :=
  match handler with
  | none => (state, [])
  | some handler =>
      let received := state.request.received
      let reply := handler received
      let answered := state.request.response.answer statusName reply
      Reaction.andThen
        ({ state with request := { state.request with response := answered } },
          .request received :: reply.headers.map (fun _ => .touched .head) ++
            reply.body.map (fun _ => .touched .body) ++ [.touched .startLine, .touched .head])
        write

/-- The functions of `InitParserSettings`. -/
def onCallback (statusName : Nat → Bytes) (handler : Option Handler) (state : State parser) :
    Callback → Effect parser
  | .url bytes => ({ state with request := state.request.onUrl bytes }, [])
  | .headerField bytes => ({ state with request := state.request.onHeaderField bytes }, [])
  | .headerValue bytes => ({ state with request := state.request.onHeaderValue bytes }, [])
  | .headersComplete => ({ state with request := state.request.onHeadersComplete }, [])
  | .body bytes => ({ state with request := state.request.onBody bytes }, [])
  | .messageComplete =>
      onRequestComplete statusName handler
        { state with request := { state.request with complete := true } }

def onCallbacks (statusName : Nat → Bytes) (handler : Option Handler) :
    List Callback → State parser → Effect parser
  | [], state => (state, [])
  | callback :: rest, state =>
      (onCallback statusName handler state callback).andThen (onCallbacks statusName handler rest)

/-- `Parse`, and `Close` on an error. -/
def parse (statusName : Nat → Bytes) (handler : Option Handler) (bytes : Bytes)
    (state : State parser) : Effect parser :=
  let (next, callbacks, error) := parser.execute state.request.parser bytes
  ((onCallbacks statusName handler callbacks
    { state with request := { state.request with parser := next } }).andThen fun state =>
      if error ≠ 0 then close state else (state, []))

/-- The closure of `OnData`. -/
def onData (statusName : Nat → Bytes) (handler : Option Handler) (bytes : Bytes)
    (state : State parser) : Effect parser :=
  (if state.request.complete then reset state else (state, [])).andThen
    (parse statusName handler bytes)

inductive Label where
  | read (bytes : Bytes)
  | eof
  | readError
  | written (status : Int)
  | closed

/-- The machine of a connection.  A closed handle reads nothing, and its close callback
runs after those of its writes. -/
def step (parser : Parser) (statusName : Nat → Bytes) (handler : Option Handler) :
    Machine (State parser) Label Event
  | state, .read bytes =>
      if state.client = .opened then
        some (Reaction.andThen (state, [.read bytes]) (onData statusName handler bytes))
      else none
  | state, .eof => if state.client = .opened then some (close state) else none
  | state, .readError => if state.client = .opened then some (close state) else none
  | state, .written status =>
      match state.flights with
      | [] => none
      | flight :: rest =>
          if state.client ≠ .destroyed then
            some (Reaction.andThen
              ({ state with flights := rest }, [.written status (state.request.response.held flight)])
              fun state => if status ≠ 0 then close state else (state, []))
          else none
  | state, .closed =>
      if state.client = .closing ∧ state.flights = [] then
        some ({ state with client := .destroyed }, [.closed])
      else none

end Nexer.Http

import Nexer.Transition.Machine
import Mathlib.Logic.Function.Basic
import Mathlib.Tactic.Simps.Basic

/-!
# A TCP forwarder and its sockets

`TcpForwarder` joins the socket that a server accepted to one that was connected
for it, or to itself.  Each of its two `Client` records owns two strings and
points to one of them with `data_in` and to the other with `data_out`; in echo
mode the second record points to the strings of the first.  The strings are the
cells of a small memory, and a write request remembers the cell whose address was
handed to `uv_write`, with the bytes that the cell held at that moment.
-/

namespace Nexer.Forwarder

open Nexer.Transition

/-- The `TcpClient` given to the constructor, and another one for `SetOutgoing`. -/
inductive Socket where
  | accepted
  | connected
  deriving DecidableEq

/-- `incoming_` and `outgoing_`. -/
inductive Side where
  | incoming
  | outgoing
  deriving DecidableEq

def Side.peer : Side → Side
  | .incoming => .outgoing
  | .outgoing => .incoming

/-- The string `data[index]` of a `Client`. -/
structure Cell where
  side : Side
  index : Bool
  deriving DecidableEq

/-- `TcpForwarder::Client`, without its strings. -/
structure Client where
  tcp : Option Socket
  dataIn : Cell
  dataOut : Cell

/-- A call of `uv_write` whose callback has not run. -/
structure Request where
  cell : Cell
  bytes : List UInt8
  deriving DecidableEq

/-- `closing` from `uv_close` to its callback. -/
inductive Phase where
  | opened
  | closing
  | closed
  deriving DecidableEq

/-- A `TcpClient`.  `handlers` is the record for which `Init` registered its
closures on this socket. -/
structure Tcp where
  phase : Phase := .opened
  writable : Bool
  requests : List Request := []
  handlers : Option Side := none

inductive Event where
  | received (socket : Socket) (bytes : List UInt8)
  /-- Bytes of a socket that no `OnData` closure is registered on. -/
  | dropped (socket : Socket) (bytes : List UInt8)
  | write (socket : Socket) (request : Request)
  | completed (socket : Socket) (bytes : List UInt8)
  | ended (socket : Socket)
  /-- `uv_close` on a socket, called in a handler of the socket `cause`. -/
  | closing (socket : Socket) (cause : Socket)
  | deleted
  /-- A member function called through a null `tcp` pointer. -/
  | nullCall
  /-- A closure of a forwarder called after `delete this`. -/
  | deadCall
  deriving DecidableEq

/-- `attached` remembers the argument of `SetOutgoing`. -/
structure State where
  clients : Side → Client
  strings : Cell → List UInt8
  tcps : Socket → Tcp
  attached : Option Socket
  deleted : Bool

abbrev Effect := Transition.Reaction State Event

/-- `Create(incoming)`: the handlers of the accepted socket are registered. -/
def State.initial (writable : Socket → Bool) : State where
  clients := fun side =>
    { tcp := if side = .incoming then some .accepted else none
      dataIn := ⟨side, false⟩
      dataOut := ⟨side, true⟩ }
  strings := fun _ => []
  tcps := fun socket =>
    { writable := writable socket
      handlers := if socket = .accepted then some .incoming else none }
  attached := none
  deleted := false

namespace State

variable (state : State)

/-- `*data_in` of a record. -/
def inOf (side : Side) : List UInt8 := state.strings (state.clients side).dataIn

/-- `*data_out` of a record. -/
def outOf (side : Side) : List UInt8 := state.strings (state.clients side).dataOut

@[simps] def setString (cell : Cell) (bytes : List UInt8) : State :=
  { state with strings := Function.update state.strings cell bytes }

/-- Assign to the fields of one record. -/
@[simps] def modifyClient (side : Side) (assign : Client → Client) : State :=
  { state with clients := Function.update state.clients side (assign (state.clients side)) }

@[simps] def modifyTcp (socket : Socket) (assign : Tcp → Tcp) : State :=
  { state with tcps := Function.update state.tcps socket (assign (state.tcps socket)) }

/-- The outstanding write requests of a socket. -/
def setRequests (socket : Socket) (requests : List Request) : State :=
  state.modifyTcp socket fun tcp => { tcp with requests }

section Requests

variable {state} {socket : Socket} {requests : List Request}

@[simp] theorem setRequests_clients : (state.setRequests socket requests).clients = state.clients :=
  rfl

@[simp] theorem setRequests_strings : (state.setRequests socket requests).strings = state.strings :=
  rfl

@[simp] theorem setRequests_attached :
    (state.setRequests socket requests).attached = state.attached :=
  rfl

@[simp] theorem setRequests_deleted : (state.setRequests socket requests).deleted = state.deleted :=
  rfl

@[simp] theorem setRequests_inOf : (state.setRequests socket requests).inOf = state.inOf :=
  rfl

@[simp] theorem setRequests_outOf : (state.setRequests socket requests).outOf = state.outOf :=
  rfl

@[simp] theorem setRequests_requests (another : Socket) :
    ((state.setRequests socket requests).tcps another).requests =
      if another = socket then requests else (state.tcps another).requests := by
  by_cases same : another = socket <;> simp [setRequests, same]

/-- A field that is not the list of requests. -/
theorem setRequests_field {β : Type} (field : Tcp → β)
    (same : ∀ tcp, field { tcp with requests } = field tcp) (another : Socket) :
    field ((state.setRequests socket requests).tcps another) = field (state.tcps another) := by
  by_cases equal : another = socket
  · subst equal
    simp [setRequests, same]
  · simp [setRequests, equal]

@[simp] theorem setRequests_phase (another : Socket) :
    ((state.setRequests socket requests).tcps another).phase = (state.tcps another).phase :=
  setRequests_field Tcp.phase (fun _ => rfl) another

@[simp] theorem setRequests_writable (another : Socket) :
    ((state.setRequests socket requests).tcps another).writable = (state.tcps another).writable :=
  setRequests_field Tcp.writable (fun _ => rfl) another

@[simp] theorem setRequests_handlers (another : Socket) :
    ((state.setRequests socket requests).tcps another).handlers = (state.tcps another).handlers :=
  setRequests_field Tcp.handlers (fun _ => rfl) another

end Requests

end State

/-- `std::swap(client->data_in, client->data_out)`. -/
def Client.swapped (client : Client) : Client :=
  { client with dataIn := client.dataOut, dataOut := client.dataIn }

/-- `Swap`. -/
def swap (side : Side) (state : State) : State :=
  let once := state.modifyClient side Client.swapped
  if (state.clients .incoming).tcp = (state.clients .outgoing).tcp then
    once.modifyClient side.peer Client.swapped
  else
    once

/-- `Handle::Close`, called in a handler of the socket `cause`. -/
def close (socket cause : Socket) (state : State) : Effect :=
  if (state.tcps socket).phase = .opened then
    (state.modifyTcp socket fun tcp => { tcp with phase := .closing, writable := false },
      [.closing socket cause])
  else
    (state, [])

/-- The `OnError` closure. -/
def onError (side : Side) (state : State) : Effect :=
  match (state.clients side).tcp with
  | none => (state, [.nullCall])
  | some own =>
      (close own own state).andThen fun state =>
        match (state.clients side.peer).tcp with
        | none => (state, [])
        | some other => close other own state

/-- Run a closure that `Init` registered on the socket, if there is one. -/
def notify (socket : Socket) (closure : Side → State → Effect) (state : State) : Effect :=
  match (state.tcps socket).handlers with
  | none => (state, [])
  | some side => if state.deleted then (state, [.deadCall]) else closure side state

/-- `TcpClient::Write` with the string of a cell.  `uv_write` refuses a socket that
is not writable. -/
def write (target : Option Socket) (cell : Cell) (state : State) : Effect :=
  match target with
  | none => (state, [.nullCall])
  | some socket =>
      if (state.tcps socket).writable then
        let request : Request := ⟨cell, state.strings cell⟩
        (state.setRequests socket ((state.tcps socket).requests ++ [request]),
          [.write socket request])
      else
        notify socket onError state

/-- `peer->tcp && peer->tcp->IsWritable()`. -/
def writableTo (state : State) (target : Option Socket) : Bool :=
  target.any fun socket => (state.tcps socket).writable

/-- The `OnData` closure. -/
def onData (bytes : List UInt8) (side : Side) (state : State) : Effect :=
  if bytes.length > 0 then
    let cell := (state.clients side).dataIn
    let appended := state.setString cell (state.strings cell ++ bytes)
    if writableTo appended (appended.clients side.peer).tcp ∧ (appended.outOf side).length = 0 then
      let swapped := swap side appended
      write (swapped.clients side.peer).tcp (swapped.clients side).dataOut swapped
    else
      (appended, [])
  else
    (state, [])

/-- The `OnSend` closure. -/
def onSend (side : Side) (state : State) : Effect :=
  let cleared := state.setString (state.clients side.peer).dataOut []
  if (cleared.inOf side.peer).length > 0 then
    let swapped := swap side.peer cleared
    write (swapped.clients side).tcp (swapped.clients side.peer).dataOut swapped
  else
    (cleared, [])

/-- The `OnClose` closure, for the socket whose close callback runs. -/
def onClose (own : Socket) (side : Side) (state : State) : Effect :=
  let parted :=
    if (state.clients side.peer).tcp = (state.clients side).tcp then
      state.modifyClient side.peer fun client => { client with tcp := none }
    else state
  let dropped := parted.modifyClient side fun client => { client with tcp := none }
  match (dropped.clients side.peer).tcp with
  | none => ({ dropped with deleted := true }, [.deleted])
  | some other => close other own dropped

/-- `TcpClient` hands the bytes to its `OnData` closures, if there are any. -/
def deliver (socket : Socket) (bytes : List UInt8) (state : State) : Effect :=
  match (state.tcps socket).handlers with
  | none => (state, [.dropped socket bytes])
  | some _ =>
      notify socket (fun side state =>
        Reaction.andThen (state, [.received socket bytes]) (onData bytes side)) state

/-- `Init` on the record of `SetOutgoing`, or the aliasing of its pointers. -/
def setOutgoing (socket : Socket) (state : State) : Effect :=
  let named := { state.modifyClient .outgoing (fun client => { client with tcp := some socket }) with
    attached := some socket }
  let joined :=
    if some socket ≠ (named.clients .incoming).tcp then
      named.modifyTcp socket fun tcp => { tcp with handlers := some .outgoing }
    else
      named.modifyClient .outgoing fun client =>
        { client with
          dataIn := (named.clients .incoming).dataIn
          dataOut := (named.clients .incoming).dataOut }
  if (joined.inOf .incoming).length > 0 ∧ (joined.outOf .incoming).length = 0 then
    let swapped := swap .incoming joined
    write (swapped.clients .outgoing).tcp (swapped.clients .incoming).dataOut swapped
  else
    (joined, [])

/-- The write callbacks that `uv_close` leaves to be called with `UV_ECANCELED`. -/
def cancel (socket : Socket) : List Request → State → Effect
  | [], state => (state, [])
  | _ :: rest, state => (notify socket onError state).andThen (cancel socket rest)

/-- What the event loop reports on one socket, and the calls from outside. -/
inductive Label where
  | data (socket : Socket) (bytes : List UInt8)
  | sent (socket : Socket)
  | eof (socket : Socket)
  | readError (socket : Socket)
  | writeError (socket : Socket)
  | closed (socket : Socket)
  | close (socket : Socket)
  | setOutgoing (socket : Socket)

/-- The socket that reports the label; nobody reports `SetOutgoing`. -/
def Label.socket : Label → Option Socket
  | .data socket _ | .sent socket | .eof socket | .readError socket | .writeError socket
  | .closed socket | .close socket => some socket
  | .setOutgoing _ => none

/-- The machine of a forwarder and its sockets.  After `uv_close` a socket reads
nothing more; a write that the system had finished is still reported, the other ones
are cancelled, and the close callback runs last.  `SetOutgoing` is called at most
once, with a socket whose close callback has not run, before the forwarder is
deleted. -/
def step : Machine State Label Event
  | state, .data socket bytes =>
      if (state.tcps socket).phase = .opened then
        some (deliver socket bytes state)
      else none
  | state, .sent socket =>
      match (state.tcps socket).requests with
      | request :: rest =>
          if (state.tcps socket).phase ≠ .closed then
            some (Reaction.andThen
              (state.setRequests socket rest, [.completed socket request.bytes])
              (notify socket onSend))
          else none
      | [] => none
  | state, .eof socket =>
      if (state.tcps socket).phase = .opened then
        some (Reaction.andThen (state, [.ended socket]) (close socket socket))
      else none
  | state, .readError socket =>
      if (state.tcps socket).phase = .opened then some (notify socket onError state) else none
  | state, .writeError socket =>
      match (state.tcps socket).phase, (state.tcps socket).requests with
      | .opened, _ :: rest =>
          some (notify socket onError (state.setRequests socket rest))
      | _, _ => none
  | state, .closed socket =>
      if (state.tcps socket).phase = .closing then
        some (((cancel socket (state.tcps socket).requests state).andThen fun state =>
          (state.modifyTcp socket fun tcp => { tcp with phase := .closed, requests := [] }, [])).andThen
            (notify socket (onClose socket)))
      else none
  | state, .close socket =>
      if (state.tcps socket).phase = .opened then some (close socket socket state) else none
  | state, .setOutgoing socket =>
      if state.deleted = false ∧ state.attached = none ∧ (state.tcps socket).phase ≠ .closed then
        some (setOutgoing socket state)
      else none

end Nexer.Forwarder

import Nexer.Transition.Machine

/-!
# A TCP client and its requests

A `TcpClient` embeds one handle.  Its requests to resolve a name, to connect and to
write are objects of their own; each of them keeps a pointer to the client until its
callback has run.  The close callback of the handle deletes the client.
-/

namespace Nexer.TcpClient

open Nexer.Transition

/-- The handle, from `uv_tcp_init` to `delete self`. -/
inductive Phase where
  | opened
  | closing
  | destroyed
  deriving DecidableEq

/-- The two overloads of `Write`. -/
inductive WriteKind where
  | string
  | buffers
  deriving DecidableEq

/-- The static functions that libuv calls; `write .buffers` is `OnWrite2`. -/
inductive Callback where
  | addrInfo
  | connect
  | read
  | write (kind : WriteKind)
  deriving DecidableEq

/-- The lists of functions that users add to. -/
inductive Handler where
  | connect
  | error
  | data
  | send
  deriving DecidableEq

inductive Event where
  | connect
  | error (code : Int)
  | data (length : Int)
  | send
  /-- `on_close_` and `delete self`. -/
  | closed
  /-- A callback runs whose client has been deleted. -/
  | dead (callback : Callback)
  deriving DecidableEq

/-- `resolvers` and `connects` count the requests whose callback has not run. -/
structure State where
  phase : Phase := .opened
  connecting : Bool := false
  nameResolving : Bool := false
  resolvers : Nat := 0
  connects : Nat := 0
  writes : List WriteKind := []
  reading : Bool := false
  deriving DecidableEq

abbrev Effect := Reaction State Event

/-- Which of the handlers call `Close` on the client. -/
abbrev Closes := Handler → Bool

def State.initial : State := {}

/-- `UV_EOF`. -/
def uvEof : Int := -4095

/-- `Handle::Close`. -/
def close (state : State) : State :=
  if state.phase = .opened then { state with phase := .closing } else state

def invoke (handler : Handler) (event : Event) (closes : Closes) (state : State) : Effect :=
  (if closes handler then close state else state, [event])

def onError (code : Int) (closes : Closes) (state : State) : Effect :=
  invoke .error (.error code) closes state

def getAddrInfo (status : Int) (closes : Closes) (state : State) : Effect :=
  let state := { state with nameResolving := true }
  if status ≠ 0 then
    (onError status closes state).andThen fun state => ({ state with nameResolving := false }, [])
  else ({ state with resolvers := state.resolvers + 1 }, [])

def connectAddr (status : Int) (closes : Closes) (state : State) : Effect :=
  let state := { state with connecting := true }
  if status ≠ 0 then
    (onError status closes state).andThen fun state => ({ state with connecting := false }, [])
  else ({ state with connects := state.connects + 1 }, [])

def readStart (status : Int) (closes : Closes) (state : State) : Effect :=
  if status ≠ 0 then onError status closes state else ({ state with reading := true }, [])

def onAddrInfo (status connect : Int) (closes : Closes) (state : State) : Effect :=
  let state := { state with nameResolving := false }
  if status < 0 then onError status closes state else connectAddr connect closes state

def onConnect (status start : Int) (closes : Closes) (state : State) : Effect :=
  let state := { state with connecting := false }
  if status ≠ 0 then onError status closes state
  else (invoke .connect .connect closes state).andThen (readStart start closes)

def onRead (nread : Int) (closes : Closes) (state : State) : Effect :=
  if nread < 0 then
    if nread = uvEof then (close state, []) else onError nread closes state
  else invoke .data (.data nread) closes state

def write (kind : WriteKind) (status : Int) (closes : Closes) (state : State) : Effect :=
  if status ≠ 0 then onError status closes state
  else ({ state with writes := state.writes ++ [kind] }, [])

def onWrite (status : Int) (closes : Closes) (state : State) : Effect :=
  if status ≠ 0 then onError status closes state else invoke .send .send closes state

/-- The calls of the owner with the results of the calls of libuv in them, and the
callbacks of libuv. -/
inductive Label where
  | connect (status : Int) (closes : Closes)
  | readStart (status : Int) (closes : Closes)
  | write (kind : WriteKind) (status : Int) (closes : Closes)
  | close
  | addrInfo (status connect : Int) (closes : Closes)
  | connected (status start : Int) (closes : Closes)
  | read (nread : Int) (closes : Closes)
  | wrote (status : Int) (closes : Closes)
  | closed

/-- Run a callback, if the client that it points to exists. -/
def callback (name : Callback) (run : State → Effect) (state : State) : Effect :=
  if state.phase = .destroyed then (state, [.dead name]) else run state

/-- The machine of a client.  A closed handle reads nothing, its connect requests are
cancelled, and its close callback runs after those of its connect and write requests. -/
def step : Machine State Label Event
  | state, .connect status closes =>
      if state.phase ≠ .destroyed then some (getAddrInfo status closes state) else none
  | state, .readStart status closes =>
      if state.phase ≠ .destroyed then some (readStart status closes state) else none
  | state, .write kind status closes =>
      if state.phase ≠ .destroyed then some (write kind status closes state) else none
  | state, .close => if state.phase ≠ .destroyed then some (close state, []) else none
  | state, .addrInfo status connect closes =>
      if 0 < state.resolvers then
        some (callback .addrInfo (onAddrInfo status connect closes)
          { state with resolvers := state.resolvers - 1 })
      else none
  | state, .connected status start closes =>
      if 0 < state.connects ∧ (state.phase = .opened ∨ status ≠ 0) then
        some (callback .connect (onConnect status start closes)
          { state with connects := state.connects - 1 })
      else none
  | state, .read nread closes =>
      if state.phase = .opened ∧ state.reading then some (callback .read (onRead nread closes) state)
      else none
  | state, .wrote status closes =>
      match state.writes with
      | [] => none
      | kind :: rest =>
          some (callback (.write kind) (onWrite status closes) { state with writes := rest })
  | state, .closed =>
      if state.phase = .closing ∧ state.connects = 0 ∧ state.writes = [] then
        some ({ state with phase := .destroyed }, [.closed])
      else none

end Nexer.TcpClient

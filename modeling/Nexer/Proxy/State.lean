import Nexer.Forwarder.State
import Mathlib.Data.Finset.Basic

/-!
# A TCP proxy and the connections it has accepted

For each accepted connection `TcpProxy` makes a forwarder, enters its address in
`forwarders_`, asks for the upstream process and then connects to the upstream.  The
closures that wait for these answers capture the proxy, the incoming socket and the
forwarder by reference; whether the forwarder still exists they find out by its
address, which the allocator may have given to another one.
-/

namespace Nexer.Proxy

open Nexer.Transition

/-- The address of a `TcpForwarder`. -/
abbrev Address := Nat

/-- The proxy as a `Handle`, from `uv_listen` to `delete self`. -/
inductive Server where
  | opened
  | closing
  | destroyed
  deriving DecidableEq

/-- The answer that the closures of a connection wait for, or the last one. -/
inductive Stage where
  | checking
  | connecting
  | failed
  | connected
  deriving DecidableEq

/-- The socket that `Connect` delivers: given to the forwarder of an accept, or to
nobody. -/
inductive Outgoing where
  | none
  | attached (forwarder : Nat)
  | apart (phase : Forwarder.Phase)
  deriving DecidableEq

/-- What one call of the `OnConnection` closure has made. -/
structure Connection where
  address : Address := 0
  stage : Stage := .checking
  forwarder : Forwarder.State := .initial fun _ => true
  outgoing : Outgoing := .none

/-- `registered` is `forwarders_`.  In a run that is `overrun`, a second socket was
given to a forwarder. -/
structure State where
  server : Server := .opened
  count : Nat := 0
  connections : Nat → Connection := fun _ => {}
  registered : Finset Address := ∅
  overrun : Bool := false

inductive Event where
  | accepted (connection : Nat) (address : Address)
  | setOutgoing (forwarder connection : Nat)
  /-- `outgoing->Close()`. -/
  | discarded (connection : Nat)
  /-- `incoming.Close()`. -/
  | refused (connection : Nat)
  | removed (connection : Nat)
  /-- The assertion of `Remove` fails. -/
  | notFound (connection : Nat)
  /-- `incoming` is used after it was deleted. -/
  | deadIncoming (connection : Nat)
  /-- `forwarder` is used after it was deleted. -/
  | deadForwarder (connection : Nat)
  /-- The proxy is used after it was deleted. -/
  | deadServer (connection : Nat)
  deriving DecidableEq

abbrev Effect := Reaction State Event

def State.initial : State := {}

namespace State

variable (state : State)

def put (index : Nat) (connection : Connection) : State :=
  { state with connections := Function.update state.connections index connection }

def setStage (index : Nat) (stage : Stage) : State :=
  state.put index { state.connections index with stage }

def setOutgoing (index : Nat) (outgoing : Outgoing) : State :=
  state.put index { state.connections index with outgoing }

def setForwarder (index : Nat) (forwarder : Forwarder.State) : State :=
  state.put index { state.connections index with forwarder }

/-- The connection whose forwarder is alive at an address. -/
def lookup (address : Address) : Option Nat :=
  (List.range state.count).find? fun connection =>
    (state.connections connection).address = address ∧
      (state.connections connection).forwarder.deleted = false

end State

/-- `Has`. -/
def has (connection : Nat) (state : State) : Prop :=
  (state.connections connection).address ∈ state.registered

instance (connection : Nat) (state : State) : Decidable (has connection state) :=
  inferInstanceAs (Decidable (_ ∈ _))

/-- `Remove`. -/
def remove (connection : Nat) (state : State) : Effect :=
  if state.server = .destroyed then (state, [.deadServer connection])
  else if has connection state then
    ({ state with
        registered := state.registered.erase (state.connections connection).address },
      [.removed connection])
  else (state, [.notFound connection])

/-- The closure of `OnClose`, for each time that the forwarder has called it. -/
def onClose (connection : Nat) : List Forwarder.Event → State → Effect
  | [], state => (state, [])
  | .deleted :: rest, state => (remove connection state).andThen (onClose connection rest)
  | _ :: rest, state => onClose connection rest state

/-- The forwarder of a connection has run one of its functions. -/
def forwarded (connection : Nat) (effect : Forwarder.Effect) (state : State) : Effect :=
  onClose connection effect.2 (state.setForwarder connection effect.1)

/-- `incoming.Close()`. -/
def closeIncoming (connection : Nat) (state : State) : Effect :=
  let forwarder := (state.connections connection).forwarder
  if (forwarder.tcps .accepted).phase = .closed then (state, [.deadIncoming connection])
  else Reaction.andThen (state, [.refused connection])
    (forwarded connection (Forwarder.close .accepted .accepted forwarder))

/-- `forwarder.SetOutgoing(*outgoing)`. -/
def setOutgoing (connection : Nat) (state : State) : Effect :=
  match state.lookup (state.connections connection).address with
  | none => (state, [.deadForwarder connection])
  | some target =>
      let given := state.setOutgoing connection (.attached target)
      let forwarder := (given.connections target).forwarder
      Reaction.andThen (given, [.setOutgoing target connection]) fun given =>
        if forwarder.attached = none then
          forwarded target (Forwarder.setOutgoing .connected forwarder) given
        else ({ given with overrun := true }, [])

/-- The closure of `Connect`, with or without a socket. -/
def onConnected (success : Bool) (connection : Nat) (state : State) : Effect :=
  let answered := state.setStage connection (if success then .connected else .failed)
  if state.server = .destroyed then
    (answered.setOutgoing connection (if success then .apart .opened else .none),
      [.deadServer connection])
  else if ¬ has connection state then
    if success then
      (answered.setOutgoing connection (.apart .closing), [.discarded connection])
    else (answered, [])
  else if success then setOutgoing connection answered
  else closeIncoming connection answered

/-- The closure of `CheckUpstreamProcess`, which goes on with `Connect`. -/
def onChecked (error : Int) (connection : Nat) (state : State) : Effect :=
  if state.server = .destroyed then
    (state.setStage connection .failed, [.deadServer connection])
  else if error ≠ 0 then
    let failed := state.setStage connection .failed
    if has connection failed then closeIncoming connection failed else (failed, [])
  else (state.setStage connection .connecting, [])

/-- `CheckUpstreamProcess`: without `upstream_.app` there is nothing to wait for. -/
def checkUpstreamProcess (app : Bool) (connection : Nat) (state : State) : Effect :=
  if app then (state, []) else onChecked 0 connection state

/-- `Create` and `insert` for the next connection. -/
def State.accepted (state : State) (address : Address) : State :=
  { state with
    count := state.count + 1
    connections := Function.update state.connections state.count { address }
    registered := insert address state.registered }

/-- Only the sockets that a forwarder has been given can report something. -/
def reportable (label : Forwarder.Label) (forwarder : Forwarder.State) : Bool :=
  match label.socket with
  | none => false
  | some .accepted => true
  | some .connected => forwarder.attached.isSome

inductive Label where
  /-- A connection whose forwarder is allocated at the address. -/
  | accept (address : Address)
  /-- `Require` answers. -/
  | checked (connection : Nat) (error : Int)
  /-- `Connect` answers. -/
  | connected (connection : Nat) (success : Bool)
  | forwarder (connection : Nat) (label : Forwarder.Label)
  /-- The close callback of a socket that no forwarder has. -/
  | outgoingClosed (connection : Nat)
  | close
  | closed

/-- The steps of a run that is not overrun. -/
def move (app : Bool) : Machine State Label Event
  | state, .accept address =>
      if state.server = .opened ∧ state.lookup address = none then
        some (Reaction.andThen (state.accepted address, [.accepted state.count address])
          (checkUpstreamProcess app state.count))
      else none
  | state, .checked connection error =>
      if connection < state.count ∧ (state.connections connection).stage = .checking then
        some (onChecked error connection state)
      else none
  | state, .connected connection success =>
      if connection < state.count ∧ (state.connections connection).stage = .connecting then
        some (onConnected success connection state)
      else none
  | state, .forwarder connection label =>
      let forwarder := (state.connections connection).forwarder
      if connection < state.count ∧ reportable label forwarder then
        (Forwarder.step forwarder label).map fun effect => forwarded connection effect state
      else none
  | state, .outgoingClosed connection =>
      if connection < state.count ∧
          (state.connections connection).outgoing = .apart .closing then
        some (state.setOutgoing connection (.apart .closed), [])
      else none
  | state, .close =>
      match state.server with
      | .opened => some ({ state with server := .closing }, [])
      | .closing => some (state, [])
      | .destroyed => none
  | state, .closed =>
      if state.server = .closing then some ({ state with server := .destroyed }, []) else none

/-- The machine of a proxy.  `Require` and `Connect` answer at most once.  An allocator
gives out any address at which no forwarder is alive.  A run ends when a forwarder is
given a second socket: it would then have three of them. -/
def step (app : Bool) : Machine State Label Event := fun state label =>
  if state.overrun then none else move app state label

end Nexer.Proxy

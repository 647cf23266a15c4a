import Nexer.TcpClient.Attempts
import Mathlib.Logic.Function.Basic
import Mathlib.Tactic.Simps.Basic

/-!
# Connecting with retries

The static `TcpClient::Connect` starts a timer whose ticks create one attempt after
another until one of them connects or the time is up.  The closures on the attempts
and on the timer share a `TryConnectData`, which the close callback of the timer
deletes together with the subscriptions that it holds.
-/

namespace Nexer.TcpClient.Retry

open Nexer.Transition

/-- The timer, from `Create` to `delete self`. -/
inductive Timer where
  | opened
  | closing
  | destroyed
  deriving DecidableEq

/-- `attempts` are the clients made by `connect`, of which there are `count`, and
`subscribed` tells which of them have the closures of `connect`.  `client` is
`data->client`, and `freed` tells that `data` has been deleted. -/
structure State where
  count : Nat := 0
  attempts : Nat → TcpClient.State := fun _ => {}
  subscribed : Nat → Bool := fun _ => false
  client : Option Nat := none
  freed : Bool := false
  timer : Timer := .opened

inductive Event where
  /-- `on_tick_` runs. -/
  | ticked (elapsed : Nat)
  /-- `connect` makes a new attempt. -/
  | tried (attempt : Nat)
  /-- The `OnConnect` closure of an attempt runs. -/
  | connected (attempt : Nat)
  /-- `then(client)`. -/
  | answered (client : Option Nat)
  /-- A callback of a deleted attempt runs. -/
  | dead (attempt : Nat) (callback : Callback)
  /-- `data` is used after it was deleted. -/
  | freedData
  /-- `data->client` is used while it is null, or points to a deleted attempt. -/
  | badClient
  deriving DecidableEq

abbrev Effect := Reaction State Event

def State.initial : State := {}

@[simps] def State.setAttempt (state : State) (attempt : Nat) (client : TcpClient.State) : State :=
  { state with attempts := Function.update state.attempts attempt client }

/-- The interval of the timer. -/
def interval : Nat := 500

/-- `timer.Close()`. -/
def closeTimer (state : State) : State :=
  if state.timer = .opened then { state with timer := .closing } else state

/-- `data->client->Close()`. -/
def closeClient (state : State) : Effect :=
  match state.client with
  | none => (state, [.badClient])
  | some attempt =>
      if (state.attempts attempt).phase = .destroyed then (state, [.badClient])
      else (state.setAttempt attempt (close (state.attempts attempt)), [])

/-- The closure of `OnConnect`. -/
def onConnect (attempt : Nat) (state : State) : Effect :=
  if state.freed then (state, [.freedData])
  else (closeTimer state, [.connected attempt, .answered state.client])

/-- The closure of `OnError`. -/
def onError (state : State) : Effect :=
  if state.freed then (state, [.freedData]) else closeClient state

/-- The closure of `OnClose`. -/
def onClose (state : State) : Effect :=
  if state.freed then (state, [.freedData]) else ({ state with client := none }, [])

/-- `connect`; `GetAddrInfo` reports its failures later. -/
def connect (state : State) : Effect :=
  ({ state.setAttempt state.count (getAddrInfo 0 (fun _ => false) {}).1 with
      count := state.count + 1
      subscribed := Function.update state.subscribed state.count true
      client := some state.count },
    [.tried state.count])

/-- The closure of `OnTick`. -/
def onTick (timeout elapsed : Nat) (state : State) : Effect :=
  Reaction.andThen (state, [.ticked elapsed]) fun state =>
    if timeout ≤ elapsed then
      (if state.client.isSome then closeClient state else (state, [])).andThen fun state =>
        (closeTimer state, [.answered none])
    else if state.client.isNone then connect state
    else (state, [])

/-- The closures of an attempt that the functions of its client have called. -/
def react (attempt : Nat) : TcpClient.Event → State → Effect
  | .connect, state => if state.subscribed attempt then onConnect attempt state else (state, [])
  | .error _, state => if state.subscribed attempt then onError state else (state, [])
  | .closed, state => if state.subscribed attempt then onClose state else (state, [])
  | .dead callback, state => (state, [.dead attempt callback])
  | .data _, state | .send, state => (state, [])

def reactAll (attempt : Nat) : List TcpClient.Event → State → Effect
  | [], state => (state, [])
  | event :: rest, state => (react attempt event state).andThen (reactAll attempt rest)

/-- The close callback of the timer deletes `data`, which removes the closures from
`data->client`. -/
def onTimerClose (state : State) : Effect :=
  match state.client with
  | none => ({ state with timer := .destroyed, freed := true }, [])
  | some attempt =>
      ({ state with
          timer := .destroyed
          freed := true
          subscribed := Function.update state.subscribed attempt false },
        if (state.attempts attempt).phase = .destroyed then [.badClient] else [])

inductive Label where
  | tick (elapsed : Nat)
  | timerClosed
  /-- A callback of an attempt, or a call by somebody who holds a reference to it. -/
  | attempt (index : Nat) (label : TcpClient.Label)

/-- The machine of one call of `Connect`.  Nobody calls `Connect` on an attempt again. -/
def step (timeout : Nat) : Machine State Label Event
  | state, .tick elapsed =>
      if state.timer = .opened then
        some (if interval ≤ elapsed then onTick timeout elapsed state else (state, []))
      else none
  | state, .timerClosed =>
      if state.timer = .closing then some (onTimerClose state) else none
  | state, .attempt index label =>
      if index < state.count ∧ ¬ reconnects label then
        match TcpClient.step (state.attempts index) label with
        | none => none
        | some (client, out) => some (reactAll index out (state.setAttempt index client))
      else none

end Nexer.TcpClient.Retry

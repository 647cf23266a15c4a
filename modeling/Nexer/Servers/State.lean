import Nexer.Config.Records
import Nexer.Text.Url
import Nexer.Transition.Machine
import Mathlib.Logic.Function.Basic

/-!
# The servers of the program

`Nexer::Start` makes the admin server, a proxy for each entry of `proxies` and a server
for each entry of `dummies`, and then runs the event loop.  `Nexer::Close` closes the
admin server and the proxies that listen.  The destructor calls it once more before the
event loop is closed, which libuv refuses as long as any handle has not been closed.
-/

namespace Nexer.Servers

open Nexer.Transition

/-- A server as a `Handle`, from `uv_tcp_init` or `uv_udp_init` to `delete self`. -/
inductive Phase where
  | idle
  | listening
  | closing
  | destroyed
  /-- Closed by the walk of `EventLoop::Close`, without a function. -/
  | walked
  deriving DecidableEq

inductive Role where
  | admin
  | proxy
  | dummy
  deriving DecidableEq

/-- Where `main` stands. -/
inductive Stage where
  | constructed
  | running
  /-- `Start` has returned. -/
  | returned (success : Bool)
  /-- An assertion has failed. -/
  | aborted
  | destroyed
  deriving DecidableEq

/-- `admin` is `admin_server_`.  `others` counts the handles of connections, processes and
timers, and `stranded` the clients that `Accept` has failed for, whose handles are open
and do nothing. -/
structure State where
  stage : Stage := .constructed
  count : Nat := 0
  role : Nat → Role := fun _ => .dummy
  phase : Nat → Phase := fun _ => .idle
  admin : Option Nat := none
  proxies : List Nat := []
  others : Nat := 0
  stranded : Nat := 0

inductive Event where
  | made (server : Nat) (role : Role)
  /-- `Listen` has succeeded. -/
  | listening (server : Nat) (port : Int32)
  /-- `Listen` has failed. -/
  | refused (server : Nat) (port : Int32)
  /-- `assert(0)` of `StartDummyServer`. -/
  | asserted
  /-- `uv_close`, with `OnClose`. -/
  | closing (server : Nat)
  /-- `delete self`. -/
  | closed (server : Nat)
  /-- `Close` is called on a server that was deleted. -/
  | dead (server : Nat)
  /-- A request to the admin server, and whether it calls `Close`. -/
  | request (shutdown : Bool)
  /-- A request arrives for an admin server that was deleted. -/
  | deadServer
  | returned (success : Bool)
  /-- A call of `uv_loop_close` succeeds. -/
  | loopClosed
  /-- The first one fails. -/
  | loopBusy
  /-- The second one fails. -/
  | loopLost
  deriving DecidableEq

abbrev Effect := Reaction State Event

def State.initial : State := {}

/-- What `uv_ip4_addr`, the call of `bind` and the one of `listen` return; for UDP the
last one is `uv_udp_recv_start`. -/
structure Calls where
  address : Int := 0
  bind : Int := 0
  listen : Int := 0

/-- `Listen`. -/
def Calls.listens (calls : Calls) : Bool :=
  if calls.address ≠ 0 then false
  else if calls.bind ≠ 0 then false
  else calls.listen = 0

namespace State

variable (state : State)

def setPhase (server : Nat) (phase : Phase) : State :=
  { state with phase := Function.update state.phase server phase }

/-- A new server, which gets the next number. -/
def make (role : Role) : State :=
  { state with
    count := state.count + 1
    role := Function.update state.role state.count role
    phase := Function.update state.phase state.count .idle }

/-- The handle keeps `uv_run` going. -/
def active (server : Nat) : Bool :=
  state.phase server = .listening || state.phase server = .closing

/-- No handle keeps `uv_run` going. -/
def exhausted : Bool :=
  state.others = 0 && (List.range state.count).all fun server => !state.active server

/-- No handle is left in the loop. -/
def empty : Bool :=
  state.others = 0 && state.stranded = 0 &&
    (List.range state.count).all fun server => state.phase server = .destroyed

end State

variable {π σ : Type}

/-- A server is made and told to listen. -/
def listen (calls : Nat → Calls) (role : Role) (port : Int32) (state : State) : Effect :=
  if (calls state.count).listens then
    ((state.make role).setPhase state.count .listening,
      [.made state.count role, .listening state.count port])
  else (state.make role, [.made state.count role, .refused state.count port])

/-- The server that was made last listens. -/
def State.succeeded (state : State) : Bool :=
  state.phase (state.count - 1) = .listening

/-- `StartAdminServer`. -/
def startAdminServer (calls : Nat → Calls) (port : Int32) (state : State) : Effect :=
  listen calls .admin port { state with admin := some state.count }

/-- The loop over the proxies; it is left when one of them does not listen. -/
def startProxies (calls : Nat → Calls) : List (Config.Proxy π) → State → Effect
  | [], state => (state, [])
  | config :: rest, state =>
      (listen calls .proxy config.port state).andThen fun next =>
        if next.succeeded then
          startProxies calls rest { next with proxies := next.proxies ++ [state.count] }
        else ({ next with stage := .returned false }, [.returned false])

/-- `StartDummyServer`, without the functions that the server is given. -/
def startDummyServer (calls : Nat → Calls) (config : Config.Dummy) (state : State) : Effect :=
  match config.type with
  | .udp | .tcp => listen calls .dummy config.port state
  | .http => ({ state with stage := .aborted }, [.asserted])

/-- The loop over the dummies. -/
def startDummies (calls : Nat → Calls) : List Config.Dummy → State → Effect
  | [], state => (state, [])
  | config :: rest, state =>
      (startDummyServer calls config state).andThen fun next =>
        if next.stage = .aborted then (next, [])
        else if next.succeeded then startDummies calls rest next
        else ({ next with stage := .returned false }, [.returned false])

/-- `Start`, up to the call of `uv_run`. -/
def start (calls : Nat → Calls) (config : Config π σ) (state : State) : Effect :=
  (startAdminServer calls config.admin.port state).andThen fun state =>
    if state.succeeded then
      (startProxies calls config.proxies { state with stage := .running }).andThen fun state =>
        if state.stage = .running then startDummies calls config.dummies state
        else (state, [])
    else ({ state with stage := .returned false }, [.returned false])

/-- `Handle::Close`. -/
def closeServer (server : Nat) (state : State) : Effect :=
  match state.phase server with
  | .idle | .listening => (state.setPhase server .closing, [.closing server])
  | .closing | .walked => (state, [])
  | .destroyed => (state, [.dead server])

def closeServers : List Nat → State → Effect
  | [], state => (state, [])
  | server :: rest, state => (closeServer server state).andThen (closeServers rest)

/-- `Nexer::Close`. -/
def close (state : State) : Effect :=
  (closeServers state.proxies state).andThen fun state =>
    match state.admin with
    | none => ({ state with proxies := [] }, [])
    | some server => closeServer server { state with proxies := [], admin := none }

/-- The function that `StartAdminServer` gives to `OnRequest`, which then answers 200. -/
def onRequest (url : Url) (state : State) : Effect :=
  let shutdown := url.path = ascii "/shutdown"
  Reaction.andThen (state, [.request shutdown]) fun state =>
    if shutdown then close state else (state, [])

/-- A request asks for the admin server, the first one, whether or not it still exists. -/
def arrive (url : Url) (state : State) : Effect :=
  if state.phase 0 = .destroyed then (state, [.deadServer]) else onRequest url state

/-- `close_walk_cb`. -/
def Phase.walk : Phase → Phase
  | .idle | .listening => .walked
  | phase => phase

def walk (state : State) : State :=
  { state with phase := fun server => (state.phase server).walk }

/-- `EventLoop::Close`. -/
def closeLoop (state : State) : Effect :=
  if state.empty then (state, [.loopClosed])
  else (walk state, [.loopBusy, if (walk state).empty then .loopClosed else .loopLost])

/-- The destructor. -/
def destroy (state : State) : Effect :=
  (close state).andThen fun state => closeLoop { state with stage := .destroyed }

inductive Label where
  | start (calls : Nat → Calls)
  /-- A handle is opened that is no server, or closed. -/
  | opened
  | finished
  /-- `Accept` fails. -/
  | stranded
  | request (url : Url)
  /-- The close callback of a server. -/
  | closed (server : Nat)
  /-- `uv_run` returns. -/
  | exhausted
  /-- The destructor. -/
  | destroy

/-- The machine of `main`, after `ParseFile`. -/
def step (config : Config π σ) : Machine State Label Event
  | state, .start calls =>
      if state.stage = .constructed then some (start calls config state) else none
  | state, .opened =>
      if state.stage = .running then some ({ state with others := state.others + 1 }, []) else none
  | state, .finished =>
      if state.stage = .running ∧ 0 < state.others then
        some ({ state with others := state.others - 1 }, [])
      else none
  | state, .stranded =>
      if state.stage = .running then some ({ state with stranded := state.stranded + 1 }, [])
      else none
  | state, .request url =>
      if state.stage = .running ∧ 0 < state.others then some (arrive url state) else none
  | state, .closed server =>
      if state.stage = .running ∧ server < state.count ∧ state.phase server = .closing then
        some (state.setPhase server .destroyed, [.closed server])
      else none
  | state, .exhausted =>
      if state.stage = .running ∧ state.exhausted then
        some ({ state with stage := .returned true }, [.returned true])
      else none
  | state, .destroy =>
      match state.stage with
      | .returned _ => some (destroy state)
      | _ => none

end Nexer.Servers

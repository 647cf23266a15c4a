import Nexer.Manager.Calls
import Nexer.Transition.Machine

/-!
# The manager driven by its event loop

`step` is the machine of the manager.  While a handler runs, the only labels it
takes are `call`, which makes the innermost pending call, and `spawn`, which
makes a pending `Process::Start` with the results that libuv returns in it.
Between handlers it takes the events of the loop, in any order that libuv's
handle states allow, and the calls of `Require` from outside.  The clock may
be set at any moment.

Callers' callbacks and the listeners of `OnProcessStart`, `OnProcessError`,
`OnProcessData` and `OnProcessExit` do not call the manager.
-/

namespace Nexer.Manager

open Nexer.Transition

variable {α : Type} [DecidableEq α]

inductive Label (α : Type) where
  | clock (now : UInt64)
  | call
  | spawn (result : SpawnResult)
  | require (app : α) (tag : Nat)
  | read (pid : Pid) (fd : Nat) (nread : Int) (buffer : List UInt8)
  | exited (pid : Pid) (termination : Termination)
  | closed (pid : Pid)
  | timeout (pid : Pid)
  | tick (timer : TimerId)
  | timerClosed (timer : TimerId)

/-- `Process::OnRead`, for the two pipes of a running process. -/
def onRead (pid : Pid) (role : Role α) (fd : Nat) (nread : Int)
    (buffer : List UInt8) (state : State α) : Effect α :=
  if nread ≤ 0 ∧ nread ≠ uvEof then
    (state.call [.onError pid role nread], [])
  else if nread > 0 then
    (state, [.processData pid fd (buffer.take nread.toNat)])
  else
    (state, [])

/-- The `OnTick` closure of a start-up timer. -/
def onTick (app : α) (timer : TimerId) (state : State α) : Effect α :=
  if (state.apps app).callbacks.length = 0 then
    closeTimer timer state
  else if (state.apps app).checking then
    (state, [])
  else
    (state.call [.check app (.started app timer), .setChecking app true], [])

/--
What the event loop delivers between two handlers.  Reads come from running
processes.  The exit notification runs `OnProcessExit`, whose `uv_close` leads
to the close callback that invokes `on_exit_`.  A command's own timeout sends
`SIGTERM` to a running process.
-/
def deliver (state : State α) : Label α → Option (Effect α)
  | .require app tag => some (state.call [.require app (.caller tag)], [])
  | .read pid fd nread buffer =>
      match state.procs pid with
      | some proc =>
          if proc.phase = .running then
            some (onRead pid proc.role fd nread buffer state)
          else none
      | none => none
  | .exited pid termination =>
      match state.procs pid with
      | some proc =>
          if proc.phase = .running then
            some (state.setProc pid (some { proc with phase := .closing termination }), [])
          else none
      | none => none
  | .closed pid =>
      match state.procs pid with
      | some proc =>
          match proc.phase with
          | .closing termination =>
              some (state.call [.onExit pid proc.role termination], [])
          | _ => none
      | none => none
  | .timeout pid =>
      match state.procs pid with
      | some proc =>
          if proc.phase = .running ∧ 0 < proc.command.timeout then
            some (state, [.killed pid])
          else none
      | none => none
  | .tick timer =>
      match state.timers timer with
      | some entry =>
          if entry.phase = .running then some (onTick entry.app timer state) else none
      | none => none
  | .timerClosed timer =>
      match state.timers timer with
      | some entry =>
          if entry.phase = .closing then some (state.setTimer timer none, []) else none
      | none => none
  | _ => none

/-- The machine of the manager. -/
def step (config : α → AppConfig α) : Machine (State α) (Label α) (Event α)
  | state, .clock now => some ({ state with now }, [])
  | state, .call =>
      match state.todo with
      | [] => none
      | head :: rest => perform config head (state.after rest)
  | state, .spawn result =>
      match state.todo with
      | .processStart pid role :: rest =>
          some (processStart pid role result (state.after rest))
      | _ => none
  | state, label => if state.todo = [] then deliver state label else none

section Configurations

/-- One app without a checker. -/
def plainApp : Fin 1 → AppConfig (Fin 1) :=
  fun _ => { command := { file := "run" } }

/-- One app with a checker. -/
def checkedApp : Fin 1 → AppConfig (Fin 1) :=
  fun _ => { command := { file := "run" }, checker := some { file := "check" } }

/-- App 0 has no checker and one preamble, app 1, which has a checker. -/
def precededApp : Fin 2 → AppConfig (Fin 2) := fun app =>
  if app = 0 then { command := { file := "run" }, preamble := [1] }
  else { command := { file := "lower" }, checker := some { file := "check" } }

end Configurations

end Nexer.Manager

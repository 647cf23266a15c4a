import Nexer.Transition.Machine
import Mathlib.Data.List.Basic
import Mathlib.Logic.Function.Basic
import Mathlib.Tactic.Simps.Basic

/-!
# The handles of a process and its deletion

A `Process` embeds the handle of the process and three pipes.  They are closed
together, the process handle last; the event loop keeps the handles that are being
closed in a list to which `uv_close` adds in front, and calls their close callbacks
from the front.  The close callback of the process handle deletes the object.
-/

namespace Nexer.Process

open Nexer.Transition

inductive Handle where
  | process
  | pipe (index : Fin 3)
  deriving DecidableEq

/-- `unset` is memory that `memset` has cleared, with no `data` and no `loop`. -/
inductive Phase where
  | unset
  | opened
  | closing
  | closed
  deriving DecidableEq

/-- The timer of `SetTimeout`. -/
inductive Timeout where
  | none
  | active
  | stopped
  | closed
  deriving DecidableEq

/-- `status_`, with the lifetimes of the embedded handles and of the object.
`pending` is the loop's list of closing handles. -/
structure State where
  phase : Handle → Phase
  started : Bool := false
  running : Bool := false
  exitCode : Int := 0
  termSignal : Int := 0
  timer : Timeout := .none
  pending : List Handle := []
  deleted : Bool := false
  aborted : Bool := false

inductive Event where
  | initialised (index : Fin 3)
  | error (code : Int)
  | exit (code signal : Int)
  | kill
  /-- `delete process`, with the handles that are open or closing at that moment. -/
  | deleted (outstanding : List Handle)
  /-- The loop goes on with a handle of a deleted process. -/
  | dangling (handle : Handle)
  /-- `uv_close` refuses a handle that is being closed. -/
  | aborted
  deriving DecidableEq

abbrev Effect := Transition.Reaction State Event

def State.initial : State where
  phase := fun _ => .unset

/-- What the calls of `Spawn` return. -/
structure Outcome where
  pipeInit : Fin 3 → Int := fun _ => 0
  spawn : Int := 0
  readStdout : Int := 0
  readStderr : Int := 0

@[simps] def State.setPhase (state : State) (handle : Handle) (phase : Phase) : State :=
  { state with phase := Function.update state.phase handle phase }

/-- `uv_close`. -/
def uvClose (handle : Handle) (state : State) : Effect :=
  if state.aborted then (state, [])
  else if state.phase handle = .opened then
    ({ state.setPhase handle .closing with pending := handle :: state.pending }, [])
  else ({ state with aborted := true }, [.aborted])

def pipes : List Handle := [.pipe 0, .pipe 1, .pipe 2]

/-- The embedded handles that are open or wait for their close to complete. -/
def outstanding (state : State) : List Handle :=
  (.process :: pipes).filter fun handle =>
    state.phase handle = .opened ∨ state.phase handle = .closing

/-- `OnProcessHandleClose`; the destructor closes the timer. -/
def onProcessHandleClose (state : State) : Effect :=
  ({ state with deleted := true, timer := if state.timer = .none then .none else .closed },
    [.exit state.exitCode state.termSignal, .deleted (outstanding state)])

/-- `if (process->pipes_[i].data) uv_close(..)`, for each of the pipes. -/
def closePipes : List Handle → State → Effect
  | [], state => (state, [])
  | pipe :: rest, state =>
      (if state.phase pipe ≠ .unset then uvClose pipe state else (state, [])).andThen
        (closePipes rest)

def onProcessExit (exitCode termSignal : Int) (state : State) : Effect :=
  (closePipes pipes { state with running := false, exitCode, termSignal }).andThen fun state =>
    if state.phase .process ≠ .unset then uvClose .process state
    else if state.aborted then (state, [])
    else onProcessHandleClose state

/-- `InitStdio`, from a pipe on; the first error ends it. -/
def initStdio (pipeInit : Fin 3 → Int) : List (Fin 3) → State → Effect × Int
  | [], state => ((state, []), 0)
  | index :: rest, state =>
      if pipeInit index ≠ 0 then ((state, []), pipeInit index)
      else
        let result := initStdio pipeInit rest (state.setPhase (.pipe index) .opened)
        ((result.1.1, .initialised index :: result.1.2), result.2)

def spawn (outcome : Outcome) (state : State) : Effect × Int :=
  let ((state, out), err) := initStdio outcome.pipeInit [0, 1, 2] state
  if err ≠ 0 then ((state, out), err)
  else
    -- `uv_spawn` initialises the handle even when it fails.
    let state := { state.setPhase .process .opened with running := outcome.spawn = 0 }
    if outcome.spawn ≠ 0 then ((state, out), outcome.spawn)
    else if outcome.readStdout ≠ 0 then ((state, out), outcome.readStdout)
    else ((state, out), outcome.readStderr)

def start (outcome : Outcome) (state : State) : Effect :=
  let (effect, err) := spawn outcome { state with started := true }
  if err = 0 then effect
  else
    effect.andThen fun state =>
      Reaction.andThen (state, [.error err]) fun state =>
        if state.running then (state, [.kill]) else onProcessExit (-1) (-1) state

inductive Label where
  | setTimeout
  | start (outcome : Outcome)
  | exited (code signal : Int)
  | tick
  /-- The loop completes the first of the closing handles. -/
  | complete

/-- The machine of a process, its timer and the closing handles of the loop. -/
def step : Machine State Label Event
  | state, .setTimeout =>
      if ¬ state.aborted ∧ ¬ state.deleted ∧ ¬ state.started ∧ state.timer = .none then
        some ({ state with timer := .active }, [])
      else none
  | state, .start outcome =>
      if ¬ state.aborted ∧ ¬ state.deleted ∧ ¬ state.started then some (start outcome state)
      else none
  | state, .exited code signal =>
      if ¬ state.aborted ∧ ¬ state.deleted ∧ state.running then
        some (onProcessExit code signal state)
      else none
  | state, .tick =>
      if ¬ state.aborted ∧ state.timer = .active then
        let state := { state with timer := .stopped }
        some (if state.running then (state, [.kill]) else onProcessExit (-2) 0 state)
      else none
  | state, .complete =>
      match state.pending with
      | [] => none
      | handle :: rest =>
          if state.aborted then none
          else if state.deleted then some ({ state with pending := rest }, [.dangling handle])
          else
            let state := { state.setPhase handle .closed with pending := rest }
            some (if handle = .process then onProcessHandleClose state else (state, []))

end Nexer.Process

import Mathlib.Algebra.Group.Nat.Defs
import Mathlib.Data.Int.Init
import Mathlib.Logic.Function.Basic
import Mathlib.Tactic.Simps.Basic

/-!
# The state of the process manager

Apps are the entries of `app_map_`, keyed by `config::App` pointers; the key
type is arbitrary.  Processes and start-up timers are the heap objects that the
manager creates, tracked from creation to destruction.

The manager runs on one thread.  `todo` lists the calls that the running
handler still has to make, innermost first; the event loop delivers the next
event when it is empty.  A closure of the source is represented by the variables
it captured.
-/

namespace Nexer.Manager

abbrev Pid := Nat
abbrev TimerId := Nat

/-- `config::Command`, as far as `Process::Create` and `Process::Init` read it. -/
structure Command where
  file : String
  args : List String := []
  env : List String := []
  timeout : Int := 0
  deriving DecidableEq

/-- `config::App`, as far as the manager reads it. -/
structure AppConfig (α : Type) where
  command : Command
  checker : Option Command := none
  maxStartTime : Int := 0
  preamble : List α := []

/-- The value of a 64-bit integer after a conversion to `int`. -/
def toInt (value : Int) : Int := value.bmod (2 ^ 32)

/--
What `uv_exit_cb` reports.  The status is `WEXITSTATUS` and the signal
`WTERMSIG`, so both survive a conversion to `int`.
-/
structure Termination where
  code : Int
  signal : Int
  code_fits : toInt code = code
  signal_fits : toInt signal = signal
  deriving DecidableEq

namespace Termination

/-- The arguments with which a failed `Process::Start` calls `OnProcessExit`. -/
def unstarted : Termination := ⟨-1, -1, by decide, by decide⟩

/-- Two normal exits. -/
def success : Termination := ⟨0, 0, by decide, by decide⟩
def failure : Termination := ⟨1, 0, by decide, by decide⟩

/-- `status ? status : signal`. -/
def status (termination : Termination) : Int :=
  if termination.code ≠ 0 then termination.code else termination.signal

theorem toInt_status (termination : Termination) :
    toInt termination.status = termination.status := by
  unfold status
  split
  · exact termination.code_fits
  · exact termination.signal_fits

/-- The merged status vanishes exactly for a normal exit with code zero. -/
theorem status_eq_zero_iff (termination : Termination) :
    termination.status = 0 ↔ termination.code = 0 ∧ termination.signal = 0 := by
  unfold status
  by_cases zero : termination.code = 0 <;> simp [zero]

end Termination

/-- `UV_EOF` and `-ENOENT`. -/
def uvEof : Int := -4095
def noEntry : Int := -2

/-- A callback handed to `Require`: one of a caller, or the closure that the
loop of `CheckPreamble` makes for one call of `Start`. -/
inductive AfterProcessCheck (α : Type) where
  | caller (tag : Nat)
  | preamble (app : α) (round : Nat)
  deriving DecidableEq

/-- An entry of `App::callbacks`, numbered by the `Require` call that queued it. -/
structure Waiter (α : Type) where
  ticket : Nat
  callback : AfterProcessCheck α
  deriving DecidableEq

/-- The continuation handed to `Check`: that of `Require`, or that of the
start-up timer made by `Start`. -/
inductive CheckThen (α : Type) where
  | required (app : α)
  | started (app : α) (timer : TimerId)
  deriving DecidableEq

/-- What a process was created for, with the variables its handlers captured. -/
inductive Role (α : Type) where
  | main (app : α) (round : Nat)
  | checker (app : α) (next : CheckThen α)
  deriving DecidableEq

/-- The app whose `Start` or `Check` created the process. -/
def Role.app {α : Type} : Role α → α
  | .main app _ => app
  | .checker app _ => app

/-- `created` before `Start()`; `failed` after `Spawn` returned an error with no
child; `closing` from `uv_close` on the process handle to its callback. -/
inductive Phase where
  | created
  | running
  | failed
  | closing (termination : Termination)
  deriving DecidableEq

/-- A `Process` object.  `spawned` remembers that `uv_spawn` succeeded, and
`thenAlive` that the `Check` call which owns the captured `then` is active. -/
structure Proc (α : Type) where
  command : Command
  role : Role α
  phase : Phase := .created
  spawned : Bool := false
  thenAlive : Bool := true

inductive TimerPhase where
  | running
  | closing
  deriving DecidableEq

/-- A start-up timer made by `Start`. -/
structure StartTimer (α : Type) where
  app : α
  phase : TimerPhase := .running

/-- `ProcessManager::App`.  The last three fields are not in the source: the
number of `Start` calls so far, the latest main process, and the number of
`Require` calls that preceded its creation. -/
structure App (α : Type) where
  process : Option Pid := none
  callbacks : List (Waiter α) := []
  restart : Bool := false
  pendingPreamble : Int := 0
  errorPreamble : Int := 0
  requireStartTime : UInt64 := 0
  checkerTimer : Option TimerId := none
  checking : Bool := false
  rounds : Nat := 0
  latestMain : Option Pid := none
  mainTicket : Nat := 0

/-- The calls a handler may still have to make.  `checked` and `prepared` invoke
the continuations of `Check` and of `CheckPreamble`; `answer` is the loop of
`ClearCallbacks` with the callbacks that it has not reached. -/
inductive Call (α : Type) where
  | require (app : α) (callback : AfterProcessCheck α)
  | check (app : α) (next : CheckThen α)
  | checked (next : CheckThen α) (error : Int)
  | start (app : α)
  | prepared (app : α) (round : Nat) (error : Int)
  | processStart (pid : Pid) (role : Role α)
  | onProcessStart (pid : Pid)
  | endCheck (pid : Pid)
  | onError (pid : Pid) (role : Role α) (error : Int)
  | onProcessExit (pid : Pid)
  | kill (pid : Pid)
  | onExit (pid : Pid) (role : Role α) (termination : Termination)
  | clearCallbacks (app : α) (error : Int)
  | answer (app : α) (rest : List (Waiter α)) (error : Int)
  | setChecking (app : α) (value : Bool)
  deriving DecidableEq

/-- Uses of dead or invalidated objects, recorded when they happen. -/
inductive Fault (α : Type) where
  /-- The `OnError` closure of a checker calls `then` by reference after the
  `Check` call whose parameter it is has returned. -/
  | deadThen (pid : Pid)
  /-- `timer.Close()` after the timer's close callback destroyed it. -/
  | deadTimer (timer : TimerId)
  /-- `app.callbacks` grows, or is traversed again, inside its own traversal. -/
  | liveVector (app : α)
  deriving DecidableEq

/-- What can be observed of a run. -/
inductive Event (α : Type) where
  | queued (app : α) (waiter : Waiter α)
  | answered (app : α) (waiter : Waiter α) (process : Option Pid) (error : Int)
  | start (app : α) (round : Nat)
  | prepared (app : α) (round : Nat) (error : Int)
  | spawned (pid : Pid) (role : Role α)
  | unspawned (pid : Pid) (role : Role α)
  | killed (pid : Pid)
  | ended (pid : Pid) (role : Role α) (termination : Termination)
  | processStart (pid : Pid)
  | processError (pid : Pid) (error : Int)
  | processData (pid : Pid) (fd : Nat) (bytes : List UInt8)
  | processExit (pid : Pid) (status signal : Int)
  | fault (fault : Fault α)
  deriving DecidableEq

structure State (α : Type) where
  apps : α → App α
  procs : Pid → Option (Proc α)
  nextPid : Pid
  timers : TimerId → Option (StartTimer α)
  nextTimer : TimerId
  tickets : Nat
  now : UInt64
  todo : List (Call α)

/-- A manager on which `Require` has not been called. -/
def State.initial (α : Type) : State α where
  apps := fun _ => {}
  procs := fun _ => none
  nextPid := 0
  timers := fun _ => none
  nextTimer := 0
  tickets := 0
  now := 0
  todo := []

namespace State

variable {α : Type} [DecidableEq α]

/-- Call before everything that is already waiting to be called. -/
@[simps] def call (state : State α) (calls : List (Call α)) : State α :=
  { state with todo := calls ++ state.todo }

/-- Take the innermost pending call off, leaving `rest`. -/
@[simps] def after (state : State α) (rest : List (Call α)) : State α :=
  { state with todo := rest }

/-- Assign to the fields of one app. -/
@[simps] def modify (state : State α) (app : α) (assign : App α → App α) : State α :=
  { state with apps := Function.update state.apps app (assign (state.apps app)) }

@[simps] def setProc (state : State α) (pid : Pid) (proc : Option (Proc α)) : State α :=
  { state with procs := Function.update state.procs pid proc }

@[simps] def setTimer (state : State α) (timer : TimerId)
    (entry : Option (StartTimer α)) : State α :=
  { state with timers := Function.update state.timers timer entry }

/-- Assign to the fields of a process object. -/
@[simps!] def changeProc (state : State α) (pid : Pid) (change : Proc α → Proc α) :
    State α :=
  state.setProc pid ((state.procs pid).map change)

/-- `Process::Create`. -/
@[simps!] def createProc (state : State α) (command : Command) (role : Role α) :
    State α :=
  { state.setProc state.nextPid (some { command, role }) with
    nextPid := state.nextPid + 1 }

/-- `Timer::Create` and `Timer::Start` in `Start`. -/
@[simps!] def createTimer (state : State α) (app : α) : State α :=
  { state.setTimer state.nextTimer (some { app }) with
    nextTimer := state.nextTimer + 1 }

/-- `ClearCallbacks` is traversing the callbacks of this app. -/
def answering (state : State α) (app : α) : Bool :=
  state.todo.any fun
    | .answer other _ _ => other = app
    | _ => false

/-- The fault of touching the callbacks of an app while they are traversed. -/
def traversalFault (state : State α) (app : α) : List (Event α) :=
  if state.answering app then [.fault (.liveVector app)] else []

/-- The role of an existing process object. -/
def roleOf (state : State α) (pid : Pid) : Option (Role α) :=
  (state.procs pid).map (·.role)

/-- The process object exists and `uv_spawn` succeeded for it. -/
def spawnedAt (state : State α) (pid : Pid) : Bool :=
  (state.procs pid).any (·.spawned)

section Fields

variable {state : State α} {app : α} {assign : App α → App α}

theorem modify_modify (again : App α → App α) :
    (state.modify app assign).modify app again =
      state.modify app fun fields => again (assign fields) := by
  simp [modify]

end Fields

end State

/-- An assignment leaves the fields that it does not mention. -/
theorem update_field {α β : Type} [DecidableEq α] (field : App α → β)
    {apps : α → App α} {app other : α} {fields : App α}
    (same : field fields = field (apps app)) :
    field (Function.update apps app fields other) = field (apps other) := by
  by_cases equal : other = app
  · subst equal
    simpa using same
  · simp [equal]

end Nexer.Manager

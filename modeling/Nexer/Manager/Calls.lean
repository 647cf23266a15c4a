import Nexer.Manager.State

/-!
# The functions and closures of the process manager

Each definition is one function of `process_manager.cc`, one of its closures,
or one of the functions of `process.cc` that call them.  It returns the state
with the calls that it makes put in front of those already waiting, together
with the events it causes.
-/

namespace Nexer.Manager

variable {α : Type} [DecidableEq α]

abbrev Effect (α : Type) := State α × List (Event α)

/-- The error codes of the libuv calls in `Process::Spawn`, in their order. -/
structure SpawnResult where
  pipe : Int := 0
  spawn : Int := 0
  readStdout : Int := 0
  readStderr : Int := 0
  deriving DecidableEq

/-- `app.callbacks.push_back(then)`. -/
@[simps!] def enqueue (app : α) (callback : AfterProcessCheck α) (state : State α) : State α :=
  { state.modify app fun fields =>
      { fields with callbacks := fields.callbacks ++ [⟨state.tickets, callback⟩] } with
    tickets := state.tickets + 1 }

/-- `Require`. -/
def require (app : α) (callback : AfterProcessCheck α) (state : State α) : Effect α :=
  let queued := enqueue app callback state
  (if (queued.apps app).callbacks.length > 1 then queued
    else queued.call [.check app (.required app)],
    .queued app ⟨state.tickets, callback⟩ :: state.traversalFault app)

/-- `Check`. -/
def check (config : α → AppConfig α) (app : α) (next : CheckThen α)
    (state : State α) : Effect α :=
  match (config app).checker with
  | none => (state.call [.checked next 0], [])
  | some checker =>
      let pid := state.nextPid
      let role : Role α := .checker app next
      ((state.createProc checker role).call
        [.processStart pid role, .onProcessStart pid, .endCheck pid], [])

/-- `app.require_start_time = Timer::Now(); Start(app);` -/
@[simps!] def startNow (app : α) (state : State α) : State α :=
  (state.modify app fun fields => { fields with requireStartTime := state.now }).call
    [.start app]

/-- The closure that `Require` hands to `Check`. -/
def requireThen (config : α → AppConfig α) (app : α) (error : Int)
    (state : State α) : Effect α :=
  if error = 0 then
    if (config app).checker.isSome ∨ (state.apps app).process ≠ none then
      (state.call [.clearCallbacks app 0], [])
    else
      (startNow app state, [])
  else
    match (state.apps app).process with
    | some pid =>
        (state.modify app fun fields => { fields with restart := true }, [.killed pid])
    | none => (startNow app state, [])

/-- `Timer::Close`, which does nothing on a handle that is already closing. -/
@[simps!] def closeTimer (timer : TimerId) (state : State α) : Effect α :=
  (state.setTimer timer
    ((state.timers timer).map fun entry => { entry with phase := .closing }),
    if (state.timers timer).isNone then [.fault (.deadTimer timer)] else [])

/-- `app.config->max_start_time > 0 && start_time > app.config->max_start_time`. -/
def startTimeout (config : AppConfig α) (fields : App α) (now : UInt64) : Bool :=
  0 < config.maxStartTime ∧
    config.maxStartTime < ((now - fields.requireStartTime).toNat : Int)

/-- The closure that the start-up timer hands to `Check`. -/
def startedThen (config : α → AppConfig α) (app : α) (timer : TimerId) (error : Int)
    (state : State α) : Effect α :=
  if error = 0 ∨ error = noEntry ∨
      startTimeout (config app) (state.apps app) state.now then
    let closed := closeTimer timer state
    ((closed.1.modify app fun fields => { fields with checkerTimer := none }).call
      [.clearCallbacks app error, .setChecking app false], closed.2)
  else
    (state.modify app fun fields => { fields with checking := false }, [])

/-- The counters that `CheckPreamble` resets; `rounds` names the closure `then`. -/
@[simps!] def resetPreamble (app : α) (count : Nat) (state : State α) : State α :=
  state.modify app fun fields =>
    { fields with
      rounds := fields.rounds + 1
      errorPreamble := 0
      pendingPreamble := count }

/-- `Start`, which is a call of `CheckPreamble`. -/
def start (config : α → AppConfig α) (app : α) (state : State α) : Effect α :=
  let round := (state.apps app).rounds + 1
  let preamble := (config app).preamble
  ((resetPreamble app preamble.length state).call
    (if preamble.length = 0 then [.prepared app round 0]
      else preamble.map fun other => .require other (.preamble app round)),
    [.start app round])

/-- The main process and the start-up timer of one `Start`. -/
@[simps!] def createMain (config : α → AppConfig α) (app : α) (round : Nat)
    (state : State α) : State α :=
  ((state.createProc (config app).command (.main app round)).createTimer app).modify app
    fun fields =>
      { fields with
        process := some state.nextPid
        checkerTimer := some state.nextTimer
        checking := false
        latestMain := some state.nextPid
        mainTicket := state.tickets }

/-- The closure that `Start` hands to `CheckPreamble`. -/
def startThen (config : α → AppConfig α) (app : α) (round : Nat) (error : Int)
    (state : State α) : Effect α :=
  if error ≠ 0 then
    (state.call [.clearCallbacks app error], [.prepared app round error])
  else
    ((createMain config app round state).call
      [.processStart state.nextPid (.main app round), .onProcessStart state.nextPid],
      [.prepared app round error])

/--
`Process::Start`.  When a pipe cannot be initialised the request has no loop
yet, so that `OnProcessExit` calls `OnProcessHandleClose` itself.
-/
def processStart (pid : Pid) (role : Role α) (result : SpawnResult)
    (state : State α) : Effect α :=
  let failed := state.changeProc pid fun proc => { proc with phase := .failed }
  if result.pipe ≠ 0 then
    (failed.call
      [.onError pid role result.pipe, .onExit pid role .unstarted],
      [.unspawned pid role])
  else if result.spawn ≠ 0 then
    (failed.call
      [.onError pid role result.spawn, .onProcessExit pid],
      [.unspawned pid role])
  else
    let running := state.changeProc pid fun proc =>
      { proc with phase := .running, spawned := true }
    if result.readStdout ≠ 0 then
      (running.call [.onError pid role result.readStdout, .kill pid],
        [.spawned pid role])
    else if result.readStderr ≠ 0 then
      (running.call [.onError pid role result.readStderr, .kill pid],
        [.spawned pid role])
    else
      (running, [.spawned pid role])

/-- The `OnError` closures of `Start` and of `Check`. -/
def onError (pid : Pid) (role : Role α) (error : Int) (state : State α) : Effect α :=
  match role with
  | .main app _ =>
      ((state.modify app fun fields => { fields with process := none }).call
        [.clearCallbacks app error], [.processError pid error])
  | .checker _ next =>
      (state.call [.checked next error],
        .processError pid error ::
          if (state.procs pid).all (·.thenAlive) then [] else [.fault (.deadThen pid)])

/-- The `OnExit` closures of `Start` and of `Check`, and the end of the process
object, of which they use the address only. -/
def onExit (config : α → AppConfig α) (pid : Pid) (role : Role α)
    (termination : Termination) (state : State α) : Effect α :=
  let status := termination.status
  let gone := state.setProc pid none
  let events : List (Event α) :=
    [.ended pid role termination, .processExit pid status termination.signal]
  match role with
  | .main app _ =>
      let dropped := gone.modify app fun fields => { fields with process := none }
      if status ≠ 0 then
        if (state.apps app).restart then
          ((dropped.modify app fun fields => { fields with restart := false }).call
            [.start app], events)
        else if (config app).checker.isNone then
          (dropped.call [.clearCallbacks app (toInt status)], events)
        else
          (dropped, events)
      else
        (dropped, events)
  | .checker _ next => (gone.call [.checked next (toInt status)], events)

/-- `ClearCallbacks` up to its loop. -/
def clearCallbacks (app : α) (error : Int) (state : State α) : Effect α :=
  (state.call [.answer app (state.apps app).callbacks error],
    state.traversalFault app)

/-- The counters after one answer to the closure of `CheckPreamble`. -/
@[simps!] def countAnswer (app : α) (error : Int) (state : State α) : State α :=
  state.modify app fun fields =>
    { fields with
      pendingPreamble := fields.pendingPreamble - 1
      errorPreamble := fields.errorPreamble + if error ≠ 0 then 1 else 0 }

/-- What a callback does when it is invoked with an error. -/
def invoke (callback : AfterProcessCheck α) (error : Int) (state : State α) : State α :=
  match callback with
  | .caller _ => state
  | .preamble app round =>
      let counted := countAnswer app error state
      if (counted.apps app).pendingPreamble = 0 then
        counted.call [.prepared app round (counted.apps app).errorPreamble]
      else
        counted

/-- One turn of the loop of `ClearCallbacks`, or `app.callbacks.clear()`. -/
def answer (app : α) (rest : List (Waiter α)) (error : Int)
    (state : State α) : Effect α :=
  match rest with
  | [] => (state.modify app fun fields => { fields with callbacks := [] }, [])
  | waiter :: others =>
      (invoke waiter.callback error (state.call [.answer app others error]),
        [.answered app waiter (state.apps app).process error])

/-- Make the innermost pending call, which has already been taken off `todo`. -/
def perform (config : α → AppConfig α) (head : Call α) (state : State α) :
    Option (Effect α) :=
  match head with
  | .require app callback => some (require app callback state)
  | .check app next => some (check config app next state)
  | .checked (.required app) error => some (requireThen config app error state)
  | .checked (.started app timer) error =>
      some (startedThen config app timer error state)
  | .start app => some (start config app state)
  | .prepared app round error => some (startThen config app round error state)
  | .processStart _ _ => none
  | .onProcessStart pid => some (state, [.processStart pid])
  | .endCheck pid =>
      some (state.changeProc pid fun proc => { proc with thenAlive := false }, [])
  | .onError pid role error => some (onError pid role error state)
  | .onProcessExit pid =>
      some (state.changeProc pid fun proc => { proc with phase := .closing .unstarted }, [])
  | .kill pid => some (state, [.killed pid])
  | .onExit pid role termination => some (onExit config pid role termination state)
  | .clearCallbacks app error => some (clearCallbacks app error state)
  | .answer app rest error => some (answer app rest error state)
  | .setChecking app value =>
      some (state.modify app fun fields => { fields with checking := value }, [])

end Nexer.Manager

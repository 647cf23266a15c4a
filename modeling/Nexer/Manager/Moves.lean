import Nexer.Manager.Step

/-!
# The steps of the manager, one by one

`Move` lists what a step can do: one constructor for each branch of the
functions in `Nexer.Manager.Calls` and for each event of the loop, with the
guards of the branch and the state that it leads to.  Every invariant is proved
by cases on it.
-/

namespace Nexer.Manager

variable {α : Type} [DecidableEq α]

inductive Move (config : α → AppConfig α) (state : State α) :
    Label α → State α → List (Event α) → Prop where
  | clock {now : UInt64} : Move config state (.clock now) { state with now } []
  -- `Require`
  | queueMore {app : α} {callback : AfterProcessCheck α} {rest : List (Call α)}
      (pending : state.todo = .require app callback :: rest)
      (waiting : (state.apps app).callbacks ≠ []) :
      Move config state .call (enqueue app callback (state.after rest))
        (.queued app ⟨state.tickets, callback⟩ :: (state.after rest).traversalFault app)
  | queueFirst {app : α} {callback : AfterProcessCheck α} {rest : List (Call α)}
      (pending : state.todo = .require app callback :: rest)
      (none_waiting : (state.apps app).callbacks = []) :
      Move config state .call
        ((enqueue app callback (state.after rest)).call [.check app (.required app)])
        (.queued app ⟨state.tickets, callback⟩ :: (state.after rest).traversalFault app)
  -- `Check`
  | checkNone {app : α} {next : CheckThen α} {rest : List (Call α)}
      (pending : state.todo = .check app next :: rest)
      (unchecked : (config app).checker = none) :
      Move config state .call ((state.after rest).call [.checked next 0]) []
  | checkSome {app : α} {next : CheckThen α} {rest : List (Call α)} {checker : Command}
      (pending : state.todo = .check app next :: rest)
      (has_checker : (config app).checker = some checker) :
      Move config state .call
        (((state.after rest).createProc checker (.checker app next)).call
          [.processStart state.nextPid (.checker app next),
            .onProcessStart state.nextPid, .endCheck state.nextPid]) []
  -- the continuation of `Require`
  | requiredClear {app : α} {rest : List (Call α)}
      (pending : state.todo = .checked (.required app) 0 :: rest)
      (satisfied : (config app).checker.isSome ∨ (state.apps app).process ≠ none) :
      Move config state .call ((state.after rest).call [.clearCallbacks app 0]) []
  | requiredStart {app : α} {error : Int} {rest : List (Call α)}
      (pending : state.todo = .checked (.required app) error :: rest)
      (untracked : (state.apps app).process = none)
      (unsatisfied : error = 0 → (config app).checker = none) :
      Move config state .call (startNow app (state.after rest)) []
  | requiredKill {app : α} {error : Int} {pid : Pid} {rest : List (Call α)}
      (pending : state.todo = .checked (.required app) error :: rest)
      (tracked : (state.apps app).process = some pid)
      (failed : error ≠ 0) :
      Move config state .call
        ((state.after rest).modify app fun fields => { fields with restart := true })
        [.killed pid]
  -- the continuation of the start-up timer
  | startedClear {app : α} {timer : TimerId} {error : Int} {rest : List (Call α)}
      (pending : state.todo = .checked (.started app timer) error :: rest)
      (completed : error = 0 ∨ error = noEntry ∨
        startTimeout (config app) (state.apps app) state.now) :
      Move config state .call
        (((closeTimer timer (state.after rest)).1.modify app
            fun fields => { fields with checkerTimer := none }).call
          [.clearCallbacks app error, .setChecking app false])
        (closeTimer timer (state.after rest)).2
  | startedAgain {app : α} {timer : TimerId} {error : Int} {rest : List (Call α)}
      (pending : state.todo = .checked (.started app timer) error :: rest)
      (incomplete : ¬ (error = 0 ∨ error = noEntry ∨
        startTimeout (config app) (state.apps app) state.now)) :
      Move config state .call
        ((state.after rest).modify app fun fields => { fields with checking := false }) []
  -- `Start` and its closure
  | startReady {app : α} {rest : List (Call α)}
      (pending : state.todo = .start app :: rest)
      (alone : (config app).preamble = []) :
      Move config state .call
        ((resetPreamble app 0 (state.after rest)).call
          [.prepared app ((state.apps app).rounds + 1) 0])
        [.start app ((state.apps app).rounds + 1)]
  | startWaiting {app : α} {rest : List (Call α)}
      (pending : state.todo = .start app :: rest)
      (preceded : (config app).preamble ≠ []) :
      Move config state .call
        ((resetPreamble app (config app).preamble.length (state.after rest)).call
          ((config app).preamble.map fun other =>
            .require other (.preamble app ((state.apps app).rounds + 1))))
        [.start app ((state.apps app).rounds + 1)]
  | preparedClear {app : α} {round : Nat} {error : Int} {rest : List (Call α)}
      (pending : state.todo = .prepared app round error :: rest)
      (failed : error ≠ 0) :
      Move config state .call ((state.after rest).call [.clearCallbacks app error])
        [.prepared app round error]
  | preparedStart {app : α} {round : Nat} {rest : List (Call α)}
      (pending : state.todo = .prepared app round 0 :: rest) :
      Move config state .call
        ((createMain config app round (state.after rest)).call
          [.processStart state.nextPid (.main app round), .onProcessStart state.nextPid])
        [.prepared app round 0]
  -- `Process::Start`
  | spawnPipe {pid : Pid} {role : Role α} {result : SpawnResult} {rest : List (Call α)}
      (pending : state.todo = .processStart pid role :: rest)
      (failed : result.pipe ≠ 0) :
      Move config state (.spawn result)
        (((state.after rest).changeProc pid fun proc => { proc with phase := .failed }).call
          [.onError pid role result.pipe, .onExit pid role .unstarted])
        [.unspawned pid role]
  | spawnFail {pid : Pid} {role : Role α} {result : SpawnResult} {rest : List (Call α)}
      (pending : state.todo = .processStart pid role :: rest)
      (piped : result.pipe = 0) (failed : result.spawn ≠ 0) :
      Move config state (.spawn result)
        (((state.after rest).changeProc pid fun proc => { proc with phase := .failed }).call
          [.onError pid role result.spawn, .onProcessExit pid])
        [.unspawned pid role]
  | spawnUnread {pid : Pid} {role : Role α} {result : SpawnResult} {error : Int}
      {rest : List (Call α)}
      (pending : state.todo = .processStart pid role :: rest)
      (piped : result.pipe = 0) (forked : result.spawn = 0) (failed : error ≠ 0)
      (unread : ¬ (result.readStdout = 0 ∧ result.readStderr = 0)) :
      Move config state (.spawn result)
        (((state.after rest).changeProc pid fun proc =>
            { proc with phase := .running, spawned := true }).call
          [.onError pid role error, .kill pid])
        [.spawned pid role]
  | spawnDone {pid : Pid} {role : Role α} {result : SpawnResult} {rest : List (Call α)}
      (pending : state.todo = .processStart pid role :: rest)
      (piped : result.pipe = 0) (forked : result.spawn = 0) :
      Move config state (.spawn result)
        ((state.after rest).changeProc pid fun proc =>
          { proc with phase := .running, spawned := true })
        [.spawned pid role]
  | onProcessStart {pid : Pid} {rest : List (Call α)}
      (pending : state.todo = .onProcessStart pid :: rest) :
      Move config state .call (state.after rest) [.processStart pid]
  | endCheck {pid : Pid} {rest : List (Call α)}
      (pending : state.todo = .endCheck pid :: rest) :
      Move config state .call
        ((state.after rest).changeProc pid fun proc => { proc with thenAlive := false }) []
  | onProcessExit {pid : Pid} {rest : List (Call α)}
      (pending : state.todo = .onProcessExit pid :: rest) :
      Move config state .call
        ((state.after rest).changeProc pid fun proc =>
          { proc with phase := .closing .unstarted }) []
  | kill {pid : Pid} {rest : List (Call α)}
      (pending : state.todo = .kill pid :: rest) :
      Move config state .call (state.after rest) [.killed pid]
  -- the `OnError` closures
  | errorMain {pid : Pid} {app : α} {round : Nat} {error : Int} {rest : List (Call α)}
      (pending : state.todo = .onError pid (.main app round) error :: rest) :
      Move config state .call
        (((state.after rest).modify app fun fields => { fields with process := none }).call
          [.clearCallbacks app error])
        [.processError pid error]
  | errorChecker {pid : Pid} {app : α} {next : CheckThen α} {error : Int}
      {rest : List (Call α)}
      (pending : state.todo = .onError pid (.checker app next) error :: rest) :
      Move config state .call ((state.after rest).call [.checked next error])
        (.processError pid error ::
          if (state.procs pid).all (·.thenAlive) then [] else [.fault (.deadThen pid)])
  -- the `OnExit` closures
  | exitRestart {pid : Pid} {app : α} {round : Nat} {termination : Termination}
      {rest : List (Call α)}
      (pending : state.todo = .onExit pid (.main app round) termination :: rest)
      (failed : termination.status ≠ 0) (again : (state.apps app).restart = true) :
      Move config state .call
        ((((state.after rest).setProc pid none).modify app fun fields =>
            { fields with process := none, restart := false }).call [.start app])
        [.ended pid (.main app round) termination,
          .processExit pid termination.status termination.signal]
  | exitClear {pid : Pid} {app : α} {round : Nat} {termination : Termination}
      {rest : List (Call α)}
      (pending : state.todo = .onExit pid (.main app round) termination :: rest)
      (failed : termination.status ≠ 0) (spent : (state.apps app).restart = false)
      (unchecked : (config app).checker = none) :
      Move config state .call
        ((((state.after rest).setProc pid none).modify app fun fields =>
            { fields with process := none }).call
          [.clearCallbacks app termination.status])
        [.ended pid (.main app round) termination,
          .processExit pid termination.status termination.signal]
  | exitDrop {pid : Pid} {app : α} {round : Nat} {termination : Termination}
      {rest : List (Call α)}
      (pending : state.todo = .onExit pid (.main app round) termination :: rest)
      (silent : termination.status = 0 ∨
        (state.apps app).restart = false ∧ (config app).checker.isSome) :
      Move config state .call
        (((state.after rest).setProc pid none).modify app fun fields =>
          { fields with process := none })
        [.ended pid (.main app round) termination,
          .processExit pid termination.status termination.signal]
  | exitChecker {pid : Pid} {app : α} {next : CheckThen α} {termination : Termination}
      {rest : List (Call α)}
      (pending : state.todo = .onExit pid (.checker app next) termination :: rest) :
      Move config state .call
        (((state.after rest).setProc pid none).call [.checked next termination.status])
        [.ended pid (.checker app next) termination,
          .processExit pid termination.status termination.signal]
  -- `ClearCallbacks`
  | clearCallbacks {app : α} {error : Int} {rest : List (Call α)}
      (pending : state.todo = .clearCallbacks app error :: rest) :
      Move config state .call
        ((state.after rest).call [.answer app (state.apps app).callbacks error])
        ((state.after rest).traversalFault app)
  | answerEnd {app : α} {error : Int} {rest : List (Call α)}
      (pending : state.todo = .answer app [] error :: rest) :
      Move config state .call
        ((state.after rest).modify app fun fields => { fields with callbacks := [] }) []
  | answerCaller {app : α} {ticket tag : Nat} {others : List (Waiter α)} {error : Int}
      {rest : List (Call α)}
      (pending : state.todo = .answer app (⟨ticket, .caller tag⟩ :: others) error :: rest) :
      Move config state .call ((state.after rest).call [.answer app others error])
        [.answered app ⟨ticket, .caller tag⟩ (state.apps app).process error]
  | answerCount {app upper : α} {ticket round : Nat} {others : List (Waiter α)}
      {error : Int} {rest : List (Call α)}
      (pending : state.todo =
        .answer app (⟨ticket, .preamble upper round⟩ :: others) error :: rest)
      (more : (state.apps upper).pendingPreamble ≠ 1) :
      Move config state .call
        (countAnswer upper error ((state.after rest).call [.answer app others error]))
        [.answered app ⟨ticket, .preamble upper round⟩ (state.apps app).process error]
  | answerLast {app upper : α} {ticket round : Nat} {others : List (Waiter α)}
      {error : Int} {rest : List (Call α)}
      (pending : state.todo =
        .answer app (⟨ticket, .preamble upper round⟩ :: others) error :: rest)
      (last : (state.apps upper).pendingPreamble = 1) :
      Move config state .call
        ((countAnswer upper error ((state.after rest).call [.answer app others error])).call
          [.prepared upper round
            ((state.apps upper).errorPreamble + if error ≠ 0 then 1 else 0)])
        [.answered app ⟨ticket, .preamble upper round⟩ (state.apps app).process error]
  | setChecking {app : α} {value : Bool} {rest : List (Call α)}
      (pending : state.todo = .setChecking app value :: rest) :
      Move config state .call
        ((state.after rest).modify app fun fields => { fields with checking := value }) []
  -- the events of the loop
  | required {app : α} {tag : Nat} (idle : state.todo = []) :
      Move config state (.require app tag) (state.call [.require app (.caller tag)]) []
  | readError {pid : Pid} {fd : Nat} {nread : Int} {buffer : List UInt8} {proc : Proc α}
      (idle : state.todo = []) (live : state.procs pid = some proc)
      (running : proc.phase = .running) (failed : nread ≤ 0 ∧ nread ≠ uvEof) :
      Move config state (.read pid fd nread buffer)
        (state.call [.onError pid proc.role nread]) []
  | readData {pid : Pid} {fd : Nat} {nread : Int} {buffer : List UInt8} {proc : Proc α}
      (idle : state.todo = []) (live : state.procs pid = some proc)
      (running : proc.phase = .running) (received : 0 < nread) :
      Move config state (.read pid fd nread buffer) state
        [.processData pid fd (buffer.take nread.toNat)]
  | readEnd {pid : Pid} {fd : Nat} {buffer : List UInt8} {proc : Proc α}
      (idle : state.todo = []) (live : state.procs pid = some proc)
      (running : proc.phase = .running) :
      Move config state (.read pid fd uvEof buffer) state []
  | exited {pid : Pid} {termination : Termination} {proc : Proc α}
      (idle : state.todo = []) (live : state.procs pid = some proc)
      (running : proc.phase = .running) :
      Move config state (.exited pid termination)
        (state.setProc pid (some { proc with phase := .closing termination })) []
  | closed {pid : Pid} {termination : Termination} {proc : Proc α}
      (idle : state.todo = []) (live : state.procs pid = some proc)
      (closing : proc.phase = .closing termination) :
      Move config state (.closed pid)
        (state.call [.onExit pid proc.role termination]) []
  | timeout {pid : Pid} {proc : Proc α}
      (idle : state.todo = []) (live : state.procs pid = some proc)
      (running : proc.phase = .running) (limited : 0 < proc.command.timeout) :
      Move config state (.timeout pid) state [.killed pid]
  | tickIdle {timer : TimerId} {entry : StartTimer α}
      (idle : state.todo = []) (live : state.timers timer = some entry)
      (running : entry.phase = .running)
      (none_waiting : (state.apps entry.app).callbacks = []) :
      Move config state (.tick timer) (closeTimer timer state).1 (closeTimer timer state).2
  | tickBusy {timer : TimerId} {entry : StartTimer α}
      (idle : state.todo = []) (live : state.timers timer = some entry)
      (running : entry.phase = .running)
      (waiting : (state.apps entry.app).callbacks ≠ [])
      (busy : (state.apps entry.app).checking = true) :
      Move config state (.tick timer) state []
  | tickCheck {timer : TimerId} {entry : StartTimer α}
      (idle : state.todo = []) (live : state.timers timer = some entry)
      (running : entry.phase = .running)
      (waiting : (state.apps entry.app).callbacks ≠ [])
      (free : (state.apps entry.app).checking = false) :
      Move config state (.tick timer)
        (state.call
          [.check entry.app (.started entry.app timer), .setChecking entry.app true]) []
  | timerClosed {timer : TimerId} {entry : StartTimer α}
      (idle : state.todo = []) (live : state.timers timer = some entry)
      (closing : entry.phase = .closing) :
      Move config state (.timerClosed timer) (state.setTimer timer none) []

variable {config : α → AppConfig α} {state following : State α}
variable {label : Label α} {out : List (Event α)}

section Internal

variable {rest : List (Call α)}

theorem move_of_require {app : α} {callback : AfterProcessCheck α}
    (pending : state.todo = .require app callback :: rest)
    (moved : require app callback (state.after rest) = (following, out)) :
    Move config state .call following out := by
  simp only [require, Prod.mk.injEq] at moved
  obtain ⟨rfl, rfl⟩ := moved
  by_cases none_waiting : (state.apps app).callbacks = []
  · simpa [none_waiting] using (.queueFirst pending none_waiting : Move config state _ _ _)
  · have more := List.length_pos_iff.mpr none_waiting
    simpa [more] using Move.queueMore pending none_waiting

theorem move_of_check {app : α} {next : CheckThen α}
    (pending : state.todo = .check app next :: rest)
    (moved : check config app next (state.after rest) = (following, out)) :
    Move config state .call following out := by
  unfold check at moved
  split at moved <;> obtain ⟨rfl, rfl⟩ := Prod.mk.inj moved
  · exact .checkNone pending ‹_›
  · exact .checkSome pending ‹_›

theorem move_of_requireThen {app : α} {error : Int}
    (pending : state.todo = .checked (.required app) error :: rest)
    (moved : requireThen config app error (state.after rest) = (following, out)) :
    Move config state .call following out := by
  unfold requireThen at moved
  split at moved
  · next zero =>
    subst zero
    split at moved <;> obtain ⟨rfl, rfl⟩ := Prod.mk.inj moved
    · exact .requiredClear pending (by simpa using ‹_ ∨ _›)
    · next unsatisfied =>
      simp only [not_or, State.after_apps, not_not] at unsatisfied
      exact .requiredStart pending unsatisfied.2 (by simpa using unsatisfied.1)
  · next failed =>
    split at moved <;> obtain ⟨rfl, rfl⟩ := Prod.mk.inj moved
    · exact .requiredKill pending ‹_› failed
    · exact .requiredStart pending ‹_› (absurd · failed)

theorem move_of_startedThen {app : α} {timer : TimerId} {error : Int}
    (pending : state.todo = .checked (.started app timer) error :: rest)
    (moved : startedThen config app timer error (state.after rest) = (following, out)) :
    Move config state .call following out := by
  unfold startedThen at moved
  split at moved <;> obtain ⟨rfl, rfl⟩ := Prod.mk.inj moved
  · exact .startedClear pending ‹_›
  · exact .startedAgain pending ‹_›

theorem move_of_start {app : α} (pending : state.todo = .start app :: rest)
    (moved : start config app (state.after rest) = (following, out)) :
    Move config state .call following out := by
  simp only [start, Prod.mk.injEq] at moved
  obtain ⟨rfl, rfl⟩ := moved
  by_cases alone : (config app).preamble = []
  · simpa [alone] using Move.startReady pending alone
  · simpa [alone] using Move.startWaiting pending alone

theorem move_of_startThen {app : α} {round : Nat} {error : Int}
    (pending : state.todo = .prepared app round error :: rest)
    (moved : startThen config app round error (state.after rest) = (following, out)) :
    Move config state .call following out := by
  unfold startThen at moved
  split at moved <;> obtain ⟨rfl, rfl⟩ := Prod.mk.inj moved
  · exact .preparedClear pending ‹_›
  · next zero =>
    obtain rfl := not_not.mp zero
    exact .preparedStart pending

theorem move_of_processStart {pid : Pid} {role : Role α} {result : SpawnResult}
    (pending : state.todo = .processStart pid role :: rest)
    (moved : processStart pid role result (state.after rest) = (following, out)) :
    Move config state (.spawn result) following out := by
  unfold processStart at moved
  split at moved
  · obtain ⟨rfl, rfl⟩ := Prod.mk.inj moved
    exact .spawnPipe pending ‹_›
  · next piped =>
    have piped := not_not.mp piped
    split at moved
    · obtain ⟨rfl, rfl⟩ := Prod.mk.inj moved
      exact .spawnFail pending piped ‹_›
    · next forked =>
      have forked := not_not.mp forked
      split at moved
      · next unread =>
        obtain ⟨rfl, rfl⟩ := Prod.mk.inj moved
        exact .spawnUnread pending piped forked unread (unread ·.1)
      · split at moved <;> obtain ⟨rfl, rfl⟩ := Prod.mk.inj moved
        · next unread => exact .spawnUnread pending piped forked unread (unread ·.2)
        · exact .spawnDone pending piped forked

theorem move_of_onError {pid : Pid} {role : Role α} {error : Int}
    (pending : state.todo = .onError pid role error :: rest)
    (moved : onError pid role error (state.after rest) = (following, out)) :
    Move config state .call following out := by
  unfold onError at moved
  split at moved <;> obtain ⟨rfl, rfl⟩ := Prod.mk.inj moved
  · exact .errorMain pending
  · exact .errorChecker pending

theorem move_of_onExit {pid : Pid} {role : Role α} {termination : Termination}
    (pending : state.todo = .onExit pid role termination :: rest)
    (moved : onExit config pid role termination (state.after rest) = (following, out)) :
    Move config state .call following out := by
  simp only [onExit, termination.toInt_status, State.after_apps] at moved
  split at moved
  · next app round =>
    split at moved
    · next failed =>
      split at moved
      · obtain ⟨rfl, rfl⟩ := Prod.mk.inj moved
        rw [State.modify_modify]
        exact .exitRestart pending failed ‹_›
      · next spent =>
        have spent : (state.apps app).restart = false := by simpa using spent
        split at moved <;> obtain ⟨rfl, rfl⟩ := Prod.mk.inj moved
        · next unchecked => exact .exitClear pending failed spent (by simpa using unchecked)
        · next checked =>
          exact .exitDrop pending (.inr ⟨spent, by simpa [Option.isSome_iff_ne_none] using checked⟩)
    · next silent =>
      obtain ⟨rfl, rfl⟩ := Prod.mk.inj moved
      exact .exitDrop pending (.inl (not_not.mp silent))
  · obtain ⟨rfl, rfl⟩ := Prod.mk.inj moved
    exact .exitChecker pending

theorem move_of_answer {app : α} {left : List (Waiter α)} {error : Int}
    (pending : state.todo = .answer app left error :: rest)
    (moved : answer app left error (state.after rest) = (following, out)) :
    Move config state .call following out := by
  rcases left with _ | ⟨⟨ticket, tag | ⟨upper, round⟩⟩, others⟩ <;>
    obtain ⟨rfl, rfl⟩ := Prod.mk.inj moved
  · exact .answerEnd pending
  · exact .answerCaller pending
  · by_cases last : (state.apps upper).pendingPreamble = 1
    · simpa [invoke, countAnswer, last] using (.answerLast pending last : Move config state _ _ _)
    · have more : (state.apps upper).pendingPreamble - 1 ≠ 0 := by omega
      simpa [invoke, countAnswer, more] using (.answerCount pending last : Move config state _ _ _)

theorem move_of_perform {head : Call α} (pending : state.todo = head :: rest)
    (moved : perform config head (state.after rest) = some (following, out)) :
    Move config state .call following out := by
  cases head with
  | require app callback => exact move_of_require pending (Option.some.inj moved)
  | check app next => exact move_of_check pending (Option.some.inj moved)
  | checked next error =>
      cases next with
      | required app => exact move_of_requireThen pending (Option.some.inj moved)
      | started app timer => exact move_of_startedThen pending (Option.some.inj moved)
  | start app => exact move_of_start pending (Option.some.inj moved)
  | prepared app round error => exact move_of_startThen pending (Option.some.inj moved)
  | processStart pid role => cases moved
  | onProcessStart pid => cases moved; exact .onProcessStart pending
  | endCheck pid => cases moved; exact .endCheck pending
  | onError pid role error => exact move_of_onError pending (Option.some.inj moved)
  | onProcessExit pid => cases moved; exact .onProcessExit pending
  | kill pid => cases moved; exact .kill pending
  | onExit pid role termination => exact move_of_onExit pending (Option.some.inj moved)
  | clearCallbacks app error => cases moved; exact .clearCallbacks pending
  | answer app left error => exact move_of_answer pending (Option.some.inj moved)
  | setChecking app value => cases moved; exact .setChecking pending

end Internal

section External

theorem move_of_read {pid : Pid} {fd : Nat} {nread : Int} {buffer : List UInt8}
    {proc : Proc α} (idle : state.todo = []) (live : state.procs pid = some proc)
    (running : proc.phase = .running)
    (moved : onRead pid proc.role fd nread buffer state = (following, out)) :
    Move config state (.read pid fd nread buffer) following out := by
  unfold onRead at moved
  split at moved
  · obtain ⟨rfl, rfl⟩ := Prod.mk.inj moved
    exact .readError idle live running ‹_›
  · next fine =>
    split at moved <;> obtain ⟨rfl, rfl⟩ := Prod.mk.inj moved
    · exact .readData idle live running ‹_›
    · obtain rfl : nread = uvEof := by
        by_contra other
        exact fine ⟨by omega, other⟩
      exact .readEnd idle live running

theorem move_of_tick {timer : TimerId} {entry : StartTimer α} (idle : state.todo = [])
    (live : state.timers timer = some entry) (running : entry.phase = .running)
    (moved : onTick entry.app timer state = (following, out)) :
    Move config state (.tick timer) following out := by
  unfold onTick at moved
  split at moved
  · obtain ⟨rfl, rfl⟩ := Prod.mk.inj moved
    exact .tickIdle idle live running (List.length_eq_zero_iff.mp ‹_›)
  · next waiting =>
    have waiting : (state.apps entry.app).callbacks ≠ [] := by simpa using waiting
    split at moved <;> obtain ⟨rfl, rfl⟩ := Prod.mk.inj moved
    · exact .tickBusy idle live running waiting ‹_›
    · next free => exact .tickCheck idle live running waiting (by simpa using free)

theorem move_of_deliver (idle : state.todo = [])
    (moved : deliver state label = some (following, out)) :
    Move config state label following out := by
  cases label with
  | clock | call | spawn => cases moved
  | require app tag =>
      cases moved
      exact .required idle
  | read pid fd nread buffer =>
      simp only [deliver] at moved
      split at moved
      · split at moved
        · exact move_of_read idle ‹_› ‹_› (Option.some.inj moved)
        · cases moved
      · cases moved
  | exited pid termination =>
      simp only [deliver] at moved
      split at moved
      · split at moved <;> cases moved
        exact .exited idle ‹_› ‹_›
      · cases moved
  | closed pid =>
      simp only [deliver] at moved
      split at moved
      · split at moved <;> cases moved
        exact .closed idle ‹_› ‹_›
      · cases moved
  | timeout pid =>
      simp only [deliver] at moved
      split at moved
      · split at moved <;> cases moved
        next limited => exact .timeout idle ‹_› limited.1 limited.2
      · cases moved
  | tick timer =>
      simp only [deliver] at moved
      split at moved
      · split at moved
        · exact move_of_tick idle ‹_› ‹_› (Option.some.inj moved)
        · cases moved
      · cases moved
  | timerClosed timer =>
      simp only [deliver] at moved
      split at moved
      · split at moved <;> cases moved
        exact .timerClosed idle ‹_› ‹_›
      · cases moved

end External

/-- Every step is one of the moves. -/
theorem move_of_step (moved : step config state label = some (following, out)) :
    Move config state label following out := by
  unfold step at moved
  split at moved
  · cases moved
    exact .clock
  · split at moved
    · cases moved
    · exact move_of_perform ‹_› moved
  · split at moved
    · exact move_of_processStart ‹_› (Option.some.inj moved)
    · cases moved
  · split at moved
    · exact move_of_deliver ‹_› moved
    · cases moved

end Nexer.Manager

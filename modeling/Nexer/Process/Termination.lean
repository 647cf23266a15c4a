import Nexer.Process.Deletion

/-!
# The exit of a process is reported once

`OnProcessExit` is reached from the exit callback of libuv, from a `Start` that
fails before a child runs, and from the timeout of a process that is not running.
The first of these closes the handles, and the close callback reports what it
recorded.  A timeout that comes before that callback closes the handles once more, which
libuv refuses.
-/

namespace Nexer.Process

open Nexer.Transition

/-- What the owner of a process, its child and the loop can do. -/
inductive Move where
  | setTimeout
  | start (outcome : Outcome)
  | kill
  | exited (code signal : Int)
  | tick
  | complete

/-- What is observed, with the terminations that `OnProcessExit` is called for. -/
inductive Report where
  | event (event : Event)
  | recorded (code signal : Int)
  deriving DecidableEq

/-- The call of `OnProcessExit` that a move makes. -/
def termination (state : State) : Move → Option (Int × Int)
  | .setTimeout | .kill | .complete => none
  | .start outcome =>
      let spawned := spawn outcome { state with started := true }
      if spawned.2 ≠ 0 ∧ spawned.1.1.running = false then some (-1, -1) else none
  | .exited code signal => some (code, signal)
  | .tick => if state.running then none else some (-2, 0)

/-- A timeout can be set at any time, once; `Kill` sends a signal and changes nothing here. -/
def act (state : State) : Move → Option Effect
  | .setTimeout =>
      if ¬ state.aborted ∧ ¬ state.deleted ∧ state.timer = .none then
        some ({ state with timer := .active }, [])
      else none
  | .start outcome => step state (.start outcome)
  | .kill => if ¬ state.aborted ∧ ¬ state.deleted then some (state, [.kill]) else none
  | .exited code signal => step state (.exited code signal)
  | .tick => step state .tick
  | .complete => step state .complete

/-- The machine of a process with its terminations. -/
def drive : Machine State Move Report
  | state, move => (act state move).map fun effect =>
      (effect.1, ((termination state move).map fun ending => .recorded ending.1 ending.2).toList ++
        effect.2.map .event)

/-- A close callback that is queued runs before any later timer callback. -/
def punctual (state : State) : Move → Prop
  | .tick => .process ∉ state.pending
  | _ => True

instance : ∀ (state : State) (move : Move), Decidable (punctual state move)
  | state, .tick => inferInstanceAs (Decidable (.process ∉ state.pending))
  | _, .setTimeout | _, .start _ | _, .kill | _, .exited _ _ | _, .complete => .isTrue trivial

/-- The calls of `on_exit_`. -/
def exits (past : List Report) : List (Int × Int) :=
  past.filterMap fun
    | .event (.exit code signal) => some (code, signal)
    | _ => none

/-- The terminations that were recorded, in order. -/
def recordings (past : List Report) : List (Int × Int) :=
  past.filterMap fun
    | .recorded code signal => some (code, signal)
    | _ => none

/-- No child is running, no timer is active and no close callback is queued; the pipes are
closed without one. -/
structure Settled (state : State) : Prop where
  running : state.running = false
  timer : state.timer ≠ .active
  pending : .process ∉ state.pending

/-- The stages of a process, with what has been reported. -/
inductive Life (state : State) (past : List Report) : Prop where
  | fresh (unstarted : state.started = false) (there : state.deleted = false)
      (stopped : state.running = false) (phase : ∀ handle, state.phase handle = .unset)
      (pending : state.pending = []) (timer : state.timer = .none ∨ state.timer = .active)
      (unrecorded : recordings past = []) (silent : exits past = [])
  | live (there : state.deleted = false) (running : state.running = true) (quiet : Quiet state)
      (opened : state.phase .process = .opened) (started : state.started = true)
      (unrecorded : recordings past = []) (silent : exits past = [])
  | closing (there : state.deleted = false) (closing : Closing state)
      (started : state.started = true)
      (recorded : recordings past = [(state.exitCode, state.termSignal)])
      (silent : exits past = [])
  | gone (deleted : state.deleted = true) (stopped : state.running = false)
      (timer : state.timer ≠ .active) (ending : Int × Int)
      (recorded : recordings past = [ending]) (reported : exits past = [ending])

/-- No handle is closed twice, and the process is in one of its stages. -/
structure Orderly (state : State) (past : List Report) : Prop where
  intact : state.aborted = false
  unaborted : .event .aborted ∉ past
  life : Life state past

/-- A timeout has come before the close callback, and has ended the program. -/
structure Broken (state : State) (past : List Report) : Prop where
  aborted : state.aborted = true
  there : state.deleted = false
  stopped : state.running = false
  silent : exits past = []

/-- What becomes of a process whose timer may tick at any time. -/
inductive Course (state : State) (past : List Report) : Prop where
  | orderly (orderly : Orderly state past)
  | broken (broken : Broken state past)

section Exit

variable {state : State} {past : List Report}

theorem exits_append (past later : List Report) : exits (past ++ later) = exits past ++ exits later :=
  List.filterMap_append

theorem recordings_append (past later : List Report) :
    recordings (past ++ later) = recordings past ++ recordings later :=
  List.filterMap_append

theorem recordings_events (out : List Event) : recordings (out.map .event) = [] := by
  simp [recordings]

/-- Pipes are closed without a report, and the rest of the state stays. -/
theorem closePipes_eq (handles : List Handle) (intact : state.aborted = false)
    (nodup : handles.Nodup)
    (fresh : ∀ handle ∈ handles, state.phase handle = .unset ∨ state.phase handle = .opened) :
    ∃ phase pending, closePipes handles state = ({ state with phase, pending }, []) := by
  induction handles generalizing state with
  | nil => exact ⟨state.phase, state.pending, rfl⟩
  | cons first rest ih =>
      obtain ⟨unseen, nodup⟩ := List.nodup_cons.mp nodup
      rcases fresh first (.head _) with unset | opened
      · obtain ⟨phase, pending, closed⟩ := ih intact nodup fun handle member =>
          fresh handle (.tail _ member)
        refine ⟨phase, pending, ?_⟩
        simp only [closePipes, unset, ne_eq, not_true_eq_false, if_false, Reaction.andThen, closed,
          List.append_nil]
      · have fresh' : ∀ handle ∈ rest, (state.setPhase first .closing).phase handle = .unset ∨
            (state.setPhase first .closing).phase handle = .opened := by
          intro handle member
          have other : handle ≠ first := fun same => unseen (same ▸ member)
          simpa [other] using fresh handle (.tail _ member)
        obtain ⟨phase, pending, closed⟩ :=
          @ih { state.setPhase first .closing with pending := first :: state.pending }
            intact nodup fresh'
        refine ⟨phase, pending, ?_⟩
        simp only [closePipes, opened, ne_eq, reduceCtorEq, not_false_eq_true, if_true,
          uvClose_opened intact opened, Reaction.andThen, closed, List.append_nil]
        rfl

/-- The pipes of a process of which nothing has been closed. -/
theorem closePipes_quiet (quiet : Quiet state) (intact : state.aborted = false) :
    ∃ next, closePipes pipes state = (next, []) ∧
      next = { state with phase := next.phase, pending := next.pending } ∧
      next.phase .process = state.phase .process ∧
      ∀ index, next.phase (.pipe index) = .unset ∨ next.phase (.pipe index) = .closing := by
  have fresh : ∀ handle ∈ pipes, state.phase handle = .unset ∨ state.phase handle = .opened :=
    fun handle _ => quiet.phase handle
  obtain ⟨phase, pending, closed⟩ := closePipes_eq pipes intact (by decide) fresh
  obtain ⟨-, phases⟩ := closePipes_fresh pipes intact (by decide) fresh
  rw [closed] at phases
  refine ⟨_, closed, rfl, ?_, ?_⟩
  · exact (phases .process).trans (if_neg fun known => absurd known.1 (by decide))
  · intro index
    have known : phase (.pipe index) = _ := phases (.pipe index)
    rcases quiet.phase (.pipe index) with unset | opened
    · left
      exact known.trans ((if_neg (by simp [unset])).trans unset)
    · right
      exact known.trans (if_pos ⟨pipe_mem_pipes index, opened⟩)

/-- The handle of a child is closed after the pipes, and nothing is reported yet. -/
theorem onProcessExit_opened (quiet : Quiet state) (intact : state.aborted = false)
    (opened : state.phase .process = .opened) (code signal : Int) :
    ∃ next, onProcessExit code signal state = (next, []) ∧ Closing next ∧
      next.aborted = false ∧ next.deleted = state.deleted ∧ next.started = state.started ∧
      next.exitCode = code ∧ next.termSignal = signal := by
  have quiet' : Quiet { state with running := false, exitCode := code, termSignal := signal } :=
    ⟨quiet.pending, quiet.phase⟩
  obtain ⟨next, closed, same, process, pipe⟩ := closePipes_quiet quiet' intact
  have there : next.phase .process = .opened := process.trans opened
  have intact' : next.aborted = false := (congrArg State.aborted same).trans intact
  rw [onProcessExit_eq, closeAll, closed]
  simp only [Reaction.andThen, there, ne_eq, reduceCtorEq, not_false_eq_true, if_true,
    List.nil_append, uvClose_opened intact' there]
  refine ⟨_, rfl, ⟨rfl, ?_, ?_, ?_⟩, intact', ?_, ?_, ?_, ?_⟩
  · simp
  · simpa using pipe
  · exact (congrArg State.running same :)
  · exact (congrArg State.deleted same :)
  · exact (congrArg State.started same :)
  · exact (congrArg State.exitCode same :)
  · exact (congrArg State.termSignal same :)

/-- Without a handle of a child the object is deleted at once. -/
theorem onProcessExit_unset (quiet : Quiet state) (intact : state.aborted = false)
    (unset : state.phase .process = .unset) (code signal : Int) :
    ∃ next handles, onProcessExit code signal state =
        (next, [.exit code signal, .deleted handles]) ∧
      next.aborted = false ∧ next.deleted = true ∧ next.running = false ∧
      next.timer ≠ .active := by
  have quiet' : Quiet { state with running := false, exitCode := code, termSignal := signal } :=
    ⟨quiet.pending, quiet.phase⟩
  obtain ⟨next, closed, same, process, -⟩ := closePipes_quiet quiet' intact
  have none : next.phase .process = .unset := process.trans unset
  have intact' : next.aborted = false := (congrArg State.aborted same).trans intact
  rw [onProcessExit_eq, closeAll, closed]
  simp only [Reaction.andThen, none, ne_eq, not_true_eq_false, if_false, intact',
    Bool.false_eq_true, List.nil_append]
  refine ⟨(onProcessHandleClose next).1, outstanding next, ?_, intact', rfl, ?_, ?_⟩
  · simp only [onProcessHandleClose, congrArg State.exitCode same,
      congrArg State.termSignal same]
  · exact (congrArg State.running same :)
  · simp only [onProcessHandleClose]
    split <;> simp

/-- The handles are closed once more while the close callback is queued. -/
theorem onProcessExit_closing (closing : Closing state) (code signal : Int) :
    (onProcessExit code signal state).1.aborted = true ∧
      (onProcessExit code signal state).1.deleted = state.deleted ∧
      (onProcessExit code signal state).1.running = false ∧
      ∀ event ∈ (onProcessExit code signal state).2, event = .aborted := by
  let told := { state with running := false, exitCode := code, termSignal := signal }
  have process : (closePipes pipes told).1.phase .process = .closing :=
    (closePipes_other pipes (by decide)).trans closing.process
  have whole : Kept told ((closePipes pipes told).andThen (uvClose .process)) :=
    (Kept.of_closePipes pipes told).andThen (.of_uvClose .process _)
  have same : onProcessExit code signal state =
      (closePipes pipes told).andThen (uvClose .process) := by
    simp only [onProcessExit_eq, closeAll, Reaction.andThen]
    rw [if_pos (by simp [told, process])]
  rw [same]
  exact ⟨uvClose_closing process, whole.deleted, whole.running, whole.events⟩

/-- `InitStdio` opens pipes and nothing else. -/
theorem initStdio_keeps (pipeInit : Fin 3 → Int) (indices : List (Fin 3)) (ready : Spawning state) :
    Spawning (initStdio pipeInit indices state).1.1 ∧
      (initStdio pipeInit indices state).1.1.phase .process = state.phase .process ∧
      (initStdio pipeInit indices state).1.1.running = state.running ∧
      ∀ event ∈ (initStdio pipeInit indices state).1.2, ∃ index, event = .initialised index := by
  induction indices generalizing state with
  | nil => exact ⟨ready, rfl, rfl, by simp [initStdio]⟩
  | cons index rest ih =>
      simp only [initStdio]
      split
      · exact ⟨ready, rfl, rfl, by simp⟩
      · obtain ⟨ready', process, running, events⟩ := ih (ready.open_ (.pipe index))
        refine ⟨ready', process, running, ?_⟩
        rintro event (_ | ⟨_, later⟩)
        · exact ⟨index, rfl⟩
        · exact events event later

/-- How `Spawn` leaves a process: without a handle of a child, with one that has no
child, or with a child. -/
structure Spawned (result : Effect × Int) : Prop where
  spawning : Spawning result.1.1
  events : ∀ event ∈ result.1.2, ∃ index, event = .initialised index
  cases : result.1.1.running = false ∧ result.2 ≠ 0 ∧
      (result.1.1.phase .process = .unset ∨ result.1.1.phase .process = .opened) ∨
    result.1.1.running = true ∧ result.1.1.phase .process = .opened

theorem spawned_of_spawning (ready : Spawning state) (unset : state.phase .process = .unset)
    (stopped : state.running = false) (outcome : Outcome) : Spawned (spawn outcome state) := by
  obtain ⟨piped, process, running, events⟩ := initStdio_keeps outcome.pipeInit [0, 1, 2] ready
  unfold spawn
  generalize initStdio outcome.pipeInit [0, 1, 2] state = result at piped process running events ⊢
  obtain ⟨⟨after, out⟩, err⟩ := result
  simp only at piped process running events ⊢
  by_cases failed : err ≠ 0
  · rw [if_pos failed]
    exact ⟨piped, events, .inl ⟨running.trans stopped, failed, .inl (process.trans unset)⟩⟩
  · have opened := piped.open_ .process
    have again : Spawning { after.setPhase .process .opened with
        running := decide (outcome.spawn = 0) } :=
      ⟨⟨opened.quiet.pending, opened.quiet.phase⟩, opened.intact, opened.there, opened.started⟩
    rw [if_neg failed]
    by_cases spawned : outcome.spawn = 0
    · have child : decide (outcome.spawn = 0) = true := by simpa using spawned
      rw [if_neg (by simpa using spawned)]
      split
      · exact ⟨again, events, .inr ⟨child, by simp⟩⟩
      · exact ⟨again, events, .inr ⟨child, by simp⟩⟩
    · have none : decide (outcome.spawn = 0) = false := by simpa using spawned
      rw [if_pos spawned]
      exact ⟨again, events, .inl ⟨none, spawned, .inr (by simp)⟩⟩

end Exit

section Run

variable {state following : State} {past : List Report} {out : List Event} {ending : Int × Int}

/-- Events that report neither an exit nor an abort. -/
structure Mute (out : List Event) : Prop where
  unaborted : .aborted ∉ out
  silent : ∀ code signal, .exit code signal ∉ out

theorem Mute.exits (mute : Mute out) : exits (out.map .event) = [] := by
  rw [Process.exits, List.filterMap_eq_nil_iff]
  intro report found
  obtain ⟨event, member, rfl⟩ := List.mem_map.1 found
  cases event with
  | exit code signal => exact absurd member (mute.silent code signal)
  | _ => rfl

theorem event_mem_map {event : Event} : Report.event event ∈ out.map .event ↔ event ∈ out := by
  simp

theorem Life.unchanged (life : Life state past) (mute : Mute out) :
    Life state (past ++ out.map .event) := by
  have exits : exits (past ++ out.map .event) = exits past := by
    rw [exits_append, mute.exits, List.append_nil]
  have recordings : recordings (past ++ out.map .event) = recordings past := by
    rw [recordings_append, recordings_events, List.append_nil]
  cases life with
  | fresh unstarted there stopped phase pending timer unrecorded silent =>
      exact .fresh unstarted there stopped phase pending timer (recordings.trans unrecorded)
        (exits.trans silent)
  | live there running quiet opened started unrecorded silent =>
      exact .live there running quiet opened started (recordings.trans unrecorded)
        (exits.trans silent)
  | closing there closing started recorded silent =>
      exact .closing there closing started (recordings.trans recorded) (exits.trans silent)
  | gone deleted stopped timer ending recorded reported =>
      exact .gone deleted stopped timer ending (recordings.trans recorded) (exits.trans reported)

/-- What a step adds to the history. -/
def reports (recorded : Option (Int × Int)) (out : List Event) : List Report :=
  (recorded.map fun ending => .recorded ending.1 ending.2).toList ++ out.map .event

theorem recordings_reports (recorded : Option (Int × Int)) :
    recordings (reports recorded out) = recorded.toList := by
  unfold reports
  rw [recordings_append, recordings_events]
  cases recorded <;> rfl

theorem exits_reports (recorded : Option (Int × Int)) :
    exits (reports recorded out) = exits (out.map .event) := by
  unfold reports
  rw [exits_append]
  cases recorded <;> rfl

namespace Orderly

/-- A step that reports nothing of interest and keeps the stage. -/
theorem unchanged (orderly : Orderly state past) (intact : following.aborted = false)
    (life : Life following past) (mute : Mute out) :
    Orderly following (past ++ reports none out) where
  intact := intact
  unaborted := by
    simp only [reports, Option.map_none, Option.toList_none, List.nil_append, List.mem_append,
      event_mem_map, not_or]
    exact ⟨orderly.unaborted, mute.unaborted⟩
  life := life.unchanged mute

/-- A termination is recorded while no handle of a child is open: the exit is reported at once. -/
theorem ends (orderly : Orderly state past) (ending : Int × Int) (intact : following.aborted = false)
    (deleted : following.deleted = true) (stopped : following.running = false)
    (timer : following.timer ≠ .active) (unrecorded : recordings past = [])
    (silent : exits past = []) (mute : Mute out) (handles : List Handle) :
    Orderly following
      (past ++ reports (some ending) (out ++ [.exit ending.1 ending.2, .deleted handles])) where
  intact := intact
  unaborted := by
    simp only [reports, Option.map_some, Option.toList_some, List.mem_append, event_mem_map, not_or]
    exact ⟨orderly.unaborted, by simp, mute.unaborted, by simp⟩
  life := by
    refine .gone deleted stopped timer ending ?_ ?_
    · rw [recordings_append, unrecorded, recordings_reports]
      rfl
    · rw [exits_append, silent, exits_reports, List.map_append, exits_append, mute.exits]
      rfl

/-- A termination is recorded and the handle of the child is being closed. -/
theorem closes (orderly : Orderly state past) (intact : following.aborted = false)
    (there : following.deleted = false) (closing : Closing following)
    (started : following.started = true) (unrecorded : recordings past = [])
    (silent : exits past = []) (mute : Mute out)
    (recorded : (following.exitCode, following.termSignal) = ending) :
    Orderly following (past ++ reports (some ending) out) where
  intact := intact
  unaborted := by
    simp only [reports, Option.map_some, Option.toList_some, List.mem_append, event_mem_map, not_or]
    exact ⟨orderly.unaborted, by simp, mute.unaborted⟩
  life := by
    refine .closing there closing started ?_ ?_
    · rw [recordings_append, unrecorded, recordings_reports, recorded]
      rfl
    · rw [exits_append, silent, exits_reports, mute.exits]
      rfl

theorem start {outcome : Outcome} (orderly : Orderly state past)
    (ready : ¬state.aborted ∧ ¬state.deleted ∧ ¬state.started) :
    Orderly (Process.start outcome state).1 (past ++
      reports (termination state (.start outcome)) (Process.start outcome state).2) := by
  obtain ⟨intact, there, unstarted⟩ := ready
  simp only [Bool.not_eq_true] at intact there unstarted
  cases orderly.life with
  | live there running quiet opened started unrecorded silent =>
      rw [unstarted] at started
      cases started
  | closing there closing started recorded silent =>
      rw [unstarted] at started
      cases started
  | gone deleted stopped timer ending recorded reported =>
      rw [there] at deleted
      cases deleted
  | fresh unstarted there stopped phase pending timer unrecorded silent =>
      have spawning : Spawning { state with started := true } :=
        ⟨⟨pending, fun handle => .inl (phase handle)⟩, intact, there, rfl⟩
      have spawned := spawned_of_spawning spawning (phase .process) stopped outcome
      simp only [Process.start, termination]
      generalize Process.spawn outcome { state with started := true } = result at spawned ⊢
      obtain ⟨⟨after, out⟩, err⟩ := result
      obtain ⟨ready, events, cases⟩ := spawned
      simp only at ready events cases ⊢
      have mute : Mute out := by
        constructor
        · intro member
          obtain ⟨index, same⟩ := events _ member
          cases same
        · intro code signal member
          obtain ⟨index, same⟩ := events _ member
          cases same
      have failing : Mute (out ++ [.error err]) := by
        constructor
        · simpa using mute.unaborted
        · simpa using mute.silent
      rcases cases with ⟨idle, failed, unset | opened⟩ | ⟨running, opened⟩
      · obtain ⟨next, handles, ended, intact', gone, stopped', timer'⟩ :=
          onProcessExit_unset ready.quiet ready.intact unset (-1) (-1)
        simp only [failed, ne_eq, not_false_eq_true, idle, and_self, if_true, if_false,
          Reaction.andThen, Bool.false_eq_true, ended]
        rw [← List.append_assoc]
        exact orderly.ends (-1, -1) intact' gone stopped' timer' unrecorded silent failing handles
      · obtain ⟨next, ended, closing, intact', same, started, code, signal⟩ :=
          onProcessExit_opened ready.quiet ready.intact opened (-1) (-1)
        simp only [failed, ne_eq, not_false_eq_true, idle, and_self, if_true, if_false,
          Reaction.andThen, Bool.false_eq_true, ended, List.append_nil]
        exact orderly.closes intact' (same.trans ready.there) closing (started.trans ready.started)
          unrecorded silent failing (by rw [code, signal])
      · have live : Life after past :=
          .live ready.there running ready.quiet opened ready.started unrecorded silent
        simp only [running, Bool.true_eq_false, and_false, if_false, if_true, Reaction.andThen]
        split
        · exact orderly.unchanged ready.intact live mute
        · apply orderly.unchanged ready.intact live
          constructor
          · simpa using mute.unaborted
          · simpa using mute.silent

theorem exited {code signal : Int} (orderly : Orderly state past)
    (running : state.running = true) :
    Orderly (onProcessExit code signal state).1 (past ++
      reports (some (code, signal)) (onProcessExit code signal state).2) := by
  cases orderly.life with
  | fresh unstarted there stopped phase pending timer unrecorded silent =>
      rw [running] at stopped
      cases stopped
  | closing there closing started recorded silent =>
      have stopped := closing.running
      rw [running] at stopped
      cases stopped
  | gone deleted stopped timer ending recorded reported =>
      rw [running] at stopped
      cases stopped
  | live there running quiet opened started unrecorded silent =>
      obtain ⟨next, ended, closing, intact, same, began, code, signal⟩ :=
        onProcessExit_opened quiet orderly.intact opened code signal
      rw [ended]
      exact orderly.closes intact (same.trans there) closing (began.trans started) unrecorded
        silent ⟨by simp, by simp⟩ (by rw [code, signal])

/-- The timer ticks when no close callback is queued. -/
theorem tick (orderly : Orderly state past) (idle : .process ∉ state.pending)
    (active : state.timer = .active) :
    Orderly
      (if state.running then ({ state with timer := .stopped }, [.kill])
        else onProcessExit (-2) 0 { state with timer := .stopped } : Effect).1
      (past ++ reports (termination state .tick)
        (if state.running then ({ state with timer := .stopped }, [.kill])
          else onProcessExit (-2) 0 { state with timer := .stopped } : Effect).2) := by
  cases orderly.life with
  | closing there closing started recorded silent =>
      exact absurd (List.mem_of_head? closing.first) idle
  | gone deleted stopped timer ending recorded reported => exact absurd active timer
  | live there running quiet opened started unrecorded silent =>
      simp only [if_pos running, termination]
      refine orderly.unchanged orderly.intact ?_ ⟨by simp, by simp⟩
      exact .live there running ⟨quiet.pending, quiet.phase⟩ opened started unrecorded silent
  | fresh unstarted there stopped phase pending timer unrecorded silent =>
      have quiet : Quiet { state with timer := .stopped } :=
        ⟨pending, fun handle => .inl (phase handle)⟩
      obtain ⟨next, handles, ended, intact, gone, stopped', timer'⟩ :=
        onProcessExit_unset quiet orderly.intact (phase .process) (-2) 0
      have childless : ¬state.running = true := by simp [stopped]
      simp only [if_neg childless, termination, ended]
      have mute : Mute [] := ⟨List.not_mem_nil, fun _ _ => List.not_mem_nil⟩
      exact orderly.ends (-2, 0) intact gone stopped' timer' unrecorded silent mute handles

/-- The loop completes the first of the closing handles. -/
theorem complete {effect : Effect} (orderly : Orderly state past)
    (moved : step state .complete = some effect) :
    Orderly effect.1 (past ++ reports none effect.2) := by
  simp only [step] at moved
  split at moved
  · cases moved
  · rename_i handle rest front
    rw [if_neg (by simp [orderly.intact])] at moved
    cases orderly.life with
    | fresh unstarted there stopped phase pending timer unrecorded silent =>
        rw [pending] at front
        cases front
    | live there running quiet opened started unrecorded silent =>
        rw [quiet.pending] at front
        cases front
    | gone deleted stopped timer ending recorded reported =>
        rw [if_pos deleted] at moved
        obtain rfl := Option.some.inj moved
        refine orderly.unchanged orderly.intact ?_ ⟨by simp, by simp⟩
        exact .gone deleted stopped timer ending recorded reported
    | closing there closing started recorded silent =>
        have first : handle = .process := by simpa [front] using closing.first
        rw [if_neg (by simp [there]), if_pos first] at moved
        obtain rfl := Option.some.inj moved
        refine ⟨orderly.intact, ?_, .gone rfl closing.running ?_
          (state.exitCode, state.termSignal) ?_ ?_⟩
        · simpa [reports, onProcessHandleClose] using orderly.unaborted
        · simp only [onProcessHandleClose]
          split <;> simp
        · rw [recordings_append, recorded, recordings_reports]
          rfl
        · rw [exits_append, silent, exits_reports]
          rfl

theorem step {move : Move} {effect : Effect} (orderly : Orderly state past)
    (timely : punctual state move) (moved : act state move = some effect) :
    Orderly effect.1 (past ++ reports (termination state move) effect.2) := by
  cases move with
  | setTimeout =>
      simp only [act] at moved
      split at moved
      · obtain rfl := Option.some.inj moved
        rename_i ready
        simp only [Bool.not_eq_true] at ready
        refine orderly.unchanged orderly.intact ?_ ⟨by simp, by simp⟩
        cases orderly.life with
        | fresh unstarted there stopped phase pending timer unrecorded silent =>
            exact .fresh unstarted there stopped phase pending (.inr rfl) unrecorded silent
        | live there running quiet opened started unrecorded silent =>
            exact .live there running ⟨quiet.pending, quiet.phase⟩ opened started unrecorded silent
        | closing there closing started recorded silent =>
            exact .closing there ⟨closing.first, closing.process, closing.pipe, closing.running⟩
              started recorded silent
        | gone deleted stopped timer ending recorded reported =>
            rw [ready.2.1] at deleted
            cases deleted
      · cases moved
  | start outcome =>
      simp only [act, Process.step] at moved
      split at moved
      · rename_i ready
        obtain rfl := Option.some.inj moved
        exact orderly.start ready
      · cases moved
  | kill =>
      simp only [act] at moved
      split at moved
      · obtain rfl := Option.some.inj moved
        exact orderly.unchanged orderly.intact orderly.life ⟨by simp, by simp⟩
      · cases moved
  | exited code signal =>
      simp only [act, Process.step] at moved
      split at moved
      · rename_i ready
        obtain rfl := Option.some.inj moved
        exact orderly.exited ready.2.2
      · cases moved
  | tick =>
      simp only [act, Process.step] at moved
      split at moved
      · rename_i ready
        obtain rfl := Option.some.inj moved
        exact orderly.tick timely ready.2
      · cases moved
  | complete => exact orderly.complete moved

/-- A timeout that comes before the close callback ends the program. -/
theorem late {effect : Effect} (orderly : Orderly state past)
    (waiting : .process ∈ state.pending) (moved : act state .tick = some effect) :
    Broken effect.1 (past ++ reports (termination state .tick) effect.2) := by
  simp only [act, Process.step] at moved
  split at moved
  · rename_i ready
    cases orderly.life with
    | fresh unstarted there stopped phase pending timer unrecorded silent =>
        rw [pending] at waiting
        cases waiting
    | live there running quiet opened started unrecorded silent =>
        rw [quiet.pending] at waiting
        cases waiting
    | gone deleted stopped timer ending recorded reported => exact absurd ready.2 timer
    | closing there closing started recorded silent =>
        have ticked : Closing { state with timer := .stopped } :=
          ⟨closing.first, closing.process, closing.pipe, closing.running⟩
        obtain ⟨aborted, kept, stopped, events⟩ := onProcessExit_closing ticked (-2) 0
        have childless : ¬state.running = true := by simp [closing.running]
        rw [if_neg childless] at moved
        obtain rfl := Option.some.inj moved
        refine ⟨aborted, kept.trans there, stopped, ?_⟩
        rw [exits_append, silent, exits_reports, List.nil_append, exits,
          List.filterMap_eq_nil_iff]
        intro report found
        obtain ⟨event, member, rfl⟩ := List.mem_map.1 found
        rw [events event member]
  · cases moved

end Orderly

/-- The program has ended. -/
theorem Broken.halted (broken : Broken state past) (move : Move) : act state move = none := by
  cases move with
  | setTimeout | start | kill | exited | tick => simp [act, Process.step, broken.aborted]
  | complete =>
      simp only [act, Process.step, broken.aborted, if_true]
      split <;> rfl

theorem Course.step {move : Move} {effect : Effect} (course : Course state past)
    (moved : act state move = some effect) :
    Course effect.1 (past ++ reports (termination state move) effect.2) := by
  cases course with
  | broken broken => cases (broken.halted move).symm.trans moved
  | orderly orderly =>
      by_cases timely : punctual state move
      · exact .orderly (orderly.step timely moved)
      · cases move with
        | tick => exact .broken (orderly.late (not_not.mp timely) moved)
        | setTimeout | start | kill | exited | complete => exact absurd trivial timely

namespace Course

/-- A process that has been deleted has come to its end in order. -/
theorem orderly_of_deleted (course : Course state past) (deleted : state.deleted = true) :
    Orderly state past := by
  cases course with
  | orderly orderly => exact orderly
  | broken broken => cases broken.there.symm.trans deleted

theorem stopped (course : Course state past) (deleted : state.deleted = true) :
    state.running = false ∧ state.timer ≠ .active := by
  cases (course.orderly_of_deleted deleted).life with
  | fresh _ there | live there | closing there => cases there.symm.trans deleted
  | gone _ stopped timer => exact ⟨stopped, timer⟩

/-- The exit is reported with the deletion. -/
theorem silent (course : Course state past) (there : state.deleted = false) :
    exits past = [] := by
  cases course with
  | broken broken => exact broken.silent
  | orderly orderly =>
      cases orderly.life with
      | fresh _ _ _ _ _ _ _ silent => exact silent
      | live _ _ _ _ _ _ silent => exact silent
      | closing _ _ _ _ silent => exact silent
      | gone deleted => cases there.symm.trans deleted

theorem living (course : Course state past) (running : state.running = true) :
    state.deleted = false ∧ Quiet state ∧ state.phase .process = .opened ∧
      state.started = true ∧ recordings past = [] ∧ exits past = [] := by
  cases course with
  | broken broken => cases broken.stopped.symm.trans running
  | orderly orderly =>
      cases orderly.life with
      | live there _ quiet opened started unrecorded silent =>
          exact ⟨there, quiet, opened, started, unrecorded, silent⟩
      | fresh _ _ stopped => cases stopped.symm.trans running
      | closing _ closing => cases closing.running.symm.trans running
      | gone _ stopped => cases stopped.symm.trans running

end Course

theorem orderly_initial : Orderly State.initial [] where
  intact := rfl
  unaborted := List.not_mem_nil
  life := .fresh rfl rfl rfl (fun _ => rfl) rfl (.inl rfl) rfl rfl

theorem orderly_of_reaches
    (reached : Machine.Reaches drive punctual State.initial state past) :
    Orderly state past := by
  refine reached.invariant Orderly orderly_initial ?_
  intro state following past out move _ orderly timely moved
  obtain ⟨effect, acted, same⟩ := Option.map_eq_some_iff.1 moved
  obtain ⟨rfl, rfl⟩ := Prod.mk.inj same
  exact orderly.step timely acted

theorem course_of_reaches
    (reached : Machine.Reaches drive Machine.always State.initial state past) :
    Course state past := by
  refine reached.invariant Course (.orderly orderly_initial) ?_
  intro state following past out move _ course _ moved
  obtain ⟨effect, acted, same⟩ := Option.map_eq_some_iff.1 moved
  obtain ⟨rfl, rfl⟩ := Prod.mk.inj same
  exact course.step acted

end Run

/-- When close callbacks run before later timeouts, `on_exit_` is called at most once, with
the first termination that was recorded, and has been called when nothing more can happen; no
handle is closed twice. -/
theorem exit_reported_once {state : State} {past : List Report}
    (reached : Machine.Reaches drive punctual State.initial state past) :
    .event .aborted ∉ past ∧
      (exits past = [] ∨
        ∃ ending, (recordings past).head? = some ending ∧ exits past = [ending]) ∧
      (Settled state → state.started = true ∨ state.timer ≠ .none →
        ∃ ending, (recordings past).head? = some ending ∧ exits past = [ending]) := by
  have orderly : Orderly state past := orderly_of_reaches reached
  refine ⟨orderly.unaborted, ?_, ?_⟩
  · cases orderly.life with
    | fresh unstarted there stopped phase pending timer unrecorded silent => exact .inl silent
    | live there running quiet opened started unrecorded silent => exact .inl silent
    | closing there closing started recorded silent => exact .inl silent
    | gone deleted stopped timer ending recorded reported =>
        exact .inr ⟨ending, by rw [recorded]; rfl, reported⟩
  · intro settled used
    cases orderly.life with
    | fresh unstarted there stopped phase pending timer unrecorded silent =>
        rcases used with started | given
        · rw [unstarted] at started
          cases started
        · exact absurd timer (not_or.2 ⟨given, settled.timer⟩)
    | live there running quiet opened started unrecorded silent =>
        have stopped := settled.running
        rw [running] at stopped
        cases stopped
    | closing there closing started recorded silent =>
        exact absurd (List.mem_of_head? closing.first) settled.pending
    | gone deleted stopped timer ending recorded reported =>
        exact ⟨ending, by rw [recorded]; rfl, reported⟩

/-- A timeout kills a child whose output could not be read, and its exit is reported. -/
theorem exit_reported_once_timeout : ∃ state past,
    Machine.Reaches drive punctual State.initial state past ∧ Settled state ∧
      ∃ ending, (recordings past).head? = some ending ∧ exits past = [ending] := by
  obtain ⟨state, reached, checked⟩ := Machine.exists_reaches drive punctual State.initial
    [.setTimeout, .start { readStdout := -9 }, .tick, .exited 0 15, .complete]
    [.event (.initialised 0), .event (.initialised 1), .event (.initialised 2), .event (.error (-9)),
      .event .kill, .event .kill, .recorded 0 15, .event (.exit 0 15),
      .event (.deleted [.pipe 0, .pipe 1, .pipe 2])]
    (fun state => state.running = false ∧ state.timer = .closed ∧ .process ∉ state.pending ∧
      state.started = true) (by decide)
  obtain ⟨stopped, timer, idle, started⟩ := of_decide_eq_true checked
  have settled : Settled state := ⟨stopped, by simp [timer], idle⟩
  exact ⟨state, _, reached, settled, (exit_reported_once reached).2.2 settled (.inl started)⟩

end Nexer.Process

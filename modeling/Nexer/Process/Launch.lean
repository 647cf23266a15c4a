import Nexer.Process.Output
import Mathlib.Data.List.FinRange

/-!
# How `Start` leaves a process

The first error of `uv_pipe_init` leaves no handle of a child, so that the object is deleted
before `Start` returns; an error of `uv_spawn` leaves one that has to be closed; and an error
of `uv_read_start` leaves a child that runs.
-/

namespace Nexer.Process

open Nexer.Transition

/-- The first error of `uv_pipe_init`. -/
def Outcome.pipeError (outcome : Outcome) : Int :=
  (((List.finRange 3).map outcome.pipeInit).find? (· ≠ 0)).getD 0

/-- A process on which `Start` has not been called. -/
structure Fresh (state : State) : Prop where
  started : state.started = false
  aborted : state.aborted = false
  deleted : state.deleted = false
  running : state.running = false
  phase : ∀ handle, state.phase handle = .unset
  pending : state.pending = []

variable {state : State}

theorem initStdio_error (pipeInit : Fin 3 → Int) (indices : List (Fin 3)) (state : State) :
    (initStdio pipeInit indices state).2 = ((indices.map pipeInit).find? (· ≠ 0)).getD 0 := by
  induction indices generalizing state with
  | nil => rfl
  | cons index rest ih =>
      by_cases failed : pipeInit index = 0
      · simp [initStdio, failed, ih]
      · simp [initStdio, failed]

theorem initStdio_timer (pipeInit : Fin 3 → Int) (indices : List (Fin 3)) (state : State) :
    (initStdio pipeInit indices state).1.1.timer = state.timer := by
  induction indices generalizing state with
  | nil => rfl
  | cons index rest ih =>
      simp only [initStdio]
      split
      · rfl
      · exact ih _

/-- What `Spawn` leaves, for each of the calls that may fail. -/
theorem spawn_cases (ready : Spawning state) (unset : state.phase .process = .unset)
    (stopped : state.running = false) (outcome : Outcome) :
    Spawning (spawn outcome state).1.1 ∧
      (∀ event ∈ (spawn outcome state).1.2, ∃ index, event = .initialised index) ∧
      (spawn outcome state).1.1.timer = state.timer ∧
      (outcome.pipeError ≠ 0 ∧ (spawn outcome state).2 ≠ 0 ∧
          (spawn outcome state).1.1.running = false ∧
          (spawn outcome state).1.1.phase .process = .unset ∨
        outcome.pipeError = 0 ∧ outcome.spawn ≠ 0 ∧ (spawn outcome state).2 ≠ 0 ∧
          (spawn outcome state).1.1.running = false ∧
          (spawn outcome state).1.1.phase .process = .opened ∨
        outcome.pipeError = 0 ∧ outcome.spawn = 0 ∧
          (spawn outcome state).1.1.running = true) := by
  obtain ⟨spawning, events, -⟩ := spawned_of_spawning ready unset stopped outcome
  refine ⟨spawning, events, ?_⟩
  clear spawning events
  have error : (initStdio outcome.pipeInit [0, 1, 2] state).2 = outcome.pipeError :=
    initStdio_error outcome.pipeInit [0, 1, 2] state
  have timer := initStdio_timer outcome.pipeInit [0, 1, 2] state
  obtain ⟨-, process, running, -⟩ := initStdio_keeps outcome.pipeInit [0, 1, 2] ready
  unfold spawn
  generalize initStdio outcome.pipeInit [0, 1, 2] state = result at error timer process running ⊢
  obtain ⟨⟨after, out⟩, err⟩ := result
  simp only at error timer process running ⊢
  subst error
  by_cases piped : outcome.pipeError = 0
  · by_cases forked : outcome.spawn = 0
    · simp only [piped, forked, ne_eq, not_true_eq_false, if_false, decide_true]
      split <;> exact ⟨timer, .inr (.inr ⟨trivial, trivial, rfl⟩)⟩
    · simp [piped, forked, timer]
  · simp [piped, timer, running, stopped, process, unset]

/-- What `Start` leaves. -/
theorem start_cases (fresh : Fresh state) (outcome : Outcome) :
    (outcome.pipeError ≠ 0 → (start outcome state).1.deleted = true ∧
        exits ((start outcome state).2.map .event) = [(-1, -1)]) ∧
      (outcome.pipeError = 0 → outcome.spawn ≠ 0 → Closing (start outcome state).1 ∧
        (start outcome state).1.deleted = false ∧ (start outcome state).1.exitCode = -1 ∧
        (start outcome state).1.termSignal = -1) ∧
      (outcome.pipeError = 0 → outcome.spawn = 0 → (start outcome state).1.running = true ∧
        (start outcome state).1.timer = state.timer) := by
  have ready : Spawning { state with started := true } :=
    ⟨⟨fresh.pending, fun handle => .inl (fresh.phase handle)⟩, fresh.aborted, fresh.deleted, rfl⟩
  have spawned := spawn_cases ready (fresh.phase .process) fresh.running outcome
  simp only [start]
  generalize spawn outcome { state with started := true } = result at spawned ⊢
  obtain ⟨⟨after, out⟩, err⟩ := result
  obtain ⟨spawning, events, timer, cases⟩ := spawned
  simp only at spawning events timer cases ⊢
  have mute : Mute out := by
    constructor
    · intro member
      obtain ⟨index, same⟩ := events _ member
      cases same
    · intro code signal member
      obtain ⟨index, same⟩ := events _ member
      cases same
  rcases cases with ⟨failed, error, idle, unset⟩ | ⟨piped, failed, error, idle, opened⟩ |
    ⟨piped, forked, running⟩
  · obtain ⟨next, handles, ended, -, gone, -, -⟩ :=
      onProcessExit_unset spawning.quiet spawning.intact unset (-1) (-1)
    refine ⟨fun _ => ?_, fun none => absurd none failed, fun none => absurd none failed⟩
    simp only [if_neg error, idle, Reaction.andThen, if_false, ended, Bool.false_eq_true, gone,
      true_and, List.map_append, exits_append, mute.exits]
    rfl
  · obtain ⟨next, ended, closing, -, same, -, code, signal⟩ :=
      onProcessExit_opened spawning.quiet spawning.intact opened (-1) (-1)
    refine ⟨fun some => absurd piped some, fun _ _ => ?_, fun _ none => absurd none failed⟩
    simp only [if_neg error, idle, Reaction.andThen, if_false, ended, Bool.false_eq_true]
    exact ⟨closing, same.trans spawning.there, code, signal⟩
  · refine ⟨fun some => absurd piped some, fun _ some => absurd forked some, fun _ _ => ?_⟩
    split
    · exact ⟨running, timer⟩
    · simp only [Reaction.andThen, running, if_true]
      exact ⟨trivial, timer⟩

/-- `SetTimeout`, if the command has a timeout, and then `Start`. -/
def launch (limited : Bool) (outcome : Outcome) (flow : Flow) : Option (Reaction Flow Record) :=
  Machine.run transfer flow
    ((if limited then [.move .setTimeout] else []) ++ [.move (.start outcome)])

theorem transfer_start (flow : Flow) (idle : flow.alive = false) (fresh : Fresh flow.process)
    (outcome : Outcome) : ∃ following records,
      transfer flow (.move (.start outcome)) = some (following, records) ∧
      following.process = (start outcome flow.process).1 ∧
      exits (reported records) = exits ((start outcome flow.process).2.map .event) := by
  have ready : ¬flow.process.aborted ∧ ¬flow.process.deleted ∧ ¬flow.process.started := by
    simp [fresh.aborted, fresh.deleted, fresh.started]
  have driven : drive flow.process (.start outcome) = some ((start outcome flow.process).1,
      reports (termination flow.process (.start outcome)) (start outcome flow.process).2) := by
    simp only [drive, act, step, if_pos ready, Option.map_some]
    rfl
  refine ⟨_, _, by simp only [transfer, idle, driven]; rfl, rfl, ?_⟩
  rw [reported_reports, exits_reports]

/-- What a launch leaves. -/
structure Launched (limited : Bool) (outcome : Outcome) (flow : Flow) (records : List Record) :
    Prop where
  reached : Machine.Reaches transfer drained Flow.initial flow records
  unpiped : outcome.pipeError ≠ 0 →
    flow.process.deleted = true ∧ exits (reported records) = [(-1, -1)]
  unforked : outcome.pipeError = 0 → outcome.spawn ≠ 0 → Closing flow.process ∧
    flow.process.deleted = false ∧ flow.process.exitCode = -1 ∧ flow.process.termSignal = -1
  running : outcome.pipeError = 0 → outcome.spawn = 0 → flow.process.running = true ∧
    (flow.process.timer = .active → limited = true)

/-- A process that has just been created can be launched. -/
theorem exists_launched (limited : Bool) (outcome : Outcome) : ∃ flow records,
    launch limited outcome Flow.initial = some (flow, records) ∧
      Launched limited outcome flow records := by
  let created : Flow :=
    { Flow.initial with process.timer := if limited then .active else .none }
  have timed : Machine.Reaches transfer drained Flow.initial created [] ∧
      launch limited outcome Flow.initial =
        Machine.run transfer created [.move (.start outcome)] := by
    cases limited with
    | false => exact ⟨.start, rfl⟩
    | true =>
        have set : transfer Flow.initial (.move .setTimeout) = some (created, []) := rfl
        have allowed : drained Flow.initial (.move .setTimeout) := trivial
        refine ⟨Machine.Reaches.start.next allowed set, ?_⟩
        simp only [launch, if_true, List.cons_append, Machine.run, set, List.nil_append]
        rfl
  have unset : Fresh created.process := ⟨rfl, rfl, rfl, rfl, fun _ => rfl, rfl⟩
  obtain ⟨flow, records, started, process, ended⟩ := transfer_start created rfl unset outcome
  obtain ⟨unpiped, unforked, running⟩ := start_cases unset outcome
  have launched : launch limited outcome Flow.initial = some (flow, records) := by
    rw [timed.2]
    simp [Machine.run, started]
  have allowed : drained created (.move (.start outcome)) := trivial
  refine ⟨flow, records, launched, timed.1.next allowed started, ?_, ?_, ?_⟩
  · rw [process, ended]
    exact unpiped
  · rw [process]
    exact unforked
  · rw [process]
    intro piped forked
    obtain ⟨lives, timer⟩ := running piped forked
    refine ⟨lives, fun active => ?_⟩
    rw [timer] at active
    cases limited with
    | false => cases active
    | true => rfl

section Transfers

variable {flow following : Flow} {past out : List Record}

/-- A step of the process is one of its machine. -/
theorem act_of_transfer {move : Move} (moved : transfer flow (.move move) = some (following, out)) :
    ∃ effect, act flow.process move = some effect ∧ following.process = effect.1 ∧
      reported out = reports (termination flow.process move) effect.2 := by
  simp only [transfer] at moved
  split at moved
  · cases moved
  · obtain ⟨driven, drove, same⟩ := Option.map_eq_some_iff.mp moved
    obtain ⟨rfl, rfl⟩ := Prod.mk.inj same
    obtain ⟨effect, acted, rfl⟩ := Option.map_eq_some_iff.mp drove
    exact ⟨effect, acted, rfl, reported_reports _⟩

namespace Balanced

/-- What a child does, and what is read from it, leaves its process alone. -/
theorem untouched {label : Transfer} (balanced : Balanced flow past)
    (moved : transfer flow label = some (following, out)) (other : ∀ move, label ≠ .move move) :
    flow.process.running = true ∧ following.process = flow.process := by
  cases label with
  | move move => exact absurd rfl (other move)
  | write | close | ended =>
      simp only [transfer] at moved
      split at moved
      · next living =>
        obtain ⟨rfl, -⟩ := Prod.mk.inj (Option.some.inj moved)
        refine ⟨balanced.alive ?_, rfl⟩
        first
        | exact living
        | exact living.1
      · cases moved
  | read fd nread =>
      simp only [transfer] at moved
      split at moved
      · next readable =>
        obtain ⟨rfl, -⟩ := Prod.mk.inj (Option.some.inj moved)
        simp only [Flow.readable, decide_eq_true_eq] at readable
        exact ⟨balanced.reading fd readable.1, rfl⟩
      · cases moved

end Balanced

/-- The timeout of a child that runs. -/
theorem ticked (moved : transfer flow (.move .tick) = some (following, out))
    (running : flow.process.running = true) :
    following.process.running = true ∧ following.process.timer = .stopped := by
  obtain ⟨effect, acted, same, -⟩ := act_of_transfer moved
  simp only [act, Process.step, if_pos running] at acted
  split at acted
  · obtain rfl := Option.some.inj acted
    exact ⟨by rw [same]; exact running, by rw [same]⟩
  · cases acted

theorem active_of_tick (moved : transfer flow (.move .tick) = some (following, out)) :
    flow.process.timer = .active := by
  obtain ⟨effect, acted, -⟩ := act_of_transfer moved
  simp only [act, Process.step] at acted
  split at acted
  · next ready => exact ready.2
  · cases acted

theorem pending_of_complete (moved : transfer flow (.move .complete) = some (following, out)) :
    flow.process.pending ≠ [] := by
  intro none
  obtain ⟨effect, acted, -⟩ := act_of_transfer moved
  simp [act, Process.step, none] at acted

/-- The loop goes on with the handles of a process that is deleted. -/
theorem dangled (moved : transfer flow (.move .complete) = some (following, out))
    (deleted : flow.process.deleted = true) :
    following.process.deleted = true ∧ exits (reported out) = [] := by
  obtain ⟨effect, acted, same, told⟩ := act_of_transfer moved
  rw [same, told, exits_reports]
  simp only [act, Process.step, if_pos deleted] at acted
  split at acted
  · cases acted
  · split at acted
    · cases acted
    · obtain rfl := Option.some.inj acted
      exact ⟨deleted, rfl⟩

/-- The close callback of the process. -/
theorem completed (moved : transfer flow (.move .complete) = some (following, out))
    (there : flow.process.deleted = false)
    (first : flow.process.pending.head? = some .process) :
    following.process.deleted = true ∧
      exits (reported out) = [(flow.process.exitCode, flow.process.termSignal)] := by
  obtain ⟨effect, acted, same, told⟩ := act_of_transfer moved
  rw [same, told, exits_reports]
  simp only [act, Process.step, there, Bool.false_eq_true, if_false] at acted
  split at acted
  · cases acted
  · next handle rest front =>
    obtain rfl : handle = .process := by simpa [front] using first
    split at acted
    · cases acted
    · obtain rfl := Option.some.inj acted
      exact ⟨rfl, rfl⟩

theorem reports_of_transfer {move : Move}
    (moved : transfer flow (.move move) = some (following, out)) :
    ∃ reports : List Report, out = reports.map .report := by
  simp only [transfer] at moved
  split at moved
  · cases moved
  · obtain ⟨driven, -, same⟩ := Option.map_eq_some_iff.mp moved
    exact ⟨driven.2, (Prod.mk.inj same).2.symm⟩

/-- A launch only reports. -/
theorem reports_of_launch {limited : Bool} {outcome : Outcome}
    (launched : launch limited outcome flow = some (following, out)) :
    ∃ reports : List Report, out = reports.map .report := by
  have reports (moves : List Move) : ∀ flow out,
      Machine.run transfer flow (moves.map .move) = some (following, out) →
      ∃ reports : List Report, out = reports.map .report := by
    induction moves with
    | nil =>
        intro flow out ran
        exact ⟨[], (Prod.mk.inj (Option.some.inj ran)).2.symm⟩
    | cons move rest ih =>
        intro flow out ran
        simp only [List.map_cons, Machine.run] at ran
        split at ran
        · cases ran
        · next between first moved =>
          split at ran
          · cases ran
          · next last later after =>
            obtain ⟨rfl, rfl⟩ := Prod.mk.inj (Option.some.inj ran)
            obtain ⟨earlier, rfl⟩ := reports_of_transfer moved
            obtain ⟨more, rfl⟩ := ih _ _ after
            exact ⟨earlier ++ more, List.map_append.symm⟩
  cases limited with
  | false => exact reports [.start outcome] flow out launched
  | true => exact reports [.setTimeout, .start outcome] flow out launched

/-- The exit callback of libuv. -/
theorem Balanced.notified {code signal : Int} (balanced : Balanced flow past)
    (moved : transfer flow (.move (.exited code signal)) = some (following, out)) :
    flow.process.running = true ∧ following.process.deleted = false ∧
      Closing following.process ∧ following.process.exitCode = code ∧
      following.process.termSignal = signal := by
  obtain ⟨effect, acted, same, -⟩ := act_of_transfer moved
  simp only [act, Process.step] at acted
  split at acted
  · next ready =>
    obtain ⟨there, quiet, opened, -⟩ := balanced.course.living ready.2.2
    have intact : flow.process.aborted = false := by simpa using ready.1
    obtain ⟨next, ended, closing, -, kept, -, code, signal⟩ :=
      onProcessExit_opened quiet intact opened code signal
    rw [ended] at acted
    obtain rfl := Option.some.inj acted
    rw [same]
    exact ⟨ready.2.2, kept.trans there, closing, code, signal⟩
  · cases acted

end Transfers

end Nexer.Process

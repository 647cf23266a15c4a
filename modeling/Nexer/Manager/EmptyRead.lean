import Nexer.Manager.Sound
import Nexer.Transition.Insertion

/-!
# Zero-length reads

`Process::OnRead` treats `nread = 0` as an error.  A zero-length read is not seen
exactly when it comes from a main process that is no longer tracked, of an app
without queued callbacks: then the error callback has nothing to drop and nothing
to answer.  From any other main process it drops the pointer or answers the
waiters, and from a checker it calls a continuation that no longer exists.
-/

namespace Nexer.Manager

open Nexer.Transition

variable {α : Type} [DecidableEq α] {config : α → AppConfig α}
variable {state following : State α} {label : Label α} {past out : List (Event α)}

/-- All events but the notification of the zero-length read itself. -/
def Event.visible : Event α → Bool
  | .processError _ error => error ≠ 0
  | _ => true

/-- A zero-length read from the process and the handler that it leads to, run to its end. -/
def EmptyRead (config : α → AppConfig α) (state : State α) (pid : Pid) (labels : List (Label α)) :
    Prop :=
  ∃ fd buffer handler, labels = .read pid fd 0 buffer :: handler ∧
    (∀ label ∈ handler, label.inner) ∧
    ∃ settled out, Machine.run (step config) state labels = some (settled, out) ∧
      settled.todo = []

/-- A main process that is not tracked, of an app without queued callbacks. -/
def unnoticed (state : State α) (pid : Pid) : Prop :=
  match state.roleOf pid with
  | some (.main app _) => (state.apps app).process = none ∧ (state.apps app).callbacks = []
  | _ => False

section Handlers

variable {settled : State α} {handler : List (Label α)}

theorem idle_end (idle : state.todo = []) (inner : ∀ label ∈ handler, label.inner)
    (ran : Machine.run (step config) state handler = some (settled, out)) :
    settled = state ∧ out = [] := by
  cases handler with
  | nil =>
      obtain ⟨rfl, rfl⟩ : state = settled ∧ [] = out := by simpa [Machine.run] using ran
      exact ⟨rfl, rfl⟩
  | cons label rest =>
      obtain ⟨following, first, later, moved, _⟩ := Machine.exists_of_run_cons ran
      have running := inner label (.head _)
      cases label <;> simp [Label.inner] at running
      all_goals simp [step, idle] at moved

/-- A handler that is not finished goes on with its innermost call. -/
theorem call_next {head : Call α} {rest : List (Call α)} (pending : state.todo = head :: rest)
    (other : ∀ pid role, head ≠ .processStart pid role)
    (inner : ∀ label ∈ handler, label.inner) (finished : settled.todo = [])
    (ran : Machine.run (step config) state handler = some (settled, out)) :
    ∃ following first later others, step config state .call = some (following, first) ∧
      (∀ label ∈ others, label.inner) ∧
      Machine.run (step config) following others = some (settled, later) ∧
      out = first ++ later := by
  cases handler with
  | nil =>
      obtain ⟨rfl, rfl⟩ : state = settled ∧ [] = out := by simpa [Machine.run] using ran
      cases finished.symm.trans pending
  | cons label others =>
      obtain ⟨following, first, later, moved, tail, rfl⟩ := Machine.exists_of_run_cons ran
      have called : label = .call :=
        call_of_inner (move_of_step moved) (inner label (.head _)) pending other
      subst called
      exact ⟨following, first, later, others, moved,
        fun label member => inner label (.tail _ member), tail, rfl⟩

omit [DecidableEq α] in
theorem after_call (idle : state.todo = []) (calls : List (Call α)) :
    (state.call calls).after [] = state := by
  cases state
  simp_all [State.call, State.after]

theorem step_call {head : Call α} {rest : List (Call α)} (pending : state.todo = head :: rest) :
    step config state .call = perform config head (state.after rest) := by
  simp [step, pending]

theorem read_of_step {pid : Pid} {fd : Nat} {buffer : List UInt8}
    (moved : step config state (.read pid fd 0 buffer) = some (following, out)) :
    state.todo = [] ∧ ∃ proc, state.procs pid = some proc ∧ proc.phase = .running ∧
      following = state.call [.onError pid proc.role 0] ∧ out = [] := by
  simp only [step, deliver] at moved
  split at moved
  · next idle =>
    split at moved
    · next proc live =>
      split at moved
      · next running =>
        simp only [onRead, uvEof] at moved
        simp at moved
        exact ⟨idle, proc, live, running, moved.1.symm, moved.2⟩
      · cases moved
    · cases moved
  · cases moved

omit [DecidableEq α] in
theorem todo_of_call (idle : state.todo = []) (head : Call α) :
    (state.call [head]).todo = [head] := by
  simp [idle]

/-- `ClearCallbacks` between two handlers invokes the first callback, if there is one. -/
theorem clear_handled {app : α} {error : Int} (idle : state.todo = [])
    (inner : ∀ label ∈ handler, label.inner) (finished : settled.todo = [])
    (ran : Machine.run (step config) (state.call [.clearCallbacks app error]) handler =
      some (settled, out)) :
    ((state.apps app).callbacks = [] ∧
      settled = state.modify app (fun fields => { fields with callbacks := [] }) ∧ out = []) ∨
    (state.apps app).callbacks ≠ [] ∧
      ∃ waiter, .answered app waiter (state.apps app).process error ∈ out := by
  obtain ⟨_, _, _, _, moved, inner, loop, rfl⟩ :=
    call_next (todo_of_call idle _) (by simp) inner finished ran
  simp only [step_call (todo_of_call idle _), perform, clearCallbacks, after_call idle,
    Option.some.injEq, Prod.mk.injEq] at moved
  obtain ⟨rfl, rfl⟩ := moved
  obtain ⟨_, _, _, _, moved, inner, tail, rfl⟩ :=
    call_next (todo_of_call idle _) (by simp) inner finished loop
  rw [step_call (todo_of_call idle _), after_call idle] at moved
  cases waiting : (state.apps app).callbacks with
  | nil =>
      simp only [waiting, perform, answer, Option.some.injEq, Prod.mk.injEq] at moved
      obtain ⟨rfl, rfl⟩ := moved
      obtain ⟨rfl, rfl⟩ := idle_end (by exact idle) inner tail
      exact .inl ⟨rfl, rfl, by simp [State.traversalFault, State.answering, idle]⟩
  | cons waiter others =>
      simp only [waiting, perform, answer, Option.some.injEq, Prod.mk.injEq] at moved
      obtain ⟨rfl, rfl⟩ := moved
      exact .inr ⟨by simp, waiter, by simp⟩

/-- The error callback of a main process drops the pointer and answers the waiters. -/
theorem main_handled {pid : Pid} {app : α} {round : Nat} {error : Int} (idle : state.todo = [])
    (inner : ∀ label ∈ handler, label.inner) (finished : settled.todo = [])
    (ran : Machine.run (step config) (state.call [.onError pid (.main app round) error]) handler =
      some (settled, out)) :
    ((state.apps app).callbacks = [] ∧
      settled = state.modify app (fun fields => { fields with process := none, callbacks := [] }) ∧
      out = [.processError pid error]) ∨
    (state.apps app).callbacks ≠ [] ∧ ∃ waiter, .answered app waiter none error ∈ out := by
  obtain ⟨_, _, _, _, moved, inner, clear, rfl⟩ :=
    call_next (todo_of_call idle _) (by simp) inner finished ran
  simp only [step_call (todo_of_call idle _), perform, onError, after_call idle,
    Option.some.injEq, Prod.mk.injEq] at moved
  obtain ⟨rfl, rfl⟩ := moved
  rcases clear_handled (by exact idle) inner finished clear with ⟨none_waiting, rfl, rfl⟩ |
    ⟨waiting, waiter, answered⟩
  · refine .inl ⟨by simpa using none_waiting, ?_, rfl⟩
    rw [State.modify_modify]
  · exact .inr ⟨by simpa using waiting, waiter, by simpa using answered⟩

/-- The error callback of a checker whose `Check` has returned calls a dead `then`. -/
theorem checker_handled {pid : Pid} {app : α} {next : CheckThen α} {error : Int}
    (idle : state.todo = []) (inner : ∀ label ∈ handler, label.inner) (finished : settled.todo = [])
    (ran : Machine.run (step config) (state.call [.onError pid (.checker app next) error]) handler =
      some (settled, out)) (returned : (state.procs pid).all (·.thenAlive) = false) :
    .fault (.deadThen pid) ∈ out := by
  obtain ⟨_, _, _, _, moved, _, _, rfl⟩ :=
    call_next (todo_of_call idle _) (by simp) inner finished ran
  simp only [step_call (todo_of_call idle _), perform, onError, after_call idle, returned,
    Option.some.injEq, Prod.mk.injEq] at moved
  obtain ⟨rfl, rfl⟩ := moved
  simp

end Handlers

/-- A checker whose `Check` has not returned. -/
def State.inCheck (state : State α) (pid : Pid) : Bool :=
  (state.procs pid).any fun proc => proc.thenAlive &&
    match proc.role with
    | .checker .. => true
    | .main .. => false

theorem inCheck_of_move (move : Move config state label following out) {pid : Pid}
    (alive : following.inCheck pid) :
    (state.inCheck pid ∧ ∀ rest, label.inner → state.todo ≠ .endCheck pid :: rest) ∨
      .endCheck pid ∈ following.todo := by
  cases move
  case checkSome =>
    by_cases same : pid = state.nextPid
    · subst same
      exact .inr (by simp)
    · exact .inl ⟨by simpa [State.inCheck, same] using alive, by simp [*]⟩
  case preparedStart =>
    by_cases same : pid = state.nextPid
    · subst same
      simp [State.inCheck] at alive
    · exact .inl ⟨by simpa [State.inCheck, same] using alive, by simp [*]⟩
  case endCheck other rest pending =>
    by_cases same : pid = other
    · subst same
      cases there : state.procs pid <;> simp [State.inCheck, there] at alive
    · exact .inl ⟨by simpa [State.inCheck, same] using alive, by simp [*, Ne.symm same]⟩
  case exitRestart other _ _ _ _ _ _ _ | exitClear other _ _ _ _ _ _ _ _
      | exitDrop other _ _ _ _ _ _ | exitChecker other _ _ _ _ _ =>
    by_cases same : pid = other
    · subst same
      simp [State.inCheck] at alive
    · exact .inl ⟨by simpa [State.inCheck, same] using alive, by simp [*]⟩
  case spawnPipe other _ _ _ _ _ | spawnFail other _ _ _ _ _ _ | spawnUnread other _ _ _ _ _ _ _ _ _
      | spawnDone other _ _ _ _ _ _ | onProcessExit other _ _ =>
    refine .inl ⟨?_, by simp [*]⟩
    by_cases same : pid = other
    · subst same
      cases there : state.procs pid <;> simp [State.inCheck, there] at alive ⊢
      exact alive
    · simpa [State.inCheck, same] using alive
  case exited other _ proc _ live _ =>
    refine .inl ⟨?_, by simp [Label.inner]⟩
    by_cases same : pid = other
    · subst same
      simpa [State.inCheck, live] using alive
    · simpa [State.inCheck, same] using alive
  all_goals exact .inl ⟨alive, by simp [Label.inner, *]⟩

theorem inCheck_of_reaches {guard : State α → Label α → Prop}
    (reached : Machine.Reaches (step config) guard (State.initial α) state past) :
    ∀ pid, state.inCheck pid → .endCheck pid ∈ state.todo := by
  refine reached.invariant (fun state _ => ∀ pid, state.inCheck pid → .endCheck pid ∈ state.todo)
    (by simp [State.inCheck, State.initial]) ?_
  intro state following past out label _ owned _ moved pid alive
  have move := move_of_step moved
  rcases inCheck_of_move move alive with ⟨before, other⟩ | now
  · have member := owned pid before
    rcases todo_of_move move with ⟨_, same⟩ | ⟨head, rest, calls, inner, pending, after, _⟩ |
      ⟨_, idle, _⟩
    · exact same ▸ member
    · rw [pending, List.mem_cons] at member
      rcases member with rfl | member
      · exact absurd pending (other rest inner)
      · simp [after, member]
    · simp [idle] at member
  · exact now

/-- A handled zero-length read leaves the state as it was and reports nothing
visible exactly when its process is a main process that is not tracked and whose
app has no queued callbacks. -/
theorem emptyRead_silent_iff {guard : State α → Label α → Prop}
    (reached : Machine.Reaches (step config) guard (State.initial α) state past)
    {pid : Pid} {fd : Nat} {buffer : List UInt8} {handler : List (Label α)} {settled : State α}
    (inner : ∀ label ∈ handler, label.inner) (finished : settled.todo = [])
    (ran : Machine.run (step config) state (.read pid fd 0 buffer :: handler) =
      some (settled, out)) :
    (settled = state ∧ out.filter Event.visible = []) ↔ unnoticed state pid := by
  obtain ⟨following, _, later, moved, handled, rfl⟩ := Machine.exists_of_run_cons ran
  obtain ⟨idle, proc, live, running, rfl, rfl⟩ := read_of_step moved
  have role : state.roleOf pid = some proc.role := by simp [State.roleOf, live]
  have seen (event : Event α) (member : event ∈ later) (visible : event.visible) :
      ¬ (settled = state ∧ ([] ++ later).filter Event.visible = []) := by
    rintro ⟨_, hidden⟩
    rw [List.nil_append, List.filter_eq_nil_iff] at hidden
    exact hidden event member visible
  cases kind : proc.role with
  | main app round =>
      rw [kind] at handled role
      simp only [unnoticed, role]
      rcases main_handled idle inner finished handled with ⟨none_waiting, rfl, rfl⟩ |
        ⟨waiting, waiter, answered⟩
      · refine ⟨fun silent => ⟨?_, none_waiting⟩, fun unnoticed => ⟨?_, rfl⟩⟩
        · have same := congrArg (fun state => (state.apps app).process) silent.1
          simpa using same.symm
        · simp [State.modify, ← unnoticed.1, ← unnoticed.2]
      · exact iff_of_false (seen _ answered rfl) fun unnoticed => waiting unnoticed.2
  | checker app next =>
      rw [kind] at handled role
      simp only [unnoticed, role, iff_false]
      refine seen _ (checker_handled idle inner finished handled ?_) rfl
      by_contra alive
      have checking : state.inCheck pid := by
        simpa [State.inCheck, live, kind] using alive
      have member := inCheck_of_reaches reached pid checking
      simp [idle] at member

/--
Zero-length reads that are inserted into a run, at points and from processes that
`allowed` chooses, never change the final state or any other event exactly when
`allowed` chooses, in reached states, only main processes that are not tracked and
whose apps have no queued callbacks.
-/
theorem empty_reads_unseen_iff (config : α → AppConfig α) (allowed : State α → Pid → Prop) :
    (∀ base longer,
      Machine.Inserted (step config)
        (fun state labels => ∃ pid, allowed state pid ∧ EmptyRead config state pid labels)
        (State.initial α) base longer →
      Machine.Unseen (step config) Event.visible (State.initial α) base longer) ↔
    ∀ state past, Machine.Reaches (step config) Machine.always (State.initial α) state past →
      ∀ pid, allowed state pid → (∃ labels, EmptyRead config state pid labels) →
        unnoticed state pid := by
  rw [Machine.unseen_iff_silent]
  refine forall₃_congr fun state past reached => ⟨fun silent pid chosen => ?_, fun choice => ?_⟩
  · rintro ⟨_, fd, buffer, handler, rfl, inner, settled, out, ran, finished⟩
    have quiet := silent _ ⟨pid, chosen, fd, buffer, handler, rfl, inner, settled, out, ran,
      finished⟩ settled out ran
    exact (emptyRead_silent_iff reached inner finished ran).mp quiet
  · rintro _ ⟨pid, chosen, read⟩ settled out ran
    have unnoticed := choice pid chosen ⟨_, read⟩
    obtain ⟨fd, buffer, handler, rfl, inner, last, events, again, finished⟩ := read
    obtain ⟨rfl, rfl⟩ : last = settled ∧ events = out := by simpa [again] using ran
    exact (emptyRead_silent_iff reached inner finished again).mpr unnoticed

section Runs

/-- The main process of the only app is running and its callback is queued; then a
zero-length read arrives. -/
theorem empty_read_seen :
    ∃ base longer : List (Label (Fin 1)),
      Machine.Inserted (step plainApp)
        (fun state labels => ∃ pid, EmptyRead plainApp state pid labels)
        (State.initial (Fin 1)) base longer ∧
      ¬ Machine.Unseen (step plainApp) Event.visible (State.initial (Fin 1)) base longer := by
  let base : List (Label (Fin 1)) :=
    [.require 0 7, .call, .call, .call, .call, .call, .spawn {}, .call]
  let block : List (Label (Fin 1)) := [.read 0 1 0 [], .call, .call, .call, .call]
  refine ⟨base, base ++ block, ?_, ?_⟩
  · have ended : (Machine.run (step plainApp) (State.initial (Fin 1)) (base ++ block)).any
        (fun result => result.1.todo.isEmpty) = true := by
      decide
    rw [Option.any_eq_true] at ended
    obtain ⟨⟨settled, events⟩, ran, finished⟩ := ended
    obtain ⟨state, out, later, first, last, rfl⟩ := Machine.exists_of_run_append ran
    have read : EmptyRead plainApp state 0 block :=
      ⟨1, [], [.call, .call, .call, .call], rfl, by simp [Label.inner], settled, later, last,
        by simpa using finished⟩
    have inserted : Machine.Inserted (step plainApp)
        (fun state labels => ∃ pid, EmptyRead plainApp state pid labels) state [] (block ++ []) :=
      .block ⟨0, read⟩ last .done
    rw [List.append_nil] at inserted
    exact .of_run first inserted
  · rintro ⟨last, events, more, ran, longer, _⟩
    have tracked : (Machine.run (step plainApp) (State.initial (Fin 1)) base).map
        (fun result => (result.1.apps 0).process) = some (some 0) := by
      decide
    have dropped : (Machine.run (step plainApp) (State.initial (Fin 1)) (base ++ block)).map
        (fun result => (result.1.apps 0).process) = some none := by
      decide
    rw [ran] at tracked
    rw [longer] at dropped
    cases (Option.some.inj dropped).symm.trans (Option.some.inj tracked)

end Runs

end Nexer.Manager

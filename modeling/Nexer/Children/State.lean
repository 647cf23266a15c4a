import Nexer.Manager.Standing
import Nexer.Process.Launch
import Nexer.Transition.Refinement

/-!
# The process manager with its children

The manager creates processes, and each of them has its handles, its timer, and a child that
writes and ends when it likes.  What the loop tells a process runs the closures that the
manager has given to it.
-/

namespace Nexer.Children

open Nexer.Transition
open Nexer.Manager (Pid SpawnResult Termination)

/-- The manager, and all the processes that it has created or will create. -/
structure State (α : Type) where
  manager : Manager.State α
  children : Pid → Process.Flow

inductive Label (α : Type) where
  /-- What concerns no process. -/
  | manager (label : Manager.Label α)
  /-- `Process::Create` and `Process::Start` are called by one handler. -/
  | start (outcome : Process.Outcome)
  /-- The exit callback of libuv. -/
  | exited (pid : Pid) (termination : Termination)
  | child (pid : Pid) (transfer : Process.Transfer)

abbrev Event (α : Type) := Manager.Event α ⊕ (Pid × Process.Record)

variable {α : Type}

def State.initial (α : Type) : State α where
  manager := .initial α
  children := fun _ => .initial

/-- The labels of the manager that come from nowhere else. -/
def own : Manager.Label α → Bool
  | .clock _ | .call | .require _ _ | .tick _ | .timerClosed _ => true
  | .spawn _ | .read _ _ _ _ | .exited _ _ | .closed _ | .timeout _ => false

/-- The descriptor that `OnReadStdout` and `OnReadStderr` pass on. -/
def number : Process.Descriptor → Nat
  | .stdout => 1
  | .stderr => 2

/-- What a child does is its own affair; the loop goes on when no handler is running. -/
def permitted (idle : Bool) : Process.Transfer → Bool
  | .write _ _ | .close _ | .ended => true
  | .read _ _ | .move .tick | .move .complete => idle
  | .move .setTimeout | .move (.start _) | .move .kill | .move (.exited _ _) => false

/-- The closures of the manager that are run when the loop tells a process something. -/
def notice (pid : Pid) (flow : Process.Flow) : Process.Transfer → Option (Manager.Label α)
  | .read fd nread => some (.read pid (number fd) nread (flow.channels fd).unread)
  | .move .tick => some (.timeout pid)
  | .move .complete =>
      if flow.process.deleted = false ∧ flow.process.pending.head? = some .process then
        some (.closed pid)
      else none
  | _ => none

/-- The error codes that `Spawn` returns. -/
def resultOf (outcome : Process.Outcome) : SpawnResult where
  pipe := outcome.pipeError
  spawn := outcome.spawn
  readStdout := outcome.readStdout
  readStderr := outcome.readStderr

/-- The command of the process has a timeout. -/
def limited (manager : Manager.State α) (pid : Pid) : Bool :=
  (manager.procs pid).any fun proc => 0 < proc.command.timeout

variable [DecidableEq α]

/-- A step of a process, with the step of the manager that it leads to. -/
def tell (config : α → Manager.AppConfig α) (pid : Pid) (transfer : Process.Transfer)
    (heard : Option (Manager.Label α)) (state : State α) :
    Option (Reaction (State α) (Event α)) :=
  (Process.transfer (state.children pid) transfer).bind fun effect =>
    let children := Function.update state.children pid effect.1
    let records : List (Event α) := (effect.2.map (Prod.mk pid)).map .inr
    match heard with
    | none => some ({ state with children }, records)
    | some label => (Manager.step config state.manager label).map fun taken =>
        ({ manager := taken.1, children }, records ++ taken.2.map .inl)

/-- The machine of the manager with its children. -/
def step (config : α → Manager.AppConfig α) : Machine (State α) (Label α) (Event α)
  | state, .manager label =>
      if own label then
        (Manager.step config state.manager label).map fun taken =>
          ({ state with manager := taken.1 }, taken.2.map .inl)
      else none
  | state, .start outcome =>
      match state.manager.todo with
      | .processStart pid _ :: _ =>
          (Process.launch (limited state.manager pid) outcome (state.children pid)).bind
            fun effect => (Manager.step config state.manager (.spawn (resultOf outcome))).map
              fun taken =>
                ({ manager := taken.1, children := Function.update state.children pid effect.1 },
                  (effect.2.map (Prod.mk pid)).map .inr ++ taken.2.map .inl)
      | _ => none
  | state, .exited pid termination =>
      tell config pid (.move (.exited termination.code termination.signal))
        (some (.exited pid termination)) state
  | state, .child pid transfer =>
      if permitted state.manager.todo.isEmpty transfer then
        tell config pid transfer (notice pid (state.children pid) transfer) state
      else none

/-- What the manager has reported. -/
def reports (past : List (Event α)) : List (Manager.Event α) := Service.clientEvents past

/-- What a process has reported. -/
def recordsOf (pid : Pid) (past : List (Event α)) : List Process.Record :=
  Machine.eventsOf pid (Service.serverEvents past)

section Histories

omit [DecidableEq α]

variable {past out : List (Event α)}

@[simp] theorem reports_append : reports (past ++ out) = reports past ++ reports out :=
  Service.clientEvents_append

@[simp] theorem reports_inl (events : List (Manager.Event α)) :
    reports (events.map .inl) = events :=
  Service.clientEvents_inl events

@[simp] theorem reports_inr (entries : List (Pid × Process.Record)) :
    reports (entries.map .inr : List (Event α)) = [] :=
  Service.clientEvents_inr entries

@[simp] theorem recordsOf_append (pid : Pid) :
    recordsOf pid (past ++ out) = recordsOf pid past ++ recordsOf pid out := by
  simp [recordsOf]

@[simp] theorem recordsOf_inl (pid : Pid) (events : List (Manager.Event α)) :
    recordsOf pid (events.map .inl) = [] := by
  simp [recordsOf, Machine.eventsOf]

@[simp] theorem recordsOf_inr (pid other : Pid) (records : List Process.Record) :
    recordsOf pid ((records.map (Prod.mk other)).map .inr : List (Event α)) =
      if pid = other then records else [] := by
  rw [recordsOf, Service.serverEvents_inr]
  by_cases same : pid = other
  · subst same
    rw [Machine.eventsOf_map, if_pos rfl]
  · rw [Machine.eventsOf_map_ne records (Ne.symm same), if_neg same]

/-- The reports of a step of a process and of the manager. -/
theorem reports_both (pid : Pid) (records : List Process.Record)
    (events : List (Manager.Event α)) :
    reports ((records.map (Prod.mk pid)).map .inr ++ events.map .inl) = events := by
  rw [reports_append, reports_inr, reports_inl, List.nil_append]

theorem recordsOf_both (pid other : Pid) (records : List Process.Record)
    (events : List (Manager.Event α)) :
    recordsOf pid ((records.map (Prod.mk other)).map .inr ++ events.map .inl) =
      if pid = other then records else [] := by
  rw [recordsOf_append, recordsOf_inr, recordsOf_inl, List.append_nil]

end Histories

/-- What a step does. -/
inductive Steps (config : α → Manager.AppConfig α) (state : State α) :
    Label α → State α → List (Event α) → Prop where
  | manager (label : Manager.Label α) (manager : Manager.State α) (events : List (Manager.Event α))
      (owned : own label) (moved : Manager.step config state.manager label = some (manager, events)) :
      Steps config state (.manager label) { state with manager } (events.map .inl)
  | start (pid : Pid) (role : Manager.Role α) (rest : List (Manager.Call α))
      (outcome : Process.Outcome) (flow : Process.Flow) (records : List Process.Record)
      (manager : Manager.State α) (events : List (Manager.Event α))
      (pending : state.manager.todo = .processStart pid role :: rest)
      (launched : Process.launch (limited state.manager pid) outcome (state.children pid) =
        some (flow, records))
      (moved : Manager.step config state.manager (.spawn (resultOf outcome)) =
        some (manager, events)) :
      Steps config state (.start outcome)
        { manager, children := Function.update state.children pid flow }
        ((records.map (Prod.mk pid)).map .inr ++ events.map .inl)
  | unheard (pid : Pid) (transfer : Process.Transfer) (flow : Process.Flow)
      (records : List Process.Record) (permitted : permitted state.manager.todo.isEmpty transfer)
      (quiet : (notice pid (state.children pid) transfer : Option (Manager.Label α)) = none)
      (moved : Process.transfer (state.children pid) transfer = some (flow, records)) :
      Steps config state (.child pid transfer)
        { state with children := Function.update state.children pid flow }
        ((records.map (Prod.mk pid)).map .inr)
  | heard (pid : Pid) (transfer : Process.Transfer) (heard : Manager.Label α) (flow : Process.Flow)
      (records : List Process.Record) (manager : Manager.State α)
      (events : List (Manager.Event α)) (permitted : permitted state.manager.todo.isEmpty transfer)
      (noticed : notice pid (state.children pid) transfer = some heard)
      (moved : Process.transfer (state.children pid) transfer = some (flow, records))
      (took : Manager.step config state.manager heard = some (manager, events)) :
      Steps config state (.child pid transfer)
        { manager, children := Function.update state.children pid flow }
        ((records.map (Prod.mk pid)).map .inr ++ events.map .inl)
  | exited (pid : Pid) (termination : Termination) (flow : Process.Flow)
      (records : List Process.Record) (manager : Manager.State α)
      (events : List (Manager.Event α))
      (moved : Process.transfer (state.children pid)
        (.move (.exited termination.code termination.signal)) = some (flow, records))
      (took : Manager.step config state.manager (.exited pid termination) =
        some (manager, events)) :
      Steps config state (.exited pid termination)
        { manager, children := Function.update state.children pid flow }
        ((records.map (Prod.mk pid)).map .inr ++ events.map .inl)

variable {config : α → Manager.AppConfig α} {state following : State α} {label : Label α}
variable {out : List (Event α)}

theorem steps_of_step (moved : step config state label = some (following, out)) :
    Steps config state label following out := by
  cases label with
  | manager label =>
      simp only [step, Option.ite_none_right_eq_some] at moved
      obtain ⟨owned, moved⟩ := moved
      obtain ⟨⟨manager, events⟩, stepped, same⟩ := Option.map_eq_some_iff.mp moved
      obtain ⟨rfl, rfl⟩ := Prod.mk.inj same
      exact .manager label manager events owned stepped
  | start outcome =>
      simp only [step] at moved
      split at moved
      · next pid role rest pending =>
        obtain ⟨⟨flow, records⟩, launched, moved⟩ := Option.bind_eq_some_iff.mp moved
        obtain ⟨⟨manager, events⟩, stepped, same⟩ := Option.map_eq_some_iff.mp moved
        obtain ⟨rfl, rfl⟩ := Prod.mk.inj same
        exact .start pid role rest outcome flow records manager events pending launched stepped
      · cases moved
  | exited pid termination =>
      obtain ⟨⟨flow, records⟩, stepped, moved⟩ := Option.bind_eq_some_iff.mp moved
      obtain ⟨⟨manager, events⟩, took, same⟩ := Option.map_eq_some_iff.mp moved
      obtain ⟨rfl, rfl⟩ := Prod.mk.inj same
      exact .exited pid termination flow records manager events stepped took
  | child pid transfer =>
      simp only [step, Option.ite_none_right_eq_some] at moved
      obtain ⟨permitted, moved⟩ := moved
      obtain ⟨⟨flow, records⟩, stepped, moved⟩ := Option.bind_eq_some_iff.mp moved
      dsimp only at moved
      split at moved
      · next quiet =>
        obtain ⟨rfl, rfl⟩ := Prod.mk.inj (Option.some.inj moved)
        exact .unheard pid transfer flow records permitted quiet stepped
      · next label noticed =>
        obtain ⟨⟨manager, events⟩, took, same⟩ := Option.map_eq_some_iff.mp moved
        obtain ⟨rfl, rfl⟩ := Prod.mk.inj same
        exact .heard pid transfer label flow records manager events permitted noticed stepped took

/-- What the manager takes of a label. -/
def heard (state : State α) : Label α → Option (Manager.Label α)
  | .manager label => some label
  | .start outcome => some (.spawn (resultOf outcome))
  | .exited pid termination => some (.exited pid termination)
  | .child pid transfer => notice pid (state.children pid) transfer

/-- What the manager reports itself. -/
def ownReports : Event α → List (Manager.Event α)
  | .inl event => [event]
  | .inr _ => []

omit [DecidableEq α] in
theorem ownReports_eq (past : List (Event α)) : past.flatMap ownReports = reports past := by
  induction past with
  | nil => rfl
  | cons event rest ih =>
      rw [List.flatMap_cons, ih, ← List.singleton_append, reports_append]
      cases event with
      | inl | inr => rfl

/-- The manager takes no notice of what happens to its children, but for its own closures. -/
theorem refines_manager : Machine.Refinement (step config) (Manager.step config) State.manager heard
    ownReports where
  step := by
    intro state following label out stepped
    rw [ownReports_eq]
    cases steps_of_step stepped with
    | manager label manager events owned moved =>
        rw [reports_inl]
        exact .moves _ _ _ moved
    | start pid role rest outcome flow records manager events pending launched moved =>
        rw [reports_both]
        exact .moves _ _ _ moved
    | unheard pid transfer flow records permitted quiet moved =>
        rw [reports_inr, heard, quiet]
        exact .rests
    | heard pid transfer label flow records manager events permitted noticed moved took =>
        rw [reports_both, heard, noticed]
        exact .moves _ _ _ took
    | exited pid termination flow records manager events moved took =>
        rw [reports_both]
        exact .moves _ _ _ took

/-- The manager runs its own machine. -/
theorem manager_of_reaches {guard : State α → Label α → Prop} {past : List (Event α)}
    (reached : Machine.Reaches (step config) guard (.initial α) state past) :
    Machine.Reaches (Manager.step config) Machine.always (.initial α) state.manager
      (reports past) := by
  rw [← ownReports_eq]
  exact refines_manager.reaches (fun _ _ => trivial) reached

end Nexer.Children

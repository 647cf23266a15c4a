import Nexer.Manager.Recorded
import Nexer.Manager.Timers

/-!
# Where the manager stands with each of its processes

A process object is created, started, closed and deleted by handlers of the manager and by
events of the loop, one after another.  The standing of a process is what it is in, or what
its `Start` or its close callback has still to do with it.
-/

namespace Nexer.Manager

open Nexer.Transition

/-- A child that is `unread` is about to be killed, since its output cannot be read; a process
that is `failed` has no child and is about to be closed. -/
inductive Standing where
  | unborn
  | created
  | unread
  | running
  | failed
  | closing (termination : Termination)
  | exiting (termination : Termination)
  | gone
  deriving DecidableEq

variable {α : Type}

/-- The standing of a process for which a call is pending. -/
def Call.standing? (pid : Pid) : Call α → Option Standing
  | .processStart other _ => if other = pid then some .created else none
  | .kill other => if other = pid then some .unread else none
  | .onProcessExit other => if other = pid then some .failed else none
  | .onExit other _ termination => if other = pid then some (.exiting termination) else none
  | _ => none

namespace Standing

/-- What is pending for a process. -/
def calls : Standing → List Standing
  | .unborn | .running | .closing _ | .gone => []
  | .created => [.created]
  | .unread => [.unread]
  | .failed => [.failed]
  | .exiting termination => [.exiting termination]

/-- The phases of the process object, with whether it has a child. -/
def Fits : Standing → Option (Phase × Bool) → Prop
  | .unborn, life | .gone, life => life = none
  | .created, life => life = some (.created, false)
  | .unread, life | .running, life => life = some (.running, true)
  | .failed, life => life = some (.failed, false)
  | .closing termination, life => ∃ spawned, life = some (.closing termination, spawned)
  | .exiting _, life => life.isSome

end Standing

/-- The phase of a process object, and whether `uv_spawn` has succeeded for it. -/
def State.lifeOf (state : State α) (pid : Pid) : Option (Phase × Bool) :=
  (state.procs pid).map fun proc => (proc.phase, proc.spawned)

/-- The standing of a process, told from the calls that are pending, the phase of its object
and the numbers that have been given out. -/
structure Stands (state : State α) (pid : Pid) (standing : Standing) : Prop where
  calls : state.todo.filterMap (Call.standing? pid) = standing.calls
  phase : standing.Fits (state.lifeOf pid)
  issued : state.nextPid ≤ pid ↔ standing = .unborn

/-- The exit closures that have run for a process. -/
def endings (pid : Pid) (past : List (Event α)) : List (Int × Int) :=
  past.filterMap fun
    | .ended other _ termination =>
        if other = pid then some (termination.code, termination.signal) else none
    | _ => none

/-- The labels that name a process, or that start it. -/
def Label.Concerns (state : State α) (pid : Pid) : Label α → Prop
  | .spawn _ => ∃ role rest, state.todo = .processStart pid role :: rest
  | .exited other _ | .closed other => other = pid
  | _ => False

/-- What a step does about a process. -/
inductive Advance (state : State α) (label : Label α) (out : List (Event α)) (pid : Pid) :
    Standing → Standing → Prop where
  | keep {standing : Standing} (apart : ¬ label.Concerns state pid)
      (silent : endings pid out = []) : Advance state label out pid standing standing
  | create (inner : label = .call) (fresh : pid = state.nextPid) (silent : endings pid out = []) :
      Advance state label out pid .unborn .created
  | run {result : SpawnResult} (spawn : label = .spawn result)
      (named : label.Concerns state pid) (piped : result.pipe = 0)
      (forked : result.spawn = 0) (silent : endings pid out = []) {standing : Standing}
      (lives : standing = .unread ∨ standing = .running) :
      Advance state label out pid .created standing
  | pipe {result : SpawnResult} (spawn : label = .spawn result)
      (named : label.Concerns state pid) (failed : result.pipe ≠ 0) (silent : endings pid out = []) :
      Advance state label out pid .created (.exiting .unstarted)
  | fail {result : SpawnResult} (spawn : label = .spawn result)
      (named : label.Concerns state pid) (piped : result.pipe = 0)
      (failed : result.spawn ≠ 0) (silent : endings pid out = []) :
      Advance state label out pid .created .failed
  | kill (inner : label = .call) (silent : endings pid out = []) :
      Advance state label out pid .unread .running
  | settle (inner : label = .call) (silent : endings pid out = []) :
      Advance state label out pid .failed (.closing .unstarted)
  | exited {termination : Termination} (notified : label = .exited pid termination)
      (silent : endings pid out = []) :
      Advance state label out pid .running (.closing termination)
  | closed {termination : Termination} (notified : label = .closed pid)
      (silent : endings pid out = []) :
      Advance state label out pid (.closing termination) (.exiting termination)
  | ended {termination : Termination} (inner : label = .call)
      (reported : endings pid out = [(termination.code, termination.signal)]) :
      Advance state label out pid (.exiting termination) .gone

variable {state following : State α} {label : Label α} {past out : List (Event α)} {pid : Pid}
variable {standing next : Standing}

theorem endings_append : endings pid (past ++ out) = endings pid past ++ endings pid out :=
  List.filterMap_append

theorem endings_eq_nil (silent : ∀ role termination, .ended pid role termination ∉ out) :
    endings pid out = [] := by
  rw [endings, List.filterMap_eq_nil_iff]
  intro event member
  cases event with
  | ended other role termination =>
      have apart : other ≠ pid := by
        rintro rfl
        exact silent role termination member
      simp [apart]
  | _ => rfl

namespace Stands

theorem initial (pid : Pid) : Stands (State.initial α) pid .unborn where
  calls := rfl
  phase := rfl
  issued := by simp [State.initial]

/-- A step that does nothing about a process. -/
theorem kept (stands : Stands state pid standing)
    (calls : following.todo.filterMap (Call.standing? pid) =
      state.todo.filterMap (Call.standing? pid))
    (phase : following.lifeOf pid = state.lifeOf pid)
    (issued : following.nextPid ≤ pid ↔ state.nextPid ≤ pid) : Stands following pid standing where
  calls := calls.trans stands.calls
  phase := by
    rw [phase]
    exact stands.phase
  issued := issued.trans stands.issued

/-- The first call names the standing. -/
theorem of_head {head : Call α} {rest : List (Call α)} (stands : Stands state pid standing)
    (pending : state.todo = head :: rest) (names : head.standing? pid = some next) :
    standing = next ∧ rest.filterMap (Call.standing? pid) = [] ∧ pid < state.nextPid := by
  have calls := stands.calls
  rw [pending, List.filterMap_cons_some names] at calls
  have issued := stands.issued
  cases standing <;> simp_all [Standing.calls]

/-- Between two handlers the phase of a process object names the standing. -/
theorem of_idle {phase : Phase} {spawned : Bool} (stands : Stands state pid standing)
    (idle : state.todo = []) (there : state.lifeOf pid = some (phase, spawned)) :
    phase = .running ∧ standing = .running ∨
      ∃ termination, phase = .closing termination ∧ standing = .closing termination := by
  have calls := stands.calls
  have fits := stands.phase
  rw [idle] at calls
  cases standing <;> simp_all [Standing.Fits, Standing.calls]

/-- A process that runs has a child. -/
theorem spawned (stands : Stands state pid standing)
    (lives : standing = .unread ∨ standing = .running) : state.spawnedAt pid = true := by
  have fits : state.lifeOf pid = some (.running, true) := by
    rcases lives with rfl | rfl
    · exact stands.phase
    · exact stands.phase
  obtain ⟨proc, there, life⟩ := Option.map_eq_some_iff.mp fits
  simp [State.spawnedAt, there, (Prod.mk.inj life).2]

/-- The exit closure is pending when the close callback has come. -/
theorem exit_pending {termination : Termination} (stands : Stands state pid (.exiting termination)) :
    ∃ role, .onExit pid role termination ∈ state.todo := by
  have named : .exiting termination ∈ state.todo.filterMap (Call.standing? pid) := by
    rw [stands.calls]
    exact List.mem_singleton.mpr rfl
  obtain ⟨call, member, same⟩ := List.mem_filterMap.mp named
  cases call with
  | onExit other role ending =>
      simp only [Call.standing?, Option.ite_none_right_eq_some, Option.some.injEq,
        Standing.exiting.injEq] at same
      obtain ⟨rfl, rfl⟩ := same
      exact ⟨role, member⟩
  | processStart | kill | onProcessExit => simp [Call.standing?] at same
  | _ => cases same

end Stands

variable [DecidableEq α] {config : α → AppConfig α}

omit [DecidableEq α] in
/-- The calls of `Require` name no process. -/
theorem filterMap_requires (apps : List α) (callback : AfterProcessCheck α) :
    (apps.map fun app => Call.require app callback).filterMap (Call.standing? pid) = [] := by
  rw [List.filterMap_eq_nil_iff]
  intro call member
  obtain ⟨app, -, rfl⟩ := List.mem_map.mp member
  rfl

/-- Only the exit closure of a process reports that it has ended. -/
theorem endings_of_move (move : Move config state label following out)
    (other : ∀ role termination rest, label = .call →
      state.todo ≠ .onExit pid role termination :: rest) : endings pid out = [] := by
  refine endings_eq_nil fun role termination member => ?_
  obtain ⟨inner, rest, pending⟩ := reported_of_move move _ member
  exact other role termination rest inner pending

omit [DecidableEq α] in
/-- A process object is created, under the next number, and its `Start` is called. -/
theorem Stands.create {head : Call α} {role : Role α} {rest : List (Call α)}
    (stands : Stands state pid standing) (more : List (Call α)) (pending : state.todo = head :: rest)
    (nameless : head.standing? pid = none)
    (todo : following.todo = .processStart state.nextPid role :: (more ++ rest))
    (quiet : more.filterMap (Call.standing? pid) = [])
    (phase : following.lifeOf pid =
      if pid = state.nextPid then some (.created, false) else state.lifeOf pid)
    (issued : following.nextPid = state.nextPid + 1) (silent : endings pid out = []) :
    ∃ next, Stands following pid next ∧ Advance state .call out pid standing next := by
  have calls := stands.calls
  rw [pending, List.filterMap_cons_none nameless] at calls
  have named : (Call.processStart state.nextPid role).standing? pid =
    if state.nextPid = pid then some .created else none := rfl
  by_cases same : pid = state.nextPid
  · subst same
    obtain rfl := stands.issued.mp (Nat.le_refl _)
    refine ⟨.created, ⟨?_, ?_, ?_⟩, .create rfl rfl silent⟩
    · rw [todo, List.filterMap_cons_some (named.trans (if_pos rfl)), List.filterMap_append, quiet, calls]
      rfl
    · rw [phase, if_pos rfl]
      rfl
    · simp [issued]
  · rw [if_neg same] at phase
    have issued : following.nextPid ≤ pid ↔ state.nextPid ≤ pid := by
      rw [issued]
      exact ⟨Nat.le_of_succ_le, fun bound => Nat.lt_of_le_of_ne bound (Ne.symm same)⟩
    refine ⟨standing, ⟨?_, phase ▸ stands.phase, issued.trans stands.issued⟩,
      .keep (by simp [Label.Concerns]) silent⟩
    rw [todo, List.filterMap_cons_none (named.trans (if_neg (Ne.symm same))),
      List.filterMap_append, quiet, calls, List.nil_append]

omit [DecidableEq α] in
/-- Another process is started. -/
theorem Stands.spawn_other {other : Pid} {role : Role α} {result : SpawnResult}
    {rest : List (Call α)} (stands : Stands state pid standing)
    (pending : state.todo = .processStart other role :: rest) (apart : pid ≠ other)
    (calls : following.todo.filterMap (Call.standing? pid) =
      state.todo.filterMap (Call.standing? pid))
    (phase : following.lifeOf pid = state.lifeOf pid)
    (issued : following.nextPid = state.nextPid) (silent : endings pid out = []) :
    ∃ next, Stands following pid next ∧ Advance state (.spawn result) out pid standing next := by
  refine ⟨standing, stands.kept calls phase (by rw [issued]), .keep ?_ silent⟩
  rintro ⟨role', rest', again⟩
  cases pending.symm.trans again
  exact apart rfl

omit [DecidableEq α] in
/-- The exit closure of a process runs, at the end of which the object is deleted. -/
theorem Stands.exit {other : Pid} {role : Role α} {termination : Termination}
    {rest : List (Call α)} (stands : Stands state pid standing) (more : List (Call α))
    (pending : state.todo = .onExit other role termination :: rest)
    (todo : following.todo = more ++ rest) (quiet : more.filterMap (Call.standing? pid) = [])
    (phase : following.lifeOf pid = if pid = other then none else state.lifeOf pid)
    (issued : following.nextPid = state.nextPid) :
    ∃ next, Stands following pid next ∧
      Advance state .call
        [.ended other role termination,
          .processExit other termination.status termination.signal] pid standing next := by
  by_cases same : pid = other
  · subst same
    obtain ⟨rfl, clear, below⟩ := stands.of_head pending (if_pos rfl)
    refine ⟨.gone, ⟨?_, ?_, ?_⟩, .ended rfl (by simp [endings])⟩
    · rw [todo, List.filterMap_append, quiet, clear]
      rfl
    · rw [phase, if_pos rfl]
      rfl
    · simpa [issued] using below
  · rw [if_neg same] at phase
    have named : (Call.onExit other role termination).standing? pid =
      if other = pid then some (.exiting termination) else none := rfl
    refine ⟨standing, stands.kept ?_ phase (by rw [issued]), .keep (by simp [Label.Concerns]) ?_⟩
    · rw [todo, pending, List.filterMap_append, quiet, List.nil_append,
        List.filterMap_cons_none (named.trans (if_neg (Ne.symm same)))]
    · simp [endings, Ne.symm same]

/-- A step keeps the standing of a process or takes it to the next one. -/
theorem advance_of_move (move : Move config state label following out)
    (stands : Stands state pid standing) :
    ∃ next, Stands following pid next ∧ Advance state label out pid standing next := by
  have silent : (∀ role termination rest, label = .call →
      state.todo ≠ .onExit pid role termination :: rest) → endings pid out = [] :=
    endings_of_move move
  cases move
  case checkSome app checkThen rest checker pending has_checker =>
    refine stands.create [.onProcessStart _, .endCheck _] pending rfl rfl ?_ ?_ rfl
      (silent (by simp [pending]))
    · rfl
    · by_cases same : pid = state.nextPid <;> simp [State.lifeOf, same]
  case preparedStart app round rest pending =>
    refine stands.create [.onProcessStart _] pending rfl rfl ?_ ?_ rfl
      (silent (by simp [pending]))
    · rfl
    · by_cases same : pid = state.nextPid <;> simp [State.lifeOf, same]
  case spawnPipe other role result rest pending failed =>
    have silent := silent (by simp)
    by_cases same : pid = other
    · subst same
      obtain ⟨rfl, clear, below⟩ := stands.of_head pending (if_pos rfl)
      obtain ⟨proc, there, -⟩ := Option.map_eq_some_iff.mp (stands.phase :)
      refine ⟨_, ⟨?_, ?_, ?_⟩, .pipe rfl ⟨_, _, pending⟩ failed silent⟩
      · simp [List.filterMap_cons, Call.standing?, clear, Standing.calls]
      · simp [Standing.Fits, State.lifeOf, there]
      · simp [below]
    · refine stands.spawn_other pending same ?_ ?_ rfl silent
      · simp [pending, List.filterMap_cons, Call.standing?, Ne.symm same]
      · simp [State.lifeOf, same]
  case spawnFail other role result rest pending piped failed =>
    have silent := silent (by simp)
    by_cases same : pid = other
    · subst same
      obtain ⟨rfl, clear, below⟩ := stands.of_head pending (if_pos rfl)
      obtain ⟨proc, there, life⟩ := Option.map_eq_some_iff.mp (stands.phase :)
      refine ⟨_, ⟨?_, ?_, ?_⟩, .fail rfl ⟨_, _, pending⟩ piped failed silent⟩
      · simp [List.filterMap_cons, Call.standing?, clear, Standing.calls]
      · simpa [Standing.Fits, State.lifeOf, there] using (Prod.mk.inj life).2
      · simp [below]
    · refine stands.spawn_other pending same ?_ ?_ rfl silent
      · simp [pending, List.filterMap_cons, Call.standing?, Ne.symm same]
      · simp [State.lifeOf, same]
  case spawnUnread other role result error rest pending piped forked failed unread =>
    have silent := silent (by simp)
    by_cases same : pid = other
    · subst same
      obtain ⟨rfl, clear, below⟩ := stands.of_head pending (if_pos rfl)
      obtain ⟨proc, there, -⟩ := Option.map_eq_some_iff.mp (stands.phase :)
      refine ⟨_, ⟨?_, ?_, ?_⟩, .run rfl ⟨_, _, pending⟩ piped forked silent (.inl rfl)⟩
      · simp [List.filterMap_cons, Call.standing?, clear, Standing.calls]
      · simp [Standing.Fits, State.lifeOf, there]
      · simp [below]
    · refine stands.spawn_other pending same ?_ ?_ rfl silent
      · simp [pending, List.filterMap_cons, Call.standing?, Ne.symm same]
      · simp [State.lifeOf, same]
  case spawnDone other role result rest pending piped forked =>
    have silent := silent (by simp)
    by_cases same : pid = other
    · subst same
      obtain ⟨rfl, clear, below⟩ := stands.of_head pending (if_pos rfl)
      obtain ⟨proc, there, -⟩ := Option.map_eq_some_iff.mp (stands.phase :)
      refine ⟨_, ⟨?_, ?_, ?_⟩, .run rfl ⟨_, _, pending⟩ piped forked silent (.inr rfl)⟩
      · simp [clear, Standing.calls]
      · simp [Standing.Fits, State.lifeOf, there]
      · simp [below]
    · refine stands.spawn_other pending same ?_ ?_ rfl silent
      · simp [pending, Call.standing?, Ne.symm same]
      · simp [State.lifeOf, same]
  case endCheck other rest pending =>
    have silent := silent (by simp [pending])
    refine ⟨standing, stands.kept ?_ ?_ Iff.rfl, .keep (by simp [Label.Concerns]) silent⟩
    · simp [pending, List.filterMap_cons, Call.standing?]
    · by_cases same : pid = other
      · subst same
        simp [State.lifeOf, Function.comp_def]
      · simp [State.lifeOf, same]
  case kill other rest pending =>
    have silent := silent (by simp [pending])
    by_cases same : pid = other
    · subst same
      obtain ⟨rfl, clear, below⟩ := stands.of_head pending (if_pos rfl)
      refine ⟨.running, ⟨clear, stands.phase, ?_⟩, .kill rfl silent⟩
      simpa using below
    · refine ⟨standing, stands.kept ?_ rfl Iff.rfl, .keep (by simp [Label.Concerns]) silent⟩
      simp [pending, Call.standing?, Ne.symm same]
  case onProcessExit other rest pending =>
    have silent := silent (by simp [pending])
    by_cases same : pid = other
    · subst same
      obtain ⟨rfl, clear, below⟩ := stands.of_head pending (if_pos rfl)
      obtain ⟨proc, there, -⟩ := Option.map_eq_some_iff.mp (stands.phase :)
      refine ⟨.closing .unstarted, ⟨clear, ?_, ?_⟩, .settle rfl silent⟩
      · simp [Standing.Fits, State.lifeOf, there]
      · simp [below]
    · refine ⟨standing, stands.kept ?_ ?_ Iff.rfl, .keep (by simp [Label.Concerns]) silent⟩
      · simp [pending, Call.standing?, Ne.symm same]
      · simp [State.lifeOf, same]
  case exitRestart other app round termination rest pending failed again =>
    refine stands.exit [.start _] pending rfl rfl ?_ rfl
    by_cases same : pid = other <;> simp [State.lifeOf, same]
  case exitClear other app round termination rest pending failed spent unchecked =>
    refine stands.exit [.clearCallbacks _ _] pending rfl rfl ?_ rfl
    by_cases same : pid = other <;> simp [State.lifeOf, same]
  case exitDrop other app round termination rest pending silent =>
    refine stands.exit [] pending rfl rfl ?_ rfl
    by_cases same : pid = other <;> simp [State.lifeOf, same]
  case exitChecker other app checkThen termination rest pending =>
    refine stands.exit [.checked _ _] pending rfl rfl ?_ rfl
    by_cases same : pid = other <;> simp [State.lifeOf, same]
  case exited other termination proc idle live running =>
    have unended := silent (by simp)
    by_cases same : pid = other
    · subst same
      have now : state.lifeOf pid = some (.running, proc.spawned) := by
        simp [State.lifeOf, live, running]
      obtain ⟨-, rfl⟩ | ⟨_, closing, -⟩ := stands.of_idle idle now
      · refine ⟨.closing termination, ⟨?_, ?_, stands.issued.trans (by simp)⟩, .exited rfl unended⟩
        · exact stands.calls
        · simp [Standing.Fits, State.lifeOf]
      · cases closing
    · refine ⟨standing, stands.kept rfl ?_ Iff.rfl, .keep (Ne.symm same) unended⟩
      simp [State.lifeOf, same]
  case closed other termination proc idle live closing =>
    have unended := silent (by simp)
    by_cases same : pid = other
    · subst same
      have now : state.lifeOf pid = some (.closing termination, proc.spawned) := by
        simp [State.lifeOf, live, closing]
      obtain ⟨running, -⟩ | ⟨_, closing, rfl⟩ := stands.of_idle idle now
      · cases running
      · cases closing
        refine ⟨.exiting termination, ⟨?_, ?_, stands.issued.trans (by simp)⟩, .closed rfl unended⟩
        · simp [idle, Call.standing?, Standing.calls]
        · simp [Standing.Fits, State.lifeOf, live]
    · refine ⟨standing, stands.kept ?_ rfl Iff.rfl, .keep (Ne.symm same) unended⟩
      simp [Call.standing?, Ne.symm same]
  case startWaiting app rest pending preceded =>
    refine ⟨standing, stands.kept ?_ rfl Iff.rfl,
      .keep (by simp [Label.Concerns]) (silent (by simp [pending]))⟩
    rw [State.call_todo, List.filterMap_append, filterMap_requires, pending]
    rfl
  all_goals
    refine ⟨standing, stands.kept ?_ rfl Iff.rfl, .keep (by simp [Label.Concerns]) (silent ?_)⟩
    · simp [*, List.filterMap_cons, Call.standing?]
    · simp [*]

/-- The command of a process object stays the one that it was created for. -/
theorem command_of_move (move : Move config state label following out) {proc : Proc α}
    (there : following.procs pid = some proc) :
    (∃ before, state.procs pid = some before ∧ before.command = proc.command) ∨
      pid = state.nextPid := by
  cases move
  case checkSome | preparedStart =>
    by_cases same : pid = state.nextPid
    · exact .inr same
    · exact .inl ⟨proc, by simpa [same] using there, rfl⟩
  case spawnPipe other _ _ _ _ _ | spawnFail other _ _ _ _ _ _ | spawnUnread other _ _ _ _ _ _ _ _ _
      | spawnDone other _ _ _ _ _ _ | endCheck other _ _ | onProcessExit other _ _ =>
    by_cases same : pid = other
    · subst same
      simp only [State.call_procs, State.changeProc_procs, State.after_procs, Function.update_self]
        at there
      obtain ⟨before, earlier, rfl⟩ := Option.map_eq_some_iff.mp there
      exact .inl ⟨before, earlier, rfl⟩
    · exact .inl ⟨proc, by simpa [same] using there, rfl⟩
  case exitRestart other _ _ _ _ _ _ _ | exitClear other _ _ _ _ _ _ _ _ | exitDrop other _ _ _ _ _ _
      | exitChecker other _ _ _ _ _ =>
    by_cases same : pid = other
    · subst same
      simp at there
    · exact .inl ⟨proc, by simpa [same] using there, rfl⟩
  case exited other termination before _ live _ =>
    by_cases same : pid = other
    · subst same
      simp only [State.setProc_procs, Function.update_self, Option.some.injEq] at there
      subst there
      exact .inl ⟨before, live, rfl⟩
    · exact .inl ⟨proc, by simpa [same] using there, rfl⟩
  all_goals exact .inl ⟨proc, there, rfl⟩

/-- A signal is sent to a process whose child runs, or by `Require` to one whose child has ended
and whose exit closure has not run. -/
theorem spawned_of_killed (move : Move config state label following out)
    (recorded : Recorded state past) (stands : Stands state pid standing)
    (killed : .killed pid ∈ out) :
    (standing = .unread ∨ standing = .running ∨
        label = .call ∧ ∃ termination, standing = .closing termination) ∧
      state.spawnedAt pid = true := by
  cases move
  case requiredKill app error other rest pending tracked failed =>
    obtain rfl : pid = other := by simpa using killed
    have spawned : state.spawnedAt pid = true := by
      rcases recorded.tracked app pid tracked with spawned | ⟨_, _, start | ⟨_, error⟩⟩
      · exact spawned
      · cases pending.symm.trans start
      · cases pending.symm.trans error
    refine ⟨?_, spawned⟩
    have fits := stands.phase
    obtain ⟨proc, there, child⟩ := (Option.any_eq_true _ _).mp spawned
    cases standing with
    | unread => exact .inl rfl
    | running => exact .inr (.inl rfl)
    | closing termination => exact .inr (.inr ⟨rfl, termination, rfl⟩)
    | exiting termination =>
        obtain ⟨role, member⟩ := stands.exit_pending
        rcases recorded.exits pid role termination member with alone | unspawned
        · cases pending.symm.trans alone
        · cases spawned.symm.trans unspawned
    | unborn | created | failed | gone => simp [Standing.Fits, State.lifeOf, there, child] at fits
  case kill other rest pending =>
    obtain rfl : pid = other := by simpa using killed
    obtain ⟨rfl, -⟩ := stands.of_head pending (if_pos rfl)
    exact ⟨.inl rfl, stands.spawned (.inl rfl)⟩
  case timeout other proc idle live running limited =>
    obtain rfl : pid = other := by simpa using killed
    have now : state.lifeOf pid = some (.running, proc.spawned) := by
      simp [State.lifeOf, live, running]
    obtain ⟨-, rfl⟩ | ⟨_, closing, -⟩ := stands.of_idle idle now
    · exact ⟨.inr (.inl rfl), stands.spawned (.inr rfl)⟩
    · cases closing
  case errorChecker =>
    rcases List.mem_cons.mp killed with same | member
    · cases same
    · split at member <;> simp at member
  case queueMore | queueFirst =>
    rcases List.mem_cons.mp killed with same | member
    · cases same
    · cases traversalFault_fault member
  case clearCallbacks => cases traversalFault_fault killed
  case startedClear | tickIdle =>
    rw [closeTimer_snd] at killed
    split at killed <;> simp at killed
  all_goals simp at killed

end Nexer.Manager

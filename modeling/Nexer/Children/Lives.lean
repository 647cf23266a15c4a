import Nexer.Children.State

/-!
# The manager and its processes agree

A process that the manager believes to run has a child, one that it believes to be closing is
being closed with the same termination, and one that it has deleted is deleted.
-/

namespace Nexer.Children

open Nexer.Transition
open Nexer.Manager (Pid SpawnResult Standing Stands Termination endings)

/-- The process that belongs to a standing, with what it has reported and the exit closures
that have run. -/
inductive Kin : Standing → Process.Flow → List Process.Record → List (Int × Int) → Prop where
  | unborn : Kin .unborn .initial [] []
  | created : Kin .created .initial [] []
  | live {standing : Standing} {flow : Process.Flow} {records : List Process.Record}
      (lives : standing = .unread ∨ standing = .running)
      (running : flow.process.running = true) : Kin standing flow records []
  | closing {standing : Standing} {termination : Termination} {flow : Process.Flow}
      {records : List Process.Record}
      (stage : standing = .closing termination ∨ standing = .failed ∧ termination = .unstarted)
      (there : flow.process.deleted = false) (closing : Process.Closing flow.process)
      (code : flow.process.exitCode = termination.code)
      (signal : flow.process.termSignal = termination.signal) : Kin standing flow records []
  | exiting {termination : Termination} {flow : Process.Flow} {records : List Process.Record}
      (deleted : flow.process.deleted = true)
      (reported : Process.exits (Process.reported records) =
        [(termination.code, termination.signal)]) : Kin (.exiting termination) flow records []
  | gone {ending : Int × Int} {flow : Process.Flow} {records : List Process.Record}
      (deleted : flow.process.deleted = true)
      (reported : Process.exits (Process.reported records) = [ending]) :
      Kin .gone flow records [ending]

namespace Kin

variable {α : Type} {pid : Pid} {standing next : Standing} {flow following : Process.Flow}
variable {records out : List Process.Record} {ended : List (Int × Int)}
variable {manager : Manager.State α} {label : Manager.Label α}
variable {events : List (Manager.Event α)}

/-- A step of the manager that neither starts the process nor is told of its end. -/
theorem advance (kin : Kin standing flow records ended)
    (advance : Manager.Advance manager label events pid standing next)
    (apart : ¬ label.Concerns manager pid) :
    Kin next flow records (ended ++ endings pid events) := by
  cases advance with
  | keep _ silent => simpa [silent] using kin
  | create _ _ silent =>
      cases kin with
      | unborn => simpa [silent] using Kin.created
      | live lives => simp at lives
      | closing stage => simp at stage
  | run _ named | pipe _ named | fail _ named => exact absurd named apart
  | exited notified | closed notified =>
      subst notified
      exact absurd rfl apart
  | kill _ silent =>
      cases kin with
      | live _ running =>
          rw [silent]
          exact .live (.inr rfl) running
      | closing stage => simp at stage
  | settle _ silent =>
      cases kin with
      | live lives => simp at lives
      | closing stage there closing code signal =>
          obtain ⟨-, rfl⟩ : _ ∧ _ := stage.resolve_left (by simp)
          rw [silent]
          exact .closing (.inl rfl) there closing code signal
  | ended _ reported =>
      cases kin with
      | live lives => simp at lives
      | closing stage => simp at stage
      | exiting deleted exits =>
          rw [reported]
          exact .gone deleted exits

/-- A process that runs is one that the manager believes to run. -/
theorem lives (kin : Kin standing flow records ended) (balanced : Process.Balanced flow records)
    (running : flow.process.running = true) :
    (standing = .unread ∨ standing = .running) ∧ ended = [] := by
  cases kin with
  | unborn | created => cases running
  | live lives => exact ⟨lives, rfl⟩
  | closing _ _ closing => cases closing.running.symm.trans running
  | exiting deleted | gone deleted => cases (balanced.course.stopped deleted).1.symm.trans running

theorem still (kin : Kin standing flow records ended) (balanced : Process.Balanced flow records)
    (running : flow.process.running = true) (goes_on : following.process.running = true) :
    Kin standing following (records ++ out) ended := by
  obtain ⟨lives, rfl⟩ := kin.lives balanced running
  exact .live lives goes_on

/-- Between two handlers a process that the manager believes to run has a child. -/
theorem running_of_fits {spawned : Bool} (kin : Kin standing flow records ended)
    (idle : standing.calls = []) (fits : standing.Fits (some (.running, spawned))) :
    flow.process.running = true := by
  cases kin with
  | unborn | gone => cases fits
  | created | exiting => cases idle
  | live _ running => exact running
  | closing stage =>
      rcases stage with rfl | ⟨rfl, -⟩
      · obtain ⟨spawned, same⟩ := fits
        cases same
      · cases idle

/-- A timeout that does not come before a close callback finds a child that runs. -/
theorem running_of_tick (kin : Kin standing flow records ended)
    (balanced : Process.Balanced flow records) (idle : .process ∉ flow.process.pending)
    (moved : Process.transfer flow (.move .tick) = some (following, out)) :
    flow.process.running = true := by
  have active := Process.active_of_tick moved
  cases kin with
  | unborn | created => cases active
  | live _ running => exact running
  | closing _ _ closing => exact absurd (List.mem_of_head? closing.first) idle
  | exiting deleted | gone deleted =>
      exact absurd active (balanced.course.stopped deleted).2

/-- What a process does without the manager. -/
theorem unheard {idle : Bool} {transfer : Process.Transfer} (kin : Kin standing flow records ended)
    (balanced : Process.Balanced flow records) (permitted : permitted idle transfer)
    (quiet : (notice pid flow transfer : Option (Manager.Label α)) = none)
    (moved : Process.transfer flow transfer = some (following, out)) :
    Kin standing following (records ++ out) ended ∧
      (following.process = flow.process ∨ following.process.deleted = true) := by
  cases transfer with
  | write | close | ended =>
      obtain ⟨running, same⟩ := balanced.untouched moved (by simp)
      exact ⟨kin.still balanced running (by rw [same]; exact running), .inl same⟩
  | read => cases quiet
  | move move =>
      cases move with
      | setTimeout | start | kill | exited => cases permitted
      | tick => cases quiet
      | complete =>
          simp only [notice, ite_eq_right_iff, reduceCtorEq, imp_false, not_and] at quiet
          cases kin with
          | unborn | created => cases moved
          | live _ running =>
              obtain ⟨-, quiet, -⟩ := balanced.course.living running
              exact absurd quiet.pending (Process.pending_of_complete moved)
          | closing _ there closing => exact absurd closing.first (quiet there)
          | exiting deleted reported =>
              obtain ⟨gone, silent⟩ := Process.dangled moved deleted
              refine ⟨.exiting gone ?_, .inr gone⟩
              rw [Process.reported_append, Process.exits_append, reported, silent]
              rfl
          | gone deleted reported =>
              obtain ⟨gone, silent⟩ := Process.dangled moved deleted
              refine ⟨.gone gone ?_, .inr gone⟩
              rw [Process.reported_append, Process.exits_append, reported, silent]
              rfl

/-- The close callback finds the manager's object closing. -/
theorem closed (kin : Kin standing flow records ended) (balanced : Process.Balanced flow records)
    (there : flow.process.deleted = false)
    (first : flow.process.pending.head? = some .process)
    (idle : standing ≠ .failed)
    (moved : Process.transfer flow (.move .complete) = some (following, out)) :
    ∃ termination, standing = .closing termination ∧ ended = [] ∧
      Kin (.exiting termination) following (records ++ out) [] := by
  obtain ⟨gone, exits⟩ := Process.completed moved there first
  cases kin with
  | unborn | created => cases first
  | live _ running =>
      obtain ⟨-, quiet, -⟩ := balanced.course.living running
      exact absurd quiet.pending (Process.pending_of_complete moved)
  | closing stage _ _ code signal =>
      obtain rfl := stage.resolve_right fun failed => idle failed.1
      refine ⟨_, rfl, rfl, .exiting gone ?_⟩
      rw [Process.reported_append, Process.exits_append, balanced.course.silent there, exits, code,
        signal]
      rfl
  | exiting deleted | gone deleted => cases there.symm.trans deleted

/-- `Start` is called for a process that has just been created. -/
theorem launched {limited : Bool} {outcome : Process.Outcome}
    (kin : Kin .created flow records ended)
    (ran : Process.launch limited outcome flow = some (following, out))
    (advance : Manager.Advance manager (.spawn (resultOf outcome)) events pid .created next)
    (named : Manager.Label.Concerns manager pid (.spawn (resultOf outcome))) :
    Process.Launched limited outcome following (records ++ out) ∧
      Kin next following (records ++ out) (ended ++ endings pid events) := by
  cases kin with
  | live lives => simp at lives
  | closing stage => simp at stage
  | created =>
      obtain ⟨flow, told, launches, launched⟩ := Process.exists_launched limited outcome
      obtain ⟨rfl, rfl⟩ := Prod.mk.inj (Option.some.inj (ran.symm.trans launches))
      refine ⟨launched, ?_⟩
      cases advance with
      | keep apart => exact absurd named apart
      | run spawn _ piped forked silent lives =>
          cases spawn
          rw [silent]
          exact .live lives (launched.running piped forked).1
      | pipe spawn _ failed silent =>
          cases spawn
          obtain ⟨gone, exits⟩ := launched.unpiped failed
          rw [silent]
          exact .exiting gone exits
      | fail spawn _ piped failed silent =>
          cases spawn
          obtain ⟨closing, there, code, signal⟩ := launched.unforked piped failed
          rw [silent]
          exact .closing (.inr ⟨rfl, rfl⟩) there closing code signal

end Kin

variable {α : Type}

/-- What the manager and one of its processes have in common. -/
structure Agrees (state : State α) (past : List (Event α)) (pid : Pid) : Prop where
  child : Machine.Reaches Process.transfer Machine.always .initial (state.children pid)
    (recordsOf pid past)
  kin : ∃ standing, Stands state.manager pid standing ∧
    Kin standing (state.children pid) (recordsOf pid past) (endings pid (reports past))
  timed : ∀ proc, state.manager.procs pid = some proc →
    (state.children pid).process.running = true →
    (state.children pid).process.timer = .active → 0 < proc.command.timeout

theorem agrees_initial (pid : Pid) : Agrees (State.initial α) [] pid where
  child := .start
  kin := ⟨.unborn, .initial pid, .unborn⟩
  timed := by simp [State.initial, Manager.State.initial]

variable [DecidableEq α] {config : α → Manager.AppConfig α} {state following : State α}
variable {label : Label α} {past out : List (Event α)} {pid : Pid}
variable {heard : Manager.Label α} {manager : Manager.State α}
variable {events : List (Manager.Event α)} {flow : Process.Flow} {records : List Process.Record}

namespace Agrees

omit [DecidableEq α] in
theorem balanced (agrees : Agrees state past pid) :
    Process.Balanced (state.children pid) (recordsOf pid past) :=
  .of_reaches agrees.child

/-- The timeout of a process object is that of its command. -/
theorem timed_of_move (agrees : Agrees state past pid)
    (moved : Manager.step config state.manager heard = some (manager, events))
    {proc : Manager.Proc α} (there : manager.procs pid = some proc)
    (running : (state.children pid).process.running = true)
    (active : (state.children pid).process.timer = .active) : 0 < proc.command.timeout := by
  rcases Manager.command_of_move (Manager.move_of_step moved) there with
    ⟨before, earlier, same⟩ | fresh
  · rw [← same]
    exact agrees.timed before earlier running active
  · obtain ⟨standing, stands, kin⟩ := agrees.kin
    obtain rfl := stands.issued.mp (Nat.le_of_eq fresh.symm)
    obtain ⟨lives, -⟩ := kin.lives agrees.balanced running
    simp at lives

/-- A timeout that the manager takes finds a child that runs. -/
theorem running_of_timeout (agrees : Agrees state past pid)
    (took : Manager.step config state.manager (.timeout pid) = some (manager, events)) :
    (state.children pid).process.running = true := by
  obtain ⟨standing, stands, kin⟩ := agrees.kin
  cases Manager.move_of_step took with
  | timeout idle live runs limited =>
      have calls := stands.calls
      have phase := stands.phase
      rw [idle] at calls
      rw [Manager.State.lifeOf, live, Option.map_some, runs] at phase
      exact kin.running_of_fits calls.symm phase

/-- The manager makes a step that does not concern the process. -/
theorem aside (agrees : Agrees state past pid)
    (moved : Manager.step config state.manager heard = some (manager, events))
    (apart : ¬ heard.Concerns state.manager pid) (same : following.manager = manager)
    (kept : following.children pid = state.children pid) (told : reports out = events)
    (silent : recordsOf pid out = []) : Agrees following (past ++ out) pid where
  child := by
    rw [kept, recordsOf_append, silent, List.append_nil]
    exact agrees.child
  kin := by
    obtain ⟨standing, stands, kin⟩ := agrees.kin
    obtain ⟨next, stands, advance⟩ := Manager.advance_of_move (Manager.move_of_step moved) stands
    rw [kept, recordsOf_append, silent, List.append_nil, reports_append, told, same,
      Manager.endings_append]
    exact ⟨next, stands, kin.advance advance apart⟩
  timed := by
    rw [kept, same]
    intro proc
    exact agrees.timed_of_move moved

/-- The process makes a step of which the manager is told. -/
theorem told (agrees : Agrees state past pid)
    (moved : Manager.step config state.manager heard = some (manager, events))
    (same : following.manager = manager) (child : following.children pid = flow)
    (told : reports out = events) (mine : recordsOf pid out = records)
    (reached : Machine.Reaches Process.transfer Machine.always .initial flow
      (recordsOf pid past ++ records))
    (kin : ∀ standing next, Stands state.manager pid standing →
      Kin standing (state.children pid) (recordsOf pid past) (endings pid (reports past)) →
      Manager.Advance state.manager heard events pid standing next →
      Kin next flow (recordsOf pid past ++ records)
        (endings pid (reports past) ++ endings pid events))
    (timed : ∀ proc, manager.procs pid = some proc → flow.process.running = true →
      flow.process.timer = .active → 0 < proc.command.timeout) :
    Agrees following (past ++ out) pid where
  child := by
    rw [child, recordsOf_append, mine]
    exact reached
  kin := by
    obtain ⟨standing, stands, before⟩ := agrees.kin
    obtain ⟨next, stands', advance⟩ := Manager.advance_of_move (Manager.move_of_step moved) stands
    rw [reports_append, recordsOf_append, told, mine, child, same, Manager.endings_append]
    exact ⟨next, stands', kin standing next stands before advance⟩
  timed := by
    rw [child, same]
    exact timed

end Agrees

omit [DecidableEq α] in
theorem own_apart (owned : own heard) : ¬ heard.Concerns state.manager pid := by
  cases heard with
  | spawn | read | exited | closed | timeout => cases owned
  | clock | call | require | tick | timerClosed => exact id

omit [DecidableEq α] in
/-- What the process is told of its pipes and of its timeout. -/
theorem calm_apart {transfer : Process.Transfer} {flow : Process.Flow} {other : Pid}
    (noticed : notice other flow transfer = some heard)
    (open_ : transfer ≠ .move .complete) : ¬ heard.Concerns state.manager pid := by
  cases transfer with
  | read fd nread =>
      obtain rfl := Option.some.inj noticed
      exact id
  | write | close | ended => cases noticed
  | move move =>
      cases move with
      | tick =>
          obtain rfl := Option.some.inj noticed
          exact id
      | complete => exact absurd rfl open_
      | setTimeout | start | kill | exited => cases noticed

namespace Agrees

theorem start {role : Manager.Role α} {rest : List (Manager.Call α)} {outcome : Process.Outcome}
    (agrees : Agrees state past pid)
    (pending : state.manager.todo = .processStart pid role :: rest)
    (launched : Process.launch (limited state.manager pid) outcome (state.children pid) =
      some (flow, records))
    (moved : Manager.step config state.manager (.spawn (resultOf outcome)) =
      some (manager, events)) :
    Agrees { manager, children := Function.update state.children pid flow }
      (past ++ ((records.map (Prod.mk pid)).map .inr ++ events.map .inl)) pid := by
  have named : Manager.Label.Concerns state.manager pid (.spawn (resultOf outcome)) :=
    ⟨role, rest, pending⟩
  obtain ⟨standing, stands, kin⟩ := agrees.kin
  obtain ⟨next, -, advance⟩ := Manager.advance_of_move (Manager.move_of_step moved) stands
  obtain ⟨rfl, -⟩ := stands.of_head pending (if_pos rfl)
  obtain ⟨child, -⟩ := kin.launched launched advance named
  have always := child.reached.mono fun _ _ _ => (trivial : Machine.always _ _)
  refine agrees.told moved rfl (Function.update_self ..) (reports_both ..)
    ((recordsOf_both ..).trans (if_pos rfl)) always ?_ ?_
  · intro standing next stands kin advance
    obtain ⟨rfl, -⟩ := stands.of_head pending (if_pos rfl)
    exact (kin.launched launched advance named).2
  · intro proc there running active
    by_cases piped : outcome.pipeError = 0
    · by_cases forked : outcome.spawn = 0
      · have timed := (child.running piped forked).2 active
        obtain ⟨before, earlier, positive⟩ := (Option.any_eq_true _ _).mp timed
        rcases Manager.command_of_move (Manager.move_of_step moved) there with
          ⟨other, again, same⟩ | fresh
        · obtain rfl := Option.some.inj (earlier.symm.trans again)
          rw [← same]
          exact of_decide_eq_true positive
        · exact absurd (stands.issued.mp (Nat.le_of_eq fresh.symm)) (by simp)
      · cases (child.unforked piped forked).1.running.symm.trans running
    · have course := (Process.Balanced.of_reaches always).course
      cases (course.stopped (child.unpiped piped).1).1.symm.trans running

/-- The loop tells the process what it reads, or that its time is over. -/
theorem calm {transfer : Process.Transfer} (agrees : Agrees state past pid)
    (noticed : notice pid (state.children pid) transfer = some heard)
    (open_ : transfer ≠ .move .complete)
    (moved : Process.transfer (state.children pid) transfer = some (flow, records))
    (took : Manager.step config state.manager heard = some (manager, events)) :
    Agrees { manager, children := Function.update state.children pid flow }
      (past ++ ((records.map (Prod.mk pid)).map .inr ++ events.map .inl)) pid := by
  have reached := agrees.child.next trivial moved
  obtain ⟨standing, stands, kin⟩ := agrees.kin
  obtain ⟨running, kept⟩ : (state.children pid).process.running = true ∧
      (flow.process = (state.children pid).process ∨
        flow.process.running = true ∧ flow.process.timer = .stopped) := by
    cases transfer with
    | read fd nread =>
        obtain ⟨running, same⟩ := agrees.balanced.untouched moved (by simp)
        exact ⟨running, .inl same⟩
    | write | close | ended => cases noticed
    | move move =>
        cases move with
        | tick =>
            obtain rfl := Option.some.inj noticed
            have running := agrees.running_of_timeout took
            exact ⟨running, .inr (Process.ticked moved running)⟩
        | complete => exact absurd rfl open_
        | setTimeout | start | kill | exited => cases noticed
  have goes_on : flow.process.running = true := by
    rcases kept with same | ⟨running, -⟩
    · rw [same]
      exact running
    · exact running
  refine agrees.told took rfl (Function.update_self ..) (reports_both ..)
    ((recordsOf_both ..).trans (if_pos rfl)) reached ?_ ?_
  · intro standing next _ kin advance
    exact (kin.advance advance (calm_apart noticed open_)).still agrees.balanced running goes_on
  · intro proc there _ active
    rcases kept with same | ⟨-, stopped⟩
    · rw [same] at active
      exact agrees.timed_of_move took there running active
    · cases stopped.symm.trans active

/-- The close callback of the process runs the exit closure. -/
theorem closes (agrees : Agrees state past pid) (idle : state.manager.todo = [])
    (noticed : notice pid (state.children pid) (.move .complete) = some heard)
    (moved : Process.transfer (state.children pid) (.move .complete) = some (flow, records))
    (took : Manager.step config state.manager heard = some (manager, events)) :
    Agrees { manager, children := Function.update state.children pid flow }
      (past ++ ((records.map (Prod.mk pid)).map .inr ++ events.map .inl)) pid := by
  have reached := agrees.child.next trivial moved
  simp only [notice, Option.ite_none_right_eq_some, Option.some.injEq] at noticed
  obtain ⟨⟨there, first⟩, rfl⟩ := noticed
  refine agrees.told took rfl (Function.update_self ..) (reports_both ..)
    ((recordsOf_both ..).trans (if_pos rfl)) reached ?_ ?_
  · intro standing next stands kin advance
    have open_ : standing ≠ .failed := by
      rintro rfl
      have calls := stands.calls
      rw [idle] at calls
      cases calls
    obtain ⟨termination, rfl, ended, exiting⟩ :=
      kin.closed agrees.balanced there first open_ moved
    rw [ended]
    cases advance with
    | keep apart => exact absurd rfl apart
    | closed _ silent =>
        rw [silent]
        exact exiting
  · intro proc _ running
    have course := (Process.Balanced.of_reaches reached).course
    have gone := (Process.completed moved there first).1
    cases (course.stopped gone).1.symm.trans running

/-- The exit callback of libuv. -/
theorem exits {termination : Termination} (agrees : Agrees state past pid)
    (moved : Process.transfer (state.children pid)
      (.move (.exited termination.code termination.signal)) = some (flow, records))
    (took : Manager.step config state.manager (.exited pid termination) =
      some (manager, events)) :
    Agrees { manager, children := Function.update state.children pid flow }
      (past ++ ((records.map (Prod.mk pid)).map .inr ++ events.map .inl)) pid := by
  have reached := agrees.child.next trivial moved
  obtain ⟨running, there, closing, code, signal⟩ := agrees.balanced.notified moved
  refine agrees.told took rfl (Function.update_self ..) (reports_both ..)
    ((recordsOf_both ..).trans (if_pos rfl)) reached ?_ ?_
  · intro standing next stands kin advance
    obtain ⟨rfl | rfl, ended⟩ := kin.lives agrees.balanced running
    · cases advance with
      | keep apart => exact absurd rfl apart
      | kill inner => cases inner
    · cases advance with
      | keep apart => exact absurd rfl apart
      | exited notified silent =>
          cases notified
          rw [ended, silent]
          exact .closing (.inl rfl) there closing code signal
  · intro proc _ running
    cases closing.running.symm.trans running

omit [DecidableEq α] in
/-- A process does something that the manager does not hear of. -/
theorem unheard {transfer : Process.Transfer} {other : Pid} (agrees : Agrees state past pid)
    (permitted : permitted state.manager.todo.isEmpty transfer)
    (quiet : (notice other (state.children other) transfer : Option (Manager.Label α)) = none)
    (moved : Process.transfer (state.children other) transfer = some (flow, records)) :
    Agrees { state with children := Function.update state.children other flow }
      (past ++ (records.map (Prod.mk other)).map .inr) pid := by
  obtain ⟨standing, stands, kin⟩ := agrees.kin
  by_cases same : pid = other
  · subst same
    have reached := agrees.child.next trivial moved
    obtain ⟨kin', kept⟩ := kin.unheard agrees.balanced permitted quiet moved
    have child : (State.mk state.manager (Function.update state.children pid flow)).children pid =
      flow := Function.update_self ..
    have mine : recordsOf pid ((records.map (Prod.mk pid)).map .inr : List (Event α)) = records :=
      (recordsOf_inr ..).trans (if_pos rfl)
    refine ⟨?_, ⟨standing, stands, ?_⟩, ?_⟩
    · rw [child, recordsOf_append, mine]
      exact reached
    · rw [child, recordsOf_append, mine, reports_append, reports_inr, List.append_nil]
      exact kin'
    · rw [child]
      intro proc there running active
      rcases kept with same | gone
      · rw [same] at running active
        exact agrees.timed proc there running active
      · have course := (Process.Balanced.of_reaches reached).course
        cases (course.stopped gone).1.symm.trans running
  · have child : (State.mk state.manager (Function.update state.children other flow)).children pid =
      state.children pid := Function.update_of_ne same ..
    have silent : recordsOf pid ((records.map (Prod.mk other)).map .inr : List (Event α)) = [] :=
      (recordsOf_inr ..).trans (if_neg same)
    refine ⟨?_, ⟨standing, stands, ?_⟩, ?_⟩
    · rw [child, recordsOf_append, silent, List.append_nil]
      exact agrees.child
    · rw [child, recordsOf_append, silent, reports_append, reports_inr, List.append_nil,
        List.append_nil]
      exact kin
    · rw [child]
      exact agrees.timed

end Agrees

theorem Agrees.step (agrees : Agrees state past pid)
    (stepped : step config state label = some (following, out)) :
    Agrees following (past ++ out) pid := by
  cases steps_of_step stepped with
  | manager label manager events owned moved =>
      exact agrees.aside moved (own_apart owned) rfl rfl (reports_inl events) (by simp)
  | start other role rest outcome flow records manager events pending launched moved =>
      by_cases same : pid = other
      · subst same
        exact agrees.start pending launched moved
      · refine agrees.aside moved ?_ rfl (Function.update_of_ne same ..) (reports_both ..)
          ((recordsOf_both ..).trans (if_neg same))
        rintro ⟨role', rest', again⟩
        cases pending.symm.trans again
        exact same rfl
  | unheard other transfer flow records permitted quiet moved =>
      exact agrees.unheard permitted quiet moved
  | heard other transfer heard flow records manager events permitted noticed moved took =>
      by_cases same : pid = other
      · subst same
        by_cases last : transfer = .move .complete
        · subst last
          exact agrees.closes (List.isEmpty_iff.mp permitted) noticed moved took
        · exact agrees.calm noticed last moved took
      · refine agrees.aside took ?_ rfl (Function.update_of_ne same ..) (reports_both ..)
          ((recordsOf_both ..).trans (if_neg same))
        by_cases last : transfer = .move .complete
        · subst last
          simp only [notice, Option.ite_none_right_eq_some, Option.some.injEq] at noticed
          obtain ⟨-, rfl⟩ := noticed
          exact Ne.symm same
        · exact calm_apart noticed last
  | exited other termination flow records manager events moved took =>
      by_cases same : pid = other
      · subst same
        exact agrees.exits moved took
      · refine agrees.aside took (Ne.symm same) rfl (Function.update_of_ne same ..) (reports_both ..)
          ((recordsOf_both ..).trans (if_neg same))

theorem agrees_of_reaches {guard : State α → Label α → Prop}
    (reached : Machine.Reaches (Children.step config) guard (.initial α) state past) (pid : Pid) :
    Agrees state past pid :=
  reached.invariant (fun state past => Agrees state past pid) (agrees_initial pid)
    fun _ agrees _ stepped => agrees.step stepped

end Nexer.Children

import Nexer.Children.Lives

/-!
# The manager and its processes expect each other

Whatever the loop tells a process, the manager has the object whose closures it runs.  The
exit of every process runs one exit closure, with the same termination, and no signal goes to
a process that never had a child.
-/

namespace Nexer.Children

open Nexer.Transition
open Nexer.Manager (Pid Standing Stands Termination endings)

section Runs

/-- One app without a checker, which may run for five milliseconds. -/
def timedApp : Unit → Manager.AppConfig Unit := fun _ =>
  { command := { file := "run", timeout := 5 } }

/-- The app is required and its main process is started. -/
def begun : List (Label Unit) :=
  .manager (.require () 7) :: List.replicate 5 (.manager .call) ++ [.start {}, .manager .call]

def begunEvents : List (Event Unit) :=
  [.inl (.queued () ⟨0, .caller 7⟩), .inl (.start () 1), .inl (.prepared () 1 0)] ++
    (Process.opened.map (Prod.mk 0)).map .inr ++
    [.inl (.spawned 0 (.main () 1)), .inl (.processStart 0)]

/-- It writes, is killed at its timeout and exits, and its exit closure answers the caller. -/
def timedOut : List (Label Unit) :=
  [.child 0 (.write .stdout [104, 105]), .child 0 (.read .stdout 2), .child 0 (.move .tick),
    .child 0 .ended, .exited 0 .failure, .child 0 (.move .complete)] ++
    List.replicate 4 (.manager .call)

def timedOutEvents : List (Event Unit) :=
  [.inr (0, .wrote .stdout [104, 105]), .inr (0, .data .stdout [104, 105]),
    .inl (.processData 0 1 [104, 105]), .inr (0, .report (.event .kill)), .inl (.killed 0),
    .inr (0, .report (.recorded 1 0)), .inr (0, .report (.event (.exit 1 0))),
    .inr (0, .report (.event (.deleted Process.pipes))),
    .inl (.ended 0 (.main () 1) .failure), .inl (.processExit 0 1 0),
    .inl (.answered () ⟨0, .caller 7⟩ none 1)]

end Runs

variable {α : Type} [DecidableEq α] {config : α → Manager.AppConfig α}
variable {state following : State α} {label : Label α} {past out : List (Event α)} {pid : Pid}

/-- A timeout does not come before a close callback that is queued. -/
def punctual (flow : Process.Flow) : Process.Transfer → Prop
  | .move move => Process.punctual flow.process move
  | _ => True

instance : ∀ (flow : Process.Flow) (transfer : Process.Transfer),
    Decidable (punctual flow transfer)
  | flow, .move move => inferInstanceAs (Decidable (Process.punctual flow.process move))
  | _, .write _ _ | _, .close _ | _, .ended | _, .read _ _ => .isTrue trivial

/-- A process that has just been created has done nothing. -/
theorem Kin.initial {flow : Process.Flow} {records : List Process.Record}
    {ended : List (Int × Int)} (kin : Kin .created flow records ended) : flow = .initial := by
  cases kin with
  | created => rfl
  | live lives => simp at lives
  | closing stage => simp at stage

namespace Agrees

omit [DecidableEq α] in
/-- Between two handlers a process that runs is one that the manager believes to run. -/
theorem running (agrees : Agrees state past pid) (idle : state.manager.todo = [])
    (running : (state.children pid).process.running = true) :
    ∃ proc, state.manager.procs pid = some proc ∧ proc.phase = .running := by
  obtain ⟨standing, stands, kin⟩ := agrees.kin
  obtain ⟨rfl | rfl, -⟩ := kin.lives agrees.balanced running
  · have calls := stands.calls
    rw [idle] at calls
    cases calls
  · obtain ⟨proc, there, life⟩ := Option.map_eq_some_iff.mp stands.phase
    exact ⟨proc, there, (Prod.mk.inj life).1⟩

/-- A process can be started when the manager starts it. -/
theorem startable (agrees : Agrees state past pid) {role : Manager.Role α}
    {rest : List (Manager.Call α)} (pending : state.manager.todo = .processStart pid role :: rest)
    (outcome : Process.Outcome) :
    ∃ following out, Children.step config state (.start outcome) = some (following, out) := by
  obtain ⟨standing, stands, kin⟩ := agrees.kin
  obtain ⟨rfl, -⟩ := stands.of_head pending (if_pos rfl)
  obtain ⟨flow, records, launched, -⟩ :=
    Process.exists_launched (limited state.manager pid) outcome
  simp only [Children.step, pending, kin.initial, launched, Option.bind_some, Manager.step, Option.map_some]
  exact ⟨_, _, rfl⟩

/-- The manager takes what the loop tells the process. -/
theorem heard {transfer : Process.Transfer} {heard : Manager.Label α}
    (agrees : Agrees state past pid) (config : α → Manager.AppConfig α) (idle : state.manager.todo = [])
    (noticed : notice pid (state.children pid) transfer = some heard)
    (timely : punctual (state.children pid) transfer)
    (able : (Process.transfer (state.children pid) transfer).isSome) :
    (Manager.step config state.manager heard).isSome := by
  obtain ⟨standing, stands, kin⟩ := agrees.kin
  obtain ⟨⟨flow, records⟩, moved⟩ := Option.isSome_iff_exists.mp able
  cases transfer with
  | write | close | ended => cases noticed
  | read fd nread =>
      obtain rfl := Option.some.inj noticed
      obtain ⟨runs, -⟩ := agrees.balanced.untouched moved (by simp)
      obtain ⟨proc, there, phase⟩ := agrees.running idle runs
      simp [Manager.step, Manager.deliver, idle, there, phase]
  | move move =>
      cases move with
      | setTimeout | start | kill | exited => cases noticed
      | tick =>
          obtain rfl := Option.some.inj noticed
          have runs := kin.running_of_tick agrees.balanced timely moved
          obtain ⟨proc, there, phase⟩ := agrees.running idle runs
          have positive := agrees.timed proc there runs (Process.active_of_tick moved)
          simp [Manager.step, Manager.deliver, idle, there, phase, positive]
      | complete =>
          simp only [notice, Option.ite_none_right_eq_some, Option.some.injEq] at noticed
          obtain ⟨⟨there, first⟩, rfl⟩ := noticed
          have waiting : standing ≠ .failed := by
            rintro rfl
            have calls := stands.calls
            rw [idle] at calls
            cases calls
          obtain ⟨termination, rfl, -⟩ := kin.closed agrees.balanced there first waiting moved
          obtain ⟨spawned, life⟩ := stands.phase
          obtain ⟨proc, there, same⟩ := Option.map_eq_some_iff.mp life
          have phase := (Prod.mk.inj same).1
          simp [Manager.step, Manager.deliver, idle, there, phase]

end Agrees

omit [DecidableEq α] in
theorem idle_of_noticed {transfer : Process.Transfer} {flow : Process.Flow} {idle : Bool}
    {heard : Manager.Label α} (noticed : notice pid flow transfer = some heard)
    (permitted : permitted idle transfer) : idle = true := by
  cases transfer with
  | write | close | ended => cases noticed
  | read => exact permitted
  | move move =>
      cases move with
      | setTimeout | start | kill | exited => cases permitted
      | tick | complete => exact permitted

/-- Whatever the loop does to a process at any time, the process and the manager take it, but
for a timeout that comes before a close callback: the object is there, with the closures that
are run, and what the manager believes of it is true. -/
theorem child_expected {guard : State α → Label α → Prop}
    (reached : Machine.Reaches (step config) guard (.initial α) state past) :
    (∀ pid role rest, state.manager.todo = .processStart pid role :: rest →
      ∀ outcome, ∃ following out, step config state (.start outcome) = some (following, out)) ∧
    (∀ pid (termination : Termination), state.manager.todo = [] →
      (Process.transfer (state.children pid)
        (.move (.exited termination.code termination.signal))).isSome →
      ∃ following out, step config state (.exited pid termination) = some (following, out)) ∧
    ∀ pid transfer, permitted state.manager.todo.isEmpty transfer →
      punctual (state.children pid) transfer →
      (Process.transfer (state.children pid) transfer).isSome →
      ∃ following out, step config state (.child pid transfer) = some (following, out) := by
  refine ⟨fun pid role rest pending outcome => ?_, fun pid termination idle able => ?_,
    fun pid transfer permitted timely able => ?_⟩
  · exact (agrees_of_reaches reached pid).startable pending outcome
  · have agrees := agrees_of_reaches reached pid
    obtain ⟨⟨flow, records⟩, moved⟩ := Option.isSome_iff_exists.mp able
    obtain ⟨proc, there, phase⟩ := agrees.running idle (agrees.balanced.notified moved).1
    simp [step, tell, moved, Manager.step, Manager.deliver, idle, there, phase]
  · have agrees := agrees_of_reaches reached pid
    obtain ⟨⟨flow, records⟩, moved⟩ := Option.isSome_iff_exists.mp able
    cases noticed : (notice pid (state.children pid) transfer : Option (Manager.Label α)) with
    | none => simp [step, tell, permitted, moved, noticed]
    | some heard =>
        have idle := List.isEmpty_iff.mp (idle_of_noticed noticed permitted)
        obtain ⟨⟨manager, events⟩, took⟩ :=
          Option.isSome_iff_exists.mp (agrees.heard config idle noticed timely able)
        simp [step, tell, permitted, moved, noticed, took]

/-- A child that has just been started times out. -/
theorem child_expected_run : ∃ state past,
    Machine.Reaches (step timedApp) Machine.always (.initial Unit) state past ∧
      ∃ following out, step timedApp state (.child 0 (.move .tick)) = some (following, out) := by
  obtain ⟨state, reached, checked⟩ := Machine.exists_reaches (step timedApp) Machine.always
    (.initial Unit) begun begunEvents
    (fun state => permitted state.manager.todo.isEmpty (.move .tick) ∧
      punctual (state.children 0) (.move .tick) ∧
      (Process.transfer (state.children 0) (.move .tick)).isSome) (by decide)
  obtain ⟨idle, timely, able⟩ := of_decide_eq_true checked
  exact ⟨state, _, reached, (child_expected reached).2.2 0 (.move .tick) idle timely able⟩

/-- The exit closures that have run, beside the exits that the process has reported. -/
theorem Kin.accounts {standing : Standing} {flow : Process.Flow} {records : List Process.Record}
    {ended : List (Int × Int)} (kin : Kin standing flow records ended)
    (balanced : Process.Balanced flow records) :
    ended = [] ∧ (Process.exits (Process.reported records) = [] ∨
        ∃ termination, standing = .exiting termination) ∨
      standing = .gone ∧ ∃ ending, ended = [ending] ∧
        Process.exits (Process.reported records) = [ending] ∧
        (Process.recordings (Process.reported records)).head? = some ending := by
  cases kin with
  | unborn | created => exact .inl ⟨rfl, .inl rfl⟩
  | live _ running => exact .inl ⟨rfl, .inl (balanced.unreported running).1⟩
  | closing _ there => exact .inl ⟨rfl, .inl (balanced.course.silent there)⟩
  | exiting => exact .inl ⟨rfl, .inr ⟨_, rfl⟩⟩
  | gone deleted exits =>
      refine .inr ⟨rfl, _, rfl, exits, ?_⟩
      cases (balanced.course.orderly_of_deleted deleted).life with
      | fresh _ there | live there | closing there => cases there.symm.trans deleted
      | gone _ _ _ ending recorded reported =>
          rw [recorded, ← reported, exits]
          rfl

omit [DecidableEq α] in
theorem Agrees.exits_of_ending {ending : Int × Int} (agrees : Agrees state past pid)
    (member : ending ∈ endings pid (reports past)) :
    Process.exits (Process.reported (recordsOf pid past)) = [ending] := by
  obtain ⟨standing, -, kin⟩ := agrees.kin
  rcases kin.accounts agrees.balanced with ⟨silent, -⟩ | ⟨-, last, ended, exits, -⟩
  · rw [silent] at member
    cases member
  · rw [ended, List.mem_singleton] at member
    rw [exits, member]

/-- When nothing is pending and the loop has nothing left for a process that was created, the
manager has deleted it. -/
theorem Kin.gone_of_settled {standing : Standing} {flow : Process.Flow}
    {records : List Process.Record} {ended : List (Int × Int)}
    (kin : Kin standing flow records ended) (idle : standing.calls = [])
    (born : standing ≠ .unborn) (settled : Process.Settled flow.process) : standing = .gone := by
  cases kin with
  | unborn => exact absurd rfl born
  | created | exiting => cases idle
  | live _ running => cases settled.running.symm.trans running
  | closing _ _ closing => exact absurd (List.mem_of_head? closing.first) settled.pending
  | gone => rfl

theorem Kin.ended_of_gone {flow : Process.Flow} {records : List Process.Record}
    {ended : List (Int × Int)} (kin : Kin .gone flow records ended) : ended ≠ [] := by
  cases kin with
  | live lives => simp at lives
  | closing stage => simp at stage
  | gone => simp

omit [DecidableEq α] in
/-- Between two handlers the manager has no object left for a process that is over. -/
theorem Agrees.forgotten (agrees : Agrees state past pid) (idle : state.manager.todo = [])
    (ends : pid < state.manager.nextPid → Process.Settled (state.children pid).process) :
    state.manager.procs pid = none := by
  obtain ⟨standing, stands, kin⟩ := agrees.kin
  have calls : standing.calls = [] := by
    rw [← stands.calls, idle]
    rfl
  by_cases unborn : standing = .unborn
  · subst unborn
    exact Option.map_eq_none_iff.mp stands.phase
  · have below := Nat.lt_of_not_le fun above => unborn (stands.issued.mp above)
    obtain rfl := kin.gone_of_settled calls unborn (ends below)
    exact Option.map_eq_none_iff.mp stands.phase

/-- The process of an object that the manager has started and not seen the end of. -/
theorem Kin.there {standing : Standing} {flow : Process.Flow} {records : List Process.Record}
    {ended : List (Int × Int)} (kin : Kin standing flow records ended)
    (balanced : Process.Balanced flow records)
    (lives : standing = .unread ∨ standing = .running ∨
      ∃ termination, standing = .closing termination) :
    flow.process.deleted = false ∧ (flow.process.running = true ∨
      (∃ termination, standing = .closing termination) ∧ Process.Closing flow.process) := by
  cases kin with
  | unborn | created | exiting | gone => simp at lives
  | live _ running => exact ⟨(balanced.course.living running).1, .inl running⟩
  | closing stage there closing =>
      obtain same | ⟨same, -⟩ := stage
      · exact ⟨there, .inr ⟨⟨_, same⟩, closing⟩⟩
      · simp [same] at lives

/-- The exit closure of a process runs once, with the termination that the process reports:
at once when no handler is running, and for every process by the time that nothing is left
for the loop to tell it.  The manager's object is deleted then. -/
theorem ended_once {guard : State α → Label α → Prop}
    (reached : Machine.Reaches (step config) guard (.initial α) state past) (pid : Pid) :
    (endings pid (reports past) = [] ∨
      ∃ ending, endings pid (reports past) = [ending] ∧
        Process.exits (Process.reported (recordsOf pid past)) = [ending] ∧
        (Process.recordings (Process.reported (recordsOf pid past))).head? = some ending) ∧
    (state.manager.todo = [] →
      endings pid (reports past) = Process.exits (Process.reported (recordsOf pid past)) ∧
      (Process.Settled (state.children pid).process → pid < state.manager.nextPid →
        state.manager.procs pid = none ∧ endings pid (reports past) ≠ [])) := by
  have agrees := agrees_of_reaches reached pid
  obtain ⟨standing, stands, kin⟩ := agrees.kin
  have accounts := kin.accounts agrees.balanced
  refine ⟨?_, fun idle => ?_⟩
  · rcases accounts with ⟨silent, -⟩ | ⟨-, ending⟩
    · exact .inl silent
    · exact .inr ending
  have calls : standing.calls = [] := by
    rw [← stands.calls, idle]
    rfl
  refine ⟨?_, fun settled below => ?_⟩
  · rcases accounts with ⟨silent, unreported | ⟨termination, rfl⟩⟩ | ⟨-, ending, ended, exits, -⟩
    · rw [silent, unreported]
    · cases calls
    · rw [ended, exits]
  · have born : standing ≠ .unborn := fun unborn =>
      absurd (stands.issued.mpr unborn) (Nat.not_le_of_lt below)
    obtain rfl := kin.gone_of_settled calls born settled
    exact ⟨Option.map_eq_none_iff.mp stands.phase, kin.ended_of_gone⟩

/-- The child that has timed out is gone. -/
theorem ended_once_run : ∃ state past,
    Machine.Reaches (step timedApp) Machine.always (.initial Unit) state past ∧
      state.manager.procs 0 = none ∧ endings 0 (reports past) ≠ [] := by
  obtain ⟨state, reached, checked⟩ := Machine.exists_reaches (step timedApp) Machine.always
    (.initial Unit) (begun ++ timedOut) (begunEvents ++ timedOutEvents)
    (fun state => state.manager.todo = [] ∧ state.manager.nextPid = 1 ∧
      (state.children 0).process.running = false ∧ (state.children 0).process.timer = .closed ∧
      .process ∉ (state.children 0).process.pending) (by decide)
  obtain ⟨idle, issued, stopped, timer, pending⟩ := of_decide_eq_true checked
  have settled : Process.Settled (state.children 0).process := ⟨stopped, by simp [timer], pending⟩
  have below : 0 < state.manager.nextPid := by simp [issued]
  exact ⟨state, _, reached, ((ended_once reached 0).2 idle).2 settled below⟩

omit [DecidableEq α] in
/-- A closure of the manager is no call that it makes itself. -/
theorem call_of_heard (call : heard state label = some .call) : label = .manager .call := by
  cases label with
  | manager label => exact congrArg Label.manager (Option.some.inj call)
  | start | exited => cases call
  | child pid transfer =>
      have noticed : notice pid (state.children pid) transfer = some .call := call
      exact absurd noticed (by unfold notice; split <;> simp)

/-- A signal goes to a process that exists and for which `uv_spawn` has succeeded.  Its child
is running, unless `Require` kills: then it may have ended, with the exit closure to run. -/
theorem signal_reaches_child {guard : State α → Label α → Prop}
    (reached : Machine.Reaches (step config) guard (.initial α) state past)
    (stepped : step config state label = some (following, out))
    (killed : .killed pid ∈ reports out) :
    (∃ role, .spawned pid role ∈ reports past) ∧
      (state.children pid).process.deleted = false ∧
      ((state.children pid).process.running = true ∨
        label = .manager .call ∧ Process.Closing (state.children pid).process) := by
  have agrees := agrees_of_reaches reached pid
  have recorded := Manager.recorded_of_reaches (manager_of_reaches reached)
  obtain ⟨standing, stands, kin⟩ := agrees.kin
  have follows := refines_manager.step stepped
  rw [ownReports_eq] at follows
  rcases follows.cases with ⟨-, -, silent⟩ | ⟨told, named, moved⟩
  · rw [silent] at killed
    cases killed
  obtain ⟨lives, spawned⟩ :=
    Manager.spawned_of_killed (Manager.move_of_step moved) recorded stands killed
  obtain ⟨role, -, reported⟩ := recorded.spawned pid spawned
  have begun : standing = .unread ∨ standing = .running ∨
      ∃ termination, standing = .closing termination :=
    lives.imp_right fun lives => lives.imp_right And.right
  obtain ⟨there, child⟩ := kin.there agrees.balanced begun
  refine ⟨⟨role, reported⟩, there, ?_⟩
  rcases child with running | ⟨⟨termination, same⟩, closing⟩
  · exact .inl running
  · obtain unread | running | ⟨call, -⟩ := lives
    · cases same.symm.trans unread
    · cases same.symm.trans running
    · exact .inr ⟨call_of_heard (call ▸ named), closing⟩

/-- The signal of a timeout. -/
theorem signal_reaches_child_run : ∃ state past,
    Machine.Reaches (step timedApp) Machine.always (.initial Unit) state past ∧
      ∃ following out, step timedApp state (.child 0 (.move .tick)) = some (following, out) ∧
        .killed 0 ∈ reports out ∧ (state.children 0).process.running = true := by
  obtain ⟨state, reached, checked⟩ := Machine.exists_reaches (step timedApp) Machine.always
    (.initial Unit) begun begunEvents
    (fun state => (step timedApp state (.child 0 (.move .tick))).any
      fun effect : State Unit × List (Event Unit) =>
        decide (Manager.Event.killed 0 ∈ reports effect.2)) (by decide)
  obtain ⟨⟨following, out⟩, stepped, killed⟩ := (Option.any_eq_true _ _).mp checked
  have killed : .killed 0 ∈ reports out := of_decide_eq_true killed
  obtain ⟨-, -, running | ⟨call, -⟩⟩ := signal_reaches_child reached stepped killed
  · exact ⟨state, _, reached, following, out, stepped, killed, running⟩
  · cases call

end Nexer.Children

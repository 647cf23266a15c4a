import Nexer.Manager.Recorded
import Nexer.Transition.Observation

/-!
# How often the continuation of a check is invoked

The closures that `Check` gives to its process invoke the continuation when the
process reports an error and when it has exited.  A process that reports an error
exits as well: one that could not be started, and one whose output could not be read.
-/

namespace Nexer.Manager

open Nexer.Transition

/-- What happens to the process of a check: it is created with the continuation, libuv
returns or reports an error for it, and one of its closures invokes the continuation. -/
inductive CheckEvent (α : Type) where
  | began (pid : Pid) (next : CheckThen α)
  | erred (pid : Pid)
  | completed (pid : Pid) (next : CheckThen α) (error : Int)
  deriving DecidableEq

variable {α : Type} [DecidableEq α]

/-- What a step does to the process of a check. -/
def checkEvents (config : α → AppConfig α) (state : State α) (label : Label α) :
    List (CheckEvent α) :=
  match label with
  | .call =>
      match state.todo with
      | .check app next :: _ =>
          if (config app).checker.isSome then [.began state.nextPid next] else []
      | .onError pid (.checker _ next) error :: _ => [.completed pid next error]
      | .onExit pid (.checker _ next) termination :: _ =>
          [.completed pid next (toInt termination.status)]
      | _ => []
  | .spawn result =>
      match state.todo with
      | .processStart pid (.checker ..) :: _ => if result = {} then [] else [.erred pid]
      | _ => []
  | .read pid _ nread _ =>
      match state.roleOf pid with
      | some (.checker ..) => if nread ≤ 0 ∧ nread ≠ uvEof then [.erred pid] else []
      | _ => []
  | _ => []

/-- The manager, observed by its checks. -/
def checking (config : α → AppConfig α) : Machine (State α) (Label α) (CheckEvent α) :=
  (step config).noting fun state label _ => checkEvents config state label

/-- The invocations of the continuation by the closures of a process. -/
def completions (pid : Pid) (past : List (CheckEvent α)) : List (CheckThen α × Int) :=
  past.filterMap fun
    | .completed other next error => if other = pid then some (next, error) else none
    | _ => none

/-- The error closure of a process that is still to run. -/
def Call.fails (pid : Pid) : Call α → Bool
  | .onError other _ _ => other = pid
  | _ => false

def failing (state : State α) (pid : Pid) : Nat := state.todo.countP (Call.fails pid)

/-- The process object has been deleted. -/
def gone (state : State α) (pid : Pid) : Nat := if state.roleOf pid = none then 1 else 0

variable {config : α → AppConfig α} {state following : State α} {label : Label α}
variable {past : List (CheckEvent α)} {out : List (Event α)}

/-- A process that has been created for a check. -/
def Checks (state : State α) (pid : Pid) : Prop :=
  pid < state.nextPid ∧ ∀ role, state.roleOf pid = some role → ∃ app next, role = .checker app next

/-- The balance of a process after a step: every error and the exit lead to one invocation. -/
def Balances (config : α → AppConfig α) (state following : State α) (label : Label α)
    (pid : Pid) : Prop :=
  (completions pid (checkEvents config state label)).length + failing following pid +
      gone state pid =
    failing state pid + (checkEvents config state label).count (.erred pid) +
      gone following pid

omit [DecidableEq α] in
/-- The calls that a step makes report no error, but for those of a `Process::Start`. -/
theorem fails_of_makes {head : Call α} {calls : List (Call α)}
    (made : Makes config state label following head calls) (pid : Pid)
    (other : ∀ pid role, head ≠ .processStart pid role) :
    ∀ call ∈ calls, call.fails pid = false := by
  cases made <;> simp [Call.fails]
  case pipe pid role | spawn pid role | unread pid role =>
    exact absurd rfl (other _ _)

/-- A call, as a step makes it. -/
theorem made_of_call (moved : step config state .call = some (following, out)) :
    ∃ head rest calls, state.todo = head :: rest ∧ following.todo = calls ++ rest ∧
      (∀ pid role, head ≠ .processStart pid role) ∧
      Makes config state .call following head calls := by
  rcases todo_of_move (move_of_step moved) with ⟨outer, _⟩ |
    ⟨head, rest, calls, _, pending, after, made⟩ | ⟨_, _, _, delivered⟩
  · cases outer
  · refine ⟨head, rest, calls, pending, after, ?_, made⟩
    rintro pid role rfl
    simp [step, pending, perform] at moved
  · cases delivered

/-- A call that is no exit callback leaves the objects that are there. -/
theorem gone_of_call (moved : step config state .call = some (following, out)) {pid : Pid}
    (made : pid < state.nextPid) {head : Call α} {rest : List (Call α)}
    (pending : state.todo = head :: rest) (other : ∀ role termination, head ≠ .onExit pid role termination) :
    gone following pid = gone state pid := by
  rcases roleOf_of_move (move_of_step moved) pid with same | ⟨rfl, _⟩ | ⟨_, _, _, _, top, _⟩
  · simp only [gone, same]
  · exact absurd made (Nat.lt_irrefl _)
  · exact absurd (List.cons.inj (pending.symm.trans top)).1 (other _ _)

/-- The balance of a call is that of its closure: one invocation for the error or the exit. -/
theorem accounts_of_call (moved : step config state .call = some (following, out))
    (sound : Sound config state) {pid : Pid} (checks : Checks state pid) :
    Balances config state following .call pid := by
  obtain ⟨head, rest, calls, pending, after, unstarted, made⟩ := made_of_call moved
  have mute : calls.countP (Call.fails pid) = 0 :=
    List.countP_eq_zero.2 fun call member => by simp [fails_of_makes made pid unstarted call member]
  have left : failing following pid = rest.countP (Call.fails pid) := by
    rw [failing, after, List.countP_append, mute, Nat.zero_add]
  have before : failing state pid =
      rest.countP (Call.fails pid) + if head.fails pid then 1 else 0 := by
    rw [failing, pending, List.countP_cons]
  unfold Balances
  rw [left, before]
  by_cases exits : ∃ role termination, head = .onExit pid role termination
  · obtain ⟨role, termination, rfl⟩ := exits
    have there : state.roleOf pid = some role := sound.role_of_top pending rfl
    obtain ⟨app, next, rfl⟩ := checks.2 role there
    have deleted : following.roleOf pid = none := by
      rw [State.roleOf, gone_of_exit (move_of_step moved) rfl pending]
      rfl
    simp [checkEvents, pending, completions, gone, there, deleted, Call.fails]
    omega
  · have kept : gone following pid = gone state pid := by
      apply gone_of_call moved checks.1 pending
      exact fun role termination same => exits ⟨role, termination, same⟩
    rw [kept]
    by_cases errs : ∃ role error, head = .onError pid role error
    · obtain ⟨role, error, rfl⟩ := errs
      obtain ⟨app, next, rfl⟩ := checks.2 role (sound.role_of_top pending rfl)
      simp [checkEvents, pending, completions, Call.fails]
      omega
    · have silent : completions pid (checkEvents config state .call) = [] ∧
          (checkEvents config state .call).count (.erred pid) = 0 ∧ head.fails pid = false := by
        cases head with
        | check app next =>
            simp only [checkEvents, pending]
            split <;> simp [completions, Call.fails]
        | onError other role error =>
            have different : other ≠ pid := fun same => errs ⟨role, error, same ▸ rfl⟩
            cases role <;> simp [checkEvents, pending, completions, Call.fails, different]
        | onExit other role termination =>
            have different : other ≠ pid := fun same => exits ⟨role, termination, same ▸ rfl⟩
            cases role <;> simp [checkEvents, pending, completions, Call.fails, different]
        | _ => simp [checkEvents, pending, completions, Call.fails]
      simp [silent]

omit [DecidableEq α] in
/-- `Process::Start` reports an error for every result but success. -/
theorem failing_processStart (other pid : Pid) (role : Role α) (result : SpawnResult)
    (state : State α) :
    failing (processStart other role result state).1 pid =
      failing state pid + if result ≠ {} ∧ other = pid then 1 else 0 := by
  obtain ⟨pipe, spawn, readStdout, readStderr⟩ := result
  simp only [processStart]
  split
  · rename_i failed
    simp [failing, Call.fails, failed, List.countP_cons]
  · split
    · rename_i failed
      simp [failing, Call.fails, failed, List.countP_cons]
    · split
      · rename_i failed
        simp [failing, Call.fails, failed, List.countP_cons]
      · split
        · rename_i failed
          simp [failing, Call.fails, failed, List.countP_cons]
        · rename_i piped forked stdout stderr
          simp only [not_not] at piped forked stdout stderr
          simp [failing, piped, forked, stdout, stderr]

/-- The balance of `Process::Start`: an error is reported for every result but success. -/
theorem accounts_of_spawn {result : SpawnResult}
    (moved : step config state (.spawn result) = some (following, out))
    (sound : Sound config state) {pid : Pid} (checks : Checks state pid) :
    Balances config state following (.spawn result) pid := by
  have kept : gone following pid = gone state pid := by
    rcases roleOf_of_move (move_of_step moved) pid with same | ⟨rfl, _⟩ | ⟨_, _, _, called, _⟩
    · simp only [gone, same]
    · exact absurd checks.1 (Nat.lt_irrefl _)
    · cases called
  unfold Balances
  rw [kept]
  simp only [step] at moved
  split at moved
  · rename_i other role rest pending
    have spawned := failing_processStart other pid role result (state.after rest)
    rw [Option.some.inj moved] at spawned
    have before : failing state pid = failing (state.after rest) pid := by
      simp [failing, pending, Call.fails]
    rw [spawned, before]
    by_cases same : other = pid
    · subst same
      obtain ⟨app, next, rfl⟩ := checks.2 role (sound.role_of_top pending rfl)
      by_cases succeeded : result = {} <;> simp [checkEvents, pending, completions, succeeded]
    · cases role with
      | main => simp [checkEvents, pending, completions, same]
      | checker =>
          by_cases succeeded : result = {} <;>
            simp [checkEvents, pending, completions, succeeded, same]
  · cases moved

/-- The balance of an event of the loop: a read may report an error. -/
theorem accounts_of_event (moved : step config state label = some (following, out))
    (outer : label.inner = false) {pid : Pid} (checks : Checks state pid) :
    Balances config state following label pid := by
  have move := move_of_step moved
  have kept : gone following pid = gone state pid := by
    rcases roleOf_of_move move pid with same | ⟨rfl, _⟩ | ⟨_, _, _, rfl, _⟩
    · simp only [gone, same]
    · exact absurd checks.1 (Nat.lt_irrefl _)
    · cases outer
  unfold Balances
  rw [kept]
  clear kept moved
  cases move
  case readError other fd nread buffer proc idle live running failed =>
    have role : state.roleOf other = some proc.role := by simp [State.roleOf, live]
    by_cases same : other = pid
    · subst same
      obtain ⟨app, next, checker⟩ := checks.2 _ role
      simp [checkEvents, role, checker, failed, completions, failing, idle, Call.fails]
    · cases main : proc.role <;>
        simp [checkEvents, role, main, failed, completions, failing, idle, Call.fails, same]
  case readData other fd nread buffer proc idle live running received =>
    have role : state.roleOf other = some proc.role := by simp [State.roleOf, live]
    cases main : proc.role <;>
      simp [checkEvents, role, main, completions, Int.not_le.2 received]
  case readEnd other fd buffer proc idle live running =>
    have role : state.roleOf other = some proc.role := by simp [State.roleOf, live]
    cases main : proc.role <;> simp [checkEvents, role, main, completions]
  all_goals
    first
    | (cases outer; done)
    | simp [checkEvents, completions, failing, Call.fails, *]

omit [DecidableEq α] in
/-- A step does one thing at most, and to the process of a check. -/
theorem checkEvents_cases (config : α → AppConfig α) (sound : Sound config state)
    (label : Label α) :
    checkEvents config state label = [] ∨
    (∃ app next rest, label = .call ∧ state.todo = .check app next :: rest ∧
      (config app).checker.isSome ∧
      checkEvents config state label = [.began state.nextPid next]) ∨
    (∃ pid app next, state.roleOf pid = some (.checker app next) ∧
      ((∃ error, checkEvents config state label = [.completed pid next error]) ∨
        checkEvents config state label = [.erred pid])) := by
  cases label with
  | call =>
      cases pending : state.todo with
      | nil => simp [checkEvents, pending]
      | cons head rest =>
          cases head with
          | check app next =>
              by_cases checker : (config app).checker.isSome
              · exact .inr (.inl ⟨app, next, rest, rfl, rfl, checker,
                  by simp [checkEvents, pending, checker]⟩)
              · exact .inl (by simp [checkEvents, pending, checker])
          | onError pid role error =>
              have there := sound.role_of_top pending rfl
              cases role with
              | main => exact .inl (by simp [checkEvents, pending])
              | checker app next =>
                  exact .inr (.inr ⟨pid, app, next, there,
                    .inl ⟨error, by simp [checkEvents, pending]⟩⟩)
          | onExit pid role termination =>
              have there := sound.role_of_top pending rfl
              cases role with
              | main => exact .inl (by simp [checkEvents, pending])
              | checker app next =>
                  exact .inr (.inr ⟨pid, app, next, there,
                    .inl ⟨toInt termination.status, by simp [checkEvents, pending]⟩⟩)
          | _ => exact .inl (by simp [checkEvents, pending])
  | spawn result =>
      cases pending : state.todo with
      | nil => exact .inl (by simp [checkEvents, pending])
      | cons head rest =>
          cases head with
          | processStart pid role =>
              have there := sound.role_of_top pending rfl
              cases role with
              | main => exact .inl (by simp [checkEvents, pending])
              | checker app next =>
                  by_cases succeeded : result = {}
                  · exact .inl (by simp [checkEvents, pending, succeeded])
                  · exact .inr (.inr ⟨pid, app, next, there,
                      .inr (by simp [checkEvents, pending, succeeded])⟩)
          | _ => exact .inl (by simp [checkEvents, pending])
  | read pid fd nread buffer =>
      cases there : state.roleOf pid with
      | none => exact .inl (by simp [checkEvents, there])
      | some role =>
          cases role with
          | main => exact .inl (by simp [checkEvents, there])
          | checker app next =>
              by_cases failed : nread ≤ 0 ∧ nread ≠ uvEof
              · exact .inr (.inr ⟨pid, app, next, there,
                  .inr (by simp [checkEvents, there, failed])⟩)
              · exact .inl (by simp only [checkEvents, there, if_neg failed])
  | _ => exact .inl rfl

theorem accounts_of_step (moved : step config state label = some (following, out))
    (sound : Sound config state) {pid : Pid} (checks : Checks state pid) :
    Balances config state following label pid := by
  cases label with
  | call => exact accounts_of_call moved sound checks
  | spawn => exact accounts_of_spawn moved sound checks
  | _ => exact accounts_of_event moved rfl checks

/-- The account of a process that was created with a continuation. -/
structure Account (state : State α) (past : List (CheckEvent α)) (pid : Pid)
    (next : CheckThen α) : Prop where
  checks : Checks state pid
  role : ∀ app other, state.roleOf pid = some (.checker app other) → other = next
  same : ∀ completion ∈ completions pid past, completion.1 = next
  balance :
    (completions pid past).length + failing state pid = past.count (.erred pid) + gone state pid

structure Accounted (state : State α) (past : List (CheckEvent α)) : Prop where
  began : ∀ pid next, .began pid next ∈ past → Account state past pid next
  fresh : ∀ pid, state.nextPid ≤ pid → completions pid past = [] ∧ .erred pid ∉ past

omit [DecidableEq α] in
theorem completions_append (pid : Pid) (past later : List (CheckEvent α)) :
    completions pid (past ++ later) = completions pid past ++ completions pid later :=
  List.filterMap_append

namespace Accounted

theorem initial : Accounted (State.initial α) [] where
  began := by simp
  fresh := by simp [completions]

omit [DecidableEq α] in
/-- A process that is not there has no handler. -/
theorem failing_gone (sound : Sound config state) {pid : Pid} (none : state.procs pid = none) :
    failing state pid = 0 := by
  rw [failing, List.countP_eq_zero]
  intro call member fails
  cases call with
  | onError other role error =>
      obtain rfl : other = pid := by simpa [Call.fails] using fails
      have there := sound.roles _ member other role rfl
      simp [State.roleOf, none] at there
  | _ => simp [Call.fails] at fails

theorem fresh_of_step (accounted : Accounted state past)
    (moved : step config state label = some (following, out)) (sound : Sound config state)
    (pid : Pid) (unmade : following.nextPid ≤ pid) :
    completions pid (past ++ checkEvents config state label) = [] ∧
      .erred pid ∉ past ++ checkEvents config state label := by
  have grown : state.nextPid ≤ following.nextPid := nextPid_of_move (move_of_step moved)
  obtain ⟨silent, fine⟩ := accounted.fresh pid (Nat.le_trans grown unmade)
  have unknown : state.roleOf pid = none := by
    simp [State.roleOf, sound.fresh pid (Nat.le_trans grown unmade)]
  rw [completions_append, silent]
  rcases checkEvents_cases config sound label with
    idle | ⟨app, next, rest, -, -, -, began⟩ | ⟨other, app, next, there, ⟨error, did⟩ | did⟩
  · simpa [idle, completions] using fine
  · simpa [began, completions] using fine
  · have different : other ≠ pid := by
      rintro rfl
      rw [unknown] at there
      cases there
    simpa [did, completions, different] using fine
  · have different : pid ≠ other := by
      rintro rfl
      rw [unknown] at there
      cases there
    simpa [did, completions, different] using fine

/-- A process that was created earlier. -/
theorem earlier_of_step (accounted : Accounted state past)
    (moved : step config state label = some (following, out)) (sound : Sound config state)
    {pid : Pid} {next : CheckThen α} (began : .began pid next ∈ past) :
    Account following (past ++ checkEvents config state label) pid next := by
  obtain ⟨⟨made, checker⟩, role, same, balance⟩ := accounted.began pid next began
  have move := move_of_step moved
  have roles : ∀ found, following.roleOf pid = some found → state.roleOf pid = some found := by
    intro found there
    rcases roleOf_of_move move pid with kept | ⟨rfl, _⟩ | ⟨_, _, _, _, _, gone⟩
    · exact kept ▸ there
    · exact absurd made (Nat.lt_irrefl _)
    · rw [gone] at there
      cases there
  constructor
  · exact ⟨Nat.lt_of_lt_of_le made (nextPid_of_move move),
      fun found there => checker found (roles found there)⟩
  · exact fun app other there => role app other (roles _ there)
  · intro completion member
    rw [completions_append, List.mem_append] at member
    rcases member with before | now
    · exact same completion before
    · rcases checkEvents_cases config sound label with
        idle | ⟨_, _, _, _, _, _, did⟩ | ⟨other, app, found, there, ⟨error, did⟩ | did⟩
      · simp [idle, completions] at now
      · simp [did, completions] at now
      · by_cases mine : other = pid
        · subst mine
          simp only [did, completions, List.filterMap_cons, if_true, List.filterMap_nil,
            List.mem_singleton] at now
          rw [now]
          exact role app found there
        · simp [did, completions, mine] at now
      · simp [did, completions] at now
  · have accounts := accounts_of_step moved sound ⟨made, checker⟩
    rw [completions_append, List.length_append, List.count_append]
    simp only [Balances] at accounts
    omega

/-- A process that the step creates. -/
theorem began_of_step (accounted : Accounted state past)
    (moved : step config state .call = some (following, out)) (sound : Sound config state)
    {app : α} {next : CheckThen α} {rest : List (Call α)}
    (pending : state.todo = .check app next :: rest) (checker : (config app).checker.isSome) :
    Account following (past ++ [.began state.nextPid next]) state.nextPid next := by
  obtain ⟨silent, fine⟩ := accounted.fresh state.nextPid (Nat.le_refl _)
  obtain ⟨command, given⟩ := Option.isSome_iff_exists.1 checker
  simp only [step, pending, perform, check, given, Option.some.injEq, Prod.mk.injEq] at moved
  obtain ⟨rfl, -⟩ := moved
  have none : completions state.nextPid (past ++ [.began state.nextPid next]) = [] := by
    rw [completions_append, silent]
    rfl
  have unerred : (past ++ [CheckEvent.began state.nextPid next]).count
      (CheckEvent.erred state.nextPid) = 0 := by
    rw [List.count_eq_zero]
    simpa using fine
  have unheard := failing_gone sound (sound.fresh state.nextPid (Nat.le_refl _))
  constructor
  · exact ⟨by simp, fun role there => ⟨app, next, by simpa [State.roleOf] using there.symm⟩⟩
  · intro found other there
    have same : app = found ∧ next = other := by simpa [State.roleOf] using there
    exact same.2.symm
  · simp [none]
  · rw [none, unerred]
    simpa [failing, pending, Call.fails, gone, State.roleOf] using unheard

theorem step (accounted : Accounted state past)
    (moved : step config state label = some (following, out)) (sound : Sound config state) :
    Accounted following (past ++ checkEvents config state label) where
  began := by
    intro pid next began
    rcases List.mem_append.1 began with before | now
    · exact accounted.earlier_of_step moved sound before
    · rcases checkEvents_cases config sound label with
        idle | ⟨app, other, rest, rfl, pending, checker, did⟩ |
        ⟨_, _, _, _, ⟨_, did⟩ | did⟩
      · simp [idle] at now
      · rw [did, List.mem_singleton] at now
        obtain ⟨rfl, rfl⟩ := CheckEvent.began.inj now
        rw [did]
        exact accounted.began_of_step moved sound pending checker
      · simp [did] at now
      · simp [did] at now
  fresh := accounted.fresh_of_step moved sound

end Accounted

theorem accounted_of_reaches
    (reached : Machine.Reaches (checking config) Machine.always (State.initial α) state past) :
    Accounted state past := by
  have both : Sound config state ∧ Accounted state past := by
    refine reached.invariant (fun state past => Sound config state ∧ Accounted state past)
      ⟨sound_initial config, .initial⟩ ?_
    rintro state following past out label _ ⟨sound, accounted⟩ _ moved
    obtain ⟨events, stepped, rfl⟩ := Machine.noting_eq_some.1 moved
    exact ⟨sound.of_move (move_of_step stepped), accounted.step stepped sound⟩
  exact both.2

/-- The continuation of a check is invoked for the exit of its process and for every error
that the process reports: exactly once when it reports none. -/
theorem check_completes_once {pid : Pid} {next : CheckThen α}
    (reached : Machine.Reaches (checking config) Machine.always (State.initial α) state past)
    (began : .began pid next ∈ past) :
    (.erred pid ∉ past → (completions pid past).length ≤ 1) ∧
      (state.procs pid = none →
        ((∃ error, completions pid past = [(next, error)]) ↔ .erred pid ∉ past)) := by
  obtain ⟨-, -, same, balance⟩ := (accounted_of_reaches reached).began pid next began
  constructor
  · intro fine
    rw [List.count_eq_zero.2 fine] at balance
    have once : gone state pid ≤ 1 := by
      unfold gone
      split <;> decide
    omega
  · intro none
    obtain ⟨events, run⟩ := reached.of_noting
    have deleted : gone state pid = 1 := by simp [gone, State.roleOf, none]
    rw [Accounted.failing_gone (sound_of_reaches run) none, deleted] at balance
    constructor
    · rintro ⟨error, only⟩
      simp only [only, List.length_singleton] at balance
      rw [← List.count_eq_zero]
      omega
    · intro fine
      rw [List.count_eq_zero.2 fine] at balance
      obtain ⟨⟨other, error⟩, only⟩ := List.length_eq_one_iff.1 balance
      have mine : other = next := same (other, error) (by simp [only])
      exact ⟨error, by rw [only, mine]⟩

/-- A checker that exits by itself. -/
theorem check_completes_once_exit : ∃ state past,
    Machine.Reaches (checking checkedApp) Machine.always (State.initial (Fin 1)) state past ∧
      ∃ error, completions 0 past = [(.required 0, error)] := by
  obtain ⟨state, reached, checked⟩ := Machine.exists_reaches (checking checkedApp) Machine.always
    (State.initial (Fin 1))
    [.require 0 0, .call, .call, .spawn {}, .call, .call, .exited 0 .failure, .closed 0, .call]
    [.began 0 (.required 0), .completed 0 (.required 0) 1]
    (fun state => (state.procs 0).isNone) (by decide)
  have none : state.procs 0 = none := Option.isNone_iff_eq_none.1 checked
  have once := (check_completes_once reached (.head _)).2 none
  exact ⟨state, _, reached, once.2 (by simp)⟩

/-- A checker that cannot be spawned: its error starts the app, and its exit is reported
afterwards. -/
theorem check_completes_twice : ∃ state past,
    Machine.Reaches (checking checkedApp) Machine.always (State.initial (Fin 1)) state past ∧
      completions 0 past = [(.required 0, -13), (.required 0, -1)] ∧
      (state.apps 0).process = some 1 := by
  obtain ⟨state, reached, checked⟩ := Machine.exists_reaches (checking checkedApp) Machine.always
    (State.initial (Fin 1))
    [.require 0 0, .call, .call, .spawn { spawn := -13 }, .call, .call, .call, .call, .spawn {},
      .call, .call, .call, .call, .closed 0, .call]
    [.began 0 (.required 0), .erred 0, .completed 0 (.required 0) (-13),
      .completed 0 (.required 0) (-1)]
    (fun state => (state.apps 0).process = some 1) (by decide)
  exact ⟨state, _, reached, rfl, of_decide_eq_true checked⟩

end Nexer.Manager

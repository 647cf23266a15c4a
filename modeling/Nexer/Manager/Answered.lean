import Nexer.Manager.Rounds
import Nexer.Manager.Stack
import Mathlib.Order.WellFoundedSet

/-!
# No callback is lost

While callbacks of an app are queued, something is left that attends to them: a
call of the running handler, a checker started by `Require`, an open round of
preambles, a start-up timer, or a main process that is to be restarted when it
ends.  The last of these can fail: the exit callback restarts the app only if
the process ended with a non-zero status.
-/

namespace Nexer.Manager

open Nexer.Transition

variable {α : Type} [DecidableEq α] {config : α → AppConfig α}
variable {state following : State α} {label : Label α} {past out : List (Event α)}

/-- The calls that answer the callbacks of the app or go on to do so. -/
def Call.attends (app : α) : Call α → Prop
  | .check _ (.required other) | .checked (.required other) _ => other = app
  | .start other | .prepared other _ _ | .clearCallbacks other _ | .answer other _ _ =>
      other = app
  | _ => False

def Role.isMainOf (app : α) : Role α → Bool
  | .main other _ => other = app
  | .checker .. => false

/-- A checker whose end continues a `Require` of the app. -/
def Role.checksFor (app : α) : Role α → Bool
  | .checker _ (.required other) => other = app
  | _ => false

def State.hasChecker (state : State α) (app : α) : Prop :=
  ∃ pid < state.nextPid, (state.roleOf pid).any (·.checksFor app)

def State.hasTimer (state : State α) (app : α) : Prop :=
  ∃ timer < state.nextTimer,
    (state.timers timer).any fun entry => entry.app = app ∧ entry.phase = .running

/-- The app has a main process, other than those excepted. -/
def State.hasMain (state : State α) (app : α) (except : List Pid) : Prop :=
  ∃ pid < state.nextPid, pid ∉ except ∧ (state.roleOf pid).any (·.isMainOf app)

/-- The callbacks of the app are attended to by some later event of the loop. -/
def Attended (state : State α) (app : α) : Prop :=
  0 < (state.apps app).pendingPreamble ∨ state.hasChecker app ∨ state.hasTimer app

/-- When a main process that was to be restarted ends with status zero while
callbacks are queued, they are attended to otherwise. -/
def attendedExits (state : State α) : Label α → Prop
  | .call =>
      match state.todo with
      | .onExit pid (.main app _) termination :: _ =>
          termination.status = 0 → (state.apps app).restart = true →
            (state.apps app).callbacks ≠ [] → Attended state app ∨ state.hasMain app [pid]
      | _ => True
  | _ => True

def keepsWaiters (state : State α) (label : Label α) : Prop :=
  attendedExits state label ∧ restartsOutside state label

instance (state : State α) (app : α) : Decidable (Attended state app) := by
  unfold Attended State.hasChecker State.hasTimer
  infer_instance

instance (state : State α) (app : α) (except : List Pid) :
    Decidable (state.hasMain app except) := by
  unfold State.hasMain
  infer_instance

instance : ∀ (state : State α) (label : Label α), Decidable (attendedExits state label)
  | { todo := [], .. }, .call => .isTrue trivial
  | { todo := call :: _, .. }, .call =>
      match call with
      | .onExit pid (.main app _) termination =>
          inferInstanceAs (Decidable (termination.status = 0 → _ = true → _ ≠ [] →
            Attended _ app ∨ State.hasMain _ app [pid]))
      | .onExit _ (.checker ..) _
      | .require .. | .check .. | .checked .. | .start .. | .prepared .. | .processStart ..
      | .onProcessStart .. | .endCheck .. | .onError .. | .onProcessExit .. | .kill ..
      | .clearCallbacks .. | .answer .. | .setChecking .. => .isTrue trivial
  | _, .clock _ | _, .spawn _ | _, .require .. | _, .read .. | _, .exited ..
  | _, .closed _ | _, .timeout _ | _, .tick _ | _, .timerClosed _ => .isTrue trivial

instance (state : State α) (label : Label α) : Decidable (keepsWaiters state label) :=
  inferInstanceAs (Decidable (_ ∧ _))

def Duty (state : State α) (app : α) : Prop :=
  (∃ call ∈ state.todo, call.attends app) ∨ Attended state app ∨
    ((state.apps app).restart = true ∧ state.hasMain app [])

/-- An app with queued callbacks has something that attends to them. -/
def Served (state : State α) : Prop :=
  ∀ app, (state.apps app).callbacks ≠ [] → Duty state app

omit [DecidableEq α] in
theorem Sound.lt_nextPid (sound : Sound config state) {pid : Pid} {role : Role α}
    (live : state.roleOf pid = some role) : pid < state.nextPid := by
  by_contra beyond
  simp [State.roleOf, sound.fresh pid (Nat.le_of_not_lt beyond)] at live

theorem hasMain_of (sound : Sound config state) {app : α} {round : Nat} {pid : Pid}
    {except : List Pid} (live : state.roleOf pid = some (.main app round))
    (other : pid ∉ except) : state.hasMain app except :=
  ⟨pid, sound.lt_nextPid live, other, by simp [live, Role.isMainOf]⟩

theorem exists_main {app : α} {except : List Pid} (main : state.hasMain app except) :
    ∃ pid round, pid ∉ except ∧ state.roleOf pid = some (.main app round) := by
  obtain ⟨pid, _, other, role⟩ := main
  rw [Option.any_eq_true] at role
  obtain ⟨role, live, mine⟩ := role
  cases role with
  | main owner round =>
      obtain rfl : owner = app := by simpa [Role.isMainOf] using mine
      exact ⟨pid, round, other, live⟩
  | checker => cases mine

theorem exists_checker {app : α} (checker : state.hasChecker app) :
    ∃ pid owner, state.roleOf pid = some (.checker owner (.required app)) := by
  obtain ⟨pid, _, role⟩ := checker
  rw [Option.any_eq_true] at role
  obtain ⟨role, live, mine⟩ := role
  match role with
  | .checker owner (.required other) =>
      obtain rfl : other = app := by simpa [Role.checksFor] using mine
      exact ⟨pid, owner, live⟩

theorem exists_timer {app : α} (timer : state.hasTimer app) :
    ∃ timer entry, state.timers timer = some entry ∧ entry.app = app ∧ entry.phase = .running := by
  obtain ⟨timer, _, running⟩ := timer
  rw [Option.any_eq_true] at running
  obtain ⟨entry, there, mine⟩ := running
  exact ⟨timer, entry, there, by simpa using mine⟩

/-- What attends to the callbacks as a call leaves something that does, unless it
has just emptied the queue. -/
theorem duty_of_head (move : Move config state label following out) (inner : label.inner)
    (sound : Sound config state) {app : α} {head : Call α} {rest : List (Call α)}
    (pending : state.todo = head :: rest) (attends : head.attends app)
    (queued : (following.apps app).callbacks ≠ []) : Duty following app := by
  cases move
  case checkNone next _ top _ =>
    cases pending.symm.trans top
    exact .inl ⟨_, .head _, by cases next <;> exact attends⟩
  case checkSome next _ checker top _ =>
    cases pending.symm.trans top
    cases next
    case required other =>
      cases attends
      refine .inr (.inl (.inr (.inl ⟨state.nextPid, by simp, ?_⟩)))
      simp [State.roleOf, Role.checksFor]
    case started => cases attends
  case requiredClear top _ | requiredStart top _ _ | preparedClear top _ | clearCallbacks top
      | startReady top _ =>
    cases pending.symm.trans top
    cases attends
    exact .inl ⟨_, .head _, rfl⟩
  case answerCaller top | answerCount top _ =>
    cases pending.symm.trans top
    cases attends
    exact .inl ⟨_, .head _, rfl⟩
  case answerLast top _ =>
    cases pending.symm.trans top
    cases attends
    exact .inl ⟨_, .tail _ (.head _), rfl⟩
  case requiredKill top tracked _ =>
    cases pending.symm.trans top
    cases attends
    obtain ⟨round, live⟩ := sound.tracked _ _ tracked
    exact .inr (.inr ⟨by simp, hasMain_of sound live (by simp)⟩)
  case startWaiting top preceded =>
    cases pending.symm.trans top
    cases attends
    refine .inr (.inl (.inl ?_))
    simpa [List.length_pos_iff] using preceded
  case preparedStart top =>
    cases pending.symm.trans top
    cases attends
    exact .inr (.inl (.inr (.inr ⟨state.nextTimer, by simp, by simp⟩)))
  case answerEnd top =>
    cases pending.symm.trans top
    cases attends
    simp at queued
  all_goals try cases inner
  all_goals
    cases pending.symm.trans ‹state.todo = _ :: _›
    cases attends

/-- The last answer of a round goes on to the closure of `Start`. -/
theorem prepared_of_last (move : Move config state label following out) (inner : label.inner)
    {app lower : α} {ticket round : Nat} {others : List (Waiter α)} {error : Int}
    {rest : List (Call α)}
    (head : state.todo = .answer lower (⟨ticket, .preamble app round⟩ :: others) error :: rest)
    (last : (state.apps app).pendingPreamble = 1) :
    ∃ errors, .prepared app round errors ∈ following.todo := by
  cases move
  case answerLast top _ =>
    cases head.symm.trans top
    exact ⟨_, .head _⟩
  case answerCount top more =>
    cases head.symm.trans top
    exact absurd last more
  all_goals try cases inner
  all_goals cases head.symm.trans ‹state.todo = _ :: _›

/-- The end of a checker goes on to the continuation of its `Check`. -/
theorem checked_of_exit (move : Move config state label following out) (inner : label.inner)
    {pid : Pid} {app : α} {next : CheckThen α} {termination : Termination} {rest : List (Call α)}
    (head : state.todo = .onExit pid (.checker app next) termination :: rest) :
    .checked next termination.status ∈ following.todo := by
  cases move
  case exitChecker top =>
    cases head.symm.trans top
    exact .head _
  all_goals try cases inner
  all_goals cases head.symm.trans ‹state.todo = _ :: _›

theorem outstanding_kept (move : Move config state label following out)
    (sound : Sound config state) {app : α}
    (outstanding : 0 < (state.apps app).pendingPreamble)
    (queued : (following.apps app).callbacks ≠ []) : Duty following app := by
  cases inner : label.inner with
  | false => exact .inr (.inl (.inl (by rw [apps_outer move inner]; exact outstanding)))
  | true =>
    rcases preamble_of_move move app with ⟨_, same, _⟩ | ⟨rest, pending, _⟩ |
      ⟨lower, ticket, round, others, error, rest, pending, _, count, _⟩
    · exact .inr (.inl (.inl (same ▸ outstanding)))
    · exact duty_of_head move inner sound pending rfl queued
    · by_cases last : (state.apps app).pendingPreamble = 1
      · obtain ⟨errors, member⟩ := prepared_of_last move inner pending last
        exact .inl ⟨_, member, rfl⟩
      · exact .inr (.inl (.inl (by omega)))

theorem checker_kept (move : Move config state label following out)
    (sound : Sound config state) {app : α} (checker : state.hasChecker app) :
    Duty following app := by
  obtain ⟨pid, owner, live⟩ := exists_checker checker
  rcases roleOf_of_move move pid with same | ⟨rfl, _⟩ | ⟨role, termination, rest, rfl, pending, _⟩
  · have there := same.trans live
    exact .inr (.inl (.inr (.inl ⟨pid, (sound.of_move move).lt_nextPid there, by
      simp [there, Role.checksFor]⟩)))
  · exact absurd (sound.lt_nextPid live) (Nat.lt_irrefl _)
  · cases live.symm.trans (sound.role_of_top pending rfl)
    exact .inl ⟨_, checked_of_exit move rfl pending, rfl⟩

theorem timer_kept (move : Move config state label following out)
    (sound : Sound config state) {app : α} (present : state.hasTimer app)
    (queued : (following.apps app).callbacks ≠ []) : Duty following app := by
  obtain ⟨timer, entry, there, rfl, running⟩ := exists_timer present
  have old : timer < state.nextTimer := by
    by_contra beyond
    simp [sound.fresh_timer timer (Nat.le_of_not_lt beyond)] at there
  rcases timers_of_move move timer with same | ⟨rfl, _⟩ |
    ⟨⟨app, error, rest, pending, after⟩ | ⟨found, idle, live, clear⟩, _⟩ | ⟨_, ⟨found, live, closing⟩, _⟩
  · refine .inr (.inl (.inr (.inr ⟨timer, Nat.lt_of_lt_of_le old (nextTimer_of_move move), ?_⟩)))
    simp [same, there, running]
  · exact absurd old (Nat.lt_irrefl _)
  · have owner := (sound.thens (.checked (.started app timer) error) (mem_todo_of_top pending)
      _ _ rfl).2 timer rfl
    exact .inl ⟨.clearCallbacks app error, by simp [after], (owner.2 entry there).symm⟩
  · cases there.symm.trans live
    rcases callbacks_of_move move entry.app with same | ⟨_, _, _, pending, _⟩ | ⟨_, _, _, pending, _⟩
    · exact absurd (same.trans clear) queued
    · cases idle.symm.trans pending
    · cases idle.symm.trans pending
  · cases there.symm.trans live
    cases running.symm.trans closing

/-- What attends to the callbacks from outside of the handler goes on to do so, or
hands over to a call. -/
theorem duty_of_attended (move : Move config state label following out)
    (sound : Sound config state) {app : α} (attended : Attended state app)
    (queued : (following.apps app).callbacks ≠ []) : Duty following app := by
  rcases attended with outstanding | checker | running
  · exact outstanding_kept move sound outstanding queued
  · exact checker_kept move sound checker
  · exact timer_kept move sound running queued

theorem main_kept (move : Move config state label following out) (sound : Sound config state)
    {app : α} {except : List Pid} (main : state.hasMain app except)
    (excepted : ∀ pid round termination rest, label = .call →
      state.todo = .onExit pid (.main app round) termination :: rest → pid ∈ except) :
    following.hasMain app [] := by
  obtain ⟨pid, round, other, live⟩ := exists_main main
  rcases sound.roleOf_kept move live with kept | ⟨termination, rest, called, pending⟩
  · exact hasMain_of (sound.of_move move) kept (by simp)
  · exact absurd (excepted _ _ _ _ called pending) other

/-- The exit callback of a main process that is to be restarted. -/
theorem duty_of_exit (move : Move config state label following out) (inner : label.inner)
    (guarded : attendedExits state label) (sound : Sound config state) {app : α}
    (again : (state.apps app).restart = true) {pid : Pid} {round : Nat}
    {termination : Termination} {rest : List (Call α)}
    (pending : state.todo = .onExit pid (.main app round) termination :: rest)
    (queued : (following.apps app).callbacks ≠ []) : Duty following app := by
  by_cases silent : termination.status = 0
  · obtain rfl := call_of_inner move inner pending (by simp)
    have before : (state.apps app).callbacks ≠ [] := by
      rcases callbacks_of_move move app with same | ⟨_, _, _, top, _⟩ | ⟨_, _, _, top, _⟩
      · exact same ▸ queued
      · cases pending.symm.trans top
      · cases pending.symm.trans top
    have restart : (following.apps app).restart = true := by
      rcases restart_of_move move app with same | ⟨_, _, _, top, _⟩ | ⟨_, _, _, _, top, failed, _⟩
      · exact same.trans again
      · cases pending.symm.trans top
      · cases pending.symm.trans top
        exact absurd silent failed
    simp only [attendedExits, pending] at guarded
    rcases guarded silent again before with attended | main
    · exact duty_of_attended move sound attended queued
    · refine .inr (.inr ⟨restart, main_kept move sound main fun other _ _ _ _ top => ?_⟩)
      cases pending.symm.trans top
      exact .head _
  · cases move
    case exitRestart top _ _ =>
      cases pending.symm.trans top
      exact .inl ⟨_, .head _, rfl⟩
    case exitClear top _ spent _ =>
      cases pending.symm.trans top
      cases spent.symm.trans again
    case exitDrop top silently =>
      cases pending.symm.trans top
      rcases silently with zero | ⟨spent, _⟩
      · exact absurd zero silent
      · cases spent.symm.trans again
    all_goals try cases inner
    all_goals cases pending.symm.trans ‹state.todo = _ :: _›

theorem duty_kept (move : Move config state label following out)
    (guarded : attendedExits state label) (sound : Sound config state) {app : α}
    (duty : Duty state app) (queued : (following.apps app).callbacks ≠ []) :
    Duty following app := by
  rcases duty with ⟨call, member, attends⟩ | attended | ⟨again, main⟩
  · rcases todo_of_move move with ⟨_, same⟩ | ⟨head, rest, calls, inner, pending, after, _⟩ |
      ⟨_, idle, _⟩
    · exact .inl ⟨call, same ▸ member, attends⟩
    · rw [pending, List.mem_cons] at member
      rcases member with rfl | member
      · exact duty_of_head move inner sound pending attends queued
      · exact .inl ⟨call, by simp [after, member], attends⟩
    · simp [idle] at member
  · exact duty_of_attended move sound attended queued
  · by_cases exiting : ∃ pid round termination rest, label.inner ∧
        state.todo = .onExit pid (.main app round) termination :: rest
    · obtain ⟨pid, round, termination, rest, inner, pending⟩ := exiting
      exact duty_of_exit move inner guarded sound again pending queued
    · simp only [not_exists, not_and] at exiting
      refine .inr (.inr ⟨?_, main_kept move sound main fun pid round termination rest called top =>
        absurd top (exiting pid round termination rest (called ▸ rfl))⟩)
      rcases restart_of_move move app with same | ⟨_, _, _, _, _, _, now⟩ |
        ⟨pid, round, termination, rest, top, _⟩
      · exact same.trans again
      · exact now
      · cases inner : label.inner with
        | true => exact absurd top (exiting pid round termination rest inner)
        | false => rw [apps_outer move inner, again]

theorem Served.of_move (move : Move config state label following out)
    (guarded : attendedExits state label) (sound : Sound config state) (served : Served state) :
    Served following := by
  intro app queued
  rcases callbacks_of_move move app with same | ⟨callback, rest, called, pending, -⟩ |
    ⟨_, _, _, _, cleared⟩
  · exact duty_kept move guarded sound (served app (same ▸ queued)) queued
  · by_cases before : (state.apps app).callbacks = []
    · subst called
      cases move
      case queueFirst top _ =>
        cases pending.symm.trans top
        exact .inl ⟨_, .head _, rfl⟩
      case queueMore top more =>
        cases pending.symm.trans top
        exact absurd before more
      all_goals cases pending.symm.trans ‹state.todo = _ :: _›
    · exact duty_kept move guarded sound (served app before) queued
  · exact absurd cleared queued

theorem served_of_reaches
    (reached : Machine.Reaches (step config) keepsWaiters (State.initial α) state past) :
    Served state :=
  reached.invariant (fun state _ => Served state) (fun _ queued => absurd rfl queued)
    fun reached served guarded moved =>
      served.of_move (move_of_step moved) guarded.1 (sound_of_reaches reached)

/-- No handler is running, no process is live or awaits its exit callback, and no
start-up timer is running. -/
structure Quiet (state : State α) : Prop where
  idle : state.todo = []
  processes : ∀ pid, state.procs pid = none
  timers : ∀ timer, ∀ entry ∈ state.timers timer, entry.phase ≠ .running

/-- In a quiet state only an open round of preambles can attend to callbacks. -/
theorem Quiet.outstanding (quiet : Quiet state) {app : α} (duty : Duty state app) :
    0 < (state.apps app).pendingPreamble := by
  rcases duty with ⟨call, member, _⟩ | (outstanding | checker | running) | ⟨_, main⟩
  · simp [quiet.idle] at member
  · exact outstanding
  · obtain ⟨pid, owner, live⟩ := exists_checker checker
    simp [State.roleOf, quiet.processes pid] at live
  · obtain ⟨timer, entry, there, _, running⟩ := exists_timer running
    exact absurd running (quiet.timers timer entry there)
  · obtain ⟨pid, round, _, live⟩ := exists_main main
    simp [State.roleOf, quiet.processes pid] at live

omit [DecidableEq α] in
/-- Among finitely many apps one has no other one below it. -/
theorem exists_lowest (acyclic : Acyclic config) {apps : Set α} (finite : apps.Finite)
    {app : α} (member : app ∈ apps) :
    ∃ lowest ∈ apps, ∀ lower ∈ apps, ¬ Lower config lower lowest := by
  have order : IsStrictOrder α (Lower config) :=
    { irrefl := acyclic, trans := fun _ _ _ => Lower.trans }
  have founded : apps.WellFoundedOn (Lower config) := finite.wellFoundedOn
  by_contra none
  simp only [not_exists, not_and, not_forall, not_not] at none
  refine founded.induction member (P := fun _ => False) fun upper inside below => ?_
  obtain ⟨lower, there, under⟩ := none upper inside
  exact below lower there under

/-- The app whose callback was queued. -/
def Event.queuedFor : Event α → Option α
  | .queued app _ => some app
  | _ => none

/-- The apps with queued callbacks are among those that `Require` was called for. -/
theorem finite_queued (inOrder : InOrder state past) (idle : state.todo = []) :
    {app | (state.apps app).callbacks ≠ []}.Finite := by
  refine (past.filterMap Event.queuedFor).finite_toSet.subset fun app queued => ?_
  have order := inOrder app
  rw [waiting, idle] at order
  obtain ⟨waiter, member⟩ := List.exists_mem_of_ne_nil _ queued
  have logged : waiter ∈ queuedOf app past := by
    rw [order]
    exact List.mem_append_right _ member
  exact List.mem_filterMap.mpr ⟨_, mem_queuedOf.mp logged, rfl⟩

/--
When nothing is left that could happen by itself, no callbacks are queued, and the
callbacks answered for each app are those that were queued for it, in order and
each once.
-/
theorem all_answered (acyclic : Acyclic config)
    (reached : Machine.Reaches (step config) keepsWaiters (State.initial α) state past)
    (quiet : Quiet state) (app : α) :
    (state.apps app).callbacks = [] ∧ answeredOf app past = queuedOf app past := by
  have inOrder := inOrder_of_reaches (fun _ reached =>
    (layered_of_reaches (fun _ _ guarded => guarded.2) reached).outsideTraversals acyclic) reached
  have clear : (state.apps app).callbacks = [] := by
    by_contra queued
    obtain ⟨lowest, waits, least⟩ :=
      exists_lowest acyclic (finite_queued inOrder quiet.idle) queued
    have outstanding := quiet.outstanding (served_of_reaches reached lowest waits)
    obtain ⟨lower, member, below⟩ :=
      exists_waiting (rounds_of_reaches reached) inOrder quiet.idle outstanding
    exact least lower below (.single member)
  refine ⟨clear, ?_⟩
  rw [inOrder app, waiting, quiet.idle]
  simp [clear]

section Runs

/-- `Quiet`, evaluated on the identifiers in use. -/
def State.isQuiet (state : State α) : Bool :=
  state.todo.isEmpty &&
    (List.range state.nextPid).all (fun pid => (state.procs pid).isNone) &&
    (List.range state.nextTimer).all fun timer =>
      (state.timers timer).all fun entry => entry.phase ≠ .running

omit [DecidableEq α] in
theorem quiet_of_isQuiet (sound : Sound config state) (quiet : state.isQuiet) : Quiet state := by
  simp only [State.isQuiet, Bool.and_eq_true, List.isEmpty_iff, List.all_eq_true, List.mem_range,
    Option.isNone_iff_eq_none, Option.all_eq_true, decide_eq_true_eq] at quiet
  refine ⟨quiet.1.1, fun pid => ?_, fun timer entry there => ?_⟩
  · by_cases used : pid < state.nextPid
    · exact quiet.1.2 pid used
    · exact sound.fresh pid (Nat.le_of_not_lt used)
  · by_cases used : timer < state.nextTimer
    · exact quiet.2 timer used entry there
    · simp [sound.fresh_timer timer (Nat.le_of_not_lt used)] at there

theorem acyclic_checkedApp : Acyclic checkedApp := by
  intro app lower
  obtain ⟨_, _, step⟩ := Relation.TransGen.tail'_iff.mp lower
  cases step

/-- The only app is required and its checker fails, so that its main process is
started; the start-up check succeeds, and later the process ends. -/
theorem all_answered_run :
    ∃ state : State (Fin 1), Quiet state ∧ (state.apps 0).callbacks = [] := by
  obtain ⟨state, reached, checked⟩ := Machine.exists_reaches
    (step checkedApp) keepsWaiters (State.initial (Fin 1))
    [.require 0 1, .call, .call, .spawn {}, .call, .call,
      .exited 0 .failure, .closed 0, .call, .call, .call, .call, .spawn {}, .call,
      .tick 0, .call, .spawn {}, .call, .call, .call,
      .exited 2 .success, .closed 2, .call, .call, .call, .call, .call, .call,
      .exited 1 .success, .closed 1, .call]
    [.queued 0 ⟨0, .caller 1⟩, .spawned 0 (.checker 0 (.required 0)), .processStart 0,
      .ended 0 (.checker 0 (.required 0)) .failure, .processExit 0 1 0, .start 0 1,
      .prepared 0 1 0, .spawned 1 (.main 0 1), .processStart 1,
      .spawned 2 (.checker 0 (.started 0 0)), .processStart 2,
      .ended 2 (.checker 0 (.started 0 0)) .success, .processExit 2 0 0,
      .answered 0 ⟨0, .caller 1⟩ (some 1) 0, .ended 1 (.main 0 1) .success,
      .processExit 1 0 0]
    State.isQuiet (by decide)
  have quiet := quiet_of_isQuiet (sound_of_reaches reached) checked
  exact ⟨state, quiet, (all_answered acyclic_checkedApp reached quiet 0).1⟩

/-- As before; then the app is required again, its checker fails, and the main
process, killed to be restarted, ends with status zero. -/
theorem one_unanswered :
    ∃ state past, Acyclic checkedApp ∧
      Machine.Reaches (step checkedApp) Machine.always (State.initial (Fin 1)) state past ∧
        Quiet state ∧ (state.apps 0).callbacks ≠ [] := by
  obtain ⟨state, reached, checked⟩ := Machine.exists_reaches
    (step checkedApp) Machine.always (State.initial (Fin 1))
    [.require 0 1, .call, .call, .spawn {}, .call, .call,
      .exited 0 .failure, .closed 0, .call, .call, .call, .call, .spawn {}, .call,
      .tick 0, .call, .spawn {}, .call, .call, .call,
      .exited 2 .success, .closed 2, .call, .call, .call, .call, .call, .call,
      .require 0 2, .call, .call, .spawn {}, .call, .call,
      .exited 3 .failure, .closed 3, .call, .call,
      .exited 1 .success, .closed 1, .call]
    [.queued 0 ⟨0, .caller 1⟩, .spawned 0 (.checker 0 (.required 0)), .processStart 0,
      .ended 0 (.checker 0 (.required 0)) .failure, .processExit 0 1 0, .start 0 1,
      .prepared 0 1 0, .spawned 1 (.main 0 1), .processStart 1,
      .spawned 2 (.checker 0 (.started 0 0)), .processStart 2,
      .ended 2 (.checker 0 (.started 0 0)) .success, .processExit 2 0 0,
      .answered 0 ⟨0, .caller 1⟩ (some 1) 0,
      .queued 0 ⟨1, .caller 2⟩, .spawned 3 (.checker 0 (.required 0)), .processStart 3,
      .ended 3 (.checker 0 (.required 0)) .failure, .processExit 3 1 0, .killed 1,
      .ended 1 (.main 0 1) .success, .processExit 1 0 0]
    (fun state => state.isQuiet && decide ((state.apps 0).callbacks ≠ [])) (by decide)
  simp only [Bool.and_eq_true, decide_eq_true_eq] at checked
  exact ⟨state, _, acyclic_checkedApp, reached,
    quiet_of_isQuiet (sound_of_reaches reached) checked.1, checked.2⟩

end Runs

end Nexer.Manager

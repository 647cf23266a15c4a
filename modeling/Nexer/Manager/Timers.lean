import Nexer.Manager.Sound

/-!
# Start-up timers and the checks that they launch

A start-up timer is destroyed by its close callback, which does not wait for the
checks that the timer launched.  A check that ends after that closes the timer
again if its result completes the start.
-/

namespace Nexer.Manager

open Nexer.Transition

variable {α : Type}

/-- A check with this result closes its start-up timer, at once or when it is later
than the limit of the app. -/
def AppConfig.mayComplete (config : AppConfig α) (error : Int) : Bool :=
  error = 0 ∨ error = noEntry ∨
    (0 < config.maxStartTime ∧ config.maxStartTime + 1 < UInt64.size)

/-- A process in this phase may still report such a result. -/
def Phase.mayComplete (config : AppConfig α) : Phase → Bool
  | .closing termination => config.mayComplete termination.status
  | _ => true

/-- A check of the app that this continuation belongs to may close the timer with such a
result. -/
def CheckThen.mayClose (timer : TimerId) (next : CheckThen α) (completes : α → Bool) : Bool :=
  match next with
  | .started app other => other = timer && completes app
  | .required _ => false

/-- The process runs a check that may still close the timer. -/
def Proc.mayClose (config : α → AppConfig α) (timer : TimerId) (proc : Proc α) : Bool :=
  match proc.role with
  | .checker _ next => next.mayClose timer fun app => proc.phase.mayComplete (config app)
  | .main .. => false

/-- The call belongs to a check that may still close the timer. -/
def Call.mayClose (config : α → AppConfig α) (timer : TimerId) : Call α → Bool
  | .check _ next | .processStart _ (.checker _ next) => next.mayClose timer fun _ => true
  | .checked next error | .onError _ (.checker _ next) error =>
      next.mayClose timer fun app => (config app).mayComplete error
  | .onExit _ (.checker _ next) termination =>
      next.mayClose timer fun app => (config app).mayComplete termination.status
  | _ => false

def State.mayClose (config : α → AppConfig α) (timer : TimerId) (state : State α)
    (pid : Pid) : Bool :=
  (state.procs pid).any (·.mayClose config timer)

/-- No start-up timer is destroyed while a check that it launched may still close it. -/
def timersOutlive (config : α → AppConfig α) (state : State α) : Label α → Prop
  | .timerClosed timer => ∀ pid < state.nextPid, state.mayClose config timer pid = false
  | _ => True

instance (config : α → AppConfig α) (state : State α) :
    ∀ label, Decidable (timersOutlive config state label)
  | .timerClosed timer =>
      inferInstanceAs (Decidable (∀ pid < state.nextPid, state.mayClose config timer pid = false))
  | .clock _ | .call | .spawn _ | .require .. | .read .. | .exited .. | .closed _ | .timeout _
  | .tick _ => .isTrue trivial

/-- A timer that may still be closed is there. -/
structure Outlived (config : α → AppConfig α) (state : State α) : Prop where
  calls : ∀ timer, ∀ call ∈ state.todo, call.mayClose config timer → state.timers timer ≠ none
  procs : ∀ timer pid, state.mayClose config timer pid → state.timers timer ≠ none

variable [DecidableEq α] {config : α → AppConfig α}
variable {state following : State α} {label : Label α} {past out : List (Event α)}

omit [DecidableEq α] in
/-- The limit matters at some time exactly when the elapsed time can exceed it. -/
theorem mayComplete_iff {app : AppConfig α} {error : Int} (fields : App α) :
    app.mayComplete error ↔
      ∃ now, error = 0 ∨ error = noEntry ∨ startTimeout app fields now := by
  simp only [AppConfig.mayComplete, startTimeout, decide_eq_true_eq, UInt64.size]
  constructor
  · rintro (rfl | rfl | ⟨limited, bounded⟩)
    · exact ⟨0, .inl rfl⟩
    · exact ⟨0, .inr (.inl rfl)⟩
    · refine ⟨UInt64.ofNat (app.maxStartTime.toNat + 1) + fields.requireStartTime,
        .inr (.inr ⟨limited, ?_⟩)⟩
      rw [UInt64.add_sub_cancel, UInt64.toNat_ofNat_of_lt' (by simp only [UInt64.size]; omega)]
      omega
  · rintro ⟨now, done | missing | ⟨limited, late⟩⟩
    · exact .inl done
    · exact .inr (.inl missing)
    · have bound := (now - fields.requireStartTime).toNat_lt
      exact .inr (.inr ⟨limited, by omega⟩)

/-- The phase of an existing process object. -/
def State.phaseOf (state : State α) (pid : Pid) : Option Phase :=
  (state.procs pid).map (·.phase)

/-- What has to be called for a process object that is created or that failed to start. -/
def Call.settles? : Call α → Option Pid
  | .processStart pid _ | .onProcessExit pid | .onExit pid _ _ => some pid
  | _ => none

/-- The phases of a process object, one after another. -/
theorem phaseOf_of_move (move : Move config state label following out) (pid : Pid) :
    (following.phaseOf pid = state.phaseOf pid ∧
      ∀ call ∈ state.todo, call.settles? = some pid → call ∈ following.todo) ∨
    (pid = state.nextPid ∧ following.phaseOf pid = some .created ∧
      ∃ call ∈ following.todo, call.settles? = some pid) ∨
    (∃ role rest, state.todo = .processStart pid role :: rest ∧
      ((∃ call ∈ following.todo, call.settles? = some pid) ∨
        ∀ phase ∈ following.phaseOf pid, phase = .running)) ∨
    (∃ rest, state.todo = .onProcessExit pid :: rest ∧
      ∀ phase ∈ following.phaseOf pid, phase = .closing .unstarted) ∨
    (state.phaseOf pid = some .running ∧
      ∃ termination, following.phaseOf pid = some (.closing termination)) ∨
    following.phaseOf pid = none := by
  cases move
  case checkSome pending _ | preparedStart pending =>
    by_cases same : pid = state.nextPid
    · subst same
      exact .inr (.inl ⟨rfl, by simp [State.phaseOf], by simp [Call.settles?]⟩)
    · refine .inl ⟨by simp [State.phaseOf, same], ?_⟩
      simp +contextual [pending, Call.settles?]
  case spawnPipe other _ _ _ pending _ | spawnFail other _ _ _ pending _ _ =>
    by_cases same : pid = other
    · subst same
      exact .inr (.inr (.inl ⟨_, _, pending, .inl (by simp [Call.settles?])⟩))
    · refine .inl ⟨by simp [State.phaseOf, same], ?_⟩
      simp +contextual [pending, Call.settles?, Ne.symm same]
  case spawnUnread other _ _ _ _ pending _ _ _ _ | spawnDone other _ _ _ pending _ _ =>
    by_cases same : pid = other
    · subst same
      exact .inr (.inr (.inl ⟨_, _, pending, .inr (by simp [State.phaseOf])⟩))
    · refine .inl ⟨by simp [State.phaseOf, same], ?_⟩
      simp +contextual [pending, Call.settles?, Ne.symm same]
  case onProcessExit other _ pending =>
    by_cases same : pid = other
    · subst same
      exact .inr (.inr (.inr (.inl ⟨_, pending, by simp [State.phaseOf]⟩)))
    · refine .inl ⟨by simp [State.phaseOf, same], ?_⟩
      simp +contextual [pending, Call.settles?, Ne.symm same]
  case endCheck other _ pending =>
    refine .inl ⟨?_, by simp +contextual [pending, Call.settles?]⟩
    by_cases same : pid = other
    · subst same
      simp [State.phaseOf, Function.comp_def]
    · simp [State.phaseOf, same]
  case exitRestart other _ _ _ _ pending _ _ | exitClear other _ _ _ _ pending _ _ _
      | exitDrop other _ _ _ _ pending _ | exitChecker other _ _ _ _ pending =>
    by_cases same : pid = other
    · subst same
      exact .inr (.inr (.inr (.inr (.inr (by simp [State.phaseOf])))))
    · refine .inl ⟨by simp [State.phaseOf, same], ?_⟩
      simp +contextual [pending, Call.settles?, Ne.symm same]
  case exited other termination proc idle live running =>
    by_cases same : pid = other
    · subst same
      exact .inr (.inr (.inr (.inr (.inl
        ⟨by simp [State.phaseOf, live, running], termination, by simp [State.phaseOf]⟩))))
    · exact .inl ⟨by simp [State.phaseOf, same], by simp [idle]⟩
  all_goals exact .inl ⟨rfl, by simp +contextual [*, Call.settles?]⟩

omit [DecidableEq α] in
theorem CheckThen.mayClose_mono {timer : TimerId} {next : CheckThen α} {completes more : α → Bool}
    (may : next.mayClose timer completes) (implies : ∀ app, completes app → more app) :
    next.mayClose timer more := by
  cases next with
  | required => cases may
  | started app other =>
      simp only [CheckThen.mayClose, Bool.and_eq_true, decide_eq_true_eq] at may ⊢
      exact ⟨may.1, implies app may.2⟩

omit [DecidableEq α] in
/-- A process that could not be spawned completes a start only when it is late. -/
theorem Phase.mayComplete_of_unstarted {app : AppConfig α}
    (late : (Phase.closing .unstarted).mayComplete app) (phase : Phase) :
    phase.mayComplete app := by
  cases phase with
  | closing termination =>
      simp only [Phase.mayComplete, AppConfig.mayComplete, decide_eq_true_eq] at late ⊢
      rcases late with normal | missing | limited
      · exact absurd normal (by decide)
      · exact absurd missing (by decide)
      · exact .inr (.inr limited)
  | _ => rfl

omit [DecidableEq α] in
theorem mayClose_iff {timer : TimerId} {pid : Pid} :
    state.mayClose config timer pid ↔
      ∃ app next phase, state.roleOf pid = some (.checker app next) ∧
        state.phaseOf pid = some phase ∧
        next.mayClose timer fun app => phase.mayComplete (config app) := by
  cases there : state.procs pid with
  | none => simp [State.mayClose, State.roleOf, there]
  | some proc =>
      obtain ⟨command, role, phase, spawned, alive⟩ := proc
      cases role <;>
        simp [State.mayClose, State.roleOf, State.phaseOf, there, Proc.mayClose, and_assoc]

/-- A process that may close a timer did so before, or it is one whose check is being made. -/
theorem mayClose_of_move (move : Move config state label following out)
    (sound : Sound config state) {timer : TimerId} {pid : Pid}
    (may : following.mayClose config timer pid) :
    state.mayClose config timer pid ∨ ∃ call ∈ state.todo, call.mayClose config timer := by
  obtain ⟨app, next, phase, role, now, may⟩ := mayClose_iff.mp may
  rcases roleOf_of_move move pid with same | ⟨_, _, created⟩ | ⟨_, _, _, _, _, gone⟩
  · rw [same] at role
    have earlier {before : Phase} (was : state.phaseOf pid = some before)
        (more : ∀ app : AppConfig α, phase.mayComplete app → before.mayComplete app) :
        state.mayClose config timer pid :=
      mayClose_iff.mpr ⟨app, next, before, role, was,
        CheckThen.mayClose_mono may fun app => more (config app)⟩
    rcases phaseOf_of_move move pid with ⟨kept, _⟩ | ⟨fresh, _⟩ | ⟨captured, rest, pending, _⟩ |
      ⟨rest, _, closing⟩ | ⟨running, _⟩ | none
    · exact .inl (earlier (kept.symm.trans now) fun _ => id)
    · rw [fresh] at role
      simp [State.roleOf, sound.fresh _ (Nat.le_refl _)] at role
    · obtain rfl := Option.some.inj ((sound.role_of_top pending rfl).symm.trans role)
      exact .inr ⟨.processStart pid (.checker app next), by simp [pending],
        CheckThen.mayClose_mono may fun _ _ => rfl⟩
    · obtain ⟨before, was⟩ : ∃ before, state.phaseOf pid = some before := by
        cases there : state.procs pid <;> simp_all [State.phaseOf, State.roleOf]
      obtain rfl := closing phase now
      exact .inl (earlier was fun app late => Phase.mayComplete_of_unstarted late before)
    · exact .inl (earlier running fun _ _ => rfl)
    · cases none.symm.trans now
  · rcases created with ⟨owner, then_, rest, pending, _, checker⟩ | ⟨_, _, _, _, main⟩
    · cases role.symm.trans checker
      exact .inr ⟨.check app next, by simp [pending],
        CheckThen.mayClose_mono may fun _ _ => rfl⟩
    · cases role.symm.trans main
  · cases role.symm.trans gone

/-- A timer stays until its close callback, which is not delivered inside a handler. -/
theorem timer_survives (move : Move config state label following out) {timer : TimerId}
    (there : state.timers timer ≠ none) :
    following.timers timer ≠ none ∨ (label = .timerClosed timer ∧ state.todo = []) := by
  cases move
  case timerClosed other entry idle live closing =>
    by_cases same : timer = other
    · subst same
      exact .inr ⟨rfl, idle⟩
    · exact .inl (by simpa [same] using there)
  case preparedStart =>
    by_cases same : timer = state.nextTimer
    · exact .inl (by simp [same])
    · exact .inl (by simpa [same] using there)
  case startedClear other _ _ _ _ | tickIdle other _ _ _ _ _ =>
    by_cases same : timer = other
    · subst same
      exact .inl (by simpa using there)
    · exact .inl (by simpa [same] using there)
  all_goals exact .inl there

omit [DecidableEq α] in
/-- A call that may close a timer is made by one that may. -/
theorem mayClose_of_makes {timer : TimerId} {head call : Call α} {calls : List (Call α)}
    (made : Makes config state label following head calls) (member : call ∈ calls)
    (may : call.mayClose config timer) : head.mayClose config timer := by
  cases made
  case preambles =>
    obtain ⟨lower, _, rfl⟩ := List.mem_map.mp member
    cases may
  case nothing => cases member
  case unchecked =>
    obtain rfl := List.mem_singleton.mp member
    exact CheckThen.mayClose_mono may fun _ _ => rfl
  case checker =>
    simp only [List.mem_cons, List.not_mem_nil, or_false] at member
    rcases member with rfl | rfl | rfl
    · exact may
    all_goals cases may
  case errorChecker | exitChecker =>
    obtain rfl := List.mem_singleton.mp member
    exact may
  case pipe pid role error _ _ _ | spawn pid role error _ _ | unread pid role error _ =>
    simp only [List.mem_cons, List.not_mem_nil, or_false] at member
    cases role with
    | main => rcases member with rfl | rfl <;> cases may
    | checker app next =>
        rcases member with rfl | rfl
        · exact CheckThen.mayClose_mono may fun _ _ => rfl
        · first | cases may | exact CheckThen.mayClose_mono may fun _ _ => rfl
  all_goals
    simp only [List.mem_cons, List.not_mem_nil, or_false] at member
    rcases member with rfl | rfl <;> cases may

omit [DecidableEq α] in
/-- A handler begins with such a call for a process that may close the timer, or for a tick. -/
theorem mayClose_of_delivers {timer : TimerId} {call : Call α} {calls : List (Call α)}
    (delivered : Delivers state label calls) (member : call ∈ calls)
    (may : call.mayClose config timer) :
    (∃ pid, state.mayClose config timer pid) ∨ state.timers timer ≠ none := by
  cases delivered <;> simp only [List.mem_cons, List.not_mem_nil, or_false] at member
  case require =>
    subst member
    cases may
  case onError pid fd nread buffer proc live running failed =>
    subst member
    obtain ⟨command, role, phase, spawned, alive⟩ := proc
    obtain rfl : phase = .running := running
    refine .inl ⟨pid, ?_⟩
    rw [State.mayClose, live]
    cases role with
    | main => cases may
    | checker => exact CheckThen.mayClose_mono may fun _ _ => rfl
  case onExit pid termination proc live closing =>
    subst member
    obtain ⟨command, role, phase, spawned, alive⟩ := proc
    obtain rfl : phase = .closing termination := closing
    refine .inl ⟨pid, ?_⟩
    rw [State.mayClose, live]
    cases role with
    | main => cases may
    | checker => exact may
  case check other entry live waiting =>
    rcases member with rfl | rfl
    · obtain rfl : other = timer := by simpa [Call.mayClose, CheckThen.mayClose] using may
      exact .inr (by simp [live])
    · cases may

namespace Outlived

theorem calls_of_move (move : Move config state label following out)
    (outlived : Outlived config state) :
    ∀ timer, ∀ call ∈ following.todo, call.mayClose config timer →
      following.timers timer ≠ none := by
  intro timer
  have within {call : Call α} (member : call ∈ state.todo) (there : state.timers timer ≠ none) :
      following.timers timer ≠ none := by
    rcases timer_survives move there with kept | ⟨_, idle⟩
    · exact kept
    · rw [idle] at member
      cases member
  refine forall_todo_of_move move (outlived.calls timer)
    (fun call member there may => within member (there may)) ?_ ?_
  · intro head member calls there made call made_call may
    exact within member (there (mayClose_of_makes made made_call may))
  · intro calls delivered call member may
    have there : state.timers timer ≠ none := by
      rcases mayClose_of_delivers delivered member may with ⟨pid, before⟩ | there
      · exact outlived.procs timer pid before
      · exact there
    rcases timer_survives move there with kept | ⟨rfl, _⟩
    · exact kept
    · cases delivered

theorem procs_of_move (move : Move config state label following out)
    (outlived : Outlived config state) (sound : Sound config state)
    (outlive : timersOutlive config state label) :
    ∀ timer pid, following.mayClose config timer pid → following.timers timer ≠ none := by
  intro timer pid may
  have earlier := mayClose_of_move move sound may
  have there : state.timers timer ≠ none := by
    rcases earlier with before | ⟨call, member, before⟩
    · exact outlived.procs timer pid before
    · exact outlived.calls timer call member before
  rcases timer_survives move there with kept | ⟨rfl, idle⟩
  · exact kept
  · rcases earlier with before | ⟨call, member, _⟩
    · have known : pid < state.nextPid := by
        by_contra beyond
        simp [State.mayClose, sound.fresh pid (Nat.le_of_not_lt beyond)] at before
      rw [outlive pid known] at before
      cases before
    · rw [idle] at member
      cases member

end Outlived

/-- The timer that a move closes is there. -/
theorem deadTimer_not_mem (move : Move config state label following out)
    (outlived : Outlived config state) (timer : TimerId) : .fault (.deadTimer timer) ∉ out := by
  intro member
  cases move
  case startedClear app other error rest pending completed =>
    have there := outlived.calls other (.checked (.started app other) error) (by simp [pending])
      (by simpa [Call.mayClose, CheckThen.mayClose] using (mayComplete_iff _).mpr ⟨_, completed⟩)
    simp [there] at member
  case tickIdle other entry idle live _ _ =>
    simp [live] at member
  case errorChecker =>
    rcases List.mem_cons.mp member with same | member
    · cases same
    · split at member <;> simp at member
  case queueMore | queueFirst | clearCallbacks =>
    simp [State.traversalFault] at member
  all_goals simp at member

theorem outlived_of_reaches
    (reached : Machine.Reaches (step config) (timersOutlive config) (State.initial α) state past) :
    Outlived config state := by
  refine reached.invariant (fun state _ => Outlived config state) ?_ ?_
  · exact ⟨by simp [State.initial], by simp [State.mayClose, State.initial]⟩
  · intro state following past out label reached outlived outlive moved
    have move := move_of_step moved
    exact ⟨outlived.calls_of_move move,
      outlived.procs_of_move move (sound_of_reaches reached) outlive⟩

/-- As long as no start-up timer is destroyed while a check that it launched may still close
it, nothing closes a timer that has been destroyed. -/
theorem deadTimer_of_reaches
    (reached : Machine.Reaches (step config) (timersOutlive config) (State.initial α) state past)
    (timer : TimerId) : .fault (.deadTimer timer) ∉ past := by
  refine reached.invariant (fun _ past => .fault (.deadTimer timer) ∉ past) (by simp) ?_
  intro state following past out label reached before outlive moved member
  rcases List.mem_append.mp member with earlier | now
  · exact before earlier
  · exact deadTimer_not_mem (move_of_step moved) (outlived_of_reaches reached) timer now

/-- The main process reports a read error while a check is running.  The next tick closes the
timer, and the check fails before the timer is destroyed. -/
theorem deadTimer_of_reaches_failure : ∃ (state : State (Fin 1)) (past : List (Event (Fin 1))),
    state.timers 0 = none ∧ .processExit 2 1 0 ∈ past ∧ .fault (.deadTimer 0) ∉ past := by
  obtain ⟨state, reached, gone⟩ := Machine.exists_reaches (step checkedApp)
    (timersOutlive checkedApp) (State.initial (Fin 1))
    [.require 0 7, .call, .call, .spawn {}, .call, .call, .exited 0 .failure, .closed 0, .call,
      .call, .call, .call, .spawn {}, .call, .tick 0, .call, .spawn {}, .call, .call, .call,
      .read 1 1 (-5) [], .call, .call, .call, .call, .tick 0, .exited 2 .failure, .timerClosed 0,
      .closed 2, .call, .call]
    [.queued 0 ⟨0, .caller 7⟩, .spawned 0 (.checker 0 (.required 0)), .processStart 0,
      .ended 0 (.checker 0 (.required 0)) .failure, .processExit 0 1 0, .start 0 1,
      .prepared 0 1 0, .spawned 1 (.main 0 1), .processStart 1,
      .spawned 2 (.checker 0 (.started 0 0)), .processStart 2, .processError 1 (-5),
      .answered 0 ⟨0, .caller 7⟩ none (-5), .ended 2 (.checker 0 (.started 0 0)) .failure,
      .processExit 2 1 0]
    (fun state => (state.timers 0).isNone) (by decide)
  exact ⟨state, _, Option.isNone_iff_eq_none.1 gone, by simp, deadTimer_of_reaches reached 0⟩

/-- The same run, but the check succeeds, and after the timer has been destroyed. -/
theorem deadTimer_of_reaches_success : ∃ (state : State (Fin 1)) (past : List (Event (Fin 1))),
    Machine.Reaches (step checkedApp) Machine.always (State.initial (Fin 1)) state past ∧
      .fault (.deadTimer 0) ∈ past := by
  obtain ⟨state, reached, _⟩ := Machine.exists_reaches (step checkedApp) Machine.always
    (State.initial (Fin 1))
    [.require 0 7, .call, .call, .spawn {}, .call, .call, .exited 0 .failure, .closed 0, .call,
      .call, .call, .call, .spawn {}, .call, .tick 0, .call, .spawn {}, .call, .call, .call,
      .read 1 1 (-5) [], .call, .call, .call, .call, .tick 0, .timerClosed 0, .exited 2 .success,
      .closed 2, .call, .call]
    [.queued 0 ⟨0, .caller 7⟩, .spawned 0 (.checker 0 (.required 0)), .processStart 0,
      .ended 0 (.checker 0 (.required 0)) .failure, .processExit 0 1 0, .start 0 1,
      .prepared 0 1 0, .spawned 1 (.main 0 1), .processStart 1,
      .spawned 2 (.checker 0 (.started 0 0)), .processStart 2, .processError 1 (-5),
      .answered 0 ⟨0, .caller 7⟩ none (-5), .ended 2 (.checker 0 (.started 0 0)) .success,
      .processExit 2 0 0, .fault (.deadTimer 0)]
    (fun _ => true) (by decide)
  exact ⟨state, _, reached, by simp⟩

/-- A process object that is neither running nor closing still has to be started or ended. -/
def Settling (state : State α) : Prop :=
  ∀ pid phase, state.phaseOf pid = some phase → phase = .created ∨ phase = .failed →
    ∃ call ∈ state.todo, call.settles? = some pid

theorem settling_of_reaches {guard : State α → Label α → Prop}
    (reached : Machine.Reaches (step config) guard (State.initial α) state past) :
    Settling state := by
  refine reached.invariant (fun state _ => Settling state) ?_ ?_
  · simp [Settling, State.phaseOf, State.initial]
  · intro state following past out label _ settling _ moved pid phase now unsettled
    rcases phaseOf_of_move (move_of_step moved) pid with ⟨same, kept⟩ | ⟨_, _, made⟩ |
      ⟨_, _, _, made | running⟩ | ⟨_, _, closing⟩ | ⟨_, termination, closing⟩ | none
    · obtain ⟨call, member, settles⟩ := settling pid phase (same.symm.trans now) unsettled
      exact ⟨call, kept call member settles, settles⟩
    · exact made
    · exact made
    · simp [running phase now] at unsettled
    · simp [closing phase now] at unsettled
    · obtain rfl := Option.some.inj (closing.symm.trans now)
      simp at unsettled
    · cases none.symm.trans now

/-- The close callback of a check, delivered at a chosen time, has its `OnExit` to call. -/
def State.onCheckClosed (state : State α) (now : UInt64) (pid : Pid) (owner : α)
    (next : CheckThen α) (termination : Termination) : State α :=
  { state with now, todo := [.onExit pid (.checker owner next) termination] }

/-- The check is deleted, and its status is to be handed to the continuation. -/
def State.onCheckExit (state : State α) (now : UInt64) (pid : Pid) (next : CheckThen α)
    (termination : Termination) : State α :=
  { state.setProc pid none with now, todo := [.checked next termination.status] }

variable (config) in
/-- A closing check can be deleted at any time at which no handler runs. -/
theorem reaches_onCheckExit {pid : Pid} {proc : Proc α} {owner : α} {next : CheckThen α}
    {termination : Termination} (idle : state.todo = []) (there : state.procs pid = some proc)
    (role : proc.role = .checker owner next) (closing : proc.phase = .closing termination)
    (now : UInt64) :
    ∃ later, Machine.Reaches (step config) Machine.always state
      (state.onCheckExit now pid next termination) later := by
  have clocked : step config state (.clock now) = some ({ state with now }, []) := rfl
  have closed : step config { state with now } (.closed pid) =
      some (state.onCheckClosed now pid owner next termination, []) := by
    simp [step, deliver, idle, there, closing, role, State.onCheckClosed, State.call]
  have exited : step config (state.onCheckClosed now pid owner next termination) .call =
      some (state.onCheckExit now pid next termination,
        [.ended pid (.checker owner next) termination,
          .processExit pid termination.status termination.signal]) := by
    simp [step, perform, onExit, State.onCheckClosed, State.onCheckExit, termination.toInt_status,
      State.call, State.after, State.setProc]
  have allowed (state : State α) (label : Label α) : Machine.always state label := trivial
  exact ⟨_, ((Machine.Reaches.start.next (allowed _ _) clocked).next (allowed _ _) closed).next
    (allowed _ _) exited⟩

/-- The exit of a check with such a result closes the timer that has been destroyed. -/
theorem exists_deadTimer_of_closing {timer : TimerId} {pid : Pid} {proc : Proc α} {owner app : α}
    {termination : Termination} (idle : state.todo = []) (dead : state.timers timer = none)
    (there : state.procs pid = some proc) (role : proc.role = .checker owner (.started app timer))
    (closing : proc.phase = .closing termination)
    (completes : (config app).mayComplete termination.status) :
    ∃ last later, Machine.Reaches (step config) Machine.always state last later ∧
      .fault (.deadTimer timer) ∈ later := by
  obtain ⟨now, completed⟩ := (mayComplete_iff (state.apps app)).mp completes
  obtain ⟨before, reached⟩ := reaches_onCheckExit config idle there role closing now
  have completing : ∃ last, step config
      (state.onCheckExit now pid (.started app timer) termination) .call =
        some (last, [.fault (.deadTimer timer)]) := by
    simp [step, perform, startedThen, State.onCheckExit, completed, dead]
  obtain ⟨last, completing⟩ := completing
  have allowed : Machine.always (state.onCheckExit now pid (.started app timer) termination)
    (.call : Label α) := trivial
  exact ⟨last, _, reached.next allowed completing, by simp⟩

variable (config) in
/-- A running check can exit at any time at which no handler runs. -/
theorem exists_closing_of_running {pid : Pid} {proc : Proc α} (idle : state.todo = [])
    (there : state.procs pid = some proc) (running : proc.phase = .running)
    (termination : Termination) :
    ∃ exiting, step config state (.exited pid termination) = some (exiting, []) ∧
      exiting.todo = [] ∧ exiting.timers = state.timers ∧
      exiting.procs pid = some { proc with phase := .closing termination } :=
  ⟨state.setProc pid (some { proc with phase := .closing termination }),
    by simp [step, deliver, idle, there, running], idle, rfl, by simp⟩

/-- Wherever a run does not meet the condition, it can go on so that the check closes the
timer that has been destroyed. -/
theorem exists_deadTimer {guard : State α → Label α → Prop} {timer : TimerId}
    (reached : Machine.Reaches (step config) guard (State.initial α) state past)
    (moved : step config state (.timerClosed timer) = some (following, out))
    (refused : ¬ timersOutlive config state (.timerClosed timer)) :
    ∃ last later, Machine.Reaches (step config) Machine.always following last later ∧
      .fault (.deadTimer timer) ∈ later := by
  have settling := settling_of_reaches reached
  cases move_of_step moved with
  | timerClosed idle live closing =>
  simp only [timersOutlive, not_forall, Bool.not_eq_false] at refused
  obtain ⟨pid, _, may⟩ := refused
  obtain ⟨owner, next, phase, role, current, may⟩ := mayClose_iff.mp may
  obtain ⟨app, rfl, completes⟩ :
      ∃ app, next = .started app timer ∧ phase.mayComplete (config app) := by
    cases next with
    | required => cases may
    | started app other => simp_all [CheckThen.mayClose]
  obtain ⟨proc, there, captured⟩ := Option.map_eq_some_iff.mp role
  have reports : proc.phase = phase := by simpa [State.phaseOf, there] using current
  have dead : (state.setTimer timer none).timers timer = none := by simp
  cases phase with
  | created | failed =>
      obtain ⟨call, member, _⟩ := settling pid _ current (by simp)
      simp [idle] at member
  | closing termination =>
      exact exists_deadTimer_of_closing idle dead there captured reports completes
  | running =>
      have calm : (state.setTimer timer none).todo = [] := idle
      have present : (state.setTimer timer none).procs pid = some proc := there
      obtain ⟨exiting, exited, quiet, timers, after⟩ :=
        exists_closing_of_running config calm present reports .success
      have completes : (config app).mayComplete Termination.success.status := by
        simp [AppConfig.mayComplete, Termination.success, Termination.status]
      obtain ⟨last, later, run, closes⟩ := exists_deadTimer_of_closing quiet
        ((congrFun timers timer).trans dead) after captured rfl completes
      have allowed : Machine.always (state.setTimer timer none)
        (.exited pid .success : Label α) := trivial
      exact ⟨last, _, (Machine.Reaches.start.next allowed exited).trans run, by simp [closes]⟩

end Nexer.Manager

import Nexer.Manager.Recorded
import Nexer.Transition.History

/-!
# Success for an app with a checker

A waiter of an app that has a checker is answered with error 0 only after a
checker of the app has ended with code 0 and no signal while the waiter was
queued.  The exception is a read of no bytes: `Process::OnRead` passes it to
`on_error_` with error 0, and both `OnError` closures answer with that error.
The results are about the runs in which no such read arrives while waiters of
an app with a checker are queued.
-/

namespace Nexer.Manager

open Nexer.Transition

variable {α : Type} [DecidableEq α] {config : α → AppConfig α}
variable {state following : State α} {label : Label α} {past out : List (Event α)}

/-- A checker of the app terminated normally with exit code 0. -/
def CleanCheck (app : α) (event : Event α) : Prop :=
  ∃ pid next termination, event = .ended pid (.checker app next) termination ∧
    termination.code = 0 ∧ termination.signal = 0

/-- A read of no bytes from a process of an app with a checker arrives only when
no callback of the app is queued. -/
def emptyReadsUnwaited (config : α → AppConfig α) (state : State α) : Label α → Prop
  | .read pid _ nread _ => nread = 0 → ∀ proc ∈ state.procs pid,
      (config proc.role.app).checker.isSome → (state.apps proc.role.app).callbacks = []
  | _ => True

instance : ∀ (state : State α) (label : Label α),
    Decidable (emptyReadsUnwaited config state label) := by
  intro state label
  cases label <;> unfold emptyReadsUnwaited <;> infer_instance

/-- The calls that lead to answering the waiters of an app with error 0. -/
inductive Grants : Call α → α → Prop where
  | onError {pid : Pid} {role : Role α} : Grants (.onError pid role 0) role.app
  | checked {next : CheckThen α} : Grants (.checked next 0) next.app
  | clearCallbacks {app : α} : Grants (.clearCallbacks app 0) app

/-- Every waiter in the list was queued before a clean end of a checker. -/
def Vouched (app : α) (waiters : List (Waiter α)) (past : List (Event α)) : Prop :=
  ∀ waiter ∈ waiters, Since (.queued app waiter) (CleanCheck app) past

structure Justified (config : α → AppConfig α) (state : State α)
    (past : List (Event α)) : Prop where
  granted : ∀ call ∈ state.todo, ∀ app, Grants call app → (config app).checker.isSome →
    Vouched app (state.apps app).callbacks past
  answering : ∀ call ∈ state.todo, ∀ app left, call = .answer app left 0 →
    (config app).checker.isSome → Vouched app left past

omit [DecidableEq α] in
theorem vouched_append {app : α} {waiters : List (Waiter α)} (vouched : Vouched app waiters past)
    (later : List (Event α)) : Vouched app waiters (past ++ later) :=
  fun waiter member => (vouched waiter member).append later

omit [DecidableEq α] in
theorem vouched_step {app : α} (fewer : (following.apps app).callbacks ⊆ (state.apps app).callbacks)
    (vouched : Vouched app (state.apps app).callbacks past) :
    Vouched app (following.apps app).callbacks (past ++ out) :=
  fun waiter member => (vouched waiter (fewer member)).append out

omit [DecidableEq α] in
theorem grants_not_waits {call : Call α} {app : α} (grants : Grants call app) :
    call.waits = false := by
  cases grants <;> rfl

omit [DecidableEq α] in
/-- A call that grants was made by a call that granted already, or by the exit
callback of a checker that ended cleanly. -/
theorem grants_of_makes {head call : Call α} {calls : List (Call α)} {app : α}
    (sound : Sound config state) (top : head ∈ state.todo)
    (made : Makes config state label following head calls) (member : call ∈ calls)
    (grants : Grants call app) (has_checker : (config app).checker.isSome) :
    Grants head app ∨ ∃ pid next termination,
      head = .onExit pid (.checker app next) termination ∧ termination.status = 0 := by
  cases made
  case unchecked other next unchecked =>
    obtain rfl := List.mem_singleton.mp member
    cases grants
    have apt := sound.thens _ top other next rfl
    rw [apt.1, unchecked] at has_checker
    cases has_checker
  case requiredClear other _ =>
    obtain rfl := List.mem_singleton.mp member
    cases grants
    exact .inl (show Grants (.checked (.required app) 0) app from .checked)
  case startedClear other timer error =>
    simp only [List.mem_cons, List.not_mem_nil, or_false] at member
    rcases member with rfl | rfl <;> cases grants
    exact .inl (show Grants (.checked (.started app timer) 0) app from .checked)
  case preparedClear failed =>
    obtain rfl := List.mem_singleton.mp member
    cases grants
    exact absurd rfl failed
  case pipe _ failed _ | spawn failed _ | unread failed =>
    simp only [List.mem_cons, List.not_mem_nil, or_false] at member
    rcases member with rfl | rfl <;> cases grants
    exact absurd rfl failed
  case errorMain pid other round error =>
    obtain rfl := List.mem_singleton.mp member
    cases grants
    exact .inl (show Grants (.onError pid (.main app round) 0) app from .onError)
  case errorChecker pid other next error =>
    obtain rfl := List.mem_singleton.mp member
    cases grants
    have apt := (sound.checkers _ _ _ (sound.roles _ top _ _ rfl)).2
    rw [apt.1]
    exact .inl (show Grants (.onError pid (.checker other next) 0) other from .onError)
  case exitClear failed _ =>
    obtain rfl := List.mem_singleton.mp member
    generalize zero : Termination.status _ = status at *
    cases grants
    exact absurd rfl failed
  case exitChecker pid other next termination =>
    obtain rfl := List.mem_singleton.mp member
    generalize zero : termination.status = status at *
    cases grants
    have apt := (sound.checkers _ _ _ (sound.roles _ top _ _ rfl)).2
    rw [apt.1]
    exact .inr ⟨pid, next, termination, rfl, zero⟩
  case preambles =>
    obtain ⟨lower, _, rfl⟩ := List.mem_map.mp member
    cases grants
  case nothing => cases member
  all_goals
    simp only [List.mem_cons, List.not_mem_nil, or_false] at member
    rcases member with rfl | rfl | rfl <;> cases grants

theorem granted_of_move (move : Move config state label following out)
    (allowed : emptyReadsUnwaited config state label) (sound : Sound config state)
    (recorded : Recorded state past) (justified : Justified config state past) :
    ∀ call ∈ following.todo, ∀ app, Grants call app → (config app).checker.isSome →
      Vouched app (following.apps app).callbacks (past ++ out) := by
  intro call member app grants has_checker
  rcases todo_of_move move with ⟨other, same⟩ | ⟨head, rest, calls, inner, pending, after, made⟩ |
    ⟨calls, idle, after, delivered⟩
  · refine vouched_step (callbacks_subset move ?_) (justified.granted call (same ▸ member) app grants has_checker)
    rintro _ _ rfl
    cases other
  · have top : head ∈ state.todo := by simp [pending]
    rw [after, List.mem_append] at member
    rcases member with member | member
    · rcases grants_of_makes sound top made member grants has_checker with granted |
        ⟨pid, next, termination, rfl, clean⟩
      · refine vouched_step (callbacks_subset move fun callback _ _ required => ?_)
          (justified.granted head top app granted has_checker)
        cases (pending.symm.trans required)
        cases granted
      · have ended := ended_of_exit move inner pending
        have clean := termination.status_eq_zero_iff.mp clean
        intro waiter queued
        refine since_of_mem (recorded.queued app waiter (callbacks_subset move ?_ queued)).1
          ended ⟨pid, next, termination, rfl, clean⟩
        intro callback _ _ required
        cases pending.symm.trans required
    · have waits := sound.waits_below pending call member
      rw [grants_not_waits grants] at waits
      cases waits
  · rw [after] at member
    cases delivered <;> simp only [List.mem_cons, List.not_mem_nil, or_false] at member
    case onError pid fd nread buffer proc live running _ =>
      subst member
      cases grants
      have none_waiting := allowed rfl proc live has_checker
      have still : (following.apps proc.role.app).callbacks = [] :=
        List.subset_nil.mp (none_waiting ▸ callbacks_subset move (by simp))
      simp [Vouched, still]
    case check => rcases member with rfl | rfl <;> cases grants
    all_goals subst member; cases grants

theorem answering_of_move (move : Move config state label following out)
    (justified : Justified config state past) :
    ∀ call ∈ following.todo, ∀ app left, call = .answer app left 0 →
      (config app).checker.isSome → Vouched app left (past ++ out) := by
  refine forall_todo_of_move move justified.answering ?_ ?_ ?_
  · intro call _ vouched app left same has_checker
    exact vouched_append (vouched app left same has_checker) out
  · intro head top calls vouched made call member app left same has_checker
    subst same
    cases made
    case answers error =>
      cases List.mem_singleton.mp member
      exact vouched_append (justified.granted _ top app .clearCallbacks has_checker) out
    case answer waiter error =>
      cases List.mem_singleton.mp member
      have every := vouched app _ rfl has_checker
      exact vouched_append (fun other below => every other (.tail _ below)) out
    case last upper ticket round _ _ =>
      simp only [List.mem_cons, List.not_mem_nil, or_false] at member
      rcases member with impossible | same
      · cases impossible
      · cases same
        have every := vouched app _ rfl has_checker
        exact vouched_append (fun other below => every other (.tail _ below)) out
    all_goals simp at member
  · intro calls delivered call member app left same
    subst same
    cases delivered <;> simp at member

theorem justified_of_reaches
    (reached : Machine.Reaches (step config) (emptyReadsUnwaited config)
      (State.initial α) state past) :
    Justified config state past := by
  refine reached.invariant (Justified config) ⟨?_, ?_⟩ ?_
  · simp [State.initial]
  · simp [State.initial]
  · intro state following past out label reached justified allowed moved
    have move := move_of_step moved
    exact ⟨granted_of_move move allowed (sound_of_reaches reached)
      (recorded_of_reaches reached) justified, answering_of_move move justified⟩

/-- Success of an app with a checker is preceded by a clean end of one of its
checkers that came after the waiter was queued. -/
def SuccessChecked (config : α → AppConfig α) (before : List (Event α)) (event : Event α) :
    Prop :=
  ∀ app waiter process, event = .answered app waiter process 0 →
    (config app).checker.isSome → Since (.queued app waiter) (CleanCheck app) before

theorem success_checked
    (reached : Machine.Reaches (step config) (emptyReadsUnwaited config)
      (State.initial α) state past) :
    Historically (SuccessChecked config) past := by
  refine reached.invariant (fun _ past => Historically (SuccessChecked config) past)
    historically_nil ?_
  intro state following past out label reached holds allowed moved
  refine holds.append fun before event after split app waiter process same has_checker => ?_
  subst same
  obtain ⟨_, _, others, rest, pending⟩ := reported_of_move (move_of_step moved)
    (.answered app waiter process 0) (by simp [split])
  have vouched := (justified_of_reaches reached).answering
    (.answer app (waiter :: others) 0) (by simp [pending]) app _ rfl has_checker
  exact (vouched waiter (.head _)).append before

section Runs

/-- The only app is required, its checker ends with code 0, and the waiter is
answered with error 0. -/
theorem success_checked_run :
    Since (.queued 0 ⟨0, .caller 7⟩) (CleanCheck 0)
      [.queued (0 : Fin 1) ⟨0, .caller 7⟩, .spawned 0 (.checker 0 (.required 0)),
        .processStart 0, .ended 0 (.checker 0 (.required 0)) .success,
        .processExit 0 0 0] := by
  obtain ⟨state, reached, _⟩ := Machine.exists_reaches
    (step checkedApp) (emptyReadsUnwaited checkedApp) (State.initial (Fin 1))
    [.require 0 7, .call, .call, .spawn {}, .call, .call,
      .exited 0 .success, .closed 0, .call, .call, .call, .call]
    [.queued 0 ⟨0, .caller 7⟩, .spawned 0 (.checker 0 (.required 0)),
      .processStart 0, .ended 0 (.checker 0 (.required 0)) .success, .processExit 0 0 0,
      .answered 0 ⟨0, .caller 7⟩ none 0]
    (fun _ => true) (by decide)
  exact success_checked reached _ _ [] rfl 0 ⟨0, .caller 7⟩ none rfl rfl

/-- The checker fails and the main process starts; a read of no bytes from it
answers the waiter with error 0. -/
theorem success_unchecked :
    ∃ state past,
      Machine.Reaches (step checkedApp) Machine.always (State.initial (Fin 1)) state past ∧
        ¬ Historically (SuccessChecked checkedApp) past := by
  let before : List (Event (Fin 1)) :=
    [.queued 0 ⟨0, .caller 7⟩, .spawned 0 (.checker 0 (.required 0)), .processStart 0,
      .ended 0 (.checker 0 (.required 0)) .failure, .processExit 0 1 0,
      .start 0 1, .prepared 0 1 0, .spawned 1 (.main 0 1), .processStart 1,
      .processError 1 0]
  obtain ⟨state, reached, _⟩ := Machine.exists_reaches
    (step checkedApp) Machine.always (State.initial (Fin 1))
    [.require 0 7, .call, .call, .spawn {}, .call, .call,
      .exited 0 .failure, .closed 0, .call, .call, .call, .call, .spawn {}, .call,
      .read 1 1 0 [], .call, .call, .call]
    (before ++ [.answered 0 ⟨0, .caller 7⟩ none 0]) (fun _ => true) (by decide)
  refine ⟨state, _, reached, fun holds => ?_⟩
  have justified := holds before _ [] rfl 0 ⟨0, .caller 7⟩ none rfl rfl
  obtain ⟨event, member, pid, next, termination, rfl, clean⟩ := justified.exists
  obtain ⟨rfl, rfl, rfl⟩ : pid = 0 ∧ next = .required 0 ∧ termination = .failure := by
    simpa [before] using member
  exact absurd clean.1 (by decide)

end Runs

end Nexer.Manager

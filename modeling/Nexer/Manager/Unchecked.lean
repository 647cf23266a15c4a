import Nexer.Manager.Recorded
import Nexer.Transition.History

/-!
# Success for an app without a checker

A waiter of an app that has no checker is answered with error 0 by `Require`
when there is a tracked main process, by a tick of a start-up timer, and by a
read of no bytes from a main process.  The last two do not look at the app: the
timer may be left from an earlier start, and the process may be an old one.
The results are about the runs in which those two find either the latest main
process alive, or only waiters that are older than it, and in which a traversal
that reports success does not start and lose a main process of its own app.
-/

namespace Nexer.Manager

open Nexer.Transition

variable {α : Type} [DecidableEq α] {config : α → AppConfig α}
variable {state following : State α} {label : Label α} {past out : List (Event α)}

/-- The latest main process of the app is alive, or every waiter is older than it. -/
def Backed (state : State α) (app : α) : Prop :=
  (state.apps app).latestMain.any state.spawnedAt ∨
    ∀ waiter ∈ (state.apps app).callbacks, waiter.ticket < (state.apps app).mainTicket

/-- A traversal of the callbacks of the app with error 0 is active. -/
def granting (state : State α) (app : α) : Bool :=
  state.todo.any fun
    | .answer other _ error => other = app ∧ error = 0
    | _ => false

/-- No start-up timer and no read of no bytes answers for a main process that is
not there, and no main process is lost inside a traversal that reports it. -/
def successBacked (config : α → AppConfig α) (state : State α) : Label α → Prop
  | .tick timer => ∀ entry ∈ state.timers timer,
      (config entry.app).checker = none → Backed state entry.app
  | .read pid _ nread _ => nread = 0 → ∀ proc ∈ state.procs pid,
      (config proc.role.app).checker = none → Backed state proc.role.app
  | .spawn result => result.pipe ≠ 0 ∨ result.spawn ≠ 0 →
      match state.todo with
      | .processStart _ (.main app _) :: _ =>
          (config app).checker = none → granting state app = false
      | _ => True
  | _ => True

instance (state : State α) (app : α) : Decidable (Backed state app) := by
  unfold Backed
  infer_instance

instance : ∀ (state : State α) (label : Label α), Decidable (successBacked config state label)
  | state, .tick timer =>
      inferInstanceAs (Decidable (∀ entry ∈ state.timers timer,
        (config entry.app).checker = none → Backed state entry.app))
  | state, .read pid _ nread _ =>
      inferInstanceAs (Decidable (nread = 0 → ∀ proc ∈ state.procs pid,
        (config proc.role.app).checker = none → Backed state proc.role.app))
  | { todo := [], .. }, .spawn _ => .isTrue fun _ => trivial
  | { todo := call :: _, .. }, .spawn result =>
      match call with
      | .processStart _ (.main ..) =>
          inferInstanceAs (Decidable (result.pipe ≠ 0 ∨ result.spawn ≠ 0 → _ = none → _ = false))
      | .processStart _ (.checker ..)
      | .require .. | .check .. | .checked .. | .start .. | .prepared .. | .onProcessStart ..
      | .endCheck .. | .onError .. | .onProcessExit .. | .kill .. | .onExit ..
      | .clearCallbacks .. | .answer .. | .setChecking .. => .isTrue fun _ => trivial
  | _, .clock _ | _, .call | _, .require .. | _, .exited .. | _, .closed _
  | _, .timeout _ | _, .timerClosed _ => .isTrue trivial

/-- The main process that was started last has been spawned and has not ended. -/
def MainLive (app : α) (past : List (Event α)) : Prop :=
  ∃ pid round, latestStart app past = some pid ∧ .spawned pid (.main app round) ∈ past ∧
    ∀ role termination, .ended pid role termination ∉ past

/-- A main process started after the waiter was queued has ended with code 0. -/
def MainDone (app : α) (waiter : Waiter α) (past : List (Event α)) : Prop :=
  ∃ pid round role termination,
    Since (.queued app waiter) (· = .spawned pid (.main app round)) past ∧
      .ended pid role termination ∈ past ∧ termination.code = 0 ∧ termination.signal = 0

/-- The main process that was started last could not be spawned or has failed. -/
def MainFailed (app : α) (past : List (Event α)) : Prop :=
  ∃ pid, latestStart app past = some pid ∧
    ((∃ role, .unspawned pid role ∈ past) ∨
      ∃ role termination, .ended pid role termination ∈ past ∧
        ¬ (termination.code = 0 ∧ termination.signal = 0))

/-- Success of an app without a checker is backed by its main process. -/
def SuccessUnchecked (config : α → AppConfig α) (before : List (Event α))
    (event : Event α) : Prop :=
  ∀ app waiter process, event = .answered app waiter process 0 →
    (config app).checker = none →
    (MainLive app before ∨ MainDone app waiter before) ∧ ¬ MainFailed app before

/-- The calls that answer the waiters of an app without a checker with error 0,
the continuation of `Require` apart. -/
inductive Passes : Call α → α → Prop where
  | onError {pid : Pid} {role : Role α} : Passes (.onError pid role 0) role.app
  | check {app : α} {timer : TimerId} : Passes (.check app (.started app timer)) app
  | checked {app : α} {timer : TimerId} : Passes (.checked (.started app timer) 0) app
  | clearCallbacks {app : α} : Passes (.clearCallbacks app 0) app

/-- The calls after which the waiters of the app are gone. -/
inductive Clears : Call α → α → Prop where
  | processStart {pid : Pid} {app : α} {round : Nat} :
      Clears (.processStart pid (.main app round)) app
  | onError {pid : Pid} {app : α} {round : Nat} {error : Int} :
      Clears (.onError pid (.main app round) error) app
  | clearCallbacks {app : α} {error : Int} : Clears (.clearCallbacks app error) app
  | answer {app : α} {left : List (Waiter α)} {error : Int} :
      Clears (.answer app left error) app

/-- The latest main process is younger than the waiter and has not failed. -/
def Younger (state : State α) (past : List (Event α)) (app : α) (waiter : Waiter α) : Prop :=
  ∃ pid round, (state.apps app).latestMain = some pid ∧
    Since (.queued app waiter) (· = .spawned pid (.main app round)) past ∧
    ∀ role termination, .ended pid role termination ∈ past →
      termination.code = 0 ∧ termination.signal = 0

/-- What lets a waiter be answered with error 0. -/
def Allowed (state : State α) (past : List (Event α)) (app : α) (waiter : Waiter α) : Prop :=
  (∃ pid, (state.apps app).latestMain = some pid ∧ state.spawnedAt pid) ∨
    Younger state past app waiter

structure Backing (config : α → AppConfig α) (state : State α)
    (past : List (Event α)) : Prop where
  restart : ∀ app, (config app).checker = none → (state.apps app).restart = false
  checks : ∀ call ∈ state.todo, ∀ next error, call = .checked next error →
    (config next.app).checker = none → error = 0
  older : ∀ app, (config app).checker = none → ∀ waiter ∈ (state.apps app).callbacks,
    waiter.ticket < (state.apps app).mainTicket →
      Younger state past app waiter ∨ ∃ call ∈ state.todo, Clears call app
  passed : ∀ call ∈ state.todo, ∀ app, Passes call app → (config app).checker = none →
    ∀ waiter ∈ (state.apps app).callbacks, Allowed state past app waiter
  answering : ∀ app left, .answer app left 0 ∈ state.todo → (config app).checker = none →
    ∀ waiter ∈ left, Allowed state past app waiter ∨
      ∃ pid round rest, state.todo = .processStart pid (.main app round) :: rest

omit [DecidableEq α] in
theorem backing_initial (config : α → AppConfig α) : Backing config (State.initial α) [] := by
  constructor <;> simp [State.initial]

namespace Backing

theorem checks_of_move (move : Move config state label following out)
    (sound : Sound config state) (backing : Backing config state past) :
    ∀ call ∈ following.todo, ∀ next error, call = .checked next error →
      (config next.app).checker = none → error = 0 := by
  refine forall_todo_of_move move backing.checks (fun _ _ checks => checks) ?_ ?_
  · intro head top calls _ made call member next error same unchecked
    subst same
    cases made <;> simp at member
    case unchecked => exact member.2
    case errorChecker app | exitChecker app =>
      have checker := sound.checkers _ _ _ (sound.roles _ top _ _ rfl)
      rw [member.1, checker.2.1] at unchecked
      simp [unchecked] at checker
  · intro calls delivered call member next error same
    subst same
    cases delivered <;> simp at member

theorem no_restart_of_move (move : Move config state label following out)
    (backing : Backing config state past) :
    ∀ app, (config app).checker = none → (following.apps app).restart = false := by
  intro app unchecked
  rcases restart_of_move move app with same | ⟨_, error, rest, pending, _, failed, _⟩ |
    ⟨_, _, _, _, _, _, now⟩
  · exact same.trans (backing.restart app unchecked)
  · exact absurd (backing.checks (.checked (.required app) error) (by simp [pending])
      _ _ rfl unchecked) failed
  · exact now

end Backing

/-- A spawned process stays spawned, unless its own exit callback runs. -/
theorem spawnedAt_kept (move : Move config state label following out)
    (sound : Sound config state) {pid : Pid} (running : state.spawnedAt pid)
    (other : ∀ role termination rest, state.todo ≠ .onExit pid role termination :: rest) :
    following.spawnedAt pid := by
  rcases spawnedAt_of_move move pid with same | ⟨rfl, _⟩ | ⟨_, _, _, _, _, _, _, _, now⟩ |
    ⟨role, termination, rest, _, pending, _⟩
  · exact same.trans running
  · simp [State.spawnedAt, sound.fresh _ (Nat.le_refl _)] at running
  · rw [now]
    cases there : state.procs pid <;> simp_all [State.spawnedAt]
  · exact absurd pending (other role termination rest)

/-- A step that neither creates a main process of the app nor runs an exit
callback from the event loop leaves every permission. -/
theorem allowed_kept (move : Move config state label following out)
    (sound : Sound config state) (recorded : Recorded state past)
    {app : α} {waiter : Waiter α} (allowed : Allowed state past app waiter)
    (kept : (following.apps app).latestMain = (state.apps app).latestMain)
    (other : ∀ pid role termination, state.todo ≠ [.onExit pid role termination]) :
    Allowed following (past ++ out) app waiter := by
  -- an exit callback that is not alone is that of a process that was never spawned
  have foreign {pid : Pid} {role : Role α} {termination : Termination} {rest : List (Call α)}
      (pending : state.todo = .onExit pid role termination :: rest) :
      state.spawnedAt pid = false := by
    rcases recorded.exits pid role termination (by simp [pending]) with only | no
    · exact absurd only (other pid role termination)
    · exact no
  rcases allowed with ⟨pid, latest, running⟩ | ⟨pid, round, latest, since, clean⟩
  · refine .inl ⟨pid, kept.trans latest, spawnedAt_kept move sound running ?_⟩
    intro role termination rest pending
    simp [foreign pending] at running
  · refine .inr ⟨pid, round, kept.trans latest, since.append out, ?_⟩
    intro role termination ended
    rcases List.mem_append.mp ended with ended | ended
    · exact clean role termination ended
    · obtain ⟨_, rest, pending⟩ := reported_of_move move _ ended
      obtain ⟨_, spawned, rfl⟩ := since.exists
      have running := ((recorded.spawned_before pid _ spawned).2 role
        (sound.role_of_top pending rfl)).2
      simp [foreign pending] at running

theorem latestMain_kept (move : Move config state label following out) {app : α}
    (other : ∀ round rest, state.todo ≠ .prepared app round 0 :: rest) :
    (following.apps app).latestMain = (state.apps app).latestMain := by
  rcases latestMain_of_move move app with ⟨same, _⟩ | ⟨round, rest, pending, _⟩
  · exact same
  · exact absurd pending (other round rest)

omit [DecidableEq α] in
/-- Without a pending handler a backed app may be reported as running. -/
theorem allowed_of_backed (backing : Backing config state past) (idle : state.todo = [])
    {app : α} (unchecked : (config app).checker = none) (backed : Backed state app) :
    ∀ waiter ∈ (state.apps app).callbacks, Allowed state past app waiter := by
  intro waiter member
  rcases backed with alive | young
  · exact .inl (Option.any_eq_true .. |>.mp alive)
  · rcases backing.older app unchecked waiter member (young waiter member) with younger |
      ⟨call, pending, _⟩
    · exact .inr younger
    · simp [idle] at pending

/-- A tracked main process is spawned, except while it is being started. -/
theorem allowed_of_tracked (recorded : Recorded state past) {app : α} {error : Int}
    {rest : List (Call α)} (pending : state.todo = .checked (.required app) error :: rest)
    (tracked : (state.apps app).process ≠ none) (waiter : Waiter α) :
    Allowed state past app waiter := by
  obtain ⟨pid, process⟩ := Option.ne_none_iff_exists'.mp tracked
  refine .inl ⟨pid, recorded.latest app pid process, ?_⟩
  rcases recorded.tracked app pid process with running | ⟨_, _, starting | ⟨_, starting⟩⟩
  · exact running
  · cases pending.symm.trans starting
  · cases pending.symm.trans starting

omit [DecidableEq α] in
theorem passes_not_waits {call : Call α} {app : α} (passes : Passes call app) :
    call.waits = false := by
  cases passes <;> rfl

omit [DecidableEq α] in
/-- A call that answers with error 0 was made by such a call, or by the
continuation of `Require` that found a main process. -/
theorem passes_of_makes {head call : Call α} {calls : List (Call α)} {app : α}
    (sound : Sound config state) (top : head ∈ state.todo)
    (made : Makes config state label following head calls) (member : call ∈ calls)
    (passes : Passes call app) (unchecked : (config app).checker = none) :
    (Passes head app ∧ ∀ pid role termination, head ≠ .onExit pid role termination) ∨
      head = .checked (.required app) 0 ∧ (state.apps app).process ≠ none := by
  cases passes with
  | onError =>
      cases made <;> simp at member
      case pipe _ failed _ | spawn failed _ | unread failed =>
        exact absurd member.2.2.symm failed
  | check => cases made <;> simp at member
  | @checked _ timer =>
      cases made <;> simp at member
      case unchecked other next _ =>
        subst member
        have apt := sound.thens _ top other _ rfl
        rw [← apt.1]
        exact .inl ⟨.check, by simp⟩
      case errorChecker | exitChecker =>
        have checker := sound.checkers _ _ _ (sound.roles _ top _ _ rfl)
        rw [← checker.2.1, ← member.1] at checker
        simp [CheckThen.app, unchecked] at checker
  | clearCallbacks =>
      cases made <;> simp at member
      case requiredClear other satisfied =>
        subst member
        exact .inr ⟨rfl, by simpa [unchecked] using satisfied⟩
      case startedClear other timer error =>
        obtain ⟨rfl, rfl⟩ := member
        exact .inl ⟨.checked, by simp⟩
      case preparedClear failed => exact absurd member.2.symm failed
      case errorMain pid other round error =>
        obtain ⟨rfl, rfl⟩ := member
        have granted : Passes (.onError pid (.main app round) 0) app := .onError
        exact .inl ⟨granted, by simp⟩
      case exitClear failed _ => exact absurd member.2.symm failed

namespace Backing

theorem passed_of_move (move : Move config state label following out)
    (guarded : successBacked config state label) (sound : Sound config state)
    (recorded : Recorded state past) (backing : Backing config state past) :
    ∀ call ∈ following.todo, ∀ app, Passes call app → (config app).checker = none →
      ∀ waiter ∈ (following.apps app).callbacks, Allowed following (past ++ out) app waiter := by
  intro call member app passes unchecked waiter queued
  rcases todo_of_move move with ⟨outer, same⟩ | ⟨head, rest, calls, inner, pending, after, made⟩ |
    ⟨calls, idle, after, delivered⟩
  · rw [same] at member
    obtain ⟨rest, pending⟩ := sound.top_of_not_waits member (passes_not_waits passes)
    have before := backing.passed call member app passes unchecked waiter
      (callbacks_subset move (by rintro _ _ rfl; cases outer) queued)
    refine allowed_kept move sound recorded before (latestMain_kept move ?_) ?_
    · intro round below top
      cases pending.symm.trans top
      cases passes
    · intro pid role termination only
      cases pending.symm.trans only
      cases passes
  · have top : head ∈ state.todo := by simp [pending]
    rw [after, List.mem_append] at member
    rcases member with member | member
    · rcases passes_of_makes sound top made member passes unchecked with ⟨passed, other⟩ |
        ⟨rfl, tracked⟩
      · refine allowed_kept move sound recorded
          (backing.passed head top app passed unchecked waiter ?_) (latestMain_kept move ?_) ?_
        · refine callbacks_subset move (fun _ _ _ required => ?_) queued
          cases pending.symm.trans required
          cases passed
        · intro round below prepared
          cases pending.symm.trans prepared
          cases passed
        · intro pid role termination only
          exact other pid role termination (List.cons.inj (pending.symm.trans only)).1
      · refine allowed_kept move sound recorded (allowed_of_tracked recorded pending tracked waiter)
          (latestMain_kept move ?_) ?_
        · simp [pending]
        · simp [pending]
    · have waits := sound.waits_below pending call member
      rw [passes_not_waits passes] at waits
      cases waits
  · have before : ∀ waiter ∈ (state.apps app).callbacks, Allowed state past app waiter := by
      refine allowed_of_backed backing idle unchecked ?_
      rw [after] at member
      cases delivered <;> simp only [List.mem_cons, List.not_mem_nil, or_false] at member
      case onError live _ _ =>
        subst member
        cases passes
        exact guarded rfl _ live unchecked
      case check live _ =>
        rcases member with rfl | rfl <;> cases passes
        exact guarded _ live unchecked
      all_goals subst member; cases passes
    refine allowed_kept move sound recorded (before waiter ?_) (latestMain_kept move ?_) ?_
    · exact callbacks_subset move (by simp [idle]) queued
    · simp [idle]
    · simp [idle]

/-- A call that is to clear the waiters of the app leaves such a call, or has
cleared them; a main process that is being started is left to the next lemmas. -/
theorem clears_of_top (move : Move config state label following out) (inner : label.inner)
    {app : α} {head : Call α} {rest : List (Call α)} (pending : state.todo = head :: rest)
    (clears : Clears head app) (other : ∀ pid role, head ≠ .processStart pid role) :
    (∃ call ∈ following.todo, Clears call app) ∨ (following.apps app).callbacks = [] := by
  cases clears with
  | processStart => exact absurd rfl (other _ _)
  | onError =>
      cases move
      case errorMain top =>
        cases pending.symm.trans top
        exact .inl ⟨_, .head _, .clearCallbacks⟩
      all_goals try cases inner
      all_goals cases pending.symm.trans ‹state.todo = _ :: _›
  | clearCallbacks =>
      cases move
      case clearCallbacks top =>
        cases pending.symm.trans top
        exact .inl ⟨_, .head _, .answer⟩
      all_goals try cases inner
      all_goals cases pending.symm.trans ‹state.todo = _ :: _›
  | answer =>
      cases move
      case answerEnd top =>
        cases pending.symm.trans top
        exact .inr (by simp)
      case answerCaller top | answerCount top _ =>
        cases pending.symm.trans top
        exact .inl ⟨_, .head _, .answer⟩
      case answerLast top _ =>
        cases pending.symm.trans top
        exact .inl ⟨_, .tail _ (.head _), .answer⟩
      all_goals try cases inner
      all_goals cases pending.symm.trans ‹state.todo = _ :: _›

/-- The exit callback of a failed main process clears the waiters of an app
without a checker. -/
theorem clears_of_exit (move : Move config state label following out) (inner : label.inner)
    (backing : Backing config state past) {app : α} (unchecked : (config app).checker = none)
    {pid : Pid} {round : Nat} {termination : Termination} {rest : List (Call α)}
    (pending : state.todo = .onExit pid (.main app round) termination :: rest)
    (failed : termination.status ≠ 0) : ∃ call ∈ following.todo, Clears call app := by
  have spent := backing.restart app unchecked
  cases move
  case exitRestart top _ again =>
    cases pending.symm.trans top
    simp [spent] at again
  case exitClear top _ _ _ =>
    cases pending.symm.trans top
    exact ⟨_, .head _, .clearCallbacks⟩
  case exitDrop top silent =>
    cases pending.symm.trans top
    simp [failed, unchecked] at silent
  all_goals try cases inner
  all_goals cases pending.symm.trans ‹state.todo = _ :: _›

/-- Waiters that are being told of success keep their permission: a main process
that starts meanwhile is spawned, by the guard. -/
theorem answering_of_move (move : Move config state label following out)
    (guarded : successBacked config state label) (sound : Sound config state)
    (recorded : Recorded state past) (backing : Backing config state past) :
    ∀ app left, .answer app left 0 ∈ following.todo → (config app).checker = none →
      ∀ waiter ∈ left, Allowed following (past ++ out) app waiter ∨
        ∃ pid round rest, following.todo = .processStart pid (.main app round) :: rest := by
  intro app left member unchecked waiter waiting
  -- what was allowed before the step
  have carried {left : List (Waiter α)} (member : .answer app left 0 ∈ state.todo)
      (waiting : waiter ∈ left) :
      Allowed following (past ++ out) app waiter ∨
        ∃ pid round rest, following.todo = .processStart pid (.main app round) :: rest := by
    rcases backing.answering app left member unchecked waiter waiting with allowed |
      ⟨pid, round, rest, pending⟩
    · rcases latestMain_of_move move app with ⟨kept, _⟩ | ⟨round, rest, _, now, _⟩
      · refine .inl (allowed_kept move sound recorded allowed kept ?_)
        intro pid role termination only
        simp [only] at member
      · exact .inr ⟨_, _, _, now⟩
    · rcases todo_of_move move with ⟨_, same⟩ | ⟨_, _, _, inner, _⟩ | ⟨_, idle, _⟩
      · exact .inr ⟨pid, round, rest, same.trans pending⟩
      · cases label with
        | spawn result =>
            rcases out_of_spawn move pending with ⟨_, _, _, now⟩ | ⟨failed, _⟩
            · have live := sound.handler_live (.processStart pid (.main app round))
                (by simp [pending]) rfl
              refine .inl (.inl ⟨pid, ?_, now.trans live.2⟩)
              rw [latestMain_kept move (by simp [pending])]
              exact recorded.starting app pid round rest pending
            · have lost := guarded failed
              rw [pending] at lost
              have active : granting state app = true := by
                simp only [granting, List.any_eq_true]
                exact ⟨_, member, by simp⟩
              simp [lost unchecked] at active
        | call => cases move <;> cases pending.symm.trans ‹state.todo = _ :: _›
        | _ => cases inner
      · cases idle.symm.trans pending
  rcases todo_of_move move with ⟨_, same⟩ | ⟨head, rest, calls, inner, pending, after, made⟩ |
    ⟨calls, idle, after, delivered⟩
  · exact carried (same ▸ member) waiting
  · have top : head ∈ state.todo := by simp [pending]
    rw [after, List.mem_append] at member
    rcases member with member | member
    · cases made <;> simp at member
      case answers =>
        obtain ⟨rfl, rfl, rfl⟩ := member
        refine .inl (allowed_kept move sound recorded
          (backing.passed _ top app .clearCallbacks unchecked waiter waiting)
          (latestMain_kept move ?_) ?_)
        · simp [pending]
        · simp [pending]
      case answer | last =>
        obtain ⟨rfl, rfl, rfl⟩ := member
        exact carried top (.tail _ waiting)
    · exact carried (by simp [pending, member]) waiting
  · rw [after] at member
    cases delivered <;> simp at member

theorem older_of_move (move : Move config state label following out)
    (sound : Sound config state) (recorded : Recorded state past)
    (backing : Backing config state past) :
    ∀ app, (config app).checker = none → ∀ waiter ∈ (following.apps app).callbacks,
      waiter.ticket < (following.apps app).mainTicket →
        Younger following (past ++ out) app waiter ∨ ∃ call ∈ following.todo, Clears call app := by
  intro app unchecked waiter queued younger
  rcases latestMain_of_move move app with ⟨kept, ticket⟩ | ⟨round, rest, _, now, _⟩
  · rw [ticket] at younger
    have waiting : waiter ∈ (state.apps app).callbacks := by
      rcases callbacks_of_move move app with same | ⟨callback, _, _, _, _, _, grown⟩ |
        ⟨_, _, _, _, cleared⟩
      · exact same ▸ queued
      · rw [grown, List.mem_append, List.mem_singleton] at queued
        rcases queued with queued | rfl
        · exact queued
        · exact absurd younger (Nat.not_lt.mpr (recorded.mainTicket app))
      · simp [cleared] at queued
    rcases backing.older app unchecked waiter waiting younger with
      ⟨pid, round, latest, since, clean⟩ | ⟨call, member, clears⟩
    · by_cases lost : ∃ role termination, .ended pid role termination ∈ out ∧
        termination.status ≠ 0
      · obtain ⟨role, termination, ended, failed⟩ := lost
        obtain ⟨rfl, rest, pending⟩ := reported_of_move move _ ended
        obtain ⟨_, spawned, rfl⟩ := since.exists
        obtain ⟨rfl, _⟩ := (recorded.spawned_before pid _ spawned).2 role
          (sound.role_of_top pending rfl)
        exact .inr (clears_of_exit move rfl backing unchecked pending failed)
      · refine .inl ⟨pid, round, kept.trans latest, since.append out, ?_⟩
        intro role termination ended
        rcases List.mem_append.mp ended with ended | ended
        · exact clean role termination ended
        · rw [← termination.status_eq_zero_iff]
          by_contra failed
          exact lost ⟨role, termination, ended, failed⟩
    · rcases todo_of_move move with ⟨_, same⟩ | ⟨head, rest, calls, inner, pending, after, _⟩ |
        ⟨_, idle, _⟩
      · exact .inr ⟨call, same ▸ member, clears⟩
      · rw [pending, List.mem_cons] at member
        rcases member with rfl | member
        · by_cases starting : ∃ pid round, call = .processStart pid (.main app round)
          · obtain ⟨pid, round, rfl⟩ := starting
            cases label with
            | spawn result =>
                rcases out_of_spawn move pending with ⟨_, _, rfl, _⟩ |
                  ⟨_, _, error, below, _, now⟩
                · refine .inl ⟨pid, round, ?_, ?_, ?_⟩
                  · exact kept.trans (recorded.starting app pid round rest pending)
                  · exact since_of_mem (recorded.queued app waiter waiting).1 (.head _) rfl
                  · intro role termination ended
                    have live := sound.role_of_top pending rfl
                    have gone : .ended pid role termination ∈ past := by simpa using ended
                    simp [(recorded.ended pid role termination gone).2] at live
                · exact .inr ⟨.onError pid (.main app round) error, by simp [now], .onError⟩
            | call => cases move <;> cases pending.symm.trans ‹state.todo = _ :: _›
            | _ => cases inner
          · have other : ∀ pid role, call ≠ .processStart pid role := by
              rintro pid role rfl
              cases clears
              exact starting ⟨_, _, rfl⟩
            rcases clears_of_top move inner pending clears other with clearing | none_waiting
            · exact .inr clearing
            · simp [none_waiting] at queued
        · exact .inr ⟨call, by simp [after, member], clears⟩
      · simp [idle] at member
  · exact .inr ⟨.processStart state.nextPid (.main app round), by simp [now], .processStart⟩

end Backing

theorem backing_of_reaches
    (reached : Machine.Reaches (step config) (successBacked config)
      (State.initial α) state past) :
    Backing config state past := by
  refine reached.invariant (Backing config) (backing_initial config) ?_
  intro state following past out label reached backing guarded moved
  have move := move_of_step moved
  have sound := sound_of_reaches reached
  have recorded := recorded_of_reaches reached
  exact {
    restart := backing.no_restart_of_move move
    checks := backing.checks_of_move move sound
    older := backing.older_of_move move sound recorded
    passed := backing.passed_of_move move guarded sound recorded
    answering := backing.answering_of_move move guarded sound recorded }

/-- What the state allows is what the history shows. -/
theorem shown_of_allowed (recorded : Recorded state past) {app : α} {waiter : Waiter α}
    (running : ∀ pid round rest, state.todo ≠ .processStart pid (.main app round) :: rest)
    (allowed : Allowed state past app waiter) :
    (MainLive app past ∨ MainDone app waiter past) ∧ ¬ MainFailed app past := by
  have latest := recorded.started app running
  have settled {pid : Pid} {round : Nat} (same : latestStart app past = some pid)
      (spawned : .spawned pid (.main app round) ∈ past)
      (clean : ∀ role termination, .ended pid role termination ∈ past →
        termination.code = 0 ∧ termination.signal = 0) : ¬ MainFailed app past := by
    rintro ⟨other, last, ⟨role, failed⟩ | ⟨role, termination, ended, failed⟩⟩
    · obtain rfl := Option.some.inj (same.symm.trans last)
      exact (recorded.unspawned_before pid role failed).2 _ spawned
    · obtain rfl := Option.some.inj (same.symm.trans last)
      exact failed (clean role termination ended)
  rcases allowed with ⟨pid, last, alive⟩ | ⟨pid, round, last, since, clean⟩
  · obtain ⟨role, live, spawned⟩ := recorded.spawned pid alive
    obtain ⟨round, rfl⟩ := (recorded.latest_role app pid last).2 role live
    have same := latest.trans last
    have unended : ∀ role termination, .ended pid role termination ∉ past := by
      intro role termination ended
      simp [(recorded.ended pid role termination ended).2] at live
    exact ⟨.inl ⟨pid, round, same, spawned, unended⟩,
      settled same spawned fun role termination ended => absurd ended (unended _ _)⟩
  · obtain ⟨_, spawned, rfl⟩ := since.exists
    have same := latest.trans last
    refine ⟨?_, settled same spawned clean⟩
    by_cases done : ∃ role termination, .ended pid role termination ∈ past
    · obtain ⟨role, termination, ended⟩ := done
      exact .inr ⟨pid, round, role, termination, since, ended, clean role termination ended⟩
    · exact .inl ⟨pid, round, same, spawned, fun role termination ended =>
        done ⟨role, termination, ended⟩⟩

theorem success_backed
    (reached : Machine.Reaches (step config) (successBacked config)
      (State.initial α) state past) :
    Historically (SuccessUnchecked config) past := by
  refine reached.invariant (fun _ past => Historically (SuccessUnchecked config) past)
    historically_nil ?_
  intro state following past out label reached holds guarded moved
  have move := move_of_step moved
  refine holds.append fun before event after split app waiter process same unchecked => ?_
  subst same
  obtain ⟨rfl, _, others, rest, pending⟩ := reported_of_move move
    (.answered app waiter process 0) (by simp [split])
  obtain rfl : before = [] := by
    rw [out_of_answer move rfl pending] at split
    exact (List.append_eq_singleton_iff.mp split.symm).elim (·.1) fun wrong => by simp at wrong
  rw [List.append_nil]
  refine shown_of_allowed (recorded_of_reaches reached) (by simp [pending]) ?_
  rcases (backing_of_reaches reached).answering app (waiter :: others) (by simp [pending])
    unchecked waiter (.head _) with allowed | ⟨_, _, _, starting⟩
  · exact allowed
  · cases pending.symm.trans starting

section Runs

/-- The only app is required, its main process starts, and the first tick of its
timer answers the waiter. -/
theorem success_backed_run :
    let past : List (Event (Fin 1)) :=
      [.queued 0 ⟨0, .caller 7⟩, .start 0 1, .prepared 0 1 0, .spawned 0 (.main 0 1),
        .processStart 0]
    (MainLive 0 past ∨ MainDone 0 ⟨0, .caller 7⟩ past) ∧ ¬ MainFailed 0 past := by
  intro past
  obtain ⟨state, reached, _⟩ := Machine.exists_reaches
    (step plainApp) (successBacked plainApp) (State.initial (Fin 1))
    [.require 0 7, .call, .call, .call, .call, .call, .spawn {}, .call,
      .tick 0, .call, .call, .call, .call]
    (past ++ [.answered 0 ⟨0, .caller 7⟩ (some 0) 0]) (fun _ => true) (by decide)
  exact success_backed reached past _ [] rfl 0 ⟨0, .caller 7⟩ (some 0) rfl rfl

/-- The main process of app 0 fails before the first tick of its timer.  App 0 is
required again, and while the checker of its preamble runs the old timer ticks
and answers the new waiter with error 0. -/
theorem success_unbacked :
    ∃ state past,
      Machine.Reaches (step precededApp) Machine.always (State.initial (Fin 2)) state past ∧
        ¬ Historically (SuccessUnchecked precededApp) past := by
  let before : List (Event (Fin 2)) :=
    [.queued 0 ⟨0, .caller 1⟩, .start 0 1, .queued 1 ⟨1, .preamble 0 1⟩,
      .spawned 0 (.checker 1 (.required 1)), .processStart 0,
      .ended 0 (.checker 1 (.required 1)) .success, .processExit 0 0 0,
      .answered 1 ⟨1, .preamble 0 1⟩ none 0, .prepared 0 1 0,
      .spawned 1 (.main 0 1), .processStart 1,
      .ended 1 (.main 0 1) .failure, .processExit 1 1 0, .answered 0 ⟨0, .caller 1⟩ none 1,
      .queued 0 ⟨2, .caller 2⟩, .start 0 2, .queued 1 ⟨3, .preamble 0 2⟩,
      .spawned 2 (.checker 1 (.required 1)), .processStart 2]
  obtain ⟨state, reached, _⟩ := Machine.exists_reaches
    (step precededApp) Machine.always (State.initial (Fin 2))
    [.require 0 1, .call, .call, .call, .call, .call, .call, .spawn {}, .call, .call,
      .exited 0 .success, .closed 0, .call, .call, .call, .call, .call, .spawn {}, .call, .call,
      .exited 1 .failure, .closed 1, .call, .call, .call, .call,
      .require 0 2, .call, .call, .call, .call, .call, .call, .spawn {}, .call, .call,
      .tick 0, .call, .call, .call, .call]
    (before ++ [.answered 0 ⟨2, .caller 2⟩ none 0]) (fun _ => true) (by decide)
  refine ⟨state, _, reached, fun holds => ?_⟩
  refine (holds before _ [] rfl 0 ⟨2, .caller 2⟩ none rfl rfl).2 ⟨1, by decide, .inr ?_⟩
  exact ⟨.main 0 1, .failure, by decide, by decide⟩

end Runs

end Nexer.Manager

import Nexer.Manager.Recorded

/-!
# One tracked main process for each app

`App::process` is written by `Start`, `OnError` and `OnExit`, which may belong to
different main processes.  It is exact as long as `OnError` is not invoked for a
process that lives on, and no exit callback arrives after a newer process has
been started.  Both happen: a failing or empty read, or a failure to start
reading, invokes `OnError` and leaves the process alive, and the exit callback of
a process that could not be spawned comes after its waiters have been answered.
-/

namespace Nexer.Manager

open Nexer.Transition

variable {α : Type} [DecidableEq α] {config : α → AppConfig α}
variable {state following : State α} {label : Label α} {past out : List (Event α)}

def Role.isMain : Role α → Bool
  | .main .. => true
  | .checker .. => false

/-- No living main process reports an error, and the exit callback of a main
process finds no other one tracked. -/
def tracksMains (state : State α) : Label α → Prop
  | .read pid _ nread _ => nread ≤ 0 → nread ≠ uvEof →
      ∀ proc ∈ state.procs pid, proc.role.isMain = false
  | .spawn result => result.pipe = 0 → result.spawn = 0 →
      ¬ (result.readStdout = 0 ∧ result.readStderr = 0) →
      match state.todo with
      | .processStart _ role :: _ => role.isMain = false
      | _ => True
  | .call =>
      match state.todo with
      | .onExit pid (.main app _) _ :: _ =>
          (state.apps app).process = none ∨ (state.apps app).process = some pid
      | _ => True
  | _ => True

instance : ∀ (state : State α) (label : Label α), Decidable (tracksMains state label)
  | state, .read pid _ nread _ =>
      inferInstanceAs (Decidable (nread ≤ 0 → nread ≠ uvEof →
        ∀ proc ∈ state.procs pid, proc.role.isMain = false))
  | { todo := [], .. }, .spawn _ => .isTrue fun _ _ _ => trivial
  | { todo := call :: _, .. }, .spawn result =>
      match call with
      | .processStart _ role =>
          inferInstanceAs (Decidable (result.pipe = 0 → result.spawn = 0 →
            ¬ (result.readStdout = 0 ∧ result.readStderr = 0) → role.isMain = false))
      | .require .. | .check .. | .checked .. | .start .. | .prepared .. | .onProcessStart ..
      | .endCheck .. | .onError .. | .onProcessExit .. | .kill .. | .onExit ..
      | .clearCallbacks .. | .answer .. | .setChecking .. => .isTrue fun _ _ _ => trivial
  | { todo := [], .. }, .call => .isTrue trivial
  | { todo := call :: _, .. }, .call =>
      match call with
      | .onExit _ (.main ..) _ => inferInstanceAs (Decidable (_ = none ∨ _ = some _))
      | .onExit _ (.checker ..) _
      | .require .. | .check .. | .checked .. | .start .. | .prepared .. | .processStart ..
      | .onProcessStart .. | .endCheck .. | .onError .. | .onProcessExit .. | .kill ..
      | .clearCallbacks .. | .answer .. | .setChecking .. => .isTrue trivial
  | _, .clock _ | _, .require .. | _, .exited .. | _, .closed _ | _, .timeout _
  | _, .tick _ | _, .timerClosed _ => .isTrue trivial

/-- A live main process of the app. -/
def LiveMain (state : State α) (app : α) (pid : Pid) : Prop :=
  state.spawnedAt pid ∧ ∃ round, state.roleOf pid = some (.main app round)

structure Tracking (state : State α) : Prop where
  alive : ∀ app pid, LiveMain state app pid → (state.apps app).process = some pid
  starting : ∀ app pid round rest, state.todo = .processStart pid (.main app round) :: rest →
    (state.apps app).process = some pid
  failing : ∀ app pid round error rest,
    state.todo = .onError pid (.main app round) error :: rest →
      (state.apps app).process = some pid ∧ state.spawnedAt pid = false
  waiting : ∀ app, 0 < (state.apps app).pendingPreamble → (state.apps app).process = none
  start : ∀ app rest, state.todo = .start app :: rest → (state.apps app).process = none
  prepared : ∀ app round error rest, state.todo = .prepared app round error :: rest →
    (state.apps app).process = none ∧ (state.apps app).pendingPreamble = 0

omit [DecidableEq α] in
theorem tracking_initial : Tracking (State.initial α) := by
  constructor <;> simp [State.initial, LiveMain, State.spawnedAt]

/-- A spawned process was there before the step, spawned or being started. -/
theorem spawnedAt_from (move : Move config state label following out)
    (sound : Sound config state) {pid : Pid} {role : Role α}
    (running : following.spawnedAt pid) (live : following.roleOf pid = some role) :
    (state.spawnedAt pid ∧ state.roleOf pid = some role) ∨
      ∃ rest, state.todo = .processStart pid role :: rest := by
  have there : (following.procs pid).isSome := by
    cases there : following.procs pid <;> simp_all [State.spawnedAt]
  rcases spawnedAt_of_move move pid with same | ⟨_, no⟩ | ⟨_, other, rest, _, pending, _⟩ |
    ⟨_, _, _, _, _, no⟩
  · rw [same] at running
    rcases roleOf_of_move move pid with kept | ⟨rfl, _⟩ | ⟨_, _, _, _, _, gone⟩
    · exact .inl ⟨running, kept ▸ live⟩
    · simp [State.spawnedAt, sound.fresh _ (Nat.le_refl _)] at running
    · simp [gone] at live
  · simp [no] at running
  · rcases sound.roleOf_kept move (sound.role_of_top pending rfl) with kept | ⟨_, _, _, top⟩
    · cases live.symm.trans kept
      exact .inr ⟨rest, pending⟩
    · cases pending.symm.trans top
  · simp [no] at running

namespace Tracking

theorem alive_of_move (move : Move config state label following out)
    (guarded : tracksMains state label) (sound : Sound config state)
    (tracking : Tracking state) :
    ∀ app pid, LiveMain following app pid → (following.apps app).process = some pid := by
  rintro app pid ⟨running, round, live⟩
  have before : (state.apps app).process = some pid ∧
      (state.spawnedAt pid ∨ ∃ role rest, state.todo = .processStart pid role :: rest) := by
    rcases spawnedAt_from move sound running live with ⟨ran, lived⟩ | ⟨rest, pending⟩
    · exact ⟨tracking.alive app pid ⟨ran, round, lived⟩, .inl ran⟩
    · exact ⟨tracking.starting app pid round rest pending, .inr ⟨_, rest, pending⟩⟩
  rcases process_of_move move app with same | ⟨_, _, pending, _⟩ |
    ⟨other, _, error, rest, pending, _⟩ | ⟨other, _, _, rest, rfl, pending, _⟩
  · exact same.trans before.1
  · cases before.1.symm.trans (tracking.prepared app _ _ _ pending).1
  · obtain ⟨process, no⟩ := tracking.failing app other _ _ _ pending
    cases before.1.symm.trans process
    rcases before.2 with ran | ⟨_, _, top⟩
    · simp [no] at ran
    · cases pending.symm.trans top
  · have mine : other = pid := by
      simp only [tracksMains, pending, before.1] at guarded
      simpa [eq_comm] using guarded
    subst mine
    simp [State.spawnedAt, gone_of_exit move rfl pending] at running

/-- A step that is not made by a handler of a main process of the app, nor by its
`Start`, leaves the pointer. -/
theorem process_kept (move : Move config state label following out) {app : α}
    (head : Call α) (rest : List (Call α)) (pending : state.todo = head :: rest)
    (prepared : ∀ round, head ≠ .prepared app round 0)
    (handler : ∀ pid round error, head ≠ .onError pid (.main app round) error)
    (exit : ∀ pid round termination, head ≠ .onExit pid (.main app round) termination) :
    (following.apps app).process = (state.apps app).process := by
  rcases process_of_move move app with same | ⟨round, _, top, _⟩ |
    ⟨pid, round, error, _, top, _⟩ | ⟨pid, round, termination, _, _, top, _⟩
  · exact same
  · exact absurd (List.cons.inj (pending.symm.trans top)).1 (prepared round)
  · exact absurd (List.cons.inj (pending.symm.trans top)).1 (handler pid round error)
  · exact absurd (List.cons.inj (pending.symm.trans top)).1 (exit pid round termination)

theorem starting_of_move (move : Move config state label following out)
    (sound : Sound config state) (tracking : Tracking state) :
    ∀ app pid round rest, following.todo = .processStart pid (.main app round) :: rest →
      (following.apps app).process = some pid := by
  intro app pid round rest top
  rcases sound.top_of_move move top rfl with ⟨outer, pending⟩ |
    ⟨head, below, calls, _, pending, member, made⟩ | ⟨calls, _, member, delivered⟩
  · rw [apps_outer move outer]
    exact (tracking.starting app pid round rest pending)
  · cases made <;> simp at member
    case main tracked =>
      obtain ⟨rfl, rfl, rfl⟩ := member
      exact tracked
  · cases delivered <;> simp at member

theorem failing_of_move (move : Move config state label following out)
    (guarded : tracksMains state label) (sound : Sound config state)
    (recorded : Recorded state past) (tracking : Tracking state) :
    ∀ app pid round error rest,
      following.todo = .onError pid (.main app round) error :: rest →
        (following.apps app).process = some pid ∧ following.spawnedAt pid = false := by
  intro app pid round error rest top
  rcases sound.top_of_move move top rfl with ⟨outer, pending⟩ |
    ⟨head, below, calls, inner, pending, member, made⟩ | ⟨calls, idle, member, delivered⟩
  · obtain ⟨process, no⟩ := tracking.failing app pid round error rest pending
    rw [apps_outer move outer]
    exact ⟨process, unspawned_outer move outer no⟩
  · obtain rfl : head = .processStart pid (.main app round) := by
      cases made <;> simp_all
    have process := tracking.starting app pid round below pending
    refine ⟨(process_kept move _ below pending (by simp) (by simp) (by simp)).trans process, ?_⟩
    have no := recorded.unspawned pending
    rcases spawnedAt_of_move move pid with same | ⟨_, no⟩ |
      ⟨result, _, _, rfl, _, piped, forked, -⟩ | ⟨_, _, _, _, _, no⟩
    · exact same.trans no
    · exact no
    · -- the process lives, and only a failure to read can have reported an error
      cases move
      case spawnPipe failed => exact absurd piped failed
      case spawnFail failed => exact absurd forked failed
      case spawnUnread now _ _ _ unread =>
        cases pending.symm.trans now
        have silent := guarded piped forked unread
        simp [pending, Role.isMain] at silent
      case spawnDone now _ _ =>
        have below := (List.cons.inj (pending.symm.trans now)).2
        cases sound.waits_below pending (.onError pid (.main app round) error)
          (by simp only [State.changeProc_todo, State.after_todo] at top; simp [below, top])
    · exact no
  · cases delivered <;> simp at member
    case onError proc live _ failed =>
      obtain ⟨rfl, role, rfl⟩ := member
      have checker := guarded failed.1 failed.2 proc live
      simp [← role, Role.isMain] at checker

theorem waiting_of_move (move : Move config state label following out)
    (tracking : Tracking state) :
    ∀ app, 0 < (following.apps app).pendingPreamble → (following.apps app).process = none := by
  intro app more
  have before : (state.apps app).process = none ∧
      ∀ round rest, state.todo ≠ .prepared app round 0 :: rest := by
    rcases preamble_of_move move app with ⟨_, same, _⟩ | ⟨rest, pending, _⟩ |
      ⟨_, _, _, _, _, _, pending, _, less, _⟩
    · have waited : 0 < (state.apps app).pendingPreamble := same ▸ more
      refine ⟨tracking.waiting app waited, fun round rest pending => ?_⟩
      have none_left := (tracking.prepared app _ _ _ pending).2
      omega
    · exact ⟨tracking.start app rest pending, by simp [pending]⟩
    · exact ⟨tracking.waiting app (by omega), by simp [pending]⟩
  rcases process_of_move move app with same | ⟨round, rest, pending, _⟩ |
    ⟨_, _, _, _, _, gone⟩ | ⟨_, _, _, _, _, _, gone⟩
  · exact same.trans before.1
  · exact absurd pending (before.2 round rest)
  · exact gone
  · exact gone

theorem start_of_move (move : Move config state label following out)
    (sound : Sound config state) (tracking : Tracking state) :
    ∀ app rest, following.todo = .start app :: rest → (following.apps app).process = none := by
  intro app rest top
  rcases sound.top_of_move move top rfl with ⟨outer, pending⟩ |
    ⟨head, below, calls, inner, pending, member, made⟩ | ⟨calls, idle, member, delivered⟩
  · rw [apps_outer move outer]
    exact (tracking.start app rest pending)
  · cases made <;> simp at member
    case requiredStart error untracked =>
      subst member
      exact (process_kept move _ below pending (by simp) (by simp) (by simp)).trans untracked
    case restart pid other round termination _ =>
      subst member
      exact process_of_exit move inner pending
  · cases delivered <;> simp at member

theorem prepared_of_move (move : Move config state label following out)
    (sound : Sound config state) (tracking : Tracking state) :
    ∀ app round error rest, following.todo = .prepared app round error :: rest →
      (following.apps app).process = none ∧ (following.apps app).pendingPreamble = 0 := by
  intro app round error rest top
  rcases sound.top_of_move move top rfl with ⟨outer, pending⟩ |
    ⟨head, below, calls, inner, pending, member, made⟩ | ⟨calls, idle, member, delivered⟩
  · obtain ⟨process, none_left⟩ := tracking.prepared app round error rest pending
    rw [apps_outer move outer]
    exact ⟨process, none_left⟩
  · cases made <;> simp at member
    case ready none_left _ =>
      obtain ⟨rfl, rfl, rfl⟩ := member
      have process : (following.apps app).process = (state.apps app).process :=
        process_kept move _ below pending (by simp) (by simp) (by simp)
      exact ⟨process.trans (tracking.start app below pending), none_left⟩
    case last last done =>
      obtain ⟨rfl, rfl, _⟩ := member
      have process : (following.apps app).process = (state.apps app).process :=
        process_kept move _ below pending (by simp) (by simp) (by simp)
      exact ⟨process.trans (tracking.waiting app (by omega)), done⟩
  · cases delivered <;> simp at member

end Tracking

theorem tracking_of_reaches
    (reached : Machine.Reaches (step config) tracksMains (State.initial α) state past) :
    Tracking state := by
  refine reached.invariant (fun state _ => Tracking state) tracking_initial ?_
  intro state following past out label reached tracking guarded moved
  have move := move_of_step moved
  have sound := sound_of_reaches reached
  have recorded := recorded_of_reaches reached
  exact {
    alive := tracking.alive_of_move move guarded sound
    starting := tracking.starting_of_move move sound
    failing := tracking.failing_of_move move guarded sound recorded
    waiting := tracking.waiting_of_move move
    start := tracking.start_of_move move sound
    prepared := tracking.prepared_of_move move sound }

/-- There is at most one live main process of an app and `App::process` is that
process.  Only while a process is being started, or has just failed to start, can
the pointer name one that is not alive; between two handlers it never does. -/
theorem one_tracked_main
    (reached : Machine.Reaches (step config) tracksMains (State.initial α) state past)
    (app : α) :
    (∀ pid other, LiveMain state app pid → LiveMain state app other → pid = other) ∧
      (∀ pid, LiveMain state app pid → (state.apps app).process = some pid) ∧
      (∀ pid, (state.apps app).process = some pid →
        LiveMain state app pid ∨ Starting state pid) ∧
      (state.todo = [] → ∀ pid, (state.apps app).process = some pid ↔ LiveMain state app pid) := by
  have tracking := tracking_of_reaches reached
  have named : ∀ pid, (state.apps app).process = some pid →
      LiveMain state app pid ∨ Starting state pid := by
    intro pid process
    have role := (sound_of_reaches reached).tracked app pid process
    exact ((recorded_of_reaches reached).tracked app pid process).imp_left (⟨·, role⟩)
  refine ⟨?_, tracking.alive app, named, fun idle pid => ⟨fun process => ?_, tracking.alive app pid⟩⟩
  · intro pid other live too
    exact Option.some.inj ((tracking.alive app pid live).symm.trans (tracking.alive app other too))
  · rcases named pid process with live | ⟨_, _, starting | ⟨_, starting⟩⟩
    · exact live
    · cases idle.symm.trans starting
    · cases idle.symm.trans starting

section Runs

/-- After the start of its main process the only app tracks it. -/
theorem one_tracked_main_run :
    ∃ state : State (Fin 1), LiveMain state 0 0 ∧
      (∀ pid, (state.apps 0).process = some pid ↔ LiveMain state 0 pid) := by
  obtain ⟨state, reached, checked⟩ := Machine.exists_reaches
    (step plainApp) tracksMains (State.initial (Fin 1))
    [.require 0 7, .call, .call, .call, .call, .call, .spawn {}, .call]
    [.queued 0 ⟨0, .caller 7⟩, .start 0 1, .prepared 0 1 0, .spawned 0 (.main 0 1),
      .processStart 0]
    (fun state => state.todo.isEmpty && decide ((state.apps 0).process = some 0)) (by decide)
  simp only [Bool.and_eq_true, List.isEmpty_iff, decide_eq_true_eq] at checked
  have tracked := (one_tracked_main reached 0).2.2.2 checked.1
  exact ⟨state, (tracked 0).mp checked.2, tracked⟩

/-- The first main process cannot be spawned and the second can; then the exit
callback of the first one arrives. -/
theorem untracked_main :
    ∃ state past,
      Machine.Reaches (step plainApp) Machine.always (State.initial (Fin 1)) state past ∧
        state.todo = [] ∧
        ¬ ∀ pid, (state.apps 0).process = some pid ↔ LiveMain state 0 pid := by
  obtain ⟨state, reached, checked⟩ := Machine.exists_reaches
    (step plainApp) Machine.always (State.initial (Fin 1))
    [.require 0 1, .call, .call, .call, .call, .call, .spawn { spawn := noEntry },
      .call, .call, .call, .call, .call, .call,
      .require 0 2, .call, .call, .call, .call, .call, .spawn {}, .call,
      .closed 0, .call, .call, .call, .call]
    [.queued 0 ⟨0, .caller 1⟩, .start 0 1, .prepared 0 1 0, .unspawned 0 (.main 0 1),
      .processError 0 noEntry, .answered 0 ⟨0, .caller 1⟩ none noEntry, .processStart 0,
      .queued 0 ⟨1, .caller 2⟩, .start 0 2, .prepared 0 2 0, .spawned 1 (.main 0 2),
      .processStart 1, .ended 0 (.main 0 1) .unstarted, .processExit 0 (-1) (-1),
      .answered 0 ⟨1, .caller 2⟩ none (-1)]
    (fun state => state.todo.isEmpty && decide ((state.apps 0).process = none) &&
      state.spawnedAt 1 && decide (state.roleOf 1 = some (.main 0 2))) (by decide)
  simp only [Bool.and_eq_true, List.isEmpty_iff, decide_eq_true_eq] at checked
  obtain ⟨⟨⟨idle, dropped⟩, running⟩, live⟩ := checked
  refine ⟨state, _, reached, idle, fun tracked => ?_⟩
  cases dropped.symm.trans ((tracked 1).mpr ⟨running, 2, live⟩)

end Runs

end Nexer.Manager

import Nexer.Manager.Recorded
import Nexer.Transition.History
import Nexer.Transition.Observation

/-!
# Kill with restart

The continuation of `Require` sets `app.restart` and kills the main process; the exit
closure of a main process calls `Start` when the flag is set and the status is not zero.
There is one flag for an app, whichever of its processes was killed.
-/

namespace Nexer.Manager

open Nexer.Transition

/-- A main process is killed to be restarted; the exit closure of a main process runs, with
the number of calls of `Start` that it makes and the flag that it leaves. -/
inductive RestartEvent (α : Type) where
  | killed (app : α) (pid : Pid)
  | ended (app : α) (pid : Pid) (termination : Termination) (starts : Nat) (restart : Bool)
  deriving DecidableEq

variable {α : Type} [DecidableEq α]

def restartEvents (state : State α) (label : Label α) (following : State α) :
    List (RestartEvent α) :=
  match label with
  | .call =>
      match state.todo with
      | .checked (.required app) error :: _ =>
          if error = 0 then [] else (state.apps app).process.toList.map (.killed app)
      | .onExit pid (.main app _) termination :: _ =>
          [.ended app pid termination
            (following.todo.count (.start app) - state.todo.count (.start app))
            (following.apps app).restart]
      | _ => []
  | _ => []

/-- The manager, observed by its restarts. -/
def restarting (config : α → AppConfig α) : Machine (State α) (Label α) (RestartEvent α) :=
  (step config).noting restartEvents

/-- The process was killed to be restarted, and its exit closure has not run. -/
def Awaited (past : List (RestartEvent α)) (app : α) (pid : Pid) : Prop :=
  .killed app pid ∈ past ∧ ∀ termination starts restart,
    .ended app pid termination starts restart ∉ past

/-- A process that was killed does not end with status zero; and while the exit of one is
awaited no other main process of the app ends that was killed or has another status. -/
def oneAwaited (before : List (RestartEvent α)) : RestartEvent α → Prop
  | .killed _ _ => True
  | .ended app pid termination _ _ =>
      (.killed app pid ∈ before → termination.status ≠ 0) ∧
        ∀ other, other ≠ pid → Awaited before app other →
          .killed app pid ∉ before ∧ termination.status = 0

/-- The exit of a process that was killed leads to one call of `Start`, that of another one to
none; the flag stays set when the exit of another one is awaited. -/
def RestartedOnce (before : List (RestartEvent α)) : RestartEvent α → Prop
  | .killed _ _ => True
  | .ended app pid _ starts restart =>
      (.killed app pid ∈ before → starts = 1) ∧ (.killed app pid ∉ before → starts = 0) ∧
        (restart = true ↔ ∃ other, other ≠ pid ∧ Awaited before app other)

variable {config : α → AppConfig α} {state following : State α} {label : Label α}
variable {past : List (RestartEvent α)} {out : List (Event α)}

/-- What a step does to the flags: nothing, unless `Require` kills or the exit closure of a main
process runs. -/
inductive Flags (state following : State α) : List (RestartEvent α) → Prop where
  | quiet (kept : ∀ app, (following.apps app).restart = (state.apps app).restart) :
      Flags state following []
  | killed {app : α} {pid : Pid} (tracked : (state.apps app).process = some pid)
      (set : (following.apps app).restart = true)
      (kept : ∀ other, other ≠ app → (following.apps other).restart = (state.apps other).restart) :
      Flags state following [.killed app pid]
  | ended {app : α} {pid : Pid} {round : Nat} {termination : Termination}
      {starts : Nat} {restart : Bool} (there : state.roleOf pid = some (.main app round))
      (gone : following.roleOf pid = none)
      (cases : termination.status ≠ 0 ∧ (state.apps app).restart = true ∧
          starts = 1 ∧ restart = false ∨
        (termination.status = 0 ∨ (state.apps app).restart = false) ∧
          starts = 0 ∧ restart = (state.apps app).restart)
      (left : (following.apps app).restart = restart)
      (kept : ∀ other, other ≠ app → (following.apps other).restart = (state.apps other).restart) :
      Flags state following [.ended app pid termination starts restart]

theorem Flags.of_silent (silent : restartEvents state label following = [])
    (kept : ∀ app, (following.apps app).restart = (state.apps app).restart) :
    Flags state following (restartEvents state label following) := by
  rw [silent]
  exact .quiet kept

theorem flags_of_move (move : Move config state label following out) (sound : Sound config state) :
    Flags state following (restartEvents state label following) := by
  cases move
  case requiredKill app error pid rest pending tracked failed =>
    have events : restartEvents state .call
        ((state.after rest).modify app fun fields => { fields with restart := true }) =
          [.killed app pid] := by simp [restartEvents, pending, tracked, failed]
    rw [events]
    exact .killed tracked (by simp) fun other different => by simp [different]
  case exitRestart pid app round termination rest pending failed again =>
    have there := sound.role_of_top pending rfl
    simp only [restartEvents, pending]
    refine .ended there ?_ (.inl ⟨failed, again, ?_, ?_⟩) rfl fun other different => ?_
    all_goals simp [State.roleOf, *]
  case exitClear pid app round termination rest pending failed spent unchecked =>
    have there := sound.role_of_top pending rfl
    simp only [restartEvents, pending]
    refine .ended there ?_ (.inr ⟨.inr spent, ?_, ?_⟩) rfl fun other different => ?_
    all_goals simp [State.roleOf, *]
  case exitDrop pid app round termination rest pending silent =>
    have there := sound.role_of_top pending rfl
    simp only [restartEvents, pending]
    refine .ended there ?_ (.inr ⟨silent.imp_right And.left, ?_, ?_⟩) rfl
      fun other different => ?_
    all_goals simp [State.roleOf, *]
  all_goals
    refine .of_silent ?_ fun app => ?_
    · simp [restartEvents, *]
    · first
      | rfl
      | exact update_field App.restart (by rfl)

omit [DecidableEq α] in
theorem awaited_killed {app other : α} {pid awaited : Pid} :
    Awaited (past ++ [.killed other pid]) app awaited ↔
      Awaited past app awaited ∨ app = other ∧ awaited = pid ∧ ∀ termination starts restart,
        .ended app awaited termination starts restart ∉ past := by
  constructor
  · rintro ⟨killed, there⟩
    simp only [List.mem_append, List.mem_singleton, reduceCtorEq, or_false] at killed there
    rcases killed with before | now
    · exact .inl ⟨before, there⟩
    · obtain ⟨rfl, rfl⟩ := RestartEvent.killed.inj now
      exact .inr ⟨rfl, rfl, there⟩
  · rintro (⟨killed, there⟩ | ⟨rfl, rfl, there⟩)
    · exact ⟨List.mem_append_left _ killed, by simpa using there⟩
    · exact ⟨by simp, by simpa using there⟩

omit [DecidableEq α] in
theorem awaited_ended {app other : α} {pid awaited : Pid} {termination : Termination}
    {starts : Nat} {restart : Bool} :
    Awaited (past ++ [.ended other pid termination starts restart]) app awaited ↔
      Awaited past app awaited ∧ ¬(app = other ∧ awaited = pid) := by
  constructor
  · rintro ⟨killed, there⟩
    refine ⟨⟨by simpa using killed, fun t n r member => there t n r (List.mem_append_left _ member)⟩,
      ?_⟩
    rintro ⟨rfl, rfl⟩
    exact there termination starts restart (by simp)
  · rintro ⟨⟨killed, there⟩, different⟩
    refine ⟨List.mem_append_left _ killed, fun t n r member => ?_⟩
    rcases List.mem_append.1 member with before | now
    · exact there t n r before
    · simp only [List.mem_singleton, RestartEvent.ended.injEq] at now
      exact different ⟨now.1, now.2.1⟩

/-- An exit that is reported belongs to a deleted process, and the flag of an app is set while the
exit of a killed process is awaited. -/
structure Restarting (state : State α) (past : List (RestartEvent α)) : Prop where
  ended : ∀ app pid termination starts restart, .ended app pid termination starts restart ∈ past →
    pid < state.nextPid ∧ state.roleOf pid = none
  flag : Historically oneAwaited past → ∀ app,
    ((state.apps app).restart = true ↔ ∃ pid, Awaited past app pid)
  exact_ : Historically oneAwaited past ↔ Historically RestartedOnce past

namespace Restarting

omit [DecidableEq α] in
theorem initial : Restarting (State.initial α) [] where
  ended := by simp
  flag := by simp [State.initial, Awaited]
  exact_ := by simp

omit [DecidableEq α] in
theorem unended (restarting : Restarting state past) {app : α} {pid : Pid} {role : Role α}
    (there : state.roleOf pid = some role) (termination : Termination) (starts : Nat)
    (restart : Bool) : .ended app pid termination starts restart ∉ past := by
  intro member
  have gone := (restarting.ended _ _ _ _ _ member).2
  rw [there] at gone
  cases gone

omit [DecidableEq α] in
/-- The exit closure does what the condition asks for exactly when the condition holds. -/
theorem exit_exact {app : α} {pid : Pid} {termination : Termination} {starts : Nat}
    {restart : Bool} (flag : (state.apps app).restart = true ↔ ∃ pid, Awaited past app pid)
    (unended : ∀ termination starts restart, .ended app pid termination starts restart ∉ past)
    (cases : termination.status ≠ 0 ∧ (state.apps app).restart = true ∧
        starts = 1 ∧ restart = false ∨
      (termination.status = 0 ∨ (state.apps app).restart = false) ∧
        starts = 0 ∧ restart = (state.apps app).restart) :
    oneAwaited past (.ended app pid termination starts restart) ↔
      RestartedOnce past (.ended app pid termination starts restart) := by
  have awaited : .killed app pid ∈ past → Awaited past app pid := fun killed => ⟨killed, unended⟩
  rcases cases with ⟨failed, set, rfl, rfl⟩ | ⟨silent, rfl, rfl⟩
  · constructor
    · rintro ⟨-, alone⟩
      have none : ∀ other, other ≠ pid → ¬Awaited past app other :=
        fun other different waits => failed (alone other different waits).2
      have killed : .killed app pid ∈ past := by
        obtain ⟨other, waits⟩ := flag.1 set
        have same : other = pid := by_contra fun different => none other different waits
        exact same ▸ waits.1
      refine ⟨fun _ => rfl, fun unkilled => absurd killed unkilled, by simp, ?_⟩
      rintro ⟨other, different, waits⟩
      exact absurd waits (none other different)
    · rintro ⟨-, -, alone⟩
      refine ⟨fun _ => failed, fun other different waits => ?_⟩
      cases alone.2 ⟨other, different, waits⟩
  · constructor
    · rintro ⟨nonzero, -⟩
      have unkilled : .killed app pid ∉ past := by
        intro killed
        rcases silent with zero | unset
        · exact nonzero killed zero
        · rw [flag.2 ⟨pid, awaited killed⟩] at unset
          cases unset
      refine ⟨fun killed => absurd killed unkilled, fun _ => rfl, ?_, ?_⟩
      · intro set
        obtain ⟨other, waits⟩ := flag.1 set
        exact ⟨other, fun same => unkilled (same ▸ waits.1), waits⟩
      · rintro ⟨other, -, waits⟩
        exact flag.2 ⟨other, waits⟩
    · rintro ⟨once, -, set⟩
      have unkilled : .killed app pid ∉ past := fun killed => absurd (once killed) (by decide)
      refine ⟨fun killed => absurd killed unkilled, fun other different waits => ⟨unkilled, ?_⟩⟩
      refine silent.resolve_right fun unset => ?_
      rw [set.2 ⟨other, different, waits⟩] at unset
      cases unset

/-- The flag after an exit that meets the condition. -/
theorem flag_of_exit {app : α} {pid : Pid} {termination : Termination} {starts : Nat}
    {restart : Bool} (restarting : Restarting state past) (good : Historically oneAwaited past)
    (now : RestartedOnce past (.ended app pid termination starts restart))
    (left : (following.apps app).restart = restart)
    (kept : ∀ other, other ≠ app → (following.apps other).restart = (state.apps other).restart)
    (other : α) :
    (following.apps other).restart = true ↔
      ∃ awaited, Awaited (past ++ [.ended app pid termination starts restart]) other awaited := by
  simp only [awaited_ended]
  by_cases same : other = app
  · subst same
    rw [left, now.2.2]
    constructor
    · rintro ⟨awaited, different, waits⟩
      exact ⟨awaited, waits, fun both => different both.2⟩
    · rintro ⟨awaited, waits, different⟩
      exact ⟨awaited, fun same => different ⟨rfl, same⟩, waits⟩
  · rw [kept other same, restarting.flag good other]
    simp [same]

theorem step (restarting : Restarting state past)
    (moved : step config state label = some (following, out)) (sound : Sound config state) :
    Restarting following (past ++ restartEvents state label following) := by
  have move := move_of_step moved
  have still : ∀ pid, pid < state.nextPid ∧ state.roleOf pid = none →
      pid < following.nextPid ∧ following.roleOf pid = none := by
    rintro pid ⟨made, none⟩
    refine ⟨Nat.lt_of_lt_of_le made (nextPid_of_move move), ?_⟩
    rcases roleOf_of_move move pid with kept | ⟨rfl, _⟩ | ⟨_, _, _, _, _, gone⟩
    · exact kept.trans none
    · exact absurd made (Nat.lt_irrefl _)
    · exact gone
  have flags := flags_of_move move sound
  generalize restartEvents state label following = events at flags
  cases flags with
  | quiet kept =>
      rw [List.append_nil]
      refine ⟨fun app pid t n r member => still pid (restarting.ended app pid t n r member), ?_,
        restarting.exact_⟩
      intro good app
      rw [kept app, restarting.flag good app]
  | @killed app pid tracked set kept =>
      obtain ⟨round, there⟩ := sound.tracked app pid tracked
      refine ⟨?_, ?_, ?_⟩
      · intro other awaited t n r member
        exact still awaited (restarting.ended other awaited t n r (by simpa using member))
      · intro good other
        simp only [awaited_killed]
        by_cases same : other = app
        · subst same
          refine iff_of_true set ⟨pid, .inr ⟨rfl, rfl, ?_⟩⟩
          exact restarting.unended there
        · rw [kept other same, restarting.flag (historically_snoc.1 good).1 other]
          simp [same]
      · rw [historically_snoc, historically_snoc, restarting.exact_]
        simp [oneAwaited, RestartedOnce]
  | @ended app pid round termination starts restart there gone cases left kept =>
      have made : pid < state.nextPid := by
        refine Nat.lt_of_not_le fun unmade => ?_
        simp [State.roleOf, sound.fresh pid unmade] at there
      refine ⟨?_, ?_, ?_⟩
      · intro other awaited t n r member
        rcases List.mem_append.1 member with before | now
        · exact still awaited (restarting.ended other awaited t n r before)
        · simp only [List.mem_singleton, RestartEvent.ended.injEq] at now
          obtain ⟨-, rfl, -⟩ := now
          exact ⟨Nat.lt_of_lt_of_le made (nextPid_of_move move), gone⟩
      · intro good other
        obtain ⟨good, now⟩ := historically_snoc.1 good
        have exact_ := (exit_exact (restarting.flag good app) (restarting.unended there) cases).1 now
        exact restarting.flag_of_exit good exact_ left kept other
      · rw [historically_snoc, historically_snoc, ← restarting.exact_]
        refine and_congr_right fun good => ?_
        exact exit_exact (restarting.flag good app) (restarting.unended there) cases

end Restarting

/-- While the condition is met, the exit of a process that was killed to be restarted leads to one
call of `Start` and other exits to none, and the flag of an app is set exactly while
such an exit is awaited; the first exit that does not meet the condition breaks this. -/
theorem kill_restarts_once
    (reached : Machine.Reaches (restarting config) Machine.always (State.initial α) state past) :
    (Historically oneAwaited past ↔ Historically RestartedOnce past) ∧
      (Historically oneAwaited past → ∀ app,
        ((state.apps app).restart = true ↔ ∃ pid, Awaited past app pid)) := by
  have both : Sound config state ∧ Restarting state past := by
    refine reached.invariant (fun state past => Sound config state ∧ Restarting state past)
      ⟨sound_initial config, .initial⟩ ?_
    rintro state following past out label _ ⟨sound, restarting⟩ _ moved
    obtain ⟨events, stepped, rfl⟩ := Machine.noting_eq_some.1 moved
    exact ⟨sound.of_move (move_of_step stepped), restarting.step stepped sound⟩
  exact ⟨both.2.exact_, both.2.flag⟩

section Runs

/-- The app is required again and its checker fails, so that its main process is killed; it ends
with status one and is started again. -/
theorem kill_restarts_once_run : ∃ state,
    Machine.Reaches (restarting checkedApp) Machine.always (State.initial (Fin 1)) state
        [.killed 0 1, .ended 0 1 .failure 1 false] ∧
      ∀ pid, ¬Awaited [.killed 0 1, .ended 0 1 .failure 1 false] (0 : Fin 1) pid := by
  obtain ⟨state, reached, unset⟩ := Machine.exists_reaches
    (restarting checkedApp) Machine.always (State.initial (Fin 1))
    [.require 0 1, .call, .call, .spawn {}, .call, .call,
      .exited 0 .failure, .closed 0, .call, .call, .call, .call, .spawn {}, .call,
      .tick 0, .call, .spawn {}, .call, .call, .call,
      .exited 2 .success, .closed 2, .call, .call, .call, .call, .call, .call,
      .require 0 2, .call, .call, .spawn {}, .call, .call,
      .exited 3 .failure, .closed 3, .call, .call,
      .exited 1 .failure, .closed 1, .call]
    [.killed 0 1, .ended 0 1 .failure 1 false]
    (fun state => !(state.apps 0).restart) (by decide)
  have good : Historically oneAwaited
      ([] ++ [RestartEvent.killed (0 : Fin 1) 1] ++ [.ended 0 1 .failure 1 false]) := by
    rw [historically_snoc, historically_snoc]
    refine ⟨⟨historically_nil, trivial⟩, fun _ => by decide, ?_⟩
    rintro other different ⟨killed, -⟩
    simp only [List.nil_append, List.mem_singleton, RestartEvent.killed.injEq] at killed
    exact absurd killed.2 different
  refine ⟨state, reached, fun pid waits => ?_⟩
  have set := ((kill_restarts_once reached).2 good 0).2 ⟨pid, waits⟩
  simp [set] at unset

/-- The killed process ends with status zero instead: it is not started again, and the flag is
left set. -/
theorem killed_not_restarted : ∃ state past,
    Machine.Reaches (restarting checkedApp) Machine.always (State.initial (Fin 1)) state past ∧
      past = [.killed 0 1, .ended 0 1 .success 0 true] ∧ ¬Historically RestartedOnce past ∧
        (state.apps 0).restart = true ∧ ∀ pid, ¬Awaited past 0 pid := by
  obtain ⟨state, reached, set⟩ := Machine.exists_reaches
    (restarting checkedApp) Machine.always (State.initial (Fin 1))
    [.require 0 1, .call, .call, .spawn {}, .call, .call,
      .exited 0 .failure, .closed 0, .call, .call, .call, .call, .spawn {}, .call,
      .tick 0, .call, .spawn {}, .call, .call, .call,
      .exited 2 .success, .closed 2, .call, .call, .call, .call, .call, .call,
      .require 0 2, .call, .call, .spawn {}, .call, .call,
      .exited 3 .failure, .closed 3, .call, .call,
      .exited 1 .success, .closed 1, .call]
    [.killed 0 1, .ended 0 1 .success 0 true]
    (fun state => (state.apps 0).restart) (by decide)
  refine ⟨state, _, reached, rfl, fun once => ?_, set, ?_⟩
  · have now := once [.killed 0 1] _ [] rfl
    exact absurd (now.1 (by simp)) (by decide)
  · rintro pid ⟨killed, unended⟩
    obtain rfl : pid = 1 := by simpa using killed
    exact unended .success 0 true (by simp)

end Runs

end Nexer.Manager

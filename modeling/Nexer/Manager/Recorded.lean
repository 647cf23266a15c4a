import Nexer.Manager.Reports
import Nexer.Manager.Sound

/-!
# The state and the history agree

For every reachable state, without assumptions: queued callbacks, spawned and
ended processes, and the latest main process of an app, as the state holds them
and as the history tells them.
-/

namespace Nexer.Manager

open Nexer.Transition

variable {α : Type} [DecidableEq α]

/-- An event that reports how starting a main process of the app went. -/
def mainStart (app : α) : Event α → Option Pid
  | .spawned pid (.main other _) | .unspawned pid (.main other _) =>
      if other = app then some pid else none
  | _ => none

/-- The main process of the app that was started last. -/
def latestStart (app : α) (past : List (Event α)) : Option Pid :=
  (past.filterMap (mainStart app)).getLast?

/-- The start of a main process, or the report of its failure, is being run. -/
def Starting (state : State α) (pid : Pid) : Prop :=
  ∃ rest role, state.todo = .processStart pid role :: rest ∨
    ∃ error, state.todo = .onError pid role error :: rest

structure Recorded (state : State α) (past : List (Event α)) : Prop where
  queued : ∀ app, ∀ waiter ∈ (state.apps app).callbacks,
    .queued app waiter ∈ past ∧ waiter.ticket < state.tickets
  mainTicket : ∀ app, (state.apps app).mainTicket ≤ state.tickets
  spawned : ∀ pid, state.spawnedAt pid → ∃ role, state.roleOf pid = some role ∧
    .spawned pid role ∈ past
  spawned_before : ∀ pid role, .spawned pid role ∈ past →
    pid < state.nextPid ∧
      ∀ now, state.roleOf pid = some now → now = role ∧ state.spawnedAt pid
  unspawned_before : ∀ pid role, .unspawned pid role ∈ past →
    pid < state.nextPid ∧ ∀ other, .spawned pid other ∉ past
  ended : ∀ pid role termination, .ended pid role termination ∈ past →
    pid < state.nextPid ∧ state.roleOf pid = none
  latest : ∀ app pid, (state.apps app).process = some pid →
    (state.apps app).latestMain = some pid
  latest_role : ∀ app pid, (state.apps app).latestMain = some pid →
    pid < state.nextPid ∧
      ∀ role, state.roleOf pid = some role → ∃ round, role = .main app round
  unstarted : ∀ pid role, .processStart pid role ∈ state.todo →
    ∀ other, .spawned pid other ∉ past ∧ .unspawned pid other ∉ past
  starting : ∀ app pid round rest, state.todo = .processStart pid (.main app round) :: rest →
    (state.apps app).latestMain = some pid
  started : ∀ app,
    (∀ pid round rest, state.todo ≠ .processStart pid (.main app round) :: rest) →
    latestStart app past = (state.apps app).latestMain
  tracked : ∀ app pid, (state.apps app).process = some pid →
    state.spawnedAt pid ∨ Starting state pid
  exits : ∀ pid role termination, .onExit pid role termination ∈ state.todo →
    state.todo = [.onExit pid role termination] ∨ state.spawnedAt pid = false

theorem recorded_initial : Recorded (State.initial α) [] := by
  constructor <;> simp [State.initial, State.spawnedAt, latestStart]

variable {config : α → AppConfig α}
variable {state following : State α} {label : Label α} {past out : List (Event α)}

omit [DecidableEq α] in
theorem latestStart_append [DecidableEq α] (app : α) (past out : List (Event α)) :
    latestStart app (past ++ out) = (latestStart app out).or (latestStart app past) := by
  simp [latestStart, List.filterMap_append, List.getLast?_append]

omit [DecidableEq α] in
theorem mainStart_reported [DecidableEq α] {app : α} {event : Event α} {pid : Pid}
    (reported : Reported state label event) (start : mainStart app event = some pid) :
    ∃ round rest, state.todo = .processStart pid (.main app round) :: rest := by
  unfold mainStart at start
  split at start
  all_goals
    first
    | cases start
    | (split at start <;> simp_all [Reported])
  · obtain ⟨_, _, _, _, rest, pending⟩ := reported
    exact ⟨_, rest, pending⟩
  · obtain ⟨_, _, _, rest, pending⟩ := reported
    exact ⟨_, rest, pending⟩

namespace Recorded

theorem queued_of_move (move : Move config state label following out)
    (recorded : Recorded state past) :
    ∀ app, ∀ waiter ∈ (following.apps app).callbacks,
      .queued app waiter ∈ past ++ out ∧ waiter.ticket < following.tickets := by
  intro app waiter member
  have more : state.tickets ≤ following.tickets := by
    rcases tickets_of_move move with same | ⟨_, _, _, _, more⟩ <;> omega
  have old (waiting : waiter ∈ (state.apps app).callbacks) :
      .queued app waiter ∈ past ++ out ∧ waiter.ticket < following.tickets := by
    obtain ⟨before, bound⟩ := recorded.queued app waiter waiting
    exact ⟨List.mem_append_left out before, Nat.lt_of_lt_of_le bound more⟩
  rcases callbacks_of_move move app with same |
    ⟨callback, rest, _, _, reported, taken, grown⟩ | ⟨_, _, _, _, cleared⟩
  · exact old (same ▸ member)
  · rw [grown, List.mem_append, List.mem_singleton] at member
    rcases member with member | rfl
    · exact old member
    · exact ⟨List.mem_append_right past reported, by simp [taken]⟩
  · simp [cleared] at member

theorem mainTicket_of_move (move : Move config state label following out)
    (recorded : Recorded state past) :
    ∀ app, (following.apps app).mainTicket ≤ following.tickets := by
  intro app
  have before := recorded.mainTicket app
  have more : state.tickets ≤ following.tickets := by
    rcases tickets_of_move move with same | ⟨_, _, _, _, more⟩ <;> omega
  rcases latestMain_of_move move app with ⟨_, same⟩ | ⟨_, _, _, _, _, _, now, _⟩ <;> omega

theorem spawned_of_move (move : Move config state label following out)
    (sound : Sound config state) (recorded : Recorded state past) :
    ∀ pid, following.spawnedAt pid → ∃ role, following.roleOf pid = some role ∧
      .spawned pid role ∈ past ++ out := by
  intro pid running
  rcases spawnedAt_of_move move pid with same | ⟨_, gone⟩ |
    ⟨result, role, rest, rfl, pending, _, _, rfl, _⟩ | ⟨_, _, _, _, _, gone⟩
  · rw [same] at running
    obtain ⟨role, live, reported⟩ := recorded.spawned pid running
    rcases sound.roleOf_kept move live with kept | ⟨termination, rest, rfl, pending⟩
    · exact ⟨role, kept, List.mem_append_left out reported⟩
    · rw [← same] at running
      simp [State.spawnedAt, gone_of_exit move rfl pending] at running
  · simp [gone] at running
  · refine ⟨role, ?_, by simp⟩
    rcases sound.roleOf_kept move
      (sound.roles (.processStart pid role) (by simp [pending]) pid role rfl) with
      kept | ⟨_, _, _, other⟩
    · exact kept
    · cases pending.symm.trans other
  · simp [gone] at running

theorem spawned_before_of_move (move : Move config state label following out)
    (sound : Sound config state) (recorded : Recorded state past) :
    ∀ pid role, .spawned pid role ∈ past ++ out →
      pid < following.nextPid ∧
        ∀ now, following.roleOf pid = some now → now = role ∧ following.spawnedAt pid := by
  intro pid role reported
  have bound := nextPid_of_move move
  rcases List.mem_append.mp reported with reported | reported
  · obtain ⟨below, before⟩ := recorded.spawned_before pid role reported
    refine ⟨Nat.lt_of_lt_of_le below bound, fun now there => ?_⟩
    have was : state.roleOf pid = some now := by
      rcases roleOf_of_move move pid with same | ⟨rfl, _⟩ | ⟨_, _, _, _, _, gone⟩
      · exact same ▸ there
      · exact absurd below (Nat.lt_irrefl _)
      · simp [gone] at there
    obtain ⟨rfl, running⟩ := before now was
    refine ⟨rfl, ?_⟩
    rcases spawnedAt_of_move move pid with same | ⟨rfl, _⟩ |
      ⟨_, _, _, _, _, _, _, _, now⟩ | ⟨_, _, _, rfl, pending, _⟩
    · exact same ▸ running
    · exact absurd below (Nat.lt_irrefl _)
    · cases live : state.procs pid <;> simp_all [State.roleOf]
    · simp [State.roleOf, gone_of_exit move rfl pending] at there
  · obtain ⟨result, rest, rfl, _, _, pending⟩ := reported_of_move move _ reported
    obtain ⟨below, live⟩ := sound.handler_live (.processStart pid role) (by simp [pending]) rfl
    refine ⟨Nat.lt_of_lt_of_le below bound, fun now there => ⟨?_, ?_⟩⟩
    · rcases sound.roleOf_kept move (sound.role_of_top pending rfl) with kept | ⟨_, _, _, other⟩
      · exact Option.some.inj (there.symm.trans kept)
      · cases pending.symm.trans other
    · rcases out_of_spawn move pending with ⟨_, _, _, now⟩ | ⟨_, rfl, _⟩
      · exact now.trans live
      · simp at reported

theorem unspawned_before_of_move (move : Move config state label following out)
    (sound : Sound config state) (recorded : Recorded state past) :
    ∀ pid role, .unspawned pid role ∈ past ++ out →
      pid < following.nextPid ∧ ∀ other, .spawned pid other ∉ past ++ out := by
  intro pid role reported
  have bound := nextPid_of_move move
  rcases List.mem_append.mp reported with reported | reported
  · obtain ⟨below, never⟩ := recorded.unspawned_before pid role reported
    refine ⟨Nat.lt_of_lt_of_le below bound, fun other started => ?_⟩
    rcases List.mem_append.mp started with started | started
    · exact never other started
    · obtain ⟨_, rest, _, _, _, pending⟩ := reported_of_move move _ started
      exact (recorded.unstarted pid other (by simp [pending]) role).2 reported
  · obtain ⟨result, rest, rfl, _, pending⟩ := reported_of_move move _ reported
    have below := (sound.handler_live (.processStart pid role) (by simp [pending]) rfl).1
    refine ⟨Nat.lt_of_lt_of_le below bound, fun other started => ?_⟩
    rcases List.mem_append.mp started with started | started
    · exact (recorded.unstarted pid role (by simp [pending]) other).1 started
    · rcases out_of_spawn move pending with ⟨_, _, rfl, _⟩ | ⟨_, rfl, _⟩
      · simp at reported
      · simp at started

theorem ended_of_move (move : Move config state label following out)
    (sound : Sound config state) (recorded : Recorded state past) :
    ∀ pid role termination, .ended pid role termination ∈ past ++ out →
      pid < following.nextPid ∧ following.roleOf pid = none := by
  intro pid role termination reported
  have bound := nextPid_of_move move
  rcases List.mem_append.mp reported with reported | reported
  · obtain ⟨below, gone⟩ := recorded.ended pid role termination reported
    refine ⟨Nat.lt_of_lt_of_le below bound, ?_⟩
    rcases roleOf_of_move move pid with same | ⟨rfl, _⟩ | ⟨_, _, _, _, _, gone⟩
    · exact same.trans gone
    · exact absurd below (Nat.lt_irrefl _)
    · exact gone
  · obtain ⟨rfl, rest, pending⟩ := reported_of_move move _ reported
    have live := sound.handler_live (.onExit pid role termination) (by simp [pending]) rfl
    exact ⟨Nat.lt_of_lt_of_le live.1 bound, by simp [State.roleOf, gone_of_exit move rfl pending]⟩

theorem latest_of_move (move : Move config state label following out)
    (recorded : Recorded state past) :
    ∀ app pid, (following.apps app).process = some pid →
      (following.apps app).latestMain = some pid := by
  intro app pid process
  rcases latestMain_of_move move app with ⟨same, _⟩ | ⟨_, _, _, _, process', latest, _⟩
  · rcases process_of_move move app with kept | ⟨_, _, _, _, process', latest, _⟩ |
      ⟨_, _, _, _, _, gone⟩ | ⟨_, _, _, _, _, _, gone⟩
    · exact same.trans (recorded.latest app pid (kept ▸ process))
    · exact latest.trans (process'.symm.trans process)
    · simp [gone] at process
    · simp [gone] at process
  · exact latest.trans (process'.symm.trans process)

theorem latest_role_of_move (move : Move config state label following out)
    (recorded : Recorded state past) :
    ∀ app pid, (following.apps app).latestMain = some pid →
      pid < following.nextPid ∧
        ∀ role, following.roleOf pid = some role → ∃ round, role = .main app round := by
  intro app pid latest
  have bound := nextPid_of_move move
  rcases latestMain_of_move move app with ⟨same, _⟩ |
    ⟨round, rest, _, _, _, now, _, more, created⟩
  · obtain ⟨below, before⟩ := recorded.latest_role app pid (same ▸ latest)
    refine ⟨Nat.lt_of_lt_of_le below bound, fun role there => ?_⟩
    rcases roleOf_of_move move pid with same | ⟨rfl, _⟩ | ⟨_, _, _, _, _, gone⟩
    · exact before role (same ▸ there)
    · exact absurd below (Nat.lt_irrefl _)
    · simp [gone] at there
  · obtain rfl : state.nextPid = pid := Option.some.inj (now.symm.trans latest)
    refine ⟨by simp [more], fun role there => ⟨round, ?_⟩⟩
    exact Option.some.inj (there.symm.trans created)

theorem unstarted_of_move (move : Move config state label following out)
    (sound : Sound config state) (recorded : Recorded state past) :
    ∀ pid role, .processStart pid role ∈ following.todo →
      ∀ other, .spawned pid other ∉ past ++ out ∧ .unspawned pid other ∉ past ++ out := by
  intro pid role member other
  have silent (quiet : ∀ role rest, state.todo = .processStart pid role :: rest →
      ∀ result, label ≠ .spawn result) :
      .spawned pid other ∉ out ∧ .unspawned pid other ∉ out := by
    constructor <;> intro reported
    · obtain ⟨_, _, called, _, _, pending⟩ := reported_of_move move _ reported
      exact quiet _ _ pending _ called
    · obtain ⟨_, _, called, _, pending⟩ := reported_of_move move _ reported
      exact quiet _ _ pending _ called
  simp only [List.mem_append, not_or]
  rcases todo_of_move move with ⟨outer, same⟩ | ⟨head, rest, calls, inner, pending, after, made⟩ |
    ⟨calls, idle, after, delivered⟩
  · obtain ⟨never, never'⟩ := recorded.unstarted pid role (same ▸ member) other
    have quiet := silent fun _ _ _ _ called => by cases called; cases outer
    exact ⟨⟨never, quiet.1⟩, never', quiet.2⟩
  · rw [after, List.mem_append] at member
    rcases member with member | member
    · have created : pid = state.nextPid ∧ (∀ pid role, head ≠ .processStart pid role) := by
        cases made <;> simp_all
      have quiet := silent fun _ _ top => absurd (List.cons.inj (pending.symm.trans top)).1
        (created.2 _ _)
      refine ⟨⟨fun reported => ?_, quiet.1⟩, fun reported => ?_, quiet.2⟩
      · exact absurd (recorded.spawned_before pid other reported).1 (by simp [created.1])
      · exact absurd (recorded.unspawned_before pid other reported).1 (by simp [created.1])
    · cases sound.waits_below pending _ member
  · cases delivered <;> simp [after] at member

theorem unspawned (recorded : Recorded state past) {pid : Pid} {role : Role α}
    {rest : List (Call α)} (pending : state.todo = .processStart pid role :: rest) :
    state.spawnedAt pid = false := by
  by_contra running
  obtain ⟨other, _, reported⟩ := recorded.spawned pid (by simpa using running)
  exact (recorded.unstarted pid role (by simp [pending]) other).1 reported

theorem starting_of_move (move : Move config state label following out)
    (sound : Sound config state) (recorded : Recorded state past) :
    ∀ app pid round rest, following.todo = .processStart pid (.main app round) :: rest →
      (following.apps app).latestMain = some pid := by
  intro app pid round rest top
  rcases sound.top_of_move move top rfl with ⟨_, same⟩ | ⟨_, _, calls, _, _, member, made⟩ |
    ⟨calls, _, member, delivered⟩
  · rcases latestMain_of_move move app with ⟨kept, _⟩ | ⟨_, _, pending, _⟩
    · exact kept.trans (recorded.starting app pid round rest same)
    · cases same.symm.trans pending
  · cases made <;> simp at member
    case main =>
      obtain ⟨rfl, rfl, rfl⟩ := member
      assumption
  · cases delivered <;> simp at member

theorem started_of_move (move : Move config state label following out)
    (recorded : Recorded state past) :
    ∀ app, (∀ pid round rest, following.todo ≠ .processStart pid (.main app round) :: rest) →
      latestStart app (past ++ out) = (following.apps app).latestMain := by
  intro app spent
  have kept : (following.apps app).latestMain = (state.apps app).latestMain := by
    rcases latestMain_of_move move app with ⟨same, _⟩ | ⟨_, _, _, now, _⟩
    · exact same
    · exact absurd now (spent _ _ _)
  rw [latestStart_append, kept]
  by_cases begun : ∃ pid round rest, state.todo = .processStart pid (.main app round) :: rest
  · obtain ⟨pid, round, rest, pending⟩ := begun
    rw [recorded.starting app pid round rest pending]
    rcases todo_of_move move with ⟨_, same⟩ | ⟨_, _, _, inner, _⟩ | ⟨_, idle, _⟩
    · exact absurd (same.trans pending) (spent _ _ _)
    · cases label with
      | spawn result =>
          rcases out_of_spawn move pending with ⟨_, _, rfl, _⟩ | ⟨_, rfl, _⟩ <;>
            simp [latestStart, mainStart]
      | call =>
          cases move <;> cases pending.symm.trans ‹state.todo = _ :: _›
      | _ => cases inner
    · cases idle.symm.trans pending
  · have silent : latestStart app out = none := by
      simp only [latestStart, List.getLast?_eq_none_iff, List.filterMap_eq_nil_iff]
      intro event member
      cases start : mainStart app event with
      | none => rfl
      | some pid =>
          exact absurd ⟨pid, mainStart_reported (reported_of_move move event member) start⟩ begun
    simp only [silent, Option.none_or]
    exact recorded.started app fun pid round rest pending => begun ⟨pid, round, rest, pending⟩

theorem tracked_of_move (move : Move config state label following out)
    (sound : Sound config state) (recorded : Recorded state past) :
    ∀ app pid, (following.apps app).process = some pid →
      following.spawnedAt pid ∨ Starting following pid := by
  intro app pid process
  rcases process_of_move move app with same | ⟨round, rest, _, now, process', _⟩ |
    ⟨_, _, _, _, _, gone⟩ | ⟨_, _, _, _, _, _, gone⟩
  · rw [same] at process
    obtain ⟨round, live⟩ := sound.tracked app pid process
    have there : (state.procs pid).isSome := by
      cases there : state.procs pid <;> simp_all [State.roleOf]
    rcases recorded.tracked app pid process with running | ⟨rest, role, pending⟩
    · rcases spawnedAt_of_move move pid with kept | ⟨rfl, _⟩ | ⟨_, _, _, _, _, _, _, _, now⟩ |
        ⟨role, _, _, rfl, pending, _⟩
      · exact .inl (kept.trans running)
      · simp [sound.fresh _ (Nat.le_refl _)] at there
      · exact .inl (now.trans there)
      · cases live.symm.trans (sound.role_of_top pending rfl)
        cases (same.trans process).symm.trans (process_of_exit move rfl pending)
    · rcases todo_of_move move with ⟨_, unchanged⟩ | ⟨_, _, _, inner, _⟩ | ⟨_, idle, _⟩
      · exact .inr ⟨rest, role, by simpa only [unchanged] using pending⟩
      · rcases pending with pending | ⟨error, pending⟩
        · cases label with
          | spawn result =>
              rcases out_of_spawn move pending with ⟨_, _, _, now⟩ | ⟨_, _, error, below, _, now⟩
              · exact .inl (now.trans there)
              · exact .inr ⟨below, role, .inr ⟨error, now⟩⟩
          | call => cases move <;> cases pending.symm.trans ‹state.todo = _ :: _›
          | _ => cases inner
        · cases live.symm.trans (sound.role_of_top pending rfl)
          cases (same.trans process).symm.trans (process_of_error move inner pending)
      · rcases pending with pending | ⟨_, pending⟩ <;> cases idle.symm.trans pending
  · cases process.symm.trans process'
    exact .inr ⟨_, _, .inl now⟩
  · simp [gone] at process
  · simp [gone] at process

theorem exits_of_move (move : Move config state label following out)
    (sound : Sound config state) (recorded : Recorded state past) :
    ∀ pid role termination, .onExit pid role termination ∈ following.todo →
      following.todo = [.onExit pid role termination] ∨ following.spawnedAt pid = false := by
  intro pid role termination member
  rcases todo_of_move move with ⟨outer, same⟩ | ⟨head, rest, calls, inner, pending, after, made⟩ |
    ⟨calls, idle, after, delivered⟩
  · rw [same] at member ⊢
    exact (recorded.exits pid role termination member).imp_right (unspawned_outer move outer)
  · rw [after, List.mem_append] at member
    rcases member with member | member
    · cases made <;> simp at member
      case pipe unspawned =>
        obtain ⟨rfl, rfl, rfl⟩ := member
        rw [unspawned]
        exact .inr (recorded.unspawned pending)
    · right
      have no : state.spawnedAt pid = false := by
        rcases recorded.exits pid role termination (by simp [pending, member]) with only | no
        · obtain ⟨_, rfl⟩ := List.cons.inj (pending.symm.trans only)
          cases member
        · exact no
      rcases spawnedAt_of_move move pid with kept | ⟨_, no⟩ | ⟨_, _, _, _, top, _⟩ |
        ⟨_, _, _, _, _, no⟩
      · exact kept.trans no
      · exact no
      · exact absurd rfl (sound.ends_below top rfl (.onExit pid role termination)
          ((List.cons.inj (pending.symm.trans top)).2 ▸ member) role)
      · exact no
  · left
    cases delivered <;> simp_all

end Recorded

/-- Every step keeps the agreement. -/
theorem Recorded.of_move (move : Move config state label following out)
    (sound : Sound config state) (recorded : Recorded state past) :
    Recorded following (past ++ out) where
  queued := recorded.queued_of_move move
  mainTicket := recorded.mainTicket_of_move move
  spawned := recorded.spawned_of_move move sound
  spawned_before := recorded.spawned_before_of_move move sound
  ended := recorded.ended_of_move move sound
  latest := recorded.latest_of_move move
  unspawned_before := recorded.unspawned_before_of_move move sound
  latest_role := recorded.latest_role_of_move move
  unstarted := recorded.unstarted_of_move move sound
  starting := recorded.starting_of_move move sound
  started := recorded.started_of_move move
  tracked := recorded.tracked_of_move move sound
  exits := recorded.exits_of_move move sound

theorem recorded_of_reaches {guard : State α → Label α → Prop}
    (reached : Machine.Reaches (step config) guard (State.initial α) state past) :
    Recorded state past :=
  reached.invariant Recorded recorded_initial fun reached recorded _ moved =>
    recorded.of_move (move_of_step moved) (sound_of_reaches reached)

end Nexer.Manager

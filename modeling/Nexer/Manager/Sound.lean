import Nexer.Manager.Frames

/-!
# What every reachable state of the manager satisfies

No assumption on the apps or on the run is needed here: identifiers are fresh,
the calls that wait on the stack are of the kinds that can be overtaken, the
handlers that are still to run belong to the process objects that they captured,
and `App::process` refers to a main process of its app.
-/

namespace Nexer.Manager

open Nexer.Transition

variable {α : Type}

def CheckThen.app : CheckThen α → α
  | .required app => app
  | .started app _ => app

/-- The calls that may stand below other calls: what is left of a loop or of a
function body after the call that is being made. -/
def Call.waits : Call α → Bool
  | .require .. | .onProcessStart .. | .endCheck .. | .onProcessExit .. | .kill .. => true
  | .onExit .. | .answer .. | .setChecking .. => true
  | _ => false

/-- The process object whose handler a call runs, with the role captured. -/
def Call.process? : Call α → Option (Pid × Role α)
  | .processStart pid role | .onError pid role _ | .onExit pid role _ => some (pid, role)
  | _ => none

/-- The process object that may be gone after the call. -/
def Call.ends? : Call α → Option Pid
  | .processStart pid _ | .onExit pid _ _ => some pid
  | _ => none

/-- The app and the continuation of a check that has begun. -/
def Call.then? : Call α → Option (α × CheckThen α)
  | .check app next => some (app, next)
  | .checked next _ => some (next.app, next)
  | _ => none

/-- The callbacks that a call still has to hand to `Require` or to invoke. -/
def Call.carries : Call α → α → AfterProcessCheck α → Prop
  | .require app callback => fun lower other => lower = app ∧ other = callback
  | .answer app rest _ => fun lower other => lower = app ∧ ∃ waiter ∈ rest, waiter.callback = other
  | _ => fun _ _ => False

/-- A continuation of a check of `app`; its timer, if any, is a timer of `app`. -/
def Apt (state : State α) (app : α) (next : CheckThen α) : Prop :=
  next.app = app ∧ ∀ timer, next = .started app timer →
    timer < state.nextTimer ∧ ∀ entry, state.timers timer = some entry → entry.app = app

/-- A closure of `CheckPreamble` waits at a preamble of its app. -/
def Ordered (config : α → AppConfig α) (state : State α) (lower : α) :
    AfterProcessCheck α → Prop
  | .caller _ => True
  | .preamble app round =>
      lower ∈ (config app).preamble ∧ 1 ≤ round ∧ round ≤ (state.apps app).rounds

structure Sound (config : α → AppConfig α) (state : State α) : Prop where
  fresh : ∀ pid, state.nextPid ≤ pid → state.procs pid = none
  fresh_timer : ∀ timer, state.nextTimer ≤ timer → state.timers timer = none
  head_only : ∀ call ∈ state.todo.tail, call.waits
  roles : ∀ call ∈ state.todo, ∀ pid role, call.process? = some (pid, role) →
    state.roleOf pid = some role
  ends : state.todo.Pairwise fun call below =>
    ∀ pid, call.ends? = some pid → ∀ role, below.process? ≠ some (pid, role)
  tracked : ∀ app pid, (state.apps app).process = some pid →
    ∃ round, state.roleOf pid = some (.main app round)
  thens : ∀ call ∈ state.todo, ∀ app next, call.then? = some (app, next) →
    Apt state app next
  checkers : ∀ pid app next, state.roleOf pid = some (.checker app next) →
    (config app).checker.isSome ∧ Apt state app next
  carried : ∀ call ∈ state.todo, ∀ lower callback, call.carries lower callback →
    Ordered config state lower callback
  queued : ∀ app, ∀ waiter ∈ (state.apps app).callbacks,
    Ordered config state app waiter.callback
  prepared : ∀ call ∈ state.todo, ∀ app round error, call = .prepared app round error →
    1 ≤ round ∧ round ≤ (state.apps app).rounds

theorem sound_initial (config : α → AppConfig α) : Sound config (State.initial α) where
  fresh := fun _ _ => rfl
  fresh_timer := fun _ _ => rfl
  head_only := by simp [State.initial]
  roles := by simp [State.initial]
  ends := by simp [State.initial]
  tracked := by simp [State.initial]
  thens := by simp [State.initial]
  checkers := by simp [State.initial, State.roleOf]
  carried := by simp [State.initial]
  queued := by simp [State.initial]
  prepared := by simp [State.initial]

variable [DecidableEq α] {config : α → AppConfig α}
variable {state following : State α} {label : Label α} {out : List (Event α)}

namespace Sound

theorem fresh_of_move (move : Move config state label following out)
    (sound : Sound config state) :
    ∀ pid, following.nextPid ≤ pid → following.procs pid = none := by
  intro pid bound
  have before := sound.fresh pid (Nat.le_trans (nextPid_of_move move) bound)
  rcases roleOf_of_move move pid with same | ⟨rfl, more, _⟩ | ⟨_, _, _, _, _, gone⟩
  · simpa [State.roleOf, before] using same
  · rw [more] at bound
    exact absurd bound (Nat.not_succ_le_self _)
  · simpa [State.roleOf] using gone

theorem fresh_timer_of_move (move : Move config state label following out)
    (sound : Sound config state) :
    ∀ timer, following.nextTimer ≤ timer → following.timers timer = none := by
  intro timer bound
  have before := sound.fresh_timer timer (Nat.le_trans (nextTimer_of_move move) bound)
  rcases timers_of_move move timer with same | ⟨rfl, more, _⟩ | ⟨_, closing⟩ | ⟨_, _, gone⟩
  · rw [same, before]
  · rw [more] at bound
    exact absurd bound (Nat.not_succ_le_self _)
  · simp [closing, before]
  · exact gone

theorem head_only_of_move (move : Move config state label following out)
    (sound : Sound config state) : ∀ call ∈ following.todo.tail, call.waits := by
  rcases todo_of_move move with ⟨_, same⟩ | ⟨head, rest, calls, _, pending, after, made⟩ |
    ⟨calls, _, after, delivered⟩
  · rw [same]
    exact sound.head_only
  · have below : ∀ call ∈ rest, call.waits := by simpa [pending] using sound.head_only
    have above : ∀ call ∈ calls.tail, call.waits := by
      cases made
      case preambles app =>
        intro call member
        obtain ⟨lower, _, rfl⟩ := List.mem_map.mp (List.mem_of_mem_tail member)
        rfl
      all_goals simp [Call.waits]
    intro call member
    rw [after] at member
    cases calls with
    | nil => exact below call (List.mem_of_mem_tail member)
    | cons first others =>
        rcases List.mem_append.mp member with member | member
        · exact above call member
        · exact below call member
  · rw [after]
    cases delivered <;> simp [Call.waits]

/-- A process object is there until its exit callback runs. -/
theorem roleOf_kept (move : Move config state label following out)
    (sound : Sound config state) {pid : Pid} {role : Role α}
    (live : state.roleOf pid = some role) :
    following.roleOf pid = some role ∨
      ∃ termination rest, label = .call ∧
        state.todo = .onExit pid role termination :: rest := by
  rcases roleOf_of_move move pid with same | ⟨rfl, _⟩ |
    ⟨other, termination, rest, called, pending, _⟩
  · exact .inl (same.trans live)
  · simp [State.roleOf, sound.fresh _ (Nat.le_refl _)] at live
  · have captured := sound.roles (.onExit pid other termination) (by simp [pending]) pid other rfl
    obtain rfl : role = other := Option.some.inj (live.symm.trans captured)
    exact .inr ⟨termination, rest, called, pending⟩

omit [DecidableEq α] in
/-- The object of a pending handler is there, below every unused identifier. -/
theorem handler_live (sound : Sound config state) (call : Call α)
    (member : call ∈ state.todo) {pid : Pid} {role : Role α}
    (handler : call.process? = some (pid, role)) :
    pid < state.nextPid ∧ (state.procs pid).isSome := by
  have live := sound.roles call member pid role handler
  refine ⟨?_, by cases there : state.procs pid <;> simp_all [State.roleOf]⟩
  by_contra beyond
  simp [State.roleOf, sound.fresh pid (Nat.le_of_not_lt beyond)] at live

theorem roles_of_move (move : Move config state label following out)
    (sound : Sound config state) :
    ∀ call ∈ following.todo, ∀ pid role, call.process? = some (pid, role) →
      following.roleOf pid = some role := by
  intro call member pid role handler
  rcases todo_of_move move with ⟨other, same⟩ | ⟨head, rest, calls, _, pending, after, made⟩ |
    ⟨calls, idle, after, delivered⟩
  · rw [same] at member
    rcases roleOf_kept move sound (sound.roles call member pid role handler) with
      kept | ⟨_, _, called, _⟩
    · exact kept
    · subst called
      cases other
  · have first := sound.roles head (by simp [pending])
    have spread {pid : Pid} {role : Role α} (live : state.roleOf pid = some role)
        (other : ∀ termination, head ≠ .onExit pid role termination) :
        following.roleOf pid = some role := by
      rcases roleOf_kept move sound live with kept | ⟨termination, _, _, top⟩
      · exact kept
      · rw [pending] at top
        exact absurd (List.cons.inj top).1 (other termination)
    rw [after, List.mem_append] at member
    rcases member with member | member
    · cases made
      case checker created | main created _ _ =>
        simp only [List.mem_cons, List.not_mem_nil, or_false] at member
        rcases member with rfl | rfl | rfl <;> cases handler
        exact created
      case pipe | spawn | unread =>
        simp only [List.mem_cons, List.not_mem_nil, or_false] at member
        rcases member with rfl | rfl <;> cases handler <;>
          exact spread (first _ _ rfl) (by simp)
      case preambles =>
        obtain ⟨lower, _, rfl⟩ := List.mem_map.mp member
        cases handler
      case nothing => cases member
      all_goals
        simp only [List.mem_cons, List.not_mem_nil, or_false] at member
        rcases member with rfl | rfl <;> cases handler
    · have below : call ∈ state.todo := by simp [pending, member]
      refine spread (sound.roles call below pid role handler) ?_
      rintro termination rfl
      have ends := sound.ends
      rw [pending, List.pairwise_cons] at ends
      exact ends.1 call member pid rfl role handler
  · rw [after] at member
    have live : state.roleOf pid = some role := by
      cases delivered <;> simp only [List.mem_cons, List.not_mem_nil, or_false] at member
      case require => subst member; cases handler
      case onError live _ _ | onExit live _ =>
        subst member
        cases handler
        simp [State.roleOf, live]
      case check => rcases member with rfl | rfl <;> cases handler
    rcases roleOf_kept move sound live with kept | ⟨_, _, _, pending⟩
    · exact kept
    · simp [idle] at pending

theorem ends_of_move (move : Move config state label following out)
    (sound : Sound config state) :
    following.todo.Pairwise fun call below =>
      ∀ pid, call.ends? = some pid → ∀ role, below.process? ≠ some (pid, role) := by
  rcases todo_of_move move with ⟨_, same⟩ | ⟨head, rest, calls, _, pending, after, made⟩ |
    ⟨calls, _, after, delivered⟩
  · rw [same]
    exact sound.ends
  · have ends := sound.ends
    rw [pending, List.pairwise_cons] at ends
    have unborn : ∀ below ∈ rest, ∀ role, below.process? ≠ some (state.nextPid, role) := by
      intro below member role handler
      have live := sound.roles below (by simp [pending, member]) _ _ handler
      simp [State.roleOf, sound.fresh _ (Nat.le_refl _)] at live
    rw [after, List.pairwise_append]
    refine ⟨?_, ends.2, ?_⟩
    · cases made
      case preambles =>
        rw [List.pairwise_map]
        exact List.pairwise_of_forall fun _ _ _ last => by cases last
      all_goals simp [Call.ends?, Call.process?]
    · intro call member below under pid last role handler
      cases made
      case preambles =>
        obtain ⟨lower, _, rfl⟩ := List.mem_map.mp member
        cases last
      case checker | main =>
        have first : pid = state.nextPid := by
          simp only [List.mem_cons, List.not_mem_nil, or_false] at member
          rcases member with rfl | rfl | rfl <;> simp_all [Call.ends?]
        exact unborn below under role (first ▸ handler)
      case pipe =>
        simp only [List.mem_cons, List.not_mem_nil, or_false] at member
        rcases member with rfl | rfl <;> cases last
        exact ends.1 below under _ rfl role handler
      case nothing => cases member
      all_goals
        simp only [List.mem_cons, List.not_mem_nil, or_false] at member
        rcases member with rfl | rfl <;> cases last
  · rw [after]
    cases delivered <;> simp [Call.process?]

theorem tracked_of_move (move : Move config state label following out)
    (sound : Sound config state) :
    ∀ app pid, (following.apps app).process = some pid →
      ∃ round, following.roleOf pid = some (.main app round) := by
  intro app pid process
  rcases process_of_move move app with same | ⟨round, rest, _, _, now, _, created⟩ |
    ⟨_, _, _, _, _, now⟩ | ⟨_, _, _, _, _, _, now⟩
  · rw [same] at process
    obtain ⟨round, live⟩ := sound.tracked app pid process
    rcases roleOf_kept move sound live with kept | ⟨termination, rest, called, pending⟩
    · exact ⟨round, kept⟩
    · subst called
      rw [← same, process_of_exit move rfl pending] at process
      cases process
  · obtain rfl : state.nextPid = pid := Option.some.inj (now.symm.trans process)
    exact ⟨round, created⟩
  · simp [now] at process
  · simp [now] at process

theorem apt_kept (move : Move config state label following out) {app : α}
    {next : CheckThen α} (apt : Apt state app next) : Apt following app next := by
  refine ⟨apt.1, fun timer started => ?_⟩
  obtain ⟨bound, owner⟩ := apt.2 timer started
  refine ⟨Nat.lt_of_lt_of_le bound (nextTimer_of_move move), fun entry there => ?_⟩
  rcases timers_of_move move timer with same | ⟨rfl, _⟩ | ⟨_, closing⟩ | ⟨_, _, gone⟩
  · exact owner entry (same ▸ there)
  · exact absurd bound (Nat.lt_irrefl _)
  · rw [closing, Option.map_eq_some_iff] at there
    obtain ⟨earlier, before, rfl⟩ := there
    exact owner earlier before
  · simp [gone] at there

omit [DecidableEq α] in
theorem apt_started (sound : Sound config state) {timer : TimerId} {entry : StartTimer α}
    (live : state.timers timer = some entry) :
    Apt state entry.app (.started entry.app timer) := by
  refine ⟨rfl, fun other same => ?_⟩
  obtain rfl : timer = other := (CheckThen.started.inj same).2
  refine ⟨?_, fun found there => ?_⟩
  · by_contra beyond
    rw [sound.fresh_timer timer (Nat.le_of_not_lt beyond)] at live
    cases live
  · obtain rfl : entry = found := Option.some.inj (live.symm.trans there)
    rfl

theorem thens_of_move (move : Move config state label following out)
    (sound : Sound config state) :
    ∀ call ∈ following.todo, ∀ app next, call.then? = some (app, next) →
      Apt following app next := by
  refine forall_todo_of_move move sound.thens
    (fun _ _ apt app next checking => apt_kept move (apt app next checking)) ?_ ?_
  · intro head member calls apt made call made_call app next checking
    refine apt_kept move ?_
    have role := sound.roles head member
    cases made
    case preambles =>
      obtain ⟨lower, _, rfl⟩ := List.mem_map.mp made_call
      cases checking
    case nothing => cases made_call
    case check =>
      obtain rfl := List.mem_singleton.mp made_call
      cases checking
      exact ⟨rfl, nofun⟩
    case unchecked other next _ =>
      obtain rfl := List.mem_singleton.mp made_call
      cases checking
      have given := apt _ _ rfl
      exact given.1 ▸ given
    case errorChecker | exitChecker =>
      obtain rfl := List.mem_singleton.mp made_call
      cases checking
      have given := (sound.checkers _ _ _ (role _ _ rfl)).2
      exact given.1 ▸ given
    all_goals
      simp only [List.mem_cons, List.not_mem_nil, or_false] at made_call
      rcases made_call with rfl | rfl | rfl <;> cases checking
  · intro calls delivered call member app next checking
    refine apt_kept move ?_
    cases delivered <;> simp only [List.mem_cons, List.not_mem_nil, or_false] at member
    case check live _ =>
      rcases member with rfl | rfl <;> cases checking
      exact sound.apt_started live
    all_goals subst member; cases checking

theorem checkers_of_move (move : Move config state label following out)
    (sound : Sound config state) :
    ∀ pid app next, following.roleOf pid = some (.checker app next) →
      (config app).checker.isSome ∧ Apt following app next := by
  intro pid app next role
  rcases roleOf_of_move move pid with same | ⟨_, _, created⟩ | ⟨_, _, _, _, _, gone⟩
  · rw [same] at role
    obtain ⟨has_checker, apt⟩ := sound.checkers pid app next role
    exact ⟨has_checker, apt_kept move apt⟩
  · rcases created with ⟨other, then_, rest, pending, has_checker, now⟩ | ⟨_, _, _, _, now⟩
    · cases role.symm.trans now
      exact ⟨has_checker, apt_kept move
        (sound.thens (.check app next) (by simp [pending]) app next rfl)⟩
    · cases role.symm.trans now
  · cases role.symm.trans gone

theorem ordered_kept (move : Move config state label following out) {lower : α}
    {callback : AfterProcessCheck α} (ordered : Ordered config state lower callback) :
    Ordered config following lower callback := by
  cases callback with
  | caller => trivial
  | preamble app round =>
      exact ⟨ordered.1, ordered.2.1, Nat.le_trans ordered.2.2 (rounds_of_move move app)⟩

theorem carried_of_move (move : Move config state label following out)
    (sound : Sound config state) :
    ∀ call ∈ following.todo, ∀ lower callback, call.carries lower callback →
      Ordered config following lower callback := by
  refine forall_todo_of_move move sound.carried
    (fun _ _ ordered lower callback carries =>
      ordered_kept move (ordered lower callback carries)) ?_ ?_
  · intro head member calls ordered made call made_call lower callback carries
    cases made
    case preambles app opened =>
      obtain ⟨below, member, rfl⟩ := List.mem_map.mp made_call
      obtain ⟨rfl, rfl⟩ := carries
      exact ⟨member, by simp, by omega⟩
    case nothing => cases made_call
    case answers =>
      obtain rfl := List.mem_singleton.mp made_call
      obtain ⟨rfl, waiter, waiting, rfl⟩ := carries
      exact ordered_kept move (sound.queued _ waiter waiting)
    case answer =>
      obtain rfl := List.mem_singleton.mp made_call
      obtain ⟨rfl, waiter, waiting, rfl⟩ := carries
      exact ordered_kept move (ordered _ _ ⟨rfl, waiter, by simp [waiting], rfl⟩)
    case last =>
      simp only [List.mem_cons, List.not_mem_nil, or_false] at made_call
      rcases made_call with rfl | rfl
      · cases carries
      · obtain ⟨rfl, waiter, waiting, rfl⟩ := carries
        exact ordered_kept move (ordered _ _ ⟨rfl, waiter, by simp [waiting], rfl⟩)
    all_goals
      simp only [List.mem_cons, List.not_mem_nil, or_false] at made_call
      rcases made_call with rfl | rfl | rfl <;> cases carries
  · intro calls delivered call member lower callback carries
    cases delivered <;> simp only [List.mem_cons, List.not_mem_nil, or_false] at member
    case require =>
      obtain ⟨rfl, rfl⟩ := member ▸ carries
      trivial
    case check => rcases member with rfl | rfl <;> cases carries
    all_goals subst member; cases carries

theorem queued_of_move (move : Move config state label following out)
    (sound : Sound config state) :
    ∀ app, ∀ waiter ∈ (following.apps app).callbacks,
      Ordered config following app waiter.callback := by
  intro app waiter member
  refine ordered_kept move ?_
  rcases callbacks_of_move move app with same | ⟨callback, rest, _, pending, _, _, more⟩ |
    ⟨_, _, _, _, cleared⟩
  · exact sound.queued app waiter (same ▸ member)
  · rw [more, List.mem_append, List.mem_singleton] at member
    rcases member with member | rfl
    · exact sound.queued app waiter member
    · exact sound.carried (.require app callback) (by simp [pending]) _ _ ⟨rfl, rfl⟩
  · simp [cleared] at member

theorem prepared_of_move (move : Move config state label following out)
    (sound : Sound config state) :
    ∀ call ∈ following.todo, ∀ app round error, call = .prepared app round error →
      1 ≤ round ∧ round ≤ (following.apps app).rounds := by
  refine forall_todo_of_move move sound.prepared ?_ ?_ ?_
  · intro call _ bounds app round error same
    have given := bounds app round error same
    exact ⟨given.1, Nat.le_trans given.2 (rounds_of_move move app)⟩
  · intro head member calls _ made call made_call app round error same
    subst same
    cases made
    case preambles => simp at made_call
    case ready opened =>
      obtain ⟨rfl, rfl, rfl⟩ := by simpa using made_call
      omega
    case last upper ticket others _ _ =>
      obtain ⟨rfl, rfl, rfl⟩ := by simpa using made_call
      have ordered := sound.carried _ member _ (.preamble app round) ⟨rfl, _, .head _, rfl⟩
      exact ⟨ordered.2.1, Nat.le_trans ordered.2.2 (rounds_of_move move app)⟩
    all_goals simp at made_call
  · intro calls delivered call member app round error same
    subst same
    cases delivered <;> simp at member

end Sound

omit [DecidableEq α] in
/-- Below the call that is being made only waiting calls are left. -/
theorem Sound.waits_below (sound : Sound config state) {head : Call α} {rest : List (Call α)}
    (pending : state.todo = head :: rest) : ∀ call ∈ rest, call.waits := by
  simpa [pending] using sound.head_only

omit [DecidableEq α] in
/-- The object whose handler is being run was created for the role captured. -/
theorem Sound.role_of_top (sound : Sound config state) {head : Call α} {rest : List (Call α)}
    (pending : state.todo = head :: rest) {pid : Pid} {role : Role α}
    (handler : head.process? = some (pid, role)) : state.roleOf pid = some role :=
  sound.roles head (by simp [pending]) pid role handler

omit [DecidableEq α] in
/-- A process object that is being started or destroyed has no other handler to run. -/
theorem Sound.ends_below (sound : Sound config state) {head : Call α} {rest : List (Call α)}
    (pending : state.todo = head :: rest) {pid : Pid} (last : head.ends? = some pid) :
    ∀ call ∈ rest, ∀ role, call.process? ≠ some (pid, role) := by
  intro call member role
  have ends := sound.ends
  rw [pending, List.pairwise_cons] at ends
  exact ends.1 call member pid last role

omit [DecidableEq α] in
/-- A call that cannot wait is the one that is being made. -/
theorem Sound.top_of_not_waits (sound : Sound config state) {call : Call α}
    (member : call ∈ state.todo) (urgent : call.waits = false) :
    ∃ rest, state.todo = call :: rest := by
  cases pending : state.todo with
  | nil => simp [pending] at member
  | cons head rest =>
      rw [pending, List.mem_cons] at member
      rcases member with rfl | member
      · exact ⟨rest, rfl⟩
      · have waits := sound.waits_below pending call member
        rw [urgent] at waits
        cases waits

/-- The call that is being made after a step: the one that was, or one that the
step made, or one that was waiting. -/
theorem Sound.top_of_move (sound : Sound config state)
    (move : Move config state label following out)
    {call : Call α} {rest : List (Call α)} (top : following.todo = call :: rest)
    (urgent : call.waits = false) :
    (label.inner = false ∧ state.todo = call :: rest) ∨
    (∃ head below calls, label.inner ∧ state.todo = head :: below ∧ call ∈ calls ∧
      Makes config state label following head calls) ∨
    (∃ calls, state.todo = [] ∧ call ∈ calls ∧ Delivers state label calls) := by
  rcases todo_of_move move with ⟨outer, same⟩ | ⟨head, below, calls, inner, pending, after, made⟩ |
    ⟨calls, idle, after, delivered⟩
  · exact .inl ⟨outer, same ▸ top⟩
  · refine .inr (.inl ⟨head, below, calls, inner, pending, ?_, made⟩)
    have member : call ∈ calls ++ below := by simp [← after, top]
    rcases List.mem_append.mp member with member | member
    · exact member
    · have waits := sound.waits_below pending call member
      rw [urgent] at waits
      cases waits
  · exact .inr (.inr ⟨calls, idle, by simp [← after, top], delivered⟩)

omit [DecidableEq α] in
/-- A closure of `CheckPreamble` is invoked by a preamble of its app. -/
theorem Sound.ordered_of_answer (sound : Sound config state) {app : α} {waiter : Waiter α}
    {others : List (Waiter α)} {error : Int} {rest : List (Call α)}
    (pending : state.todo = .answer app (waiter :: others) error :: rest) :
    Ordered config state app waiter.callback :=
  sound.carried (.answer app (waiter :: others) error) (by simp [pending]) _ _
    ⟨rfl, waiter, .head _, rfl⟩

/-- Every step keeps the invariant. -/
theorem Sound.of_move (move : Move config state label following out)
    (sound : Sound config state) : Sound config following where
  fresh := sound.fresh_of_move move
  fresh_timer := sound.fresh_timer_of_move move
  head_only := sound.head_only_of_move move
  roles := sound.roles_of_move move
  ends := sound.ends_of_move move
  tracked := sound.tracked_of_move move
  thens := sound.thens_of_move move
  checkers := sound.checkers_of_move move
  carried := sound.carried_of_move move
  queued := sound.queued_of_move move
  prepared := sound.prepared_of_move move

theorem sound_of_reaches {guard : State α → Label α → Prop} {past : List (Event α)}
    (reached : Machine.Reaches (step config) guard (State.initial α) state past) :
    Sound config state :=
  reached.invariant (fun state _ => Sound config state) (sound_initial config)
    fun _ sound _ moved => sound.of_move (move_of_step moved)

end Nexer.Manager

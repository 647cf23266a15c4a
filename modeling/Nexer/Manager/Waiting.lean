import Nexer.Manager.Sound
import Nexer.Manager.Reports

/-!
# The callbacks of an app as a queue

The purpose of `App::callbacks` is a queue: what `Require` queued is answered in
order, each callback once.  The list itself is traversed first and cleared
afterwards, so that during a traversal the queue is what the traversal has not
reached.  Between what was queued, what was answered and what is waiting there
is no loss, no repetition and no change of order, as long as the list is neither
extended nor traversed again inside its own traversal.
-/

namespace Nexer.Manager

open Nexer.Transition

variable {α : Type} [DecidableEq α] {config : α → AppConfig α}
variable {state following : State α} {label : Label α} {past out : List (Event α)}

/-- The callbacks that a traversal for the app has not reached. -/
def Call.left? (app : α) : Call α → Option (List (Waiter α))
  | .answer other left _ => if other = app then some left else none
  | _ => none

/-- The callbacks of the app that have not been invoked. -/
def waiting (state : State α) (app : α) : List (Waiter α) :=
  (state.todo.findSome? (Call.left? app)).getD (state.apps app).callbacks

def queuedOf (app : α) (past : List (Event α)) : List (Waiter α) :=
  past.filterMap fun
    | .queued other waiter => if other = app then some waiter else none
    | _ => none

def answeredOf (app : α) (past : List (Event α)) : List (Waiter α) :=
  past.filterMap fun
    | .answered other waiter _ _ => if other = app then some waiter else none
    | _ => none

@[simp] theorem queuedOf_append (app : α) (past out : List (Event α)) :
    queuedOf app (past ++ out) = queuedOf app past ++ queuedOf app out :=
  List.filterMap_append

@[simp] theorem answeredOf_append (app : α) (past out : List (Event α)) :
    answeredOf app (past ++ out) = answeredOf app past ++ answeredOf app out :=
  List.filterMap_append

@[simp] theorem traversalFault_queuedOf (app other : α) :
    queuedOf app (state.traversalFault other) = [] := by
  unfold State.traversalFault
  split <;> rfl

@[simp] theorem traversalFault_answeredOf (app other : α) :
    answeredOf app (state.traversalFault other) = [] := by
  unfold State.traversalFault
  split <;> rfl

theorem require_queuedOf (app other : α) (waiter : Waiter α) :
    queuedOf app (.queued app waiter :: state.traversalFault other) = [waiter] := by
  rw [← List.singleton_append, queuedOf_append, traversalFault_queuedOf]
  simp [queuedOf]

theorem require_answeredOf (app other : α) (waiter : Waiter α) :
    answeredOf app (.queued app waiter :: state.traversalFault other) = [] := by
  rw [← List.singleton_append, answeredOf_append, traversalFault_answeredOf]
  simp [answeredOf]

theorem mem_queuedOf {app : α} {waiter : Waiter α} :
    waiter ∈ queuedOf app past ↔ .queued app waiter ∈ past := by
  simp only [queuedOf, List.mem_filterMap]
  constructor
  · rintro ⟨event, member, found⟩
    split at found <;> simp_all
  · exact fun member => ⟨_, member, by simp⟩

theorem mem_answeredOf {app : α} {waiter : Waiter α} :
    waiter ∈ answeredOf app past ↔ ∃ process error, .answered app waiter process error ∈ past := by
  simp only [answeredOf, List.mem_filterMap]
  constructor
  · rintro ⟨event, member, found⟩
    split at found <;> simp_all
    exact ⟨_, _, member⟩
  · exact fun ⟨process, error, member⟩ => ⟨_, member, by simp⟩

/-- The callbacks of an app are not extended or traversed inside their traversal. -/
def outsideTraversals (state : State α) : Label α → Prop
  | .call =>
      match state.todo with
      | .require app _ :: _ | .clearCallbacks app _ :: _ => state.answering app = false
      | _ => True
  | _ => True

instance : ∀ (state : State α) (label : Label α), Decidable (outsideTraversals state label)
  | { todo := [], .. }, .call => .isTrue trivial
  | { todo := call :: _, .. }, .call =>
      match call with
      | .require .. | .clearCallbacks .. => inferInstanceAs (Decidable (_ = false))
      | .check .. | .checked .. | .start .. | .prepared .. | .processStart ..
      | .onProcessStart .. | .endCheck .. | .onError .. | .onProcessExit .. | .kill ..
      | .onExit .. | .answer .. | .setChecking .. => .isTrue trivial
  | _, .clock _ | _, .spawn _ | _, .require .. | _, .read .. | _, .exited ..
  | _, .closed _ | _, .timeout _ | _, .tick _ | _, .timerClosed _ => .isTrue trivial

def Call.answers (app : α) : Call α → Bool
  | .answer other _ _ => other = app
  | _ => false

theorem answering_iff {app : α} :
    state.answering app = false ↔ state.todo.countP (Call.answers app) = 0 := by
  rw [List.countP_eq_zero, State.answering, List.any_eq_false]
  exact forall₂_congr fun call _ => by cases call <;> rfl

/-- The callbacks of an app are traversed by one loop at a time. -/
def Separate (state : State α) : Prop :=
  ∀ app, state.todo.countP (Call.answers app) ≤ 1

/-- Only `ClearCallbacks` begins a traversal. -/
theorem answers_of_makes {head : Call α} {calls : List (Call α)}
    (made : Makes config state label following head calls) (app : α) :
    (∃ error, head = .clearCallbacks app error) ∨
      calls.countP (Call.answers app) ≤ if head.answers app then 1 else 0 := by
  cases made
  case answers other error =>
    by_cases same : other = app
    · exact .inl ⟨error, by rw [same]⟩
    · simp [Call.answers, same]
  case preambles =>
    rw [List.countP_eq_zero.mpr]
    · exact .inr (Nat.zero_le _)
    · intro call member
      obtain ⟨_, _, rfl⟩ := List.mem_map.mp member
      exact Bool.false_ne_true
  all_goals exact .inr (by simp [List.countP_cons, Call.answers])

theorem Separate.of_move (move : Move config state label following out)
    (guarded : outsideTraversals state label) (separate : Separate state) :
    Separate following := by
  intro app
  have one := separate app
  rcases todo_of_move move with ⟨_, same⟩ | ⟨head, rest, calls, inner, pending, after, made⟩ |
    ⟨calls, idle, after, delivered⟩
  · rwa [same]
  · rw [pending, List.countP_cons] at one
    rw [after, List.countP_append]
    rcases answers_of_makes made app with ⟨error, rfl⟩ | few
    · cases move
      case clearCallbacks top =>
        cases pending.symm.trans top
        obtain rfl := List.append_cancel_right (after.symm.trans (State.call_todo ..))
        simp only [outsideTraversals, pending] at guarded
        rw [answering_iff, pending, List.countP_cons] at guarded
        simp only [List.countP_singleton, Call.answers, decide_true, if_true,
          Bool.false_eq_true, if_false] at guarded ⊢
        omega
      all_goals try cases inner
      all_goals cases pending.symm.trans ‹state.todo = _ :: _›
    · omega
  · rw [after]
    cases delivered <;> simp [Call.answers]

/-- Below the traversal that is running there is none for the same app. -/
theorem Separate.alone (separate : Separate state) {app : α} {left : List (Waiter α)}
    {error : Int} {rest : List (Call α)} (pending : state.todo = .answer app left error :: rest) :
    ∀ left error, .answer app left error ∉ rest := by
  intro others other member
  have one := separate app
  rw [pending, List.countP_cons] at one
  have more : 0 < rest.countP (Call.answers app) :=
    List.countP_pos_iff.mpr ⟨_, member, by simp [Call.answers]⟩
  simp only [Call.answers, decide_true, if_true] at one
  omega

theorem not_mem_of_answering {app : α} {head : Call α} {rest : List (Call α)}
    (pending : state.todo = head :: rest) (outside : state.answering app = false)
    (left : List (Waiter α)) (error : Int) : .answer app left error ∉ rest := by
  intro member
  rw [answering_iff, List.countP_eq_zero] at outside
  exact outside (.answer app left error) (by simp [pending, member]) (by simp [Call.answers])

/-- What was queued for each app is what was answered, then what is waiting. -/
def InOrder (state : State α) (past : List (Event α)) : Prop :=
  ∀ app, queuedOf app past = answeredOf app past ++ waiting state app

theorem inOrder_initial : InOrder (State.initial α) [] :=
  fun _ => rfl

/-- A call that is no traversal carries nothing of the queue. -/
theorem left_none {app : α} {rest : List (Call α)}
    (alone : ∀ left error, .answer app left error ∉ rest) :
    rest.findSome? (Call.left? app) = none := by
  rw [List.findSome?_eq_none_iff]
  intro call member
  cases call with
  | answer other left error =>
      by_cases same : other = app
      · subst same
        exact absurd member (alone left error)
      · simp [Call.left?, same]
  | _ => rfl

/-- A step that neither queues nor answers for the app leaves its queue. -/
theorem waiting_kept (move : Move config state label following out) {app : α}
    (required : ∀ callback rest, label.inner → state.todo ≠ .require app callback :: rest)
    (cleared : ∀ error rest, label.inner → state.todo ≠ .clearCallbacks app error :: rest)
    (answered : ∀ left error rest, label.inner → state.todo ≠ .answer app left error :: rest) :
    waiting following app = waiting state app := by
  have callbacks : (following.apps app).callbacks = (state.apps app).callbacks := by
    rcases callbacks_of_move move app with same | ⟨_, _, rfl, pending, _⟩ | ⟨_, _, rfl, pending, _⟩
    · exact same
    · exact absurd pending (required _ _ rfl)
    · exact absurd pending (answered _ _ _ rfl)
  have left : following.todo.findSome? (Call.left? app) =
      state.todo.findSome? (Call.left? app) := by
    rcases todo_of_move move with ⟨_, same⟩ | ⟨head, rest, calls, inner, pending, after, made⟩ |
      ⟨calls, idle, after, delivered⟩
    · rw [same]
    · rw [after, pending, List.findSome?_append]
      cases made
      case answers other _ =>
        have other' : other ≠ app := by
          rintro rfl
          exact cleared _ _ inner pending
        simp [List.findSome?_cons, Call.left?, other']
      case answer other _ _ _ | last other _ _ _ _ _ _ _ =>
        have other' : other ≠ app := by
          rintro rfl
          exact answered _ _ _ inner pending
        simp [List.findSome?_cons, Call.left?, other']
      case nothing =>
        cases head with
        | answer other left error =>
            have other' : other ≠ app := by
              rintro rfl
              exact answered _ _ _ inner pending
            simp [Call.left?, other']
        | _ => simp [List.findSome?_cons, Call.left?]
      case preambles =>
        rw [List.findSome?_eq_none_iff.mpr]
        · simp [List.findSome?_cons, Call.left?]
        · intro call member
          obtain ⟨lower, _, rfl⟩ := List.mem_map.mp member
          rfl
      all_goals simp [List.findSome?_cons, Call.left?]
    · rw [after, idle]
      cases delivered <;> simp [List.findSome?_cons, Call.left?]
  rw [waiting, waiting, left, callbacks]

/-- Only `Require` on the app queues for it. -/
theorem queuedOf_nil (move : Move config state label following out) {app : α}
    (required : ∀ callback rest, label.inner → state.todo ≠ .require app callback :: rest) :
    queuedOf app out = [] := by
  rw [List.eq_nil_iff_forall_not_mem]
  intro waiter member
  obtain ⟨rest, pending, _, rfl⟩ := reported_of_move move _ (mem_queuedOf.mp member)
  exact required _ _ rfl pending

/-- Only a traversal for the app answers for it. -/
theorem answeredOf_nil (move : Move config state label following out) {app : α}
    (answered : ∀ left error rest, label.inner → state.todo ≠ .answer app left error :: rest) :
    answeredOf app out = [] := by
  rw [List.eq_nil_iff_forall_not_mem]
  intro waiter member
  obtain ⟨process, error, reported⟩ := mem_answeredOf.mp member
  obtain ⟨rfl, _, others, rest, pending⟩ := reported_of_move move _ reported
  exact answered _ _ _ rfl pending

theorem waiting_of_alone {app : α} {rest : List (Call α)} {head : Call α}
    (pending : state.todo = head :: rest) (other : head.left? app = none)
    (alone : ∀ left error, .answer app left error ∉ rest) :
    waiting state app = (state.apps app).callbacks := by
  simp [waiting, pending, other, left_none alone]

theorem inOrder_of_move (move : Move config state label following out)
    (guarded : outsideTraversals state label) (separate : Separate state)
    (holds : InOrder state past) : InOrder following (past ++ out) := by
  intro app
  rw [queuedOf_append, answeredOf_append, holds app]
  by_cases required : ∃ callback rest, label.inner ∧ state.todo = .require app callback :: rest
  · obtain ⟨callback, rest, inner, pending⟩ := required
    cases move
    case queueMore top _ =>
      cases pending.symm.trans top
      have alone := not_mem_of_answering pending (by simpa [outsideTraversals, pending] using guarded)
      rw [waiting_of_alone pending rfl alone]
      simp [waiting, require_queuedOf, require_answeredOf, left_none alone]
    case queueFirst top _ =>
      cases pending.symm.trans top
      have alone := not_mem_of_answering pending (by simpa [outsideTraversals, pending] using guarded)
      rw [waiting_of_alone pending rfl alone]
      simp [waiting, require_queuedOf, require_answeredOf, left_none alone,
        List.findSome?_cons, Call.left?]
    all_goals try cases inner
    all_goals cases pending.symm.trans ‹state.todo = _ :: _›
  by_cases cleared : ∃ error rest, label.inner ∧ state.todo = .clearCallbacks app error :: rest
  · obtain ⟨error, rest, inner, pending⟩ := cleared
    cases move
    case clearCallbacks top =>
      cases pending.symm.trans top
      have alone := not_mem_of_answering pending (by simpa [outsideTraversals, pending] using guarded)
      rw [waiting_of_alone pending rfl alone]
      simp [waiting, Call.left?]
    all_goals try cases inner
    all_goals cases pending.symm.trans ‹state.todo = _ :: _›
  by_cases answered : ∃ left error rest, label.inner ∧ state.todo = .answer app left error :: rest
  · obtain ⟨left, error, rest, inner, pending⟩ := answered
    have now : waiting state app = left := by
      simp [waiting, pending, Call.left?]
    rw [now]
    cases move
    case answerEnd top =>
      cases pending.symm.trans top
      simp [waiting, left_none (separate.alone pending), queuedOf, answeredOf]
    case answerCaller top | answerCount top _ | answerLast top _ =>
      cases pending.symm.trans top
      simp [waiting, queuedOf, answeredOf, List.findSome?_cons, Call.left?]
    all_goals try cases inner
    all_goals cases pending.symm.trans ‹state.todo = _ :: _›
  simp only [not_exists, not_and] at required cleared answered
  rw [queuedOf_nil move required, answeredOf_nil move answered,
    waiting_kept move required cleared answered]
  simp

theorem inOrder_of_reaches {guard : State α → Label α → Prop}
    (implies : ∀ {state past label}, guard state label →
      Machine.Reaches (step config) guard (State.initial α) state past →
      outsideTraversals state label)
    (reached : Machine.Reaches (step config) guard (State.initial α) state past) :
    InOrder state past := by
  refine (reached.invariant (fun state past => Separate state ∧ InOrder state past)
    ⟨by simp [Separate, State.initial], inOrder_initial⟩ ?_).2
  rintro state following past out label reached ⟨separate, holds⟩ guarded moved
  have move := move_of_step moved
  have outside := implies guarded reached
  exact ⟨separate.of_move move outside, inOrder_of_move move outside separate holds⟩

end Nexer.Manager

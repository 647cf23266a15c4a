import Nexer.Manager.Stack

/-!
# What the manager owes to its callers

A caller that has called `Require` with one of its closures is owed a call of that
closure: while the call of `Require` is still to be made, and then as long as the
closure is among the callbacks that have not been invoked.  The debt grows with the
calls from outside and shrinks with the answers, and with nothing else.
-/

namespace Nexer.Manager

open Nexer.Transition

variable {α : Type} [DecidableEq α] {config : α → AppConfig α}
variable {state following : State α} {label : Label α} {past out : List (Event α)}

/-- A callback that has not been invoked, of the given caller. -/
def Waiter.isOf (caller : Nat) (waiter : Waiter α) : Bool :=
  waiter.callback = .caller caller

/-- The number of calls that the closure of a caller still has to get for an app. -/
def owed (app : α) (caller : Nat) (state : State α) : Nat :=
  state.todo.count (.require app (.caller caller)) + (waiting state app).countP (·.isOf caller)

/-- The calls from outside, of which there is one in a step at most. -/
def Label.asks (app : α) (caller : Nat) : Label α → Nat
  | .require other tag => if other = app ∧ tag = caller then 1 else 0
  | _ => 0

/-- The answers that a caller is given. -/
def answersTo (app : α) (caller : Nat) (out : List (Event α)) : Nat :=
  (answeredOf app out).countP (·.isOf caller)

/-- Nothing but the loop makes calls of `Require` for a caller. -/
theorem requires_of_makes {app : α} {caller : Nat} {head : Call α} {calls : List (Call α)}
    (made : Makes config state label following head calls) :
    calls.count (.require app (.caller caller)) = 0 := by
  rw [List.count_eq_zero]
  cases made
  case preambles =>
    intro member
    obtain ⟨_, _, same⟩ := List.mem_map.mp member
    cases same
  all_goals simp

theorem asks_of_inner (inner : label.inner) (app : α) (caller : Nat) :
    label.asks app caller = 0 := by
  cases label with
  | require => cases inner
  | _ => rfl

/-- The calls of `Require` that are still to be made, before and after a step. -/
theorem requires_of_move (move : Move config state label following out) {app : α} {caller : Nat}
    (required : ∀ rest, label.inner → state.todo ≠ .require app (.caller caller) :: rest) :
    following.todo.count (.require app (.caller caller)) =
      state.todo.count (.require app (.caller caller)) + label.asks app caller := by
  rcases todo_of_move move with ⟨outer, same⟩ | ⟨head, rest, calls, inner, pending, after, made⟩ |
    ⟨calls, idle, after, delivered⟩
  · rw [same]
    cases label with
    | require other tag =>
        cases move with
        | required idle => exact absurd same (by simp [idle])
    | _ => rfl
  · have other : head ≠ .require app (.caller caller) := by
      rintro rfl
      exact required rest inner pending
    rw [after, pending, List.count_append, requires_of_makes made, asks_of_inner inner,
      List.count_cons_of_ne other, Nat.zero_add, Nat.add_zero]
  · rw [after, idle]
    cases delivered <;> simp [Label.asks, List.count_cons]

theorem answersTo_nil (move : Move config state label following out) {app : α} {caller : Nat}
    (answered : ∀ left error rest, label.inner → state.todo ≠ .answer app left error :: rest) :
    answersTo app caller out = 0 := by
  rw [answersTo, answeredOf_nil move answered]
  rfl

/-- The debt after a step is the debt before it, with what was asked and without what
was answered. -/
theorem owed_of_move (move : Move config state label following out)
    (guarded : outsideTraversals state label) (separate : Separate state) (app : α)
    (caller : Nat) :
    owed app caller following + answersTo app caller out =
      owed app caller state + label.asks app caller := by
  unfold owed
  by_cases required : ∃ callback rest, label.inner ∧ state.todo = .require app callback :: rest
  · obtain ⟨callback, rest, inner, pending⟩ := required
    rw [asks_of_inner inner, answersTo_nil move fun left error below _ top => by
      cases pending.symm.trans top]
    cases move
    case queueMore top _ | queueFirst top _ =>
      cases pending.symm.trans top
      have alone := not_mem_of_answering pending (by simpa [outsideTraversals, pending] using guarded)
      rw [waiting_of_alone pending rfl alone, pending]
      by_cases same : callback = .caller caller
      · subst same
        simp [waiting, left_none alone, List.findSome?_cons, Call.left?, Waiter.isOf,
          List.countP_append]
        omega
      · have apart : Call.require app callback ≠ .require app (.caller caller) := by
          simpa using same
        simp [waiting, left_none alone, List.findSome?_cons, Call.left?, Waiter.isOf,
          List.countP_append, same, List.count_cons_of_ne apart]
    all_goals try cases inner
    all_goals cases pending.symm.trans ‹state.todo = _ :: _›
  simp only [not_exists, not_and] at required
  have calls : following.todo.count (.require app (.caller caller)) = _ :=
    requires_of_move move (required _)
  by_cases cleared : ∃ error rest, label.inner ∧ state.todo = .clearCallbacks app error :: rest
  · obtain ⟨error, rest, inner, pending⟩ := cleared
    rw [calls, answersTo_nil move fun left error below _ top => by
      cases pending.symm.trans top]
    cases move
    case clearCallbacks top =>
      cases pending.symm.trans top
      have alone := not_mem_of_answering pending (by simpa [outsideTraversals, pending] using guarded)
      rw [waiting_of_alone pending rfl alone]
      simp [waiting, Call.left?, Label.asks]
    all_goals try cases inner
    all_goals cases pending.symm.trans ‹state.todo = _ :: _›
  by_cases answered : ∃ left error rest, label.inner ∧ state.todo = .answer app left error :: rest
  · obtain ⟨left, error, rest, inner, pending⟩ := answered
    rw [calls, asks_of_inner inner]
    have now : waiting state app = left := by
      simp [waiting, pending, Call.left?]
    rw [now]
    cases move
    case answerEnd top =>
      cases pending.symm.trans top
      simp [waiting, left_none (separate.alone pending), answersTo, answeredOf]
    case answerCaller top | answerCount top _ | answerLast top _ =>
      cases pending.symm.trans top
      simp [waiting, answersTo, answeredOf, List.findSome?_cons, Call.left?, List.countP_cons]
      omega
    all_goals try cases inner
    all_goals cases pending.symm.trans ‹state.todo = _ :: _›
  simp only [not_exists, not_and] at cleared answered
  rw [calls, answersTo_nil move answered, waiting_kept move required cleared answered]
  omega

theorem separate_of_reaches (acyclic : Acyclic config)
    (reached : Machine.Reaches (step config) restartsOutside (State.initial α) state past) :
    Separate state :=
  reached.invariant (fun state _ => Separate state) (by simp [Separate, State.initial])
    fun reached separate allowed moved =>
      separate.of_move (move_of_step moved)
        ((layered_of_reaches (fun _ _ => id) reached).outsideTraversals acyclic)

/-- In a run with preambles that have no cycle the debt is kept. -/
theorem owed_of_step (acyclic : Acyclic config)
    (reached : Machine.Reaches (step config) restartsOutside (State.initial α) state past)
    (moved : step config state label = some (following, out)) (app : α) (caller : Nat) :
    owed app caller following + answersTo app caller out =
      owed app caller state + label.asks app caller :=
  owed_of_move (move_of_step moved)
    ((layered_of_reaches (fun _ _ => id) reached).outsideTraversals acyclic)
    (separate_of_reaches acyclic reached) app caller

/-- A call from outside is not answered at once. -/
theorem out_of_require {app : α} {caller : Nat}
    (moved : step config state (.require app caller) = some (following, out)) : out = [] := by
  simp only [step, deliver, Option.ite_none_right_eq_some, Option.some.injEq, Prod.mk.injEq] at moved
  exact moved.2.2.symm

/-- The answer to a caller that a step reports. -/
def answeredCaller (out : List (Event α)) : Option ((α × Nat) × Int) :=
  out.findSome? fun
    | .answered app ⟨_, .caller caller⟩ _ error => some ((app, caller), error)
    | _ => none

omit [DecidableEq α] in
theorem of_answeredCaller {app : α} {caller : Nat} {error : Int}
    (found : answeredCaller out = some ((app, caller), error)) :
    ∃ ticket process, .answered app ⟨ticket, .caller caller⟩ process error ∈ out := by
  obtain ⟨event, member, same⟩ := List.exists_of_findSome?_eq_some found
  split at same
  · obtain ⟨⟨rfl, rfl⟩, rfl⟩ : (_ = app ∧ _ = caller) ∧ _ = error := by
      simpa using same
    exact ⟨_, _, member⟩
  · cases same

theorem answersTo_of_none (none : answeredCaller out = none) (app : α) (caller : Nat) :
    answersTo app caller out = 0 := by
  rw [answersTo, List.countP_eq_zero]
  intro waiter member own
  obtain ⟨process, error, reported⟩ := mem_answeredOf.mp member
  obtain ⟨ticket, callback⟩ := waiter
  obtain rfl : callback = .caller caller := by simpa [Waiter.isOf] using own
  have unfound := List.findSome?_eq_none_iff.mp none _ reported
  cases unfound

/-- A step that answers a caller reports that answer only. -/
theorem out_of_answered (move : Move config state label following out) {app : α} {caller : Nat}
    {error : Int} (found : answeredCaller out = some ((app, caller), error)) :
    ∃ ticket, out = [.answered app ⟨ticket, .caller caller⟩ (state.apps app).process error] := by
  obtain ⟨ticket, process, member⟩ := of_answeredCaller found
  obtain ⟨rfl, rfl, others, rest, pending⟩ := reported_of_move move _ member
  exact ⟨ticket, out_of_answer move rfl pending⟩

theorem answersTo_of_some (move : Move config state label following out) {app : α} {caller : Nat}
    {error : Int} (found : answeredCaller out = some ((app, caller), error)) (other : α)
    (another : Nat) :
    answersTo other another out = if (other, another) = (app, caller) then 1 else 0 := by
  obtain ⟨ticket, rfl⟩ := out_of_answered move found
  by_cases same : app = other
  · subst same
    by_cases equal : caller = another
    · subst equal
      simp [answersTo, answeredOf, Waiter.isOf]
    · simp [answersTo, answeredOf, Waiter.isOf, equal, Ne.symm equal]
  · simp [answersTo, answeredOf, same, Ne.symm same]

end Nexer.Manager

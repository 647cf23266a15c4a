import Nexer.Manager.Waiting

/-!
# The rounds of `CheckPreamble`

Each `Start` opens a round and hands one closure of that round to `Require` for
every entry of the preamble.  The counter `pending_preamble` belongs to the app
and not to the round: every answer counts it down, whichever round it answers.
Here the closures are accounted for, and the counter is bounded by the number of
closures of the current round that are not yet answered.
-/

namespace Nexer.Manager

open Nexer.Transition

variable {α : Type} [DecidableEq α] {config : α → AppConfig α}
variable {state following : State α} {label : Label α} {past out : List (Event α)}

/-- The preambles that have answered closures of one round, in order. -/
def responders (app : α) (round : Nat) (past : List (Event α)) : List α :=
  past.filterMap fun
    | .answered lower waiter _ _ =>
        if waiter.callback = .preamble app round then some lower else none
    | _ => none

/-- The closures of one round that are to be queued, or have been queued, at `lower`. -/
def issued (state : State α) (past : List (Event α)) (app : α) (round : Nat) (lower : α) : Nat :=
  state.todo.count (.require lower (.preamble app round)) +
    (queuedOf lower past).countP (·.callback = .preamble app round)

structure Rounds (config : α → AppConfig α) (state : State α) (past : List (Event α)) :
    Prop where
  issued : ∀ app round lower, issued state past app round lower =
    if 1 ≤ round ∧ round ≤ (state.apps app).rounds then (config app).preamble.count lower else 0
  unopened : ∀ app round, (state.apps app).rounds < round → responders app round past = []
  begun : ∀ app, 0 < (state.apps app).pendingPreamble → 1 ≤ (state.apps app).rounds
  counter : ∀ app, (state.apps app).pendingPreamble +
    (responders app (state.apps app).rounds past).length ≤ (config app).preamble.length

theorem rounds_initial : Rounds config (State.initial α) [] where
  issued := by
    intro app round lower
    rw [if_neg fun bounds => Nat.not_succ_le_zero 0 (Nat.le_trans bounds.1 bounds.2)]
    simp [Manager.issued, State.initial, queuedOf]
  unopened := fun _ _ _ => rfl
  begun := by simp [State.initial]
  counter := by simp [State.initial, responders]

@[simp] theorem responders_append (app : α) (round : Nat) (past out : List (Event α)) :
    responders app round (past ++ out) = responders app round past ++ responders app round out :=
  List.filterMap_append

@[simp] theorem responders_answered (app : α) (round : Nat) (lower : α) (ticket : Nat)
    (process : Option Pid) (error : Int) :
    responders app round [.answered lower ⟨ticket, .preamble app round⟩ process error] =
      [lower] := by
  simp [responders]

/-- The answers of a round, counted by the preamble that gave them. -/
theorem count_responders (app : α) (round : Nat) (lower : α) :
    (responders app round past).count lower =
      (answeredOf lower past).countP (·.callback = .preamble app round) := by
  rw [responders, answeredOf, List.count_filterMap, List.countP_filterMap]
  refine List.countP_congr fun event _ => ?_
  cases event
  case answered other waiter _ _ _ =>
    by_cases same : other = lower <;> by_cases closure : waiter.callback = .preamble app round <;>
      simp [same, closure]
  all_goals simp

omit [DecidableEq α] in
theorem mem_todo_of_top {head : Call α} {rest : List (Call α)}
    (pending : state.todo = head :: rest) : head ∈ state.todo := by
  simp [pending]

/-- An answer is reported by a turn of the loop of `ClearCallbacks`. -/
theorem responders_of_move (move : Move config state label following out) (app : α) (round : Nat) :
    responders app round out = [] ∨
    ∃ lower ticket others error rest, label.inner ∧
      state.todo = .answer lower (⟨ticket, .preamble app round⟩ :: others) error :: rest ∧
      out = [.answered lower ⟨ticket, .preamble app round⟩ (state.apps lower).process error] := by
  by_cases none : responders app round out = []
  · exact .inl none
  · obtain ⟨lower, member⟩ := List.exists_mem_of_ne_nil _ none
    simp only [responders, List.mem_filterMap] at member
    obtain ⟨event, reported, answer⟩ := member
    cases event
    case answered other waiter process error =>
      simp only [Option.ite_none_right_eq_some, Option.some.injEq] at answer
      obtain ⟨closure, rfl⟩ := answer
      obtain ⟨rfl, _, others, rest, pending⟩ := reported_of_move move _ reported
      obtain ⟨ticket, callback⟩ := waiter
      cases closure
      exact .inr ⟨other, ticket, others, error, rest, rfl, pending, out_of_answer move rfl pending⟩
    all_goals cases answer

/-- An answer counts down, whichever round it belongs to. -/
theorem counted_of_answer (move : Move config state label following out) (inner : label.inner)
    {app lower : α} {ticket round : Nat} {others : List (Waiter α)} {error : Int}
    {rest : List (Call α)}
    (head : state.todo = .answer lower (⟨ticket, .preamble app round⟩ :: others) error :: rest) :
    (following.apps app).pendingPreamble = (state.apps app).pendingPreamble - 1 := by
  cases move
  case answerCount top _ | answerLast top _ =>
    cases head.symm.trans top
    simp
  all_goals try cases inner
  all_goals cases head.symm.trans ‹state.todo = _ :: _›

/-- `Start` opens the next round. -/
theorem opened_of_start (move : Move config state label following out) (inner : label.inner)
    {app : α} {rest : List (Call α)} (head : state.todo = .start app :: rest) (lower : α)
    (round : Nat) :
    (following.apps app).rounds = (state.apps app).rounds + 1 ∧
    (following.apps app).pendingPreamble = (config app).preamble.length ∧
    following.todo.count (.require lower (.preamble app round)) =
      rest.count (.require lower (.preamble app round)) +
        if round = (state.apps app).rounds + 1 then (config app).preamble.count lower else 0 := by
  cases move
  case startReady top alone =>
    cases head.symm.trans top
    simp [alone]
  case startWaiting top _ =>
    cases head.symm.trans top
    refine ⟨by simp, by simp, ?_⟩
    rw [State.call_todo, List.count_append, Nat.add_comm]
    congr 1
    simp only [List.count, List.countP_map]
    split
    · next same =>
      subst same
      exact List.countP_congr fun other _ => by simp
    · next other =>
      simp [List.countP_eq_zero, Ne.symm other]
  all_goals try cases inner
  all_goals cases head.symm.trans ‹state.todo = _ :: _›

/-- A step other than those of `Require` and of `Start` leaves the closures to be queued. -/
theorem count_kept (move : Move config state label following out) {app lower : α} {round : Nat}
    (required : ∀ callback rest, label.inner → state.todo ≠ .require lower callback :: rest)
    (started : ∀ rest, label.inner → state.todo ≠ .start app :: rest) :
    following.todo.count (.require lower (.preamble app round)) =
      state.todo.count (.require lower (.preamble app round)) := by
  rcases todo_of_move move with ⟨_, same⟩ | ⟨head, rest, calls, inner, pending, after, made⟩ |
    ⟨calls, idle, after, delivered⟩
  · rw [same]
  · have outside : head ≠ .require lower (.preamble app round) := by
      rintro rfl
      exact required _ _ inner pending
    have none_made : .require lower (.preamble app round) ∉ calls := by
      intro member
      cases made
      case preambles other _ =>
        obtain ⟨_, _, same⟩ := List.mem_map.mp member
        cases same
        exact started _ inner pending
      all_goals simp at member
    rw [after, pending, List.count_append, List.count_eq_zero_of_not_mem none_made, Nat.zero_add,
      List.count_cons_of_ne outside]
  · have none_made : .require lower (.preamble app round) ∉ calls := by
      intro member
      cases delivered <;> simp at member
    rw [after, idle, List.count_eq_zero_of_not_mem none_made, List.count_nil]

theorem Rounds.issued_of_move (move : Move config state label following out)
    (rounds : Rounds config state past) :
    ∀ app round lower, Manager.issued following (past ++ out) app round lower =
      if 1 ≤ round ∧ round ≤ (following.apps app).rounds then (config app).preamble.count lower
      else 0 := by
  intro app round lower
  have before := rounds.issued app round lower
  simp only [Manager.issued, queuedOf_append, List.countP_append] at before ⊢
  by_cases started : ∃ rest, label.inner ∧ state.todo = .start app :: rest
  · obtain ⟨rest, inner, pending⟩ := started
    obtain ⟨opened, _, count⟩ := opened_of_start move inner pending lower round
    have silent : queuedOf lower out = [] := by
      refine queuedOf_nil move fun callback below _ top => ?_
      cases pending.symm.trans top
    rw [pending, List.count_cons_of_ne (by simp)] at before
    rw [count, silent, opened]
    simp only [List.countP_nil]
    split at before <;> split <;> split <;> omega
  have same : (following.apps app).rounds = (state.apps app).rounds := by
    rcases preamble_of_move move app with ⟨same, _⟩ | ⟨rest, pending, more, _⟩ |
      ⟨_, _, _, _, _, _, _, same, _⟩
    · exact same
    · cases inner : label.inner with
      | true => exact absurd ⟨rest, inner, pending⟩ started
      | false => rw [apps_outer move inner]
    · exact same
  rw [same]
  by_cases required : ∃ callback rest, label.inner ∧ state.todo = .require lower callback :: rest
  · obtain ⟨callback, rest, inner, pending⟩ := required
    rw [← before, pending]
    cases move
    case queueMore top _ | queueFirst top _ =>
      cases pending.symm.trans top
      simp only [require_queuedOf, List.count_cons, List.countP_singleton]
      by_cases closure : callback = .preamble app round
      · simp [closure]
        omega
      · simp [closure]
    all_goals try cases inner
    all_goals cases pending.symm.trans ‹state.todo = _ :: _›
  simp only [not_exists, not_and] at started required
  rw [count_kept move required started, queuedOf_nil move required]
  simpa using before

theorem Rounds.unopened_of_move (move : Move config state label following out)
    (sound : Sound config state) (rounds : Rounds config state past) :
    ∀ app round, (following.apps app).rounds < round →
      responders app round (past ++ out) = [] := by
  intro app round beyond
  have before := Nat.lt_of_le_of_lt (rounds_of_move move app) beyond
  rw [responders_append, rounds.unopened app round before, List.nil_append]
  rcases responders_of_move move app round with none | ⟨lower, ticket, others, error, rest, _,
    pending, _⟩
  · exact none
  · have ordered : round ≤ (state.apps app).rounds := (sound.ordered_of_answer pending).2.2
    omega

theorem Rounds.begun_of_move (move : Move config state label following out)
    (rounds : Rounds config state past) :
    ∀ app, 0 < (following.apps app).pendingPreamble → 1 ≤ (following.apps app).rounds := by
  intro app outstanding
  have before := rounds.begun app
  rcases preamble_of_move move app with ⟨same, count, _⟩ | ⟨_, _, more, _⟩ |
    ⟨_, _, _, _, _, _, _, same, count, _⟩ <;> omega

theorem Rounds.counter_of_move (move : Move config state label following out)
    (rounds : Rounds config state past) :
    ∀ app, (following.apps app).pendingPreamble +
      (responders app (following.apps app).rounds (past ++ out)).length ≤
        (config app).preamble.length := by
  intro app
  have before := rounds.counter app
  rw [responders_append]
  rcases preamble_of_move move app with ⟨same, count, _⟩ | ⟨rest, pending, more, count, _⟩ |
    ⟨lower, ticket, round, others, error, rest, pending, same, count, _⟩
  · rw [same, count]
    rcases responders_of_move move app (state.apps app).rounds with none |
      ⟨lower, ticket, others, error, rest, inner, pending, _⟩
    · simpa [none] using before
    · have counted := counted_of_answer move inner pending
      omega
  · rw [more, count, rounds.unopened app _ (Nat.lt_succ_self _)]
    rcases responders_of_move move app ((state.apps app).rounds + 1) with none |
      ⟨lower, ticket, others, error, rest, _, top, _⟩
    · simp [none]
    · cases pending.symm.trans top
  · rw [same, count]
    rcases responders_of_move move app (state.apps app).rounds with none |
      ⟨_, _, _, _, _, _, _, one⟩
    · simp only [none, List.append_nil]
      omega
    · simp only [one, responders_answered, List.length_append, List.length_singleton]
      omega

theorem rounds_of_reaches {guard : State α → Label α → Prop}
    (reached : Machine.Reaches (step config) guard (State.initial α) state past) :
    Rounds config state past :=
  reached.invariant (Rounds config) rounds_initial fun reached rounds _ moved =>
    have move := move_of_step moved
    { issued := rounds.issued_of_move move
      unopened := rounds.unopened_of_move move (sound_of_reaches reached)
      begun := rounds.begun_of_move move
      counter := rounds.counter_of_move move }

/-- While the counter is positive between two handlers, some preamble has callbacks
waiting. -/
theorem exists_waiting (rounds : Rounds config state past) (inOrder : InOrder state past)
    (idle : state.todo = []) {app : α}
    (outstanding : 0 < (state.apps app).pendingPreamble) :
    ∃ lower ∈ (config app).preamble, (state.apps lower).callbacks ≠ [] := by
  by_contra none
  simp only [ne_eq, not_exists, not_and, not_not] at none
  have answered : ∀ lower, (responders app (state.apps app).rounds past).count lower =
      (config app).preamble.count lower := by
    intro lower
    have account := rounds.issued app (state.apps app).rounds lower
    rw [if_pos ⟨rounds.begun app outstanding, Nat.le_refl _⟩, issued, idle, List.count_nil,
      Nat.zero_add, inOrder lower, List.countP_append, ← count_responders] at account
    by_cases member : lower ∈ (config app).preamble
    · have clear : waiting state lower = [] := by simp [waiting, idle, none lower member]
      simpa [clear] using account
    · rw [List.count_eq_zero_of_not_mem member] at account ⊢
      omega
  have all := (List.perm_iff_count.mpr answered).length_eq
  have counter := rounds.counter app
  omega

end Nexer.Manager

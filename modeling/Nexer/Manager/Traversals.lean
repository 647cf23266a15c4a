import Nexer.Manager.Batches
import Nexer.Manager.Tickets
import Mathlib.Algebra.GroupWithZero.Nat
import Mathlib.Data.List.Perm.Subperm

/-!
# Traversals of callbacks come to their end

Inside a traversal every call makes smaller ones, and every closure that is
invoked uses up a callback that was waiting.  A callback is worth more than all
that its closure can set off before the next traversal begins.
-/

namespace Nexer.Manager

open Nexer.Transition

variable {α : Type}

/-- A bound on the calls that this one leads to, those of closures apart. -/
def Call.weight : Call α → Nat
  | .prepared .. => 7
  | .processStart .. => 5
  | .onError .. | .onExit .. => 3
  | .clearCallbacks .. => 2
  | _ => 1

/-- A turn of the loop of `ClearCallbacks`. -/
def Call.isTurn : Call α → Bool
  | .answer _ (_ :: _) _ => true
  | _ => false

/-- Tickets handed out and not yet answered. -/
def unanswered (past : List (Event α)) : Nat :=
  (past.filterMap Event.queuedTicket).length - (past.filterMap Event.answeredTicket).length

def work (state : State α) (past : List (Event α)) : Nat :=
  8 * unanswered past + (state.todo.map Call.weight).sum

variable [DecidableEq α] {config : α → AppConfig α}
variable {state following : State α} {label : Label α} {past out : List (Event α)}

/-- A step of the handler from a state inside a traversal, at any time. -/
def Inside (config : α → AppConfig α) (following state : State α) : Prop :=
  ∃ now label out, label.inner ∧ pipesInitialised state label ∧
    (∃ call ∈ state.todo, call.isAnswer) ∧
    step config { state with now } label = some (following, out)

omit [DecidableEq α] in
theorem weight_pos (call : Call α) : 0 < call.weight := by
  cases call <;> simp [Call.weight]

omit [DecidableEq α] in
/-- What a call inside a traversal makes weighs less than the call, the callback
that a turn of the loop uses up included. -/
theorem weight_of_makes {head : Call α} {calls : List (Call α)}
    (made : Makes config state label following head calls) (piped : pipesInitialised state label)
    (inside : head.isAnswer ∨ ∃ lower, Over config state lower head) :
    (calls.map Call.weight).sum < head.weight + if head.isTurn then 8 else 0 := by
  have above (other : head.isAnswer = false) : ∃ lower, Over config state lower head := by
    rcases inside with answers | above
    · cases other.symm.trans answers
    · exact above
  cases made
  case nothing => exact Nat.lt_of_lt_of_le (weight_pos head) (Nat.le_add_right ..)
  case check | unchecked | checker | requiredClear | requiredStart | startedClear | ready
      | preambles | errorChecker | exitChecker =>
    obtain ⟨lower, none⟩ := above rfl
    exact none.elim
  case restart again =>
    obtain ⟨lower, none⟩ := above rfl
    simp [none.2] at again
  case pipe spawning failed _ =>
    obtain ⟨result, rfl, rfl⟩ := spawning
    exact absurd piped failed
  all_goals simp [Call.weight, Call.isTurn]

/-- A turn of the loop is reported as an answer; nothing is queued in a traversal. -/
theorem unanswered_of_move (move : Move config state label following out)
    {head : Call α} {rest : List (Call α)} (pending : state.todo = head :: rest)
    (inner : label.inner) (quiet : ∀ app callback, head ≠ .require app callback)
    (fewer : ((past ++ out).filterMap Event.answeredTicket).length ≤
      ((past ++ out).filterMap Event.queuedTicket).length) :
    unanswered (past ++ out) + (if head.isTurn then 1 else 0) ≤ unanswered past := by
  have queued : out.filterMap Event.queuedTicket = [] := by
    rw [List.eq_nil_iff_forall_not_mem]
    intro ticket member
    obtain ⟨app, waiter, logged, _⟩ := mem_queuedTickets.mp member
    obtain ⟨_, top, _⟩ := reported_of_move move _ logged
    exact quiet _ _ (List.cons.inj (pending.symm.trans top)).1
  rw [List.filterMap_append, List.filterMap_append, queued, List.append_nil,
    List.length_append] at fewer
  rw [unanswered, unanswered, List.filterMap_append, List.filterMap_append, queued,
    List.append_nil, List.length_append]
  split
  · next turn =>
    cases head <;> simp only [Call.isTurn, Bool.false_eq_true] at turn
    case answer app left error =>
      cases left with
      | nil => cases turn
      | cons waiter others =>
          rw [out_of_answer move inner pending] at fewer ⊢
          simp only [List.filterMap_cons, Event.answeredTicket, List.filterMap_nil,
            List.length_singleton] at fewer ⊢
          omega
  · omega

/-- Inside a traversal every step of the handler takes some of the work away. -/
theorem work_of_move (move : Move config state label following out) (inner : label.inner)
    (piped : pipesInitialised state label) (layered : Layered config state)
    (active : ∃ call ∈ state.todo, call.isAnswer)
    (fewer : ((past ++ out).filterMap Event.answeredTicket).length ≤
      ((past ++ out).filterMap Event.queuedTicket).length) :
    work following (past ++ out) < work state past := by
  obtain ⟨traversal, member, answers⟩ := active
  rcases todo_of_move move with ⟨outer, _⟩ | ⟨head, rest, calls, _, pending, after, made⟩ |
    ⟨_, idle, _⟩
  · cases outer.symm.trans inner
  · have inside : head.isAnswer ∨ ∃ lower, Over config state lower head := by
      rw [pending, List.mem_cons] at member
      rcases member with rfl | below
      · exact .inl answers
      · cases traversal <;> cases answers
        exact .inr ⟨_, layered.over pending below⟩
    have quiet (app : α) (callback : AfterProcessCheck α) : head ≠ .require app callback := by
      rintro rfl
      rcases inside with answers | ⟨_, none⟩
      · cases answers
      · exact none
    have lighter := weight_of_makes made piped inside
    have used := unanswered_of_move move pending inner quiet fewer
    rw [work, work, after, pending, List.map_append, List.sum_append, List.map_cons, List.sum_cons]
    split at lighter <;> simp_all <;> omega
  · rw [idle] at member
    cases member

/-- The list that is being traversed is neither extended nor traversed again. -/
theorem liveVector_not_mem (move : Move config state label following out)
    (outside : outsideTraversals state label) (app : α) : .fault (.liveVector app) ∉ out := by
  have unfaulted {other : α} {head : Call α} {rest : List (Call α)}
      (pending : state.todo = head :: rest) (outside : state.answering other = false) :
      (state.after rest).traversalFault other = [] := by
    have below : (state.after rest).answering other = false := by
      rw [answering_iff, pending, List.countP_cons] at outside
      rw [answering_iff]
      exact (Nat.add_eq_zero_iff.mp outside).1
    simp [State.traversalFault, below]
  intro member
  cases move
  case queueMore pending _ | queueFirst pending _ | clearCallbacks pending =>
    rw [unfaulted pending (by simpa [outsideTraversals, pending] using outside)] at member
    simp at member
  case startedClear | tickIdle =>
    rw [closeTimer_snd] at member
    split at member <;> simp at member
  case errorChecker =>
    rcases List.mem_cons.mp member with same | member
    · cases same
    · split at member <;> simp at member
  all_goals simp at member

/-- The handler can always go on. -/
theorem exists_inside (active : ∃ call ∈ state.todo, call.isAnswer) :
    ∃ following, Inside config following state := by
  have enabled : ∃ label : Label α,
      label.inner ∧ pipesInitialised state label ∧ (step config state label).isSome := by
    obtain ⟨_, member, _⟩ := active
    cases todo : state.todo with
    | nil => simp [todo] at member
    | cons head rest =>
        cases head with
        | processStart pid role => exact ⟨.spawn {}, rfl, rfl, by simp [step, todo]⟩
        | checked next error =>
            cases next <;> exact ⟨.call, rfl, trivial, by simp [step, todo, perform]⟩
        | _ => exact ⟨.call, rfl, trivial, by simp [step, todo, perform]⟩
  obtain ⟨label, inner, piped, moves⟩ := enabled
  obtain ⟨⟨following, out⟩, moved⟩ := Option.isSome_iff_exists.mp moves
  exact ⟨following, state.now, label, out, inner, piped, active, moved⟩

/-- What the runs keep, from one state to the next. -/
structure Delivering (state : State α) (past : List (Event α)) : Prop where
  separate : Separate state
  inBatches : ∀ app, InBatches state past app
  nodup : (past.filterMap Event.answeredTicket).Nodup
  apart : ∀ app, .fault (.liveVector app) ∉ past

section Reached

variable (acyclic : Acyclic config)
variable (reached : Machine.Reaches (step config) pipesInitialised (State.initial α) state past)

include acyclic reached

theorem inOrder_of_pipes : InOrder state past :=
  inOrder_of_reaches (fun _ reached =>
    (layered_of_reaches (fun _ _ => restartsOutside_of_pipes) reached).outsideTraversals acyclic)
    reached

theorem delivering_of_reaches : Delivering state past := by
  refine reached.invariant Delivering ?_ ?_
  · exact ⟨by simp [Separate, State.initial], inBatches_initial, List.nodup_nil, by simp⟩
  · intro state following past out label reached delivering piped moved
    have move := move_of_step moved
    have layered := layered_of_reaches (fun _ _ => restartsOutside_of_pipes) reached
    have outside : outsideTraversals state label := layered.outsideTraversals acyclic
    have inOrder := inOrder_of_pipes acyclic reached
    constructor
    · exact delivering.separate.of_move move outside
    · exact fun app => (delivering.inBatches app).of_move move delivering.separate layered acyclic
    · exact answered_nodup move inOrder (ticketed_of_reaches reached) delivering.nodup
    · intro app member
      rcases List.mem_append.mp member with before | now
      · exact delivering.apart app before
      · exact liveVector_not_mem move outside app now

theorem answered_le_queued : (past.filterMap Event.answeredTicket).length ≤
    (past.filterMap Event.queuedTicket).length := by
  have nodup := (delivering_of_reaches acyclic reached).nodup
  exact (nodup.subperm (answered_subset_queued (inOrder_of_pipes acyclic reached))).length_le

/-- There is no infinite succession of steps inside a traversal. -/
theorem acc_inside : Acc (Inside config) state := by
  induction bound : work state past using Nat.strongRecOn generalizing state past with
  | _ _ ih =>
      refine ⟨_, fun following inside => ?_⟩
      obtain ⟨now, label, out, inner, piped, active, moved⟩ := inside
      have clocked : Machine.Reaches (step config) pipesInitialised (State.initial α)
          { state with now } past := by
        have allowed : pipesInitialised state (.clock now) := trivial
        simpa using reached.next allowed rfl
      have after := clocked.next piped moved
      have lighter := work_of_move (move_of_step moved) inner piped
        (layered_of_reaches (fun _ _ => restartsOutside_of_pipes) clocked) active
        (answered_le_queued acyclic after)
      exact ih _ (bound ▸ lighter) after rfl

end Reached

/--
Every `Require` call has a ticket of its own, and every ticket is answered at most
once.  The callbacks of each app are answered in batches: those queued since the last batch, in order, with one process
and one error; a batch is incomplete only as long as its traversal is active.  The
list that is traversed is not touched meanwhile, and the traversal can always go
on, but not for ever.
-/
theorem answered_in_batches (acyclic : Acyclic config)
    (reached : Machine.Reaches (step config) pipesInitialised (State.initial α) state past) :
    (past.filterMap Event.queuedTicket).Nodup ∧ (past.filterMap Event.answeredTicket).Nodup ∧
      (∀ app, InBatches state past app ∧ .fault (.liveVector app) ∉ past) ∧
      ((∃ call ∈ state.todo, call.isAnswer) → ∃ following, Inside config following state) ∧
      Acc (Inside config) state := by
  obtain ⟨_, inBatches, nodup, apart⟩ := delivering_of_reaches acyclic reached
  exact ⟨(ticketed_of_reaches reached).nodup, nodup, fun app => ⟨inBatches app, apart app⟩, exists_inside, acc_inside acyclic reached⟩

theorem acyclic_precededApp : Acyclic precededApp := by
  intro app lower
  have preceded {below above : Fin 2} (step : below ∈ (precededApp above).preamble) :
      below = 1 ∧ above = 0 := by
    revert below above
    decide
  obtain ⟨_, first, _⟩ := Relation.TransGen.head'_iff.mp lower
  obtain ⟨_, _, last⟩ := Relation.TransGen.tail'_iff.mp lower
  cases (preceded first).1.symm.trans (preceded last).2

/-- App 0 is required, and the preamble of it cannot be spawned: the traversal for
app 1 runs into the traversal for app 0. -/
theorem answered_in_batches_run :
    ∃ (state : State (Fin 2)) (past : List (Event (Fin 2))),
      .answered 1 ⟨1, .preamble 0 1⟩ none noEntry ∈ past ∧ .answered 0 ⟨0, .caller 7⟩ none 1 ∈ past ∧
        (∃ following, Inside precededApp following state) ∧
        InBatches state past 0 ∧ InBatches state past 1 := by
  obtain ⟨state, reached, active⟩ := Machine.exists_reaches
    (step precededApp) pipesInitialised (State.initial (Fin 2))
    [.require 0 7, .call, .call, .call, .call, .call, .call, .spawn { spawn := noEntry }, .call,
      .call, .call, .call, .spawn { spawn := noEntry }, .call, .call, .call, .call, .call, .call]
    [.queued 0 ⟨0, .caller 7⟩, .start 0 1, .queued 1 ⟨1, .preamble 0 1⟩,
      .unspawned 0 (.checker 1 (.required 1)), .processError 0 noEntry, .start 1 1,
      .prepared 1 1 0, .unspawned 1 (.main 1 1), .processError 1 noEntry,
      .answered 1 ⟨1, .preamble 0 1⟩ none noEntry, .prepared 0 1 1,
      .answered 0 ⟨0, .caller 7⟩ none 1]
    (fun state => state.todo.any Call.isAnswer) (by decide)
  obtain ⟨_, _, batches, go_on, _⟩ := answered_in_batches acyclic_precededApp reached
  exact ⟨state, _, by simp, by simp, go_on (by simpa using active), (batches 0).1, (batches 1).1⟩

end Nexer.Manager

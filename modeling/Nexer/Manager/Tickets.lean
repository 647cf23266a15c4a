import Nexer.Manager.Waiting

/-!
# No callback is invoked twice

Every `Require` call queues one callback under a ticket of its own.  What is
answered was queued, and is not waiting any more, so that no ticket is answered
twice.
-/

namespace Nexer.Manager

open Nexer.Transition

variable {α : Type} {config : α → AppConfig α}
variable {state following : State α} {label : Label α} {past out : List (Event α)}

def Event.queuedTicket : Event α → Option Nat
  | .queued _ waiter => some waiter.ticket
  | _ => none

def Event.answeredTicket : Event α → Option Nat
  | .answered _ waiter _ _ => some waiter.ticket
  | _ => none

theorem mem_queuedTickets {ticket : Nat} :
    ticket ∈ past.filterMap Event.queuedTicket ↔
      ∃ app waiter, .queued app waiter ∈ past ∧ waiter.ticket = ticket := by
  rw [List.mem_filterMap]
  constructor
  · rintro ⟨event, member, found⟩
    cases event <;> simp only [Event.queuedTicket, reduceCtorEq, Option.some.injEq] at found
    exact ⟨_, _, member, found⟩
  · rintro ⟨app, waiter, member, rfl⟩
    exact ⟨_, member, rfl⟩

theorem mem_answeredTickets {ticket : Nat} :
    ticket ∈ past.filterMap Event.answeredTicket ↔
      ∃ app waiter process error,
        .answered app waiter process error ∈ past ∧ waiter.ticket = ticket := by
  rw [List.mem_filterMap]
  constructor
  · rintro ⟨event, member, found⟩
    cases event <;> simp only [Event.answeredTicket, reduceCtorEq, Option.some.injEq] at found
    exact ⟨_, _, _, _, member, found⟩
  · rintro ⟨app, waiter, process, error, member, rfl⟩
    exact ⟨_, member, rfl⟩

variable [DecidableEq α]

/-- The callbacks queued so far have different tickets, all of them used up. -/
structure Ticketed (state : State α) (past : List (Event α)) : Prop where
  used : ∀ ticket ∈ past.filterMap Event.queuedTicket, ticket < state.tickets
  unique : ∀ app other waiter another, .queued app waiter ∈ past → .queued other another ∈ past →
    waiter.ticket = another.ticket → app = other ∧ waiter = another
  nodup : (past.filterMap Event.queuedTicket).Nodup

omit [DecidableEq α] in
theorem ticketed_initial : Ticketed (State.initial α) [] where
  used := by simp
  unique := by simp
  nodup := List.nodup_nil

/-- A step queues at most one callback, under the next ticket. -/
theorem queues_of_move (move : Move config state label following out) :
    (following.tickets = state.tickets ∧ ∀ app waiter, .queued app waiter ∉ out) ∨
    ∃ app callback, following.tickets = state.tickets + 1 ∧
      (∀ other waiter, .queued other waiter ∈ out →
        other = app ∧ waiter = ⟨state.tickets, callback⟩) ∧
      out.filterMap Event.queuedTicket = [state.tickets] := by
  by_cases quiet : ∀ app waiter, .queued app waiter ∉ out
  · refine .inl ⟨?_, quiet⟩
    cases move
    case queueMore | queueFirst => exact absurd (List.mem_cons_self ..) (quiet _ _)
    all_goals rfl
  · simp only [not_forall, not_not] at quiet
    obtain ⟨app, waiter, member⟩ := quiet
    obtain ⟨rest, pending, _, rfl⟩ := reported_of_move move _ member
    cases move
    case queueMore top _ | queueFirst top _ =>
      refine .inr ⟨app, waiter.callback, rfl, fun other another member => ?_, ?_⟩
      · cases pending.symm.trans top
        rcases List.mem_cons.mp member with same | fault
        · cases same
          exact ⟨rfl, rfl⟩
        · cases traversalFault_fault fault
      · unfold State.traversalFault
        split <;> rfl
    all_goals cases pending.symm.trans ‹state.todo = _ :: _›

theorem Ticketed.of_move (ticketed : Ticketed state past)
    (move : Move config state label following out) : Ticketed following (past ++ out) := by
  rcases queues_of_move move with ⟨same, quiet⟩ | ⟨app, callback, more, only, once⟩
  · have none : out.filterMap Event.queuedTicket = [] := by
      rw [List.eq_nil_iff_forall_not_mem]
      intro ticket member
      obtain ⟨app, waiter, queued, _⟩ := mem_queuedTickets.mp member
      exact quiet app waiter queued
    refine ⟨?_, fun app other waiter another first second => ?_, ?_⟩
    · rw [List.filterMap_append, none, List.append_nil, same]
      exact ticketed.used
    · rw [List.mem_append] at first second
      exact ticketed.unique app other waiter another (first.resolve_right (quiet _ _))
        (second.resolve_right (quiet _ _))
    · rw [List.filterMap_append, none, List.append_nil]
      exact ticketed.nodup
  · have earlier {other : α} {waiter : Waiter α} (member : .queued other waiter ∈ past) :
        waiter.ticket < state.tickets :=
      ticketed.used _ (mem_queuedTickets.mpr ⟨other, waiter, member, rfl⟩)
    refine ⟨?_, fun first second waiter another member also same => ?_, ?_⟩
    · intro ticket member
      rw [List.filterMap_append, List.mem_append] at member
      rcases member with before | now
      · have := ticketed.used ticket before
        omega
      · obtain ⟨other, waiter, queued, rfl⟩ := mem_queuedTickets.mp now
        rw [(only other waiter queued).2, more]
        exact Nat.lt_succ_self _
    · rw [List.mem_append] at member also
      rcases member with before | now <;> rcases also with before' | now'
      · exact ticketed.unique _ _ _ _ before before' same
      · have := earlier before
        simp [same, (only _ _ now').2] at this
      · have := earlier before'
        simp [← same, (only _ _ now).2] at this
      · rw [(only _ _ now).1, (only _ _ now').1, (only _ _ now).2, (only _ _ now').2]
        exact ⟨rfl, rfl⟩
    · rw [List.filterMap_append, once, List.nodup_append]
      refine ⟨ticketed.nodup, by simp, ?_⟩
      rintro ticket before _ now rfl
      have := ticketed.used ticket before
      simp [List.mem_singleton.mp now] at this

theorem ticketed_of_reaches {guard : State α → Label α → Prop}
    (reached : Machine.Reaches (step config) guard (State.initial α) state past) :
    Ticketed state past :=
  reached.invariant Ticketed ticketed_initial fun _ ticketed _ moved =>
    ticketed.of_move (move_of_step moved)

theorem queuedOf_tickets (app : α) (past : List (Event α)) :
    ((queuedOf app past).map (·.ticket)).Sublist (past.filterMap Event.queuedTicket) := by
  induction past with
  | nil => exact .slnil
  | cons event past ih =>
      cases event with
      | queued other waiter =>
          simp only [queuedOf, List.filterMap_cons, Event.queuedTicket]
          split
          · exact ih.cons _
          · next found =>
            simp only [Option.ite_none_right_eq_some, Option.some.injEq] at found
            obtain ⟨-, rfl⟩ := found
            exact ih.cons_cons _
      | _ => exact ih

theorem Ticketed.nodup_queuedOf (ticketed : Ticketed state past) (app : α) :
    (queuedOf app past).Nodup :=
  List.Pairwise.of_map (·.ticket) (fun _ _ => mt (congrArg _))
    ((queuedOf_tickets app past).nodup ticketed.nodup)

/-- What has been answered was queued. -/
theorem answered_subset_queued (inOrder : InOrder state past) :
    past.filterMap Event.answeredTicket ⊆ past.filterMap Event.queuedTicket := by
  intro ticket member
  obtain ⟨app, waiter, process, error, answered, rfl⟩ := mem_answeredTickets.mp member
  refine mem_queuedTickets.mpr ⟨app, waiter, mem_queuedOf.mp ?_, rfl⟩
  rw [inOrder app]
  exact List.mem_append_left _ (mem_answeredOf.mpr ⟨process, error, answered⟩)

/-- A step that answers a callback finds it waiting, and under a new ticket. -/
theorem answered_nodup (move : Move config state label following out)
    (inOrder : InOrder state past) (ticketed : Ticketed state past)
    (nodup : (past.filterMap Event.answeredTicket).Nodup) :
    ((past ++ out).filterMap Event.answeredTicket).Nodup := by
  rw [List.filterMap_append]
  cases reports : out.filterMap Event.answeredTicket with
  | nil => rwa [List.append_nil]
  | cons ticket others =>
      obtain ⟨app, waiter, process, error, member, rfl⟩ :=
        mem_answeredTickets.mp (reports ▸ List.mem_cons_self ..)
      obtain ⟨rfl, rfl, left, rest, pending⟩ := reported_of_move move _ member
      have only := out_of_answer move rfl pending
      have waits : waiter ∈ waiting state app := by
        simp [waiting, pending, Call.left?]
      have nodup_queued := ticketed.nodup_queuedOf app
      rw [inOrder app, List.nodup_append] at nodup_queued
      have queued : .queued app waiter ∈ past := by
        rw [← mem_queuedOf, inOrder app]
        exact List.mem_append_right _ waits
      rw [← reports, only, List.nodup_append]
      refine ⟨nodup, by simp [Event.answeredTicket], ?_⟩
      rintro ticket before _ now rfl
      obtain rfl : ticket = waiter.ticket := by simpa [Event.answeredTicket] using now
      obtain ⟨other, another, former, code, again, same⟩ := mem_answeredTickets.mp before
      have answered : another ∈ answeredOf other past := mem_answeredOf.mpr ⟨former, code, again⟩
      have logged : .queued other another ∈ past := by
        rw [← mem_queuedOf, inOrder other]
        exact List.mem_append_left _ answered
      obtain ⟨rfl, rfl⟩ := ticketed.unique _ _ _ _ logged queued same
      exact nodup_queued.2.2 _ answered _ waits rfl

end Nexer.Manager

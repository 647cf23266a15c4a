import Nexer.Proxy.Listing

/-!
# The stages of the connections

A connection is accepted, waits for the check of its upstream process, then for its
connect, and is connected or has failed.  A step moves one connection at most, and
only the answers move one that was accepted before.
-/

namespace Nexer.Proxy

open Nexer.Transition

variable {app : Bool} {state following : State} {label : Label} {out : List Event}
variable {index other : Nat} {stage : Stage}

/-- The stage of a connection that has been accepted. -/
def State.stage? (state : State) (index : Nat) : Option Stage :=
  if index < state.count then some (state.connections index).stage else none

def Event.accepted? : Event → Option Nat
  | .accepted index _ => some index
  | _ => none

/-- The labels of the answers that a connection waits for. -/
def Label.isAnswer : Label → Bool
  | .checked _ _ | .connected _ _ => true
  | _ => false

/-- How a step changes the stages, and which connections it accepts. -/
inductive Progress (app : Bool) (stages : Nat → Option Stage) (count : Nat) :
    Label → (Nat → Option Stage) → List Nat → Prop where
  | accept (address : Address) (unused : stages count = none) :
      Progress app stages count (.accept address)
        (Function.update stages count (some (if app then .checking else .connecting))) [count]
  | checked (index : Nat) (error : Int) (stage : Stage) (waiting : stages index = some .checking)
      (result : stage = .connecting ∧ error = 0 ∨ stage = .failed) :
      Progress app stages count (.checked index error)
        (Function.update stages index (some stage)) []
  | connected (index : Nat) (success : Bool) (waiting : stages index = some .connecting) :
      Progress app stages count (.connected index success)
        (Function.update stages index (some (if success then .connected else .failed))) []
  | other (label : Label) (own : label.isAnswer = false) :
      Progress app stages count label stages []

theorem stage?_eq_some : state.stage? index = some stage ↔
    index < state.count ∧ (state.connections index).stage = stage := by
  simp [State.stage?]

theorem stage?_count : state.stage? state.count = none := by
  simp [State.stage?]

section Functions

variable {connection : Connection}

/-- Only the stage of the connection that is put is another one. -/
theorem put_stage? (created : index < state.count) :
    (state.put index connection).stage? =
      Function.update state.stage? index (some connection.stage) := by
  funext other
  by_cases same : other = index
  · subst same
    simp [State.stage?, created]
  · simp [State.stage?, same]

theorem put_stage?_same (same : connection.stage = (state.connections index).stage) :
    (state.put index connection).stage? = state.stage? := by
  funext other
  by_cases equal : other = index
  · subst equal
    simp [State.stage?, same]
  · simp [State.stage?, equal]

theorem remove_stage? : (remove index state).1.stage? = state.stage? := by
  unfold remove
  split
  · rfl
  · split <;> rfl

theorem remove_accepted? : (remove index state).2.filterMap Event.accepted? = [] := by
  unfold remove
  split
  · rfl
  · split <;> rfl

/-- The functions of forwarders leave the stages as they are. -/
theorem onClose_stage? (events : List Forwarder.Event) :
    (onClose index events state).1.stage? = state.stage? ∧
      (onClose index events state).2.filterMap Event.accepted? = [] := by
  induction events generalizing state with
  | nil => exact ⟨rfl, rfl⟩
  | cons event rest ih =>
      cases event with
      | deleted =>
          obtain ⟨stages, accepted⟩ := @ih (remove index state).1
          simp only [onClose, Reaction.andThen, List.filterMap_append, stages, accepted,
            remove_stage?, remove_accepted?, List.append_nil, and_self]
      | _ => exact ih

theorem forwarded_stage? (effect : Forwarder.Effect) :
    (forwarded index effect state).1.stage? = state.stage? ∧
      (forwarded index effect state).2.filterMap Event.accepted? = [] := by
  have kept : (state.setForwarder index effect.1).stage? = state.stage? := put_stage?_same rfl
  obtain ⟨stages, accepted⟩ := @onClose_stage? (state.setForwarder index effect.1) index effect.2
  exact ⟨stages.trans kept, accepted⟩

theorem closeIncoming_stage? : (closeIncoming index state).1.stage? = state.stage? ∧
    (closeIncoming index state).2.filterMap Event.accepted? = [] := by
  unfold closeIncoming
  dsimp only
  split
  · exact ⟨rfl, rfl⟩
  · exact forwarded_stage? _

theorem setOutgoing_stage? : (setOutgoing index state).1.stage? = state.stage? ∧
    (setOutgoing index state).2.filterMap Event.accepted? = [] := by
  unfold setOutgoing
  split
  · exact ⟨rfl, rfl⟩
  · next target found =>
    have kept : (state.setOutgoing index (.attached target)).stage? = state.stage? :=
      put_stage?_same rfl
    dsimp only [Reaction.andThen]
    split
    · obtain ⟨stages, accepted⟩ := @forwarded_stage? (state.setOutgoing index (.attached target))
        target (Forwarder.setOutgoing .connected
          ((state.setOutgoing index (.attached target)).connections target).forwarder)
      exact ⟨stages.trans kept, accepted⟩
    · exact ⟨kept, rfl⟩

theorem setStage_stage? (created : index < state.count) :
    (state.setStage index stage).stage? = Function.update state.stage? index (some stage) :=
  put_stage? created

/-- What the closure of `CheckUpstreamProcess` makes of the connection. -/
theorem onChecked_stage? (created : index < state.count) (error : Int) :
    (∃ stage, (stage = .connecting ∧ error = 0 ∨ stage = .failed) ∧
      (onChecked error index state).1.stage? =
        Function.update state.stage? index (some stage)) ∧
      (onChecked error index state).2.filterMap Event.accepted? = [] := by
  unfold onChecked
  split
  · exact ⟨⟨.failed, .inr rfl, setStage_stage? created⟩, rfl⟩
  · split
    · dsimp only
      split
      · obtain ⟨stages, accepted⟩ := @closeIncoming_stage? (state.setStage index .failed) index
        exact ⟨⟨.failed, .inr rfl, stages.trans (setStage_stage? created)⟩, accepted⟩
      · exact ⟨⟨.failed, .inr rfl, setStage_stage? created⟩, rfl⟩
    · next success =>
      exact ⟨⟨.connecting, .inl ⟨rfl, not_not.mp success⟩, setStage_stage? created⟩, rfl⟩

/-- What the closure of `Connect` makes of it. -/
theorem onConnected_stage? (created : index < state.count) (success : Bool) :
    (onConnected success index state).1.stage? =
        Function.update state.stage? index (some (if success then .connected else .failed)) ∧
      (onConnected success index state).2.filterMap Event.accepted? = [] := by
  have answered (stage : Stage) : (state.setStage index stage).stage? =
      Function.update state.stage? index (some stage) := setStage_stage? created
  have given (stage : Stage) (outgoing : Outgoing) :
      ((state.setStage index stage).setOutgoing index outgoing).stage? =
        Function.update state.stage? index (some stage) := by
    rw [← answered stage]
    exact put_stage?_same rfl
  cases success with
  | true =>
      simp only [onConnected, if_true]
      split
      · exact ⟨given .connected _, rfl⟩
      · split
        · exact ⟨given .connected _, rfl⟩
        · obtain ⟨stages, accepted⟩ := @setOutgoing_stage? (state.setStage index .connected) index
          exact ⟨stages.trans (answered .connected), accepted⟩
  | false =>
      simp only [onConnected, Bool.false_eq_true, if_false]
      split
      · exact ⟨given .failed _, rfl⟩
      · split
        · exact ⟨answered .failed, rfl⟩
        · obtain ⟨stages, accepted⟩ := @closeIncoming_stage? (state.setStage index .failed) index
          exact ⟨stages.trans (answered .failed), accepted⟩

theorem accepted_stage? (address : Address) : (state.accepted address).stage? =
    Function.update state.stage? state.count (some .checking) := by
  funext other
  by_cases same : other = state.count
  · subst same
    simp [State.stage?, State.accepted]
  · have order : other < state.count + 1 ↔ other < state.count := by omega
    simp [State.stage?, State.accepted, same, order]

end Functions

/-- Every step is one of these. -/
theorem progress_of_step (moved : step app state label = some (following, out)) :
    Progress app state.stage? state.count label following.stage?
      (out.filterMap Event.accepted?) := by
  unfold step at moved
  split at moved
  · cases moved
  cases label with
  | accept address =>
      simp only [move, Option.ite_none_right_eq_some, Option.some.injEq] at moved
      obtain ⟨allowed, same⟩ := moved
      obtain ⟨rfl, rfl⟩ := Prod.mk.inj same
      have change : Progress app state.stage? state.count (.accept address) _ _ :=
        .accept address stage?_count
      cases app with
      | true =>
          have stages : (state.accepted address).stage? = _ := accepted_stage? address
          simpa [Reaction.andThen, checkUpstreamProcess, Event.accepted?, stages] using change
      | false =>
          have opened : (state.accepted address).server ≠ .destroyed := by
            simp [State.accepted, allowed.1]
          have created : state.count < (state.accepted address).count := Nat.lt_succ_self _
          have stages : (State.setStage _ _ .connecting).stage? = _ := setStage_stage? created
          rw [accepted_stage?, Function.update_idem] at stages
          simpa [Reaction.andThen, checkUpstreamProcess, onChecked, opened, Event.accepted?,
            stages] using change
  | checked index error =>
      simp only [move, Option.ite_none_right_eq_some, Option.some.injEq] at moved
      obtain ⟨waiting, same⟩ := moved
      obtain ⟨⟨stage, result, stages⟩, accepted⟩ := onChecked_stage? waiting.1 error
      rw [same] at stages accepted
      rw [stages, accepted]
      exact .checked index error stage (stage?_eq_some.mpr waiting) result
  | connected index success =>
      simp only [move, Option.ite_none_right_eq_some, Option.some.injEq] at moved
      obtain ⟨waiting, same⟩ := moved
      obtain ⟨stages, accepted⟩ := onConnected_stage? waiting.1 success
      rw [same] at stages accepted
      rw [stages, accepted]
      exact .connected index success (stage?_eq_some.mpr waiting)
  | forwarder index label =>
      simp only [move, Option.ite_none_right_eq_some] at moved
      obtain ⟨-, moved⟩ := moved
      obtain ⟨effect, -, same⟩ := Option.map_eq_some_iff.mp moved
      obtain ⟨stages, accepted⟩ := @forwarded_stage? state index effect
      rw [same] at stages accepted
      rw [stages, accepted]
      exact .other _ rfl
  | outgoingClosed index =>
      simp only [move, Option.ite_none_right_eq_some, Option.some.injEq] at moved
      obtain ⟨rfl, rfl⟩ := Prod.mk.inj moved.2
      have kept : (state.setOutgoing index (.apart .closed)).stage? = state.stage? :=
        put_stage?_same rfl
      rw [kept]
      exact .other _ rfl
  | close =>
      simp only [move] at moved
      split at moved
      · obtain ⟨rfl, rfl⟩ := Prod.mk.inj (Option.some.inj moved)
        exact .other _ rfl
      · obtain ⟨rfl, rfl⟩ := Prod.mk.inj (Option.some.inj moved)
        exact .other _ rfl
      · cases moved
  | closed =>
      simp only [move, Option.ite_none_right_eq_some, Option.some.injEq] at moved
      obtain ⟨rfl, rfl⟩ := Prod.mk.inj moved.2
      exact .other _ rfl

/-- A connection that waits takes the answer. -/
theorem step_checked (running : state.overrun = false) (waiting : state.stage? index = some .checking)
    (error : Int) : step app state (.checked index error) = some (onChecked error index state) := by
  simp [step, running, move, stage?_eq_some.mp waiting]

theorem step_connected (running : state.overrun = false)
    (waiting : state.stage? index = some .connecting) (success : Bool) :
    step app state (.connected index success) = some (onConnected success index state) := by
  simp [step, running, move, stage?_eq_some.mp waiting]

end Nexer.Proxy

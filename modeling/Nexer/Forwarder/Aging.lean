import Nexer.Forwarder.Handlers

/-!
# What no step of a forwarder takes back

A socket goes from open over closing to closed, and a deleted forwarder stays
deleted.  Only `SetOutgoing` changes what is attached.  These facts hold of every
state, reachable or not.
-/

namespace Nexer.Forwarder

open Nexer.Transition

/-- The sockets may have been closed, the forwarder deleted, and the close callback of
the socket `own` run. -/
structure Ages (own : Option Socket) (state following : State) : Prop where
  attached : following.attached = state.attached
  opened : ∀ socket, (following.tcps socket).phase = .opened → (state.tcps socket).phase = .opened
  closed : ∀ socket, (state.tcps socket).phase = .closed → (following.tcps socket).phase = .closed
  others : ∀ socket, own ≠ some socket → (following.tcps socket).phase = .closed →
    (state.tcps socket).phase = .closed
  deleted : state.deleted = true → following.deleted = true

variable {own : Option Socket} {state following last : State} {socket : Socket}

namespace Ages

theorem refl (state : State) : Ages own state state :=
  ⟨rfl, fun _ => id, fun _ => id, fun _ _ => id, id⟩

theorem trans (first : Ages own state following) (second : Ages own following last) :
    Ages own state last where
  attached := second.attached.trans first.attached
  opened := fun socket still => first.opened socket (second.opened socket still)
  closed := fun socket already => second.closed socket (first.closed socket already)
  others := fun socket other late => first.others socket other (second.others socket other late)
  deleted := fun already => second.deleted (first.deleted already)

/-- Neither the sockets nor the deletion are concerned. -/
theorem of_same (attached : following.attached = state.attached)
    (tcps : ∀ socket, (following.tcps socket).phase = (state.tcps socket).phase)
    (deleted : following.deleted = state.deleted) : Ages own state following := by
  constructor
  case attached => exact attached
  all_goals simp [tcps, deleted]

theorem of_close (socket cause : Socket) (state : State) :
    Ages own state (close socket cause state).1 :=
  have shut := Shut.of_close socket cause state
  ⟨shut.attached, shut.opened, fun other => (shut.closed other).mpr,
    fun other _ => (shut.closed other).mp, by simp [shut.deleted]⟩

theorem of_onError (side : Side) (state : State) : Ages own state (onError side state).1 := by
  unfold onError
  split
  · exact refl state
  · next own _ =>
    refine (of_close own own state).trans ?_
    dsimp only [Reaction.andThen]
    split
    · exact refl _
    · exact of_close _ _ _

theorem of_notify {closure : Side → State → Effect}
    (ages : ∀ side, Ages own state (closure side state).1) :
    Ages own state (notify socket closure state).1 := by
  unfold notify
  split
  · exact refl state
  · split
    · exact refl state
    · exact ages _

theorem of_setRequests (socket : Socket) (requests : List Request) (state : State) :
    Ages own state (state.setRequests socket requests) :=
  of_same rfl (fun _ => State.setRequests_phase _) rfl

theorem of_write (target : Option Socket) (cell : Cell) (state : State) :
    Ages own state (write target cell state).1 := by
  unfold write
  split
  · exact refl state
  · split
    · exact of_setRequests _ _ state
    · exact of_notify fun side => of_onError side state

theorem of_swap (side : Side) (state : State) : Ages own state (swap side state) :=
  of_same swap_attached (by simp) swap_deleted

theorem of_onData (bytes : List UInt8) (side : Side) (state : State) :
    Ages own state (onData bytes side state).1 := by
  unfold onData
  split
  · have appended : Ages own state (state.setString (state.clients side).dataIn
        (state.strings (state.clients side).dataIn ++ bytes)) :=
      of_same rfl (fun _ => rfl) rfl
    dsimp only
    split
    · exact appended.trans ((of_swap side _).trans (of_write _ _ _))
    · exact appended
  · exact refl state

theorem of_deliver (socket : Socket) (bytes : List UInt8) (state : State) :
    Ages own state (deliver socket bytes state).1 := by
  unfold deliver
  split
  · exact refl state
  · exact of_notify fun side => of_onData bytes side state

theorem of_onSend (side : Side) (state : State) : Ages own state (onSend side state).1 := by
  have cleared : Ages own state (state.setString (state.clients side.peer).dataOut []) :=
    of_same rfl (fun _ => rfl) rfl
  unfold onSend
  dsimp only
  split
  · exact cleared.trans ((of_swap side.peer _).trans (of_write _ _ _))
  · exact cleared

theorem of_onClose (own : Socket) (side : Side) (state : State) :
    Ages own state (onClose own side state).1 := by
  obtain ⟨-, attached, tcps, deleted⟩ := dropped_fields side state
  have dropped : Ages own state (dropped side state) := of_same attached (by simp [tcps]) deleted
  rw [onClose_eq]
  split
  · exact dropped.trans ⟨rfl, fun _ => id, fun _ => id, fun _ _ => id, fun _ => rfl⟩
  · exact dropped.trans (of_close _ _ _)

theorem of_cancel (socket : Socket) (requests : List Request) (state : State) :
    Ages own state (cancel socket requests state).1 := by
  induction requests generalizing state with
  | nil => exact refl state
  | cons request rest ih => exact (of_notify fun side => of_onError side state).trans (ih _)

/-- `SetOutgoing` attaches its argument. -/
theorem of_setOutgoing (socket : Socket) (state : State) :
    Ages own { state with attached := some socket } (setOutgoing socket state).1 := by
  unfold setOutgoing
  extract_lets named attached joined swapped
  have joins : Ages own { state with attached := some socket } joined := by
    dsimp only [joined]
    split
    · refine of_same rfl (fun other => ?_) rfl
      by_cases same : other = socket
      · simp [attached, named, same]
      · simp [attached, named, same]
    · exact of_same rfl (fun _ => rfl) rfl
  split
  · exact joins.trans ((of_swap _ _).trans (of_write _ _ _))
  · exact joins

end Ages

theorem ages_ended (socket : Socket) (state : State) :
    Ages (some socket) state (ended socket state) := by
  refine ⟨rfl, fun other => ?_, fun other => ?_, fun other another => ?_, id⟩
  · by_cases same : other = socket
    · simp [ended, same]
    · simp [ended, same]
  · by_cases same : other = socket
    · simp [ended, same]
    · simp [ended, same]
  · have apart : other ≠ socket := fun same => another (by rw [same])
    simp [ended, apart]

/-- `SetOutgoing` apart, no label attaches a socket. -/
theorem ages_of_step {label : Label} {effect : Effect} (moved : step state label = some effect)
    (other : label.socket ≠ none) : Ages label.socket state effect.1 := by
  cases label with
  | data socket bytes =>
      simp only [step] at moved
      split at moved
      · obtain rfl := Option.some.inj moved
        exact .of_deliver socket bytes state
      · cases moved
  | sent socket =>
      simp only [step] at moved
      split at moved
      · split at moved
        · obtain rfl := Option.some.inj moved
          exact (Ages.of_setRequests _ _ state).trans (.of_notify fun side => .of_onSend side _)
        · cases moved
      · cases moved
  | eof socket =>
      simp only [step] at moved
      split at moved
      · obtain rfl := Option.some.inj moved
        exact .of_close _ _ state
      · cases moved
  | readError socket =>
      simp only [step] at moved
      split at moved
      · obtain rfl := Option.some.inj moved
        exact .of_notify fun side => .of_onError side state
      · cases moved
  | writeError socket =>
      simp only [step] at moved
      split at moved
      · obtain rfl := Option.some.inj moved
        exact (Ages.of_setRequests _ _ state).trans (.of_notify fun side => .of_onError side _)
      · cases moved
  | closed socket =>
      simp only [step] at moved
      split at moved
      · obtain rfl := Option.some.inj moved
        exact (Ages.of_cancel socket (state.tcps socket).requests state).trans ((ages_ended socket _).trans
          (.of_notify fun side => .of_onClose socket side _))
      · cases moved
  | close socket =>
      simp only [step] at moved
      split at moved
      · obtain rfl := Option.some.inj moved
        exact .of_close _ _ state
      · cases moved
  | setOutgoing socket => exact absurd rfl other

end Nexer.Forwarder

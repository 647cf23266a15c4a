import Nexer.Forwarder.State

/-!
# The buffer pointers of a forwarder

With two sockets each record points to its own two strings.  In echo mode both
records point to the same two strings, and every swap exchanges the pointers of
both.  So a step through one record is seen through the other record in echo
mode, and only then.
-/

namespace Nexer.Forwarder

variable {state : State} {side other : Side}

structure Pointers (state : State) : Prop where
  apart : ∀ side, (state.clients side).dataIn ≠ (state.clients side).dataOut
  own : state.attached ≠ some .accepted → ∀ side,
    (state.clients side).dataIn.side = side ∧ (state.clients side).dataOut.side = side
  shared : state.attached = some .accepted →
    (state.clients .outgoing).dataIn = (state.clients .incoming).dataIn ∧
      (state.clients .outgoing).dataOut = (state.clients .incoming).dataOut

/-- The records that point to the same strings as the record `side`. -/
def Touched (state : State) (side other : Side) : Prop :=
  other = side ∨ state.attached = some .accepted

instance (state : State) (side other : Side) : Decidable (Touched state side other) := by
  unfold Touched
  infer_instance

/-- The records name the same socket in echo mode only. -/
def Met (state : State) : Prop :=
  (state.clients .incoming).tcp = (state.clients .outgoing).tcp ↔
    state.attached = some .accepted

@[simp] theorem touched_self : Touched state side side := .inl rfl

theorem pointers_initial (writable : Socket → Bool) : Pointers (State.initial writable) where
  apart := by simp [State.initial]
  own := by simp [State.initial]
  shared := by simp [State.initial]

namespace Pointers

/-- In echo mode the two records point to the same strings. -/
theorem echo (pointers : Pointers state) (same : state.attached = some .accepted)
    (side other : Side) :
    (state.clients other).dataIn = (state.clients side).dataIn ∧
      (state.clients other).dataOut = (state.clients side).dataOut := by
  obtain ⟨dataIn, dataOut⟩ := pointers.shared same
  cases side <;> cases other <;> simp [dataIn, dataOut]

theorem dataIn_eq_iff (pointers : Pointers state) :
    (state.clients other).dataIn = (state.clients side).dataIn ↔ Touched state side other := by
  refine ⟨fun same => ?_, ?_⟩
  · by_cases echo : state.attached = some .accepted
    · exact .inr echo
    · have sides := congrArg Cell.side same
      rw [(pointers.own echo other).1, (pointers.own echo side).1] at sides
      exact .inl sides
  · rintro (rfl | echo)
    · rfl
    · exact (pointers.echo echo side other).1

theorem dataOut_eq_iff (pointers : Pointers state) :
    (state.clients other).dataOut = (state.clients side).dataOut ↔ Touched state side other := by
  refine ⟨fun same => ?_, ?_⟩
  · by_cases echo : state.attached = some .accepted
    · exact .inr echo
    · have sides := congrArg Cell.side same
      rw [(pointers.own echo other).2, (pointers.own echo side).2] at sides
      exact .inl sides
  · rintro (rfl | echo)
    · rfl
    · exact (pointers.echo echo side other).2

/-- No string is filled through one record and written through the other. -/
theorem dataIn_ne_dataOut (pointers : Pointers state) :
    (state.clients other).dataIn ≠ (state.clients side).dataOut := by
  intro same
  by_cases echo : state.attached = some .accepted
  · rw [(pointers.echo echo side other).1] at same
    exact pointers.apart side same
  · have sides := congrArg Cell.side same
    rw [(pointers.own echo other).1, (pointers.own echo side).2] at sides
    subst sides
    exact pointers.apart other same

theorem setString (pointers : Pointers state) (cell : Cell) (bytes : List UInt8) :
    Pointers (state.setString cell bytes) :=
  ⟨pointers.apart, pointers.own, pointers.shared⟩

theorem inOf_setIn (pointers : Pointers state) (bytes : List UInt8) :
    (state.setString (state.clients side).dataIn bytes).inOf other =
      if Touched state side other then bytes else state.inOf other := by
  simp only [State.inOf, State.setString_clients, State.setString_strings, Function.update_apply,
    pointers.dataIn_eq_iff]

theorem outOf_setIn (pointers : Pointers state) (bytes : List UInt8) :
    (state.setString (state.clients side).dataIn bytes).outOf other = state.outOf other := by
  simp only [State.outOf, State.setString_clients, State.setString_strings, Function.update_apply,
    if_neg (Ne.symm pointers.dataIn_ne_dataOut)]

theorem inOf_setOut (pointers : Pointers state) (bytes : List UInt8) :
    (state.setString (state.clients side).dataOut bytes).inOf other = state.inOf other := by
  simp only [State.inOf, State.setString_clients, State.setString_strings, Function.update_apply,
    if_neg pointers.dataIn_ne_dataOut]

theorem outOf_setOut (pointers : Pointers state) (bytes : List UInt8) :
    (state.setString (state.clients side).dataOut bytes).outOf other =
      if Touched state side other then bytes else state.outOf other := by
  simp only [State.outOf, State.setString_clients, State.setString_strings, Function.update_apply,
    pointers.dataOut_eq_iff]

end Pointers

section Swap

@[simp] theorem swap_strings : (swap side state).strings = state.strings := by
  simp only [swap]
  split <;> rfl

@[simp] theorem swap_tcps : (swap side state).tcps = state.tcps := by
  simp only [swap]
  split <;> rfl

@[simp] theorem swap_attached : (swap side state).attached = state.attached := by
  simp only [swap]
  split <;> rfl

@[simp] theorem swap_deleted : (swap side state).deleted = state.deleted := by
  simp only [swap]
  split <;> rfl

/-- A swap exchanges the pointers of the records that share the strings. -/
theorem clients_swap (met : Met state) :
    (swap side state).clients other =
      if Touched state side other then (state.clients other).swapped else state.clients other := by
  simp only [swap, Met] at met ⊢
  by_cases echo : state.attached = some .accepted
  · rw [if_pos (met.mpr echo), if_pos (.inr echo)]
    cases side <;> cases other <;> simp [Side.peer]
  · rw [if_neg (mt met.mp echo)]
    by_cases same : other = side
    · subst same
      simp
    · simp [Touched, same, echo]

@[simp] theorem swap_tcp : ((swap side state).clients other).tcp = (state.clients other).tcp := by
  simp only [swap]
  split <;> cases side <;> cases other <;> simp [Side.peer, Client.swapped]

theorem inOf_swap (met : Met state) :
    (swap side state).inOf other =
      if Touched state side other then state.outOf other else state.inOf other := by
  simp only [State.inOf, State.outOf, swap_strings, clients_swap met]
  split <;> rfl

theorem outOf_swap (met : Met state) :
    (swap side state).outOf other =
      if Touched state side other then state.inOf other else state.outOf other := by
  simp only [State.inOf, State.outOf, swap_strings, clients_swap met]
  split <;> rfl

theorem Pointers.swap (pointers : Pointers state) (met : Met state) : Pointers (swap side state) where
  apart := by
    intro other
    rw [clients_swap met]
    split
    · exact (pointers.apart other).symm
    · exact pointers.apart other
  own := by
    intro two other
    rw [swap_attached] at two
    rw [clients_swap met]
    split
    · exact (pointers.own two other).symm
    · exact pointers.own two other
  shared := by
    intro echo
    rw [swap_attached] at echo
    simp only [clients_swap met, if_pos (show Touched state side _ from .inr echo)]
    exact (pointers.shared echo).symm

end Swap

end Nexer.Forwarder

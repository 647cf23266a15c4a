import Nexer.TcpClient.Lifetime

/-!
# What the functions of a client report about its connection

A client that is told to connect once has at most one request on the way to a
connection, and reports the connection when the last one succeeds.
-/

namespace Nexer.TcpClient

open Nexer.Transition

variable {state : State} {closes : Closes}

/-- The requests that are on the way to a connection. -/
def State.pending (state : State) : Nat := state.resolvers + state.connects

/-- The labels that start another connection. -/
def reconnects : Label → Bool
  | .connect _ _ => true
  | _ => false

/-- Events that report neither a connection nor the end of the client. -/
def Event.Passing : Event → Prop
  | .error _ | .data _ | .send => True
  | _ => False

/-- A function that does not connect. -/
structure Passing (state : State) (effect : Effect) : Prop where
  events : ∀ event ∈ effect.2, event.Passing
  opened : effect.1.phase = .opened → state.phase = .opened
  pending : effect.1.pending ≤ state.pending

@[simp] theorem close_pending : (close state).pending = state.pending := by
  unfold close
  split <;> rfl

theorem close_phase : (close state).phase ≠ .opened := by
  unfold close
  split
  · simp
  · assumption

theorem close_destroyed : (close state).phase = .destroyed ↔ state.phase = .destroyed := by
  unfold close
  split
  · next opened => simp [opened]
  · exact Iff.rfl

theorem Sound.close (sound : Sound state) : Sound (close state) := by
  constructor
  all_goals
    rw [close_destroyed]
    intro gone
    simp [TcpClient.close, gone, sound.connects gone, sound.writes gone]

namespace Passing

theorem of_invoke {handler : Handler} {event : Event} (passing : event.Passing) :
    Passing state (invoke handler event closes state) where
  events := by simpa [invoke] using passing
  opened := by
    unfold invoke
    split
    · exact fun opened => absurd opened close_phase
    · exact id
  pending := by
    unfold invoke
    split
    · exact Nat.le_of_eq close_pending
    · exact Nat.le_refl _

theorem of_onError {code : Int} : Passing state (onError code closes state) :=
  of_invoke trivial

theorem of_readStart {status : Int} : Passing state (readStart status closes state) := by
  simp only [readStart]
  split
  · exact of_onError
  · exact ⟨by simp, id, Nat.le_refl _⟩

theorem of_write {kind : WriteKind} {status : Int} :
    Passing state (write kind status closes state) := by
  simp only [write]
  split
  · exact of_onError
  · exact ⟨by simp, id, Nat.le_refl _⟩

theorem of_onRead {nread : Int} : Passing state (onRead nread closes state) := by
  simp only [onRead]
  split
  · split
    · exact ⟨by simp, fun opened => absurd opened close_phase, Nat.le_of_eq close_pending⟩
    · exact of_onError
  · exact of_invoke trivial

theorem of_onWrite {status : Int} : Passing state (onWrite status closes state) := by
  simp only [onWrite]
  split
  · exact of_onError
  · exact of_invoke trivial

theorem of_connectAddr (status : Int) (closes : Closes) (state : State) :
    (∀ event ∈ (connectAddr status closes state).2, event.Passing) ∧
      ((connectAddr status closes state).1.phase = .opened → state.phase = .opened) ∧
      (connectAddr status closes state).1.pending ≤ state.pending + 1 := by
  have failed : Passing { state with connecting := true }
      (onError status closes { state with connecting := true }) := of_onError
  simp only [connectAddr]
  split
  · refine ⟨?_, failed.opened, Nat.le_succ_of_le failed.pending⟩
    simpa [Reaction.andThen] using failed.events
  · exact ⟨by simp, id, by simp [State.pending]; omega⟩

/-- A resolved name gives way to at most one request to connect. -/
theorem of_onAddrInfo {status connect : Int} (requested : 0 < state.resolvers) :
    Passing state (onAddrInfo status connect closes
      { state with resolvers := state.resolvers - 1 }) := by
  have fewer : state.resolvers - 1 + state.connects + 1 = state.pending := by
    simp only [State.pending]
    omega
  simp only [onAddrInfo]
  split
  · have failed : Passing { state with nameResolving := false, resolvers := state.resolvers - 1 }
        (onError status closes
          { state with nameResolving := false, resolvers := state.resolvers - 1 }) := of_onError
    exact ⟨failed.events, failed.opened, Nat.le_trans failed.pending (by simp only [State.pending] at *; omega)⟩
  · obtain ⟨events, opened, pending⟩ := of_connectAddr connect closes
      { state with nameResolving := false, resolvers := state.resolvers - 1 }
    exact ⟨events, opened, Nat.le_trans pending (by simp only [State.pending] at *; omega)⟩

end Passing

/-- A connection is reported first, by an open client, which then has one request less. -/
structure Connected (state : State) (effect : Effect) : Prop where
  events : ∃ rest, effect.2 = .connect :: rest ∧ ∀ event ∈ rest, event.Passing
  opened : state.phase = .opened
  pending : effect.1.pending < state.pending

theorem passing_or_connected {status start : Int} (requested : 0 < state.connects)
    (contract : state.phase = .opened ∨ status ≠ 0) :
    Passing state (onConnect status start closes { state with connects := state.connects - 1 }) ∨
      Connected state (onConnect status start closes
        { state with connects := state.connects - 1 }) := by
  have fewer : state.resolvers + (state.connects - 1) < state.pending := by
    simp only [State.pending]
    omega
  simp only [onConnect]
  split
  · have failed : Passing { state with connecting := false, connects := state.connects - 1 }
        (onError status closes
          { state with connecting := false, connects := state.connects - 1 }) := .of_onError
    exact .inl ⟨failed.events, failed.opened, Nat.le_trans failed.pending (Nat.le_of_lt fewer)⟩
  · next succeeded =>
    refine .inr ⟨⟨_, rfl, Passing.of_readStart.events⟩, contract.resolve_right succeeded, ?_⟩
    refine Nat.lt_of_le_of_lt Passing.of_readStart.pending ?_
    simp only [invoke]
    split
    · rw [close_pending]
      exact fewer
    · exact fewer

/-- What a step of a living client reports, unless it is told to connect again. -/
theorem step_reports {label : Label} {effect : Effect} (alive : state.phase ≠ .destroyed)
    (moved : step state label = some effect) (once : reconnects label = false)
    (open_ : label ≠ .closed) : Passing state effect ∨ Connected state effect := by
  cases label with
  | connect status closes => cases once
  | readStart status closes =>
      simp only [step, if_pos alive, Option.some.injEq] at moved
      exact .inl (moved ▸ .of_readStart)
  | write kind status closes =>
      simp only [step, if_pos alive, Option.some.injEq] at moved
      exact .inl (moved ▸ .of_write)
  | close =>
      simp only [step, if_pos alive, Option.some.injEq] at moved
      refine .inl (moved ▸ ⟨by simp, fun opened => absurd opened close_phase, ?_⟩)
      exact Nat.le_of_eq close_pending
  | addrInfo status connect closes =>
      simp only [step] at moved
      split at moved
      · next requested =>
        simp only [callback, if_neg alive, Option.some.injEq] at moved
        exact .inl (moved ▸ .of_onAddrInfo requested)
      · cases moved
  | connected status start closes =>
      simp only [step] at moved
      split at moved
      · next requested =>
        simp only [callback, if_neg alive, Option.some.injEq] at moved
        exact moved ▸ passing_or_connected requested.1 requested.2
      · cases moved
  | read nread closes =>
      simp only [step] at moved
      split at moved
      · simp only [callback, if_neg alive, Option.some.injEq] at moved
        exact .inl (moved ▸ .of_onRead)
      · cases moved
  | wrote status closes =>
      simp only [step] at moved
      split at moved
      · cases moved
      · next kind rest writes =>
        simp only [callback, if_neg alive, Option.some.injEq] at moved
        have passing : Passing { state with writes := rest }
            (onWrite status closes { state with writes := rest }) := .of_onWrite
        exact .inl (moved ▸ ⟨passing.events, passing.opened, passing.pending⟩)
  | closed => exact absurd rfl open_

end Nexer.TcpClient

import Nexer.Forwarder.Arrivals

/-!
# Stream integrity and lifecycle of a forwarder

What the ledgers say of every run: the bytes that one socket delivers, since the
forwarder has been given it, come out at the other one, in order and once, and none is
left behind while the other socket can be written to.  What the lifecycle says: the
forwarder is deleted once, after all of its sockets have closed, and never used through
a null pointer or afterwards.
-/

namespace Nexer.Forwarder

open Nexer.Transition

variable {writable : Socket → Bool} {state : State} {past : List Event}

/-- The bytes received through a record are those completed on its target, those
being written and those queued.  A socket delivers nothing else but what it delivers
before it is given to the forwarder.  While the target is open, the string that is being
written is its only request, which nothing appends to, and nothing is queued that
could be written. -/
theorem stream_integrity
    (reached : Machine.Reaches step Machine.always (State.initial writable) state past)
    (side : Side) :
    (source state side).elim [] (receivedFrom · past) =
        (dest state side).elim [] (completedOn · past) ++ state.outOf side ++ state.inOf side ∧
      (∀ socket, arrivedOn socket past = droppedOn socket past ++ receivedFrom socket past) ∧
      droppedOn .accepted past = [] ∧
      (∀ label effect socket, step state label = some effect →
        source state side = some socket → droppedOn socket effect.2 = []) ∧
      ∀ socket, dest state side = some socket → (state.tcps socket).phase = .opened →
        (state.tcps socket).requests =
            (if state.outOf side = [] then []
              else [⟨(state.clients side).dataOut, state.outOf side⟩]) ∧
          (∀ request ∈ (state.tcps socket).requests,
            state.strings request.cell = request.bytes ∧
              ∀ other, (state.clients other).dataIn ≠ request.cell) ∧
          ((state.tcps socket).writable → (state.tcps socket).requests = [] →
            state.inOf side = []) := by
  have core := core_of_reaches reached
  have arrivals := arrivals_of_reaches reached
  refine ⟨core.balanced side, arrivals.ordered, arrivals.heard,
    fun _ _ _ moved from_ => dropped_of_step core from_ moved, fun socket target opened => ?_⟩
  have requests : (state.tcps socket).requests =
      if state.outOf side = [] then []
      else [⟨(state.clients side).dataOut, state.outOf side⟩] := by
    split
    · next empty => exact core.requests_eq_nil target empty
    · next full =>
      rcases core.writing side socket target with quiet | ⟨busy, -⟩
      · exact absurd (core.idle side socket target nofun opened quiet) full
      · exact busy
  refine ⟨requests, fun request outstanding => ?_, fun ready quiet => ?_⟩
  · rw [requests] at outstanding
    split at outstanding
    · cases outstanding
    · obtain rfl := List.mem_singleton.mp outstanding
      exact ⟨rfl, fun other => core.pointers.dataIn_ne_dataOut⟩
  · exact core.flushed side socket target nofun ready
      (core.idle side socket target nofun opened quiet)

/-- Bytes before `SetOutgoing`, during the first write and during the second one. -/
theorem stream_integrity_run :
    ∃ state : State,
      [1, 2, 3, 4] = [1] ++ state.outOf .incoming ++ state.inOf .incoming ∧
        (state.tcps .connected).requests =
          (if state.outOf .incoming = [] then []
            else [⟨(state.clients .incoming).dataOut, state.outOf .incoming⟩]) := by
  obtain ⟨state, reached, checked⟩ := Machine.exists_reaches
    step Machine.always (State.initial fun _ => true)
    [.data .accepted [1], .setOutgoing .connected, .data .accepted [2, 3], .sent .connected,
      .data .accepted [4]]
    [.received .accepted [1], .write .connected ⟨⟨.incoming, false⟩, [1]⟩,
      .received .accepted [2, 3], .completed .connected [1],
      .write .connected ⟨⟨.incoming, true⟩, [2, 3]⟩, .received .accepted [4]]
    (fun state => decide (state.attached = some .connected) &&
      decide ((state.tcps .connected).phase = .opened)) (by decide)
  simp only [Bool.and_eq_true, decide_eq_true_eq] at checked
  obtain ⟨balanced, -, -, -, open_⟩ := stream_integrity reached .incoming
  refine ⟨state, ?_, (open_ .connected checked.1 checked.2).1⟩
  simpa [source, dest, checked.1, receivedFrom, completedOn] using balanced

/-- Bytes that the outgoing socket delivers before `SetOutgoing` are lost. -/
theorem dropped_before_setOutgoing :
    ∃ state past, Machine.Reaches step Machine.always (State.initial fun _ => true) state past ∧
      source state .outgoing = some .connected ∧ dest state .outgoing = some .accepted ∧
      (∀ socket, (state.tcps socket).phase = .opened) ∧
      arrivedOn .connected past ≠
        completedOn .accepted past ++ state.outOf .outgoing ++ state.inOf .outgoing := by
  obtain ⟨state, reached, checked⟩ := Machine.exists_reaches
    step Machine.always (State.initial fun _ => true)
    [.data .connected [1], .setOutgoing .connected] [.dropped .connected [1]]
    (fun state => decide (state.attached = some .connected) &&
      decide ((state.tcps .accepted).phase = .opened) &&
      decide ((state.tcps .connected).phase = .opened) &&
      decide (state.outOf .outgoing = []) && decide (state.inOf .outgoing = [])) (by decide)
  simp only [Bool.and_eq_true, decide_eq_true_eq] at checked
  obtain ⟨⟨⟨⟨attached, accepted⟩, connected⟩, out⟩, queued⟩ := checked
  refine ⟨state, _, reached, attached, by simp [dest, attached], ?_, ?_⟩
  · rintro (_ | _)
    · exact accepted
    · exact connected
  · rw [out, queued]
    decide

/-- One deletion, when all attached sockets have closed; a closed socket leaves the
other one closing; no null pointer and no deleted forwarder is used. -/
theorem deleted_once
    (reached : Machine.Reaches step Machine.always (State.initial writable) state past) :
    past.count .deleted = (if state.deleted then 1 else 0) ∧
      (state.deleted = true ↔
        ∀ side socket, source state side = some socket → (state.tcps socket).phase = .closed) ∧
      (∀ side other socket another, source state side = some socket →
        source state other = some another → (state.tcps socket).phase = .closed →
          (state.tcps another).phase ≠ .opened) ∧
      .nullCall ∉ past ∧ .deadCall ∉ past :=
  have lifecycle := (core_of_reaches reached).lifecycle
  ⟨lifecycle.deletions, lifecycle.deleted_iff, lifecycle.closed_together, lifecycle.sound⟩

/-- A socket fails while the other one has a request and queued bytes; a write of the
other one is still reported, and the two close. -/
theorem deleted_once_run :
    ∃ state past, Machine.Reaches step Machine.always (State.initial fun _ => true) state past ∧
      .completed .connected [1] ∈ past ∧ past.count .deleted = 1 ∧ .nullCall ∉ past ∧
        .deadCall ∉ past := by
  obtain ⟨state, reached, checked⟩ := Machine.exists_reaches
    step Machine.always (State.initial fun _ => true)
    [.setOutgoing .connected, .data .accepted [1], .data .accepted [2], .readError .accepted,
      .sent .connected, .closed .connected, .closed .accepted]
    [.received .accepted [1], .write .connected ⟨⟨.incoming, false⟩, [1]⟩,
      .received .accepted [2], .closing .accepted .accepted, .closing .connected .accepted,
      .completed .connected [1], .deleted]
    (fun state => state.deleted) (by decide)
  obtain ⟨count, -, -, sound⟩ := deleted_once reached
  exact ⟨state, _, reached, by decide, count.trans (by simp [checked]), sound⟩

end Nexer.Forwarder

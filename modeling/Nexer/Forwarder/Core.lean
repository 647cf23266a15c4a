import Nexer.Forwarder.Lanes

/-!
# What the functions of a forwarder do to its double buffers

Closing sockets keeps the ledgers.  Appending data, swapping, writing and clearing
are the operations of the double buffers, on the record concerned and, in echo
mode, on the other one as well.
-/

namespace Nexer.Forwarder

open Nexer.Transition Nexer.Stream

variable {loose : Option Socket} {state following : State} {past out : List Event}
variable {side other : Side} {socket : Socket}

theorem source_congr (same : following.attached = state.attached) :
    source following side = source state side := by
  cases side <;> simp [source, same]

theorem dest_congr (same : following.attached = state.attached) :
    dest following side = dest state side := by
  cases side <;> simp [dest, same]

/-- The ledger of a record when no bytes were received or completed. -/
theorem lane_congr (attached : following.attached = state.attached)
    (silent : ∀ socket, receivedFrom socket out = [] ∧ completedOn socket out = [])
    (outOf : following.outOf side = state.outOf side)
    (inOf : following.inOf side = state.inOf side) :
    lane following (past ++ out) side = lane state past side := by
  simp [lane, source_congr attached, dest_congr attached, silent, outOf, inOf]

/-- The ledgers of the records that share strings receive the same bytes. -/
theorem lane_received {bytes : List UInt8} (attached : following.attached = state.attached)
    (from_ : source state side = some socket)
    (outOf : following.outOf other = state.outOf other)
    (inOf : following.inOf other =
      if Touched state side other then state.inOf other ++ bytes else state.inOf other) :
    lane following (past ++ [.received socket bytes]) other =
      if Touched state side other then (lane state past other).receive bytes
      else lane state past other := by
  by_cases touched : Touched state side other
  · have also := (source_of_touched touched).trans from_
    simp [lane, DoubleBuffer.receive, source_congr attached, dest_congr attached, outOf, inOf,
      touched, also]
  · cases also : source state other with
    | none => simp [lane, source_congr attached, dest_congr attached, outOf, inOf, touched, also]
    | some another =>
        have strange : socket ≠ another := by
          rintro rfl
          exact touched (touched_of_source from_ also)
        simp [lane, source_congr attached, dest_congr attached, outOf, inOf, touched, also, strange]

/-- The ledgers of the records that share strings complete together. -/
theorem lane_completed (attached : following.attached = state.attached)
    (target : dest state side = some socket)
    (shared : Touched state side other → state.outOf other = state.outOf side)
    (outOf : following.outOf other =
      if Touched state side other then [] else state.outOf other)
    (inOf : following.inOf other = state.inOf other) :
    lane following (past ++ [.completed socket (state.outOf side)]) other =
      if Touched state side other then (lane state past other).complete
      else lane state past other := by
  by_cases touched : Touched state side other
  · have also := (dest_of_touched touched).trans target
    simp [lane, DoubleBuffer.complete, source_congr attached, dest_congr attached, outOf, inOf,
      touched, also, shared touched]
  · cases also : dest state other with
    | none => simp [lane, source_congr attached, dest_congr attached, outOf, inOf, touched, also]
    | some another =>
        have strange : socket ≠ another := by
          rintro rfl
          exact touched (touched_of_dest target also)
        simp [lane, source_congr attached, dest_congr attached, outOf, inOf, touched, also, strange]

namespace Shut

theorem outOf_eq (shut : Shut state following out) (side : Side) : following.outOf side = state.outOf side := by
  simp [State.outOf, shut.clients, shut.strings]

theorem inOf_eq (shut : Shut state following out) (side : Side) : following.inOf side = state.inOf side := by
  simp [State.inOf, shut.clients, shut.strings]

end Shut

namespace Lifecycle

theorem shut (lifecycle : Lifecycle state past) (shut : Shut state following out) :
    Lifecycle following (past ++ out) where
  closed_together := by
    intro side other socket another
    rw [source_congr shut.attached, source_congr shut.attached, shut.closed]
    exact fun from_ also closed opened =>
      lifecycle.closed_together side other socket another from_ also closed (shut.opened another opened)
  deleted_iff := by
    rw [shut.deleted, lifecycle.deleted_iff]
    simp only [source_congr shut.attached, shut.closed]
  deletions := by
    rw [List.count_append, List.count_eq_zero_of_not_mem shut.sound.2.2, shut.deleted]
    exact lifecycle.deletions
  sound := by
    simp only [List.mem_append, not_or]
    exact ⟨⟨lifecycle.sound.1, shut.sound.1⟩, lifecycle.sound.2, shut.sound.2.1⟩

/-- Events that are no call of the forwarder's functions and no deletion. -/
theorem snoc (lifecycle : Lifecycle state past) (attached : following.attached = state.attached)
    (deleted : following.deleted = state.deleted)
    (phase : ∀ side socket, source state side = some socket →
      (following.tcps socket).phase = (state.tcps socket).phase)
    (sound : .nullCall ∉ out ∧ .deadCall ∉ out ∧ .deleted ∉ out) :
    Lifecycle following (past ++ out) where
  closed_together := by
    intro side other socket another from_ also
    rw [source_congr attached] at from_ also
    rw [phase _ _ from_, phase _ _ also]
    exact lifecycle.closed_together side other socket another from_ also
  deleted_iff := by
    rw [deleted, lifecycle.deleted_iff]
    refine forall₂_congr fun side socket => ?_
    rw [source_congr attached]
    exact imp_congr_right fun from_ => by rw [phase _ _ from_]
  deletions := by
    rw [List.count_append, List.count_eq_zero_of_not_mem sound.2.2, deleted]
    exact lifecycle.deletions
  sound := by
    simp only [List.mem_append, not_or]
    exact ⟨⟨lifecycle.sound.1, sound.1⟩, lifecycle.sound.2, sound.2.1⟩

theorem congr (lifecycle : Lifecycle state past) (attached : following.attached = state.attached)
    (deleted : following.deleted = state.deleted)
    (phase : ∀ side socket, source state side = some socket →
      (following.tcps socket).phase = (state.tcps socket).phase) :
    Lifecycle following past := by
  have kept : Lifecycle following (past ++ []) := lifecycle.snoc attached deleted phase (by simp)
  rwa [List.append_nil] at kept

end Lifecycle

namespace Core

/-- Closing sockets changes nothing in the buffers. -/
theorem shut (core : Core loose state past) (shut : Shut state following out) :
    Core loose following (past ++ out) where
  pointers := by
    refine ⟨?_, ?_, ?_⟩
    · simpa [shut.clients] using core.pointers.apart
    · simpa [shut.clients, shut.attached] using core.pointers.own
    · simpa [shut.clients, shut.attached] using core.pointers.shared
  tcp := by
    intro side
    rw [shut.clients, core.tcp side, source_congr shut.attached]
    simp only [ne_eq, shut.closed]
  accepted_handlers := (shut.handlers _).trans core.accepted_handlers
  connected_handlers := by
    rw [shut.handlers, shut.attached]
    exact core.connected_handlers
  writing := by
    intro side socket
    rw [dest_congr shut.attached, shut.requests, shut.clients, shut.outOf_eq]
    exact core.writing side socket
  unused := by
    intro socket
    simp only [dest_congr shut.attached, shut.requests]
    exact core.unused socket
  idle := by
    intro side socket
    rw [dest_congr shut.attached, shut.requests, shut.outOf_eq]
    exact fun target strict opened =>
      core.idle side socket target strict (shut.opened socket opened)
  flushed := by
    intro side socket
    rw [dest_congr shut.attached, shut.outOf_eq, shut.inOf_eq]
    exact fun target strict writable =>
      core.flushed side socket target strict (shut.writable socket writable).1
  unattached := by
    intro none
    obtain ⟨empty, unheard, uncompleted⟩ := core.unattached (shut.attached ▸ none)
    simp only [shut.outOf_eq, receivedFrom_append, completedOn_append, shut.silent, List.append_nil]
    exact ⟨empty, unheard, uncompleted⟩
  writable := by
    intro socket writable
    obtain ⟨before, kept⟩ := shut.writable socket writable
    exact kept (core.writable socket before)
  balanced := by
    intro side
    rw [lane_congr shut.attached shut.silent (shut.outOf_eq side) (shut.inOf_eq side)]
    exact core.balanced side
  lifecycle := core.lifecycle.shut shut

/-- A socket that meets what it was exempted from is not exempted any more. -/
theorem tighten (core : Core loose state past)
    (idle : ∀ side socket, dest state side = some socket → loose = some socket →
      (state.tcps socket).phase = .opened → (state.tcps socket).requests = [] →
        state.outOf side = [])
    (flushed : ∀ side socket, dest state side = some socket → loose = some socket →
      (state.tcps socket).writable → state.outOf side = [] → state.inOf side = []) :
    Core none state past :=
  { core with
    idle := by
      intro side socket target _
      by_cases exempt : loose = some socket
      · exact idle side socket target exempt
      · exact core.idle side socket target exempt
    flushed := by
      intro side socket target _
      by_cases exempt : loose = some socket
      · exact flushed side socket target exempt
      · exact core.flushed side socket target exempt }

/-- An exempted socket that is no longer open need not be exempted. -/
theorem settle (core : Core (some socket) state past)
    (shut : (state.tcps socket).phase ≠ .opened) : Core none state past := by
  refine core.tighten ?_ ?_
  · rintro side other target ⟨⟩ opened
    exact absurd opened shut
  · rintro side other target ⟨⟩ writable
    exact absurd (core.writable socket writable) shut

/-- A record names the socket that it reads until that is closed. -/
theorem named (core : Core loose state past) (from_ : source state side = some socket)
    (alive : (state.tcps socket).phase ≠ .closed) : (state.clients side).tcp = some socket := by
  rw [core.tcp side, from_]
  simp [alive]

theorem named_peer (core : Core loose state past) (target : dest state side = some socket)
    (alive : (state.tcps socket).phase ≠ .closed) :
    (state.clients side.peer).tcp = some socket :=
  core.named ((dest_eq (.inr (attached_of_dest target))).symm.trans target) alive

theorem source_of_handler (core : Core loose state past)
    (registered : (state.tcps socket).handlers = some side) : source state side = some socket := by
  cases socket with
  | accepted => cases core.accepted_handlers.symm.trans registered; rfl
  | connected =>
      rw [core.connected_handlers] at registered
      split at registered
      · cases registered; assumption
      · cases registered

/-- The handlers of an attached socket belong to the record that reads it. -/
theorem handler (core : Core loose state past)
    (used : socket = .accepted ∨ state.attached = some .connected) :
    ∃ side, (state.tcps socket).handlers = some side ∧ source state side = some socket := by
  cases socket with
  | accepted => exact ⟨.incoming, core.accepted_handlers, rfl⟩
  | connected =>
      have attached := used.resolve_left nofun
      exact ⟨.outgoing, core.connected_handlers.trans (if_pos attached), attached⟩

theorem used_of_source (from_ : source state side = some socket) :
    socket = .accepted ∨ state.attached = some .connected := by
  cases side with
  | incoming => exact .inl (Option.some.inj from_).symm
  | outgoing =>
      cases socket with
      | accepted => exact .inl rfl
      | connected => exact .inr from_

theorem used_of_dest (target : dest state side = some socket) :
    socket = .accepted ∨ state.attached = some .connected := by
  cases side with
  | incoming =>
      cases socket with
      | accepted => exact .inl rfl
      | connected => exact .inr target
  | outgoing =>
      obtain ⟨_, _, rfl⟩ := Option.map_eq_some_iff.mp target
      exact .inl rfl

theorem not_deleted (core : Core loose state past) (from_ : source state side = some socket)
    (alive : (state.tcps socket).phase ≠ .closed) : state.deleted = false := by
  rw [Bool.eq_false_iff]
  exact fun deleted => alive (core.lifecycle.deleted_iff.mp deleted side socket from_)

/-- A socket that is not closed calls the closures of an existing forwarder. -/
theorem callable (core : Core loose state past) (alive : (state.tcps socket).phase ≠ .closed) :
    Callable socket state := by
  intro side registered
  have from_ := core.source_of_handler registered
  exact ⟨by simp [core.named from_ alive], core.not_deleted from_ alive⟩

/-- While one of them is not closed, the records name one socket in echo mode only. -/
theorem met (core : Core loose state past) (from_ : source state side = some socket)
    (alive : (state.tcps socket).phase ≠ .closed) : Met state := by
  have incoming := core.tcp .incoming
  have outgoing := core.tcp .outgoing
  have named := core.named from_ alive
  constructor
  · intro same
    have first : (state.clients .incoming).tcp = some socket := by
      cases side
      · exact named
      · exact same.trans named
    have second := same.symm.trans first
    rw [incoming] at first
    rw [outgoing] at second
    obtain rfl : Socket.accepted = socket := by
      simpa [source] using Option.eq_some_of_filter_eq_some first
    exact Option.eq_some_of_filter_eq_some second
  · intro echo
    rw [incoming, outgoing]
    simp [source, echo]

/-- A record is swapped when nothing of it is being written. -/
theorem swap (core : Core (some socket) state past) (target : dest state side = some socket)
    (met : Met state) (quiet : (state.tcps socket).requests = []) (empty : state.outOf side = []) :
    Core (some socket) (swap side state) past where
  pointers := core.pointers.swap met
  tcp := by
    intro other
    simpa [source_congr swap_attached] using core.tcp other
  accepted_handlers := by simpa using core.accepted_handlers
  connected_handlers := by simpa using core.connected_handlers
  writing := by
    intro other another also
    rw [dest_congr swap_attached] at also
    rw [swap_tcps]
    by_cases same : another = socket
    · exact .inl (same ▸ quiet)
    · have apart : ¬ Touched state side other := fun touched =>
        same (Option.some.inj (also.symm.trans ((dest_of_touched touched).trans target)))
      rw [clients_swap met, outOf_swap met, if_neg apart, if_neg apart]
      exact core.writing other another also
  unused := by
    intro another
    simpa [dest_congr swap_attached] using core.unused another
  idle := by
    intro other another also strict
    rw [dest_congr swap_attached] at also
    have apart : ¬ Touched state side other := fun touched =>
      strict (target.symm.trans ((dest_of_touched touched).symm.trans also))
    rw [swap_tcps, outOf_swap met, if_neg apart]
    exact core.idle other another also strict
  flushed := by
    intro other another also strict
    rw [dest_congr swap_attached] at also
    have apart : ¬ Touched state side other := fun touched =>
      strict (target.symm.trans ((dest_of_touched touched).symm.trans also))
    rw [swap_tcps, outOf_swap met, inOf_swap met, if_neg apart, if_neg apart]
    exact core.flushed other another also strict
  unattached := by
    intro none
    rw [swap_attached] at none
    exact absurd none (attached_of_dest target)
  lifecycle := core.lifecycle.congr swap_attached swap_deleted (by simp)
  writable := by simpa using core.writable
  balanced := by
    intro other
    have before := core.balanced other
    by_cases touched : Touched state side other
    · have flown : state.outOf other = [] := (core.pointers.outOf_touched touched).trans empty
      have now : lane (Forwarder.swap side state) past other = (lane state past other).flush := by
        simp [lane, DoubleBuffer.flush, source_congr swap_attached, dest_congr swap_attached,
          outOf_swap met, inOf_swap met, touched, flown]
      rw [now]
      exact before.flush flown
    · have now : lane (Forwarder.swap side state) past other = lane state past other := by
        simp [lane, source_congr swap_attached, dest_congr swap_attached, outOf_swap met,
          inOf_swap met, touched]
      rwa [now]

/-- The string that is written is handed over as the only outstanding request. -/
theorem request (core : Core (some socket) state past) (target : dest state side = some socket)
    (quiet : (state.tcps socket).requests = []) (full : state.outOf side ≠ []) :
    Core none (state.setRequests socket [⟨(state.clients side).dataOut, state.outOf side⟩])
      (past ++ [.write socket ⟨(state.clients side).dataOut, state.outOf side⟩]) where
  pointers := ⟨core.pointers.apart, core.pointers.own, core.pointers.shared⟩
  tcp := by
    intro other
    simp only [State.setRequests_phase]
    exact core.tcp other
  accepted_handlers := by simpa using core.accepted_handlers
  connected_handlers := State.setRequests_handlers _ |>.trans core.connected_handlers
  writing := by
    intro other another also
    by_cases same : another = socket
    · subst same
      have touched := touched_of_dest target also
      have outOf : state.outOf other = state.outOf side := core.pointers.outOf_touched touched
      have cell : (state.clients other).dataOut = (state.clients side).dataOut :=
        core.pointers.dataOut_eq_iff.mpr touched
      exact .inr ⟨by simp [cell, outOf], by simpa [outOf] using full⟩
    · simpa [same] using core.writing other another also
  unused := by
    intro another unused
    have other : another ≠ socket := fun same => unused side (same ▸ target)
    simpa [other] using core.unused another unused
  idle := by
    intro other another also _ opened empty
    by_cases same : another = socket
    · simp [same] at empty
    · simp only [State.setRequests_requests, same, if_false, State.setRequests_phase] at opened empty
      exact core.idle other another also (fun equal => same (Option.some.inj equal).symm) opened empty
  flushed := by
    intro other another also _ writable empty
    by_cases same : another = socket
    · have touched := touched_of_dest target (same ▸ also)
      exact absurd ((core.pointers.outOf_touched touched).symm.trans empty) full
    · rw [State.setRequests_writable] at writable
      exact core.flushed other another also (fun equal => same (Option.some.inj equal).symm)
        writable empty
  unattached := fun none => absurd none (attached_of_dest target)
  lifecycle := core.lifecycle.snoc rfl rfl (by simp) (by simp)
  writable := by simpa using core.writable
  balanced := by
    intro other
    have same : lane (state.setRequests socket [⟨(state.clients side).dataOut, state.outOf side⟩])
        (past ++ [.write socket ⟨(state.clients side).dataOut, state.outOf side⟩]) other =
          lane state past other :=
      lane_congr rfl (by simp [receivedFrom, completedOn]) rfl rfl
    rw [same]
    exact core.balanced other

/-- A write of a filled string is outstanding afterwards, or the socket is closing. -/
theorem write (core : Core (some socket) state past) (target : dest state side = some socket)
    (alive : (state.tcps socket).phase ≠ .closed) (quiet : (state.tcps socket).requests = [])
    (full : state.outOf side ≠ []) :
    Core none (write (some socket) (state.clients side).dataOut state).1
      (past ++ (write (some socket) (state.clients side).dataOut state).2) := by
  simp only [Forwarder.write]
  split
  · rw [quiet]
    exact core.request target quiet full
  · obtain ⟨reader, registered, from_⟩ := core.handler (used_of_dest target)
    have shut := Shut.of_notify (core.callable alive)
    refine (core.shut shut).settle ?_
    simp only [notify, registered, core.not_deleted from_ alive]
    exact onError_phase (core.named from_ alive)

/-- All three sources of writes swap a record and write the string that was filled. -/
theorem flush (core : Core (some socket) state past) (target : dest state side = some socket)
    (alive : (state.tcps socket).phase ≠ .closed) (quiet : (state.tcps socket).requests = [])
    (empty : state.outOf side = []) (full : state.inOf side ≠ []) :
    Core none
      (Forwarder.write ((Forwarder.swap side state).clients side.peer).tcp
        ((Forwarder.swap side state).clients side).dataOut (Forwarder.swap side state)).1
      (past ++ (Forwarder.write ((Forwarder.swap side state).clients side.peer).tcp
        ((Forwarder.swap side state).clients side).dataOut (Forwarder.swap side state)).2) := by
  have reader : source state side.peer = some socket :=
    (dest_eq (.inr (attached_of_dest target))).symm.trans target
  have met := core.met reader alive
  rw [swap_tcp, core.named_peer target alive]
  refine (core.swap target met quiet empty).write ?_ ?_ ?_ ?_
  · rwa [dest_congr swap_attached]
  · rwa [swap_tcps]
  · rwa [swap_tcps]
  · rwa [outOf_swap met, if_pos touched_self]

/-- Bytes that arrive are appended to the string that is being filled. -/
theorem append (core : Core none state past) (from_ : source state side = some socket)
    (bytes : List UInt8) :
    Core (dest state side)
      (state.setString (state.clients side).dataIn (state.inOf side ++ bytes))
      (past ++ [.received socket bytes]) where
  pointers := core.pointers.setString _ _
  tcp := core.tcp
  accepted_handlers := core.accepted_handlers
  connected_handlers := core.connected_handlers
  writing := by
    intro other another also
    rw [core.pointers.outOf_setIn]
    exact core.writing other another also
  unused := core.unused
  idle := by
    intro other another also _
    rw [core.pointers.outOf_setIn]
    exact core.idle other another also nofun
  flushed := by
    intro other another also strict
    have apart : ¬ Touched state side other := fun touched =>
      strict ((dest_of_touched touched).symm.trans also)
    rw [core.pointers.outOf_setIn, core.pointers.inOf_setIn, if_neg apart]
    exact core.flushed other another also nofun
  unattached := by
    intro none
    obtain ⟨empty, unheard, uncompleted⟩ := core.unattached none
    have accepted : socket = .accepted := by
      cases side with
      | incoming => exact (Option.some.inj from_).symm
      | outgoing => exact absurd (from_.symm.trans none) nofun
    refine ⟨fun other => ?_, ?_, ?_⟩
    · rw [core.pointers.outOf_setIn]
      exact empty other
    · simp [unheard, accepted]
    · simpa using uncompleted
  lifecycle := core.lifecycle.snoc rfl rfl (fun _ _ _ => rfl) (by simp)
  writable := core.writable
  balanced := by
    intro other
    have inOf : (state.setString (state.clients side).dataIn (state.inOf side ++ bytes)).inOf other =
        if Touched state side other then state.inOf other ++ bytes else state.inOf other := by
      rw [core.pointers.inOf_setIn]
      split
      · next touched => rw [core.pointers.inOf_touched touched]
      · rfl
    rw [lane_received (State.setString_attached ..) from_ (core.pointers.outOf_setIn _) inOf]
    split
    · exact (core.balanced other).receive bytes
    · exact core.balanced other

/-- The request of a write that has completed or failed is gone. -/
theorem drop (core : Core none state past) (target : dest state side = some socket) :
    Core (some socket) (state.setRequests socket []) past where
  pointers := ⟨core.pointers.apart, core.pointers.own, core.pointers.shared⟩
  tcp := by
    intro other
    simp only [State.setRequests_phase]
    exact core.tcp other
  accepted_handlers := by simpa using core.accepted_handlers
  connected_handlers := State.setRequests_handlers _ |>.trans core.connected_handlers
  writing := by
    intro other another also
    by_cases same : another = socket
    · exact .inl (by simp [same])
    · simpa [same] using core.writing other another also
  unused := by
    intro another unused
    have other : another ≠ socket := fun same => unused side (same ▸ target)
    simpa [other] using core.unused another unused
  idle := by
    intro other another also strict opened empty
    have apart : another ≠ socket := fun same => strict (congrArg some same.symm)
    simp only [State.setRequests_requests, apart, if_false, State.setRequests_phase] at opened empty
    exact core.idle other another also nofun opened empty
  flushed := by
    intro other another also _ writable
    rw [State.setRequests_writable] at writable
    exact core.flushed other another also nofun writable
  unattached := core.unattached
  lifecycle := core.lifecycle.congr rfl rfl (by simp)
  writable := by simpa using core.writable
  balanced := core.balanced

/-- The string of a completed write is cleared. -/
theorem clear (core : Core (some socket) state past) (target : dest state side = some socket)
    (quiet : (state.tcps socket).requests = []) :
    Core (some socket) (state.setString (state.clients side).dataOut [])
      (past ++ [.completed socket (state.outOf side)]) where
  pointers := core.pointers.setString _ _
  tcp := core.tcp
  accepted_handlers := core.accepted_handlers
  connected_handlers := core.connected_handlers
  writing := by
    intro other another also
    by_cases same : another = socket
    · exact .inl (same ▸ quiet)
    · have apart : ¬ Touched state side other := fun touched =>
        same (Option.some.inj (also.symm.trans ((dest_of_touched touched).trans target)))
      rw [core.pointers.outOf_setOut, if_neg apart]
      exact core.writing other another also
  unused := core.unused
  idle := by
    intro other another also strict
    have apart : ¬ Touched state side other := fun touched =>
      strict (target.symm.trans ((dest_of_touched touched).symm.trans also))
    rw [core.pointers.outOf_setOut, if_neg apart]
    exact core.idle other another also strict
  flushed := by
    intro other another also strict
    have apart : ¬ Touched state side other := fun touched =>
      strict (target.symm.trans ((dest_of_touched touched).symm.trans also))
    rw [core.pointers.outOf_setOut, core.pointers.inOf_setOut, if_neg apart]
    exact core.flushed other another also strict
  unattached := fun none => absurd none (attached_of_dest target)
  lifecycle := core.lifecycle.snoc rfl rfl (fun _ _ _ => rfl) (by simp)
  writable := core.writable
  balanced := by
    intro other
    rw [lane_completed (State.setString_attached ..) target core.pointers.outOf_touched
      (core.pointers.outOf_setOut _) (core.pointers.inOf_setOut _)]
    split
    · exact (core.balanced other).complete
    · exact core.balanced other

end Core

end Nexer.Forwarder

import Nexer.Forwarder.Closing

/-!
# The handlers of a forwarder keep its double buffers

Every label of the machine runs handlers that append, swap, write, clear or close.
The ledgers therefore hold in every reachable state, whatever happens on the two
sockets and whenever `SetOutgoing` is called.
-/

namespace Nexer.Forwarder

open Nexer.Transition Nexer.Stream

variable {state following : State} {past out : List Event} {side : Side} {socket : Socket}

@[simp] theorem Side.peer_peer (side : Side) : side.peer.peer = side := by
  cases side <;> rfl

/-- The forwarder after `SetOutgoing` has named the socket. -/
def joined (socket : Socket) (state : State) : State :=
  let named := { state.modifyClient .outgoing (fun client => { client with tcp := some socket }) with
    attached := some socket }
  match socket with
  | .connected => named.modifyTcp socket fun tcp => { tcp with handlers := some .outgoing }
  | .accepted =>
      named.modifyClient .outgoing fun client =>
        { client with
          dataIn := (named.clients .incoming).dataIn
          dataOut := (named.clients .incoming).dataOut }

section Joined

@[simp] theorem joined_attached : (joined socket state).attached = some socket := by
  cases socket <;> rfl

@[simp] theorem joined_deleted : (joined socket state).deleted = state.deleted := by
  cases socket <;> rfl

/-- Joining changes nothing in a socket but its handlers. -/
theorem joined_field {β : Type} (field : Tcp → β)
    (same : ∀ tcp handlers, field { tcp with handlers } = field tcp) (another : Socket) :
    field ((joined socket state).tcps another) = field (state.tcps another) := by
  cases socket <;> cases another <;> simp [joined, same]

theorem joined_handlers (another : Socket) : ((joined socket state).tcps another).handlers =
    if socket = .connected ∧ another = .connected then some .outgoing
    else (state.tcps another).handlers := by
  cases socket <;> cases another <;> simp [joined]

theorem joined_incoming_tcp :
    ((joined socket state).clients .incoming).tcp = (state.clients .incoming).tcp := by
  cases socket <;> simp [joined]

theorem joined_outgoing_tcp : ((joined socket state).clients .outgoing).tcp = some socket := by
  cases socket <;> simp [joined]

@[simp] theorem joined_requests (another : Socket) :
    ((joined socket state).tcps another).requests = (state.tcps another).requests :=
  joined_field Tcp.requests (fun _ _ => rfl) another

@[simp] theorem joined_phase (another : Socket) :
    ((joined socket state).tcps another).phase = (state.tcps another).phase :=
  joined_field Tcp.phase (fun _ _ => rfl) another

@[simp] theorem joined_writable (another : Socket) :
    ((joined socket state).tcps another).writable = (state.tcps another).writable :=
  joined_field Tcp.writable (fun _ _ => rfl) another

/-- The record whose strings a record uses after `SetOutgoing`. -/
def lender (socket : Socket) (side : Side) : Side :=
  if socket = .accepted then .incoming else side

@[simp] theorem joined_dataIn : ((joined socket state).clients side).dataIn =
    (state.clients (lender socket side)).dataIn := by
  cases socket <;> cases side <;> simp [joined, lender]

@[simp] theorem joined_dataOut : ((joined socket state).clients side).dataOut =
    (state.clients (lender socket side)).dataOut := by
  cases socket <;> cases side <;> simp [joined, lender]

@[simp] theorem joined_strings : (joined socket state).strings = state.strings := by
  cases socket <;> rfl

theorem joined_inOf : (joined socket state).inOf side = state.inOf (lender socket side) := by
  simp [State.inOf]

theorem joined_outOf : (joined socket state).outOf side = state.outOf (lender socket side) := by
  simp [State.outOf]

theorem Pointers.joined (pointers : Pointers state) (fresh : state.attached = none) :
    Pointers (joined socket state) where
  apart := by
    intro side
    simpa using pointers.apart _
  own := by
    intro two side
    have strange : socket ≠ .accepted := by simpa using two
    simpa [lender, strange] using pointers.own (by simp [fresh]) side
  shared := by
    intro echo
    have accepted : socket = .accepted := by simpa using echo
    simp [lender, accepted]

/-- An unattached forwarder that exists has an accepted socket that has not closed. -/
theorem Lifecycle.joined (lifecycle : Lifecycle state past) (fresh : state.attached = none)
    (there : state.deleted = false) (alive : (state.tcps socket).phase ≠ .closed) :
    Lifecycle (joined socket state) past := by
  have accepted : (state.tcps .accepted).phase ≠ .closed := by
    intro closed
    refine Bool.eq_false_iff.mp there (lifecycle.deleted_iff.mpr fun side another from_ => ?_)
    cases side with
    | incoming => exact Option.some.inj from_ ▸ closed
    | outgoing => exact nomatch fresh.symm.trans from_
  exact {
    closed_together := by
      intro side other another _ from_ _ closed
      rw [joined_phase] at closed
      cases side with
      | incoming => exact absurd (Option.some.inj from_ ▸ closed) accepted
      | outgoing => exact absurd (Option.some.inj (joined_attached.symm.trans from_) ▸ closed) alive
    deleted_iff := by
      rw [joined_deleted, there]
      refine iff_of_false nofun fun closed => accepted ?_
      simpa using closed .incoming .accepted rfl
    deletions := by
      rw [joined_deleted]
      exact lifecycle.deletions
    sound := lifecycle.sound }

end Joined

namespace Core

/-- What `writableTo` tells about the socket that a record is written to. -/
theorem exists_of_writableTo (core : Core none state past) (from_ : source state side = some socket)
    (ready : writableTo state (state.clients side.peer).tcp) :
    ∃ target, dest state side = some target ∧ (state.tcps target).writable ∧
      (state.tcps target).phase = .opened := by
  obtain ⟨target, named, writable⟩ := Option.any_eq_true _ _ |>.mp ready
  refine ⟨target, ?_, writable, core.writable target writable⟩
  rw [core.tcp side.peer] at named
  rw [← Option.eq_some_of_filter_eq_some named]
  refine dest_eq ?_
  cases side with
  | incoming => exact .inl rfl
  | outgoing => exact .inr fun none => nomatch from_.symm.trans none

/-- Nothing is outstanding on the target of a record whose output string is empty. -/
theorem requests_eq_nil (core : Core none state past) (target : dest state side = some socket)
    (empty : state.outOf side = []) : (state.tcps socket).requests = [] := by
  rcases core.writing side socket target with none | ⟨-, full⟩
  · exact none
  · exact absurd empty full

theorem onData (core : Core none state past) (from_ : source state side = some socket)
    (bytes : List UInt8) :
    Core none (onData bytes side state).1
      (past ++ ([.received socket bytes] ++ (onData bytes side state).2)) := by
  have appended := core.append from_ bytes
  have outOf : (state.setString (state.clients side).dataIn (state.inOf side ++ bytes)).outOf side =
      state.outOf side := core.pointers.outOf_setIn _
  rw [← List.append_assoc]
  simp only [Forwarder.onData]
  split
  · next some =>
    split
    · next ready =>
      obtain ⟨writable, empty⟩ := ready
      obtain ⟨target, into, -, opened⟩ := core.exists_of_writableTo from_ writable
      have empty : state.outOf side = [] := List.eq_nil_of_length_eq_zero (outOf ▸ empty)
      rw [into] at appended
      refine appended.flush into ?_ (core.requests_eq_nil into empty) (outOf.trans empty) ?_
      · simp [opened]
      · rw [core.pointers.inOf_setIn, if_pos touched_self]
        exact List.append_ne_nil_of_right_ne_nil _ (List.ne_nil_of_length_pos some)
    · next unready =>
      rw [List.append_nil]
      refine appended.tighten ?_ ?_
      · intro other target also _ opened quiet
        rw [core.pointers.outOf_setIn]
        exact core.idle other target also nofun opened quiet
      · intro other target also into writable empty
        refine absurd ⟨?_, ?_⟩ unready
        · exact Option.any_eq_true _ _ |>.mpr ⟨target, core.named_peer into
            (by simp [core.writable target writable]), writable⟩
        · rw [core.pointers.outOf_setIn] at empty
          have same := core.pointers.outOf_touched (touched_of_dest into also)
          exact List.length_eq_zero_iff.mpr (outOf.trans (same.symm.trans empty))
  · next none =>
    have nil : bytes = [] := List.eq_nil_of_length_eq_zero (by omega)
    subst nil
    rw [List.append_nil]
    exact core.shut (.of_silent state (by simp) (by simp))

theorem onSend (core : Core (some socket) state past)
    (target : dest state side.peer = some socket) (alive : (state.tcps socket).phase ≠ .closed)
    (quiet : (state.tcps socket).requests = []) :
    Core none (onSend side state).1
      (past ++ ([.completed socket (state.outOf side.peer)] ++ (onSend side state).2)) := by
  have cleared := core.clear target quiet
  have outOf : (state.setString (state.clients side.peer).dataOut []).outOf side.peer = [] := by
    rw [core.pointers.outOf_setOut, if_pos touched_self]
  rw [← List.append_assoc]
  simp only [Forwarder.onSend]
  split
  · next some =>
    have flushed := cleared.flush target alive quiet outOf (List.ne_nil_of_length_pos some)
    rwa [Side.peer_peer] at flushed
  · next none =>
    have inOf := List.eq_nil_of_length_eq_zero (Nat.eq_zero_of_not_pos none)
    rw [List.append_nil]
    refine cleared.tighten ?_ ?_
    · rintro other _ also ⟨⟩ - -
      rw [cleared.pointers.outOf_touched (touched_of_dest target also), outOf]
    · rintro other _ also ⟨⟩ - -
      rw [cleared.pointers.inOf_touched (touched_of_dest target also), inOf]

theorem setOutgoing_eq (core : Core none state past) (alive : (state.tcps socket).phase ≠ .closed) :
    setOutgoing socket state =
      if ((joined socket state).inOf .incoming).length > 0 ∧
          ((joined socket state).outOf .incoming).length = 0 then
        Forwarder.write ((Forwarder.swap .incoming (joined socket state)).clients .outgoing).tcp
          ((Forwarder.swap .incoming (joined socket state)).clients .incoming).dataOut
          (Forwarder.swap .incoming (joined socket state))
      else
        (joined socket state, []) := by
  cases socket with
  | accepted =>
      have same := core.named (show source state .incoming = _ from rfl) alive
      simp [setOutgoing, joined, same]
  | connected =>
      have apart : (state.clients .incoming).tcp ≠ some .connected := by
        intro same
        have accepted := core.tcp .incoming
        rw [same] at accepted
        exact nomatch Option.eq_some_of_filter_eq_some accepted.symm
      simp [setOutgoing, joined, apart.symm]

theorem join (core : Core none state past) (there : state.deleted = false) (fresh : state.attached = none)
    (alive : (state.tcps socket).phase ≠ .closed) : Core (some socket) (joined socket state) past := by
  obtain ⟨empty, unheard, uncompleted⟩ := core.unattached fresh
  have idle (another : Socket) : ((joined socket state).tcps another).requests = [] := by
    rw [joined_requests]
    exact core.unused another fun side => by cases side <;> simp [dest, fresh]
  have flown (side : Side) : (joined socket state).outOf side = [] := by
    rw [joined_outOf]
    exact empty _
  have incoming := core.balanced .incoming
  have outgoing := core.balanced .outgoing
  simp only [lane, source, dest, fresh, Option.elim, Option.map_none, empty, DoubleBuffer.Balanced,
    List.append_nil, List.nil_append] at incoming outgoing
  constructor
  case pointers => exact core.pointers.joined fresh
  case tcp =>
    intro side
    cases side with
    | incoming => simpa [joined_incoming_tcp, source] using core.tcp .incoming
    | outgoing => simp [joined_outgoing_tcp, source, Option.filter, alive]
  case accepted_handlers =>
    rw [joined_handlers]
    simpa using core.accepted_handlers
  case connected_handlers =>
    rw [joined_handlers]
    cases socket <;> simp [core.connected_handlers, fresh]
  case writing => exact fun side another _ => .inl (idle another)
  case unused => exact fun another _ => idle another
  case idle => exact fun side another _ _ _ _ => flown side
  case flushed =>
    intro side another also strict _ _
    cases side with
    | incoming => exact absurd (joined_attached.symm.trans also) strict
    | outgoing =>
      cases socket with
      | accepted => exact absurd also strict
      | connected =>
        rw [joined_inOf]
        exact outgoing.symm
  case unattached => exact fun none => absurd none (by simp)
  case lifecycle => exact core.lifecycle.joined fresh there alive
  case writable =>
    intro another
    simpa using core.writable another
  case balanced =>
    intro side
    cases socket <;> cases side <;>
      simp [lane, DoubleBuffer.Balanced, source, dest, uncompleted, unheard, flown, joined_inOf,
        lender, incoming, ← outgoing]

theorem setOutgoing (core : Core none state past) (there : state.deleted = false)
    (fresh : state.attached = none) (alive : (state.tcps socket).phase ≠ .closed) :
    Core none (setOutgoing socket state).1 (past ++ (setOutgoing socket state).2) := by
  have joined := core.join there fresh alive
  have target : dest (Forwarder.joined socket state) .incoming = some socket := joined_attached
  have alive : ((Forwarder.joined socket state).tcps socket).phase ≠ .closed := by simpa
  have quiet : ((Forwarder.joined socket state).tcps socket).requests = [] := by
    rw [joined_requests]
    exact core.unused socket fun side => by cases side <;> simp [dest, fresh]
  have empty : (Forwarder.joined socket state).outOf .incoming = [] := by
    rw [joined_outOf]
    exact (core.unattached fresh).1 _
  rw [core.setOutgoing_eq (by simpa using alive)]
  split
  · next some =>
    exact joined.flush target alive quiet empty (List.ne_nil_of_length_pos some.1)
  · next none =>
    rw [List.append_nil]
    have drained : (Forwarder.joined socket state).inOf .incoming = [] := by
      by_contra full
      exact none ⟨List.length_pos_of_ne_nil full, by simp [empty]⟩
    refine joined.tighten ?_ ?_
    · rintro other _ also ⟨⟩ - -
      rw [joined.pointers.outOf_touched (touched_of_dest target also), empty]
    · rintro other _ also ⟨⟩ - -
      rw [joined.pointers.inOf_touched (touched_of_dest target also), drained]

/-- A socket that is not closed hands its bytes to its record, if it has one. -/
theorem deliver_cases (core : Core none state past) (alive : (state.tcps socket).phase ≠ .closed)
    (bytes : List UInt8) :
    (state.tcps socket).handlers = none ∧
        deliver socket bytes state = (state, [.dropped socket bytes]) ∨
      ∃ side, (state.tcps socket).handlers = some side ∧ source state side = some socket ∧
        deliver socket bytes state =
          Reaction.andThen (state, [.received socket bytes]) (Forwarder.onData bytes side) := by
  cases registered : (state.tcps socket).handlers with
  | none => exact .inl ⟨rfl, by simp [deliver, registered]⟩
  | some side =>
      have from_ := core.source_of_handler registered
      have there := core.not_deleted from_ alive
      exact .inr ⟨side, rfl, from_, by simp [deliver, notify, registered, there]⟩

/-- A socket with a request is the target of a record, and this is its only one. -/
theorem exists_writer {request : Request} {rest : List Request} (core : Core none state past)
    (outstanding : (state.tcps socket).requests = request :: rest) :
    ∃ side, dest state side = some socket ∧ rest = [] ∧
      request = ⟨(state.clients side).dataOut, state.outOf side⟩ := by
  by_contra none
  have strange (side : Side) : dest state side ≠ some socket := by
    intro target
    refine none ⟨side, target, ?_⟩
    rcases core.writing side socket target with idle | ⟨busy, -⟩
    · exact nomatch outstanding.symm.trans idle
    · rw [outstanding, List.cons.injEq] at busy
      exact ⟨busy.2, busy.1⟩
  exact nomatch outstanding.symm.trans (core.unused socket strange)

theorem sent {request : Request} {rest : List Request} (core : Core none state past)
    (alive : (state.tcps socket).phase ≠ .closed)
    (outstanding : (state.tcps socket).requests = request :: rest) :
    Core none (Reaction.andThen (state.setRequests socket rest, [.completed socket request.bytes])
        (notify socket Forwarder.onSend)).1
      (past ++ (Reaction.andThen (state.setRequests socket rest, [.completed socket request.bytes])
        (notify socket Forwarder.onSend)).2) := by
  obtain ⟨writer, target, rfl, rfl⟩ := core.exists_writer outstanding
  obtain ⟨side, registered, from_⟩ := core.handler (used_of_dest target)
  have dropped := core.drop target
  have there := core.not_deleted from_ alive
  have reads : dest state side.peer = some socket := by
    rw [dest_eq (.inr (attached_of_dest target)), Side.peer_peer, from_]
  have same : state.outOf writer = state.outOf side.peer :=
    core.pointers.outOf_touched (touched_of_dest reads target)
  simp only [Reaction.andThen, notify, State.setRequests_handlers, registered,
    State.setRequests_deleted, there, same]
  exact dropped.onSend reads (by simpa using alive) (by simp)

/-- A failed write closes the socket. -/
theorem failed {request : Request} {rest : List Request} (core : Core none state past)
    (opened : (state.tcps socket).phase = .opened)
    (outstanding : (state.tcps socket).requests = request :: rest) :
    Core none (notify socket onError (state.setRequests socket rest)).1
      (past ++ (notify socket onError (state.setRequests socket rest)).2) := by
  obtain ⟨writer, target, rfl, rfl⟩ := core.exists_writer outstanding
  obtain ⟨side, registered, from_⟩ := core.handler (used_of_dest target)
  have dropped := core.drop target
  have alive : ((state.setRequests socket []).tcps socket).phase ≠ .closed := by simp [opened]
  have there := dropped.not_deleted from_ alive
  refine (dropped.shut (.of_notify (dropped.callable alive))).settle ?_
  simp only [notify, State.setRequests_handlers, registered, there]
  exact onError_phase (dropped.named from_ alive)

/-- The close callback runs after the requests of the socket were cancelled. -/
theorem closed (core : Core none state past) (closing : (state.tcps socket).phase = .closing) :
    Core none
      (((cancel socket (state.tcps socket).requests state).andThen fun state =>
        (ended socket state, [])).andThen (notify socket (onClose socket))).1
      (past ++ (((cancel socket (state.tcps socket).requests state).andThen fun state =>
        (ended socket state, [])).andThen (notify socket (onClose socket))).2) := by
  have alive : (state.tcps socket).phase ≠ .closed := by simp [closing]
  have cancelled := Shut.of_cancel (state.tcps socket).requests (core.callable alive)
  have after := core.shut cancelled
  simp only [Reaction.andThen, List.append_nil, ← List.append_assoc]
  generalize cancel socket (state.tcps socket).requests state = effect at cancelled after
  have closing : (effect.1.tcps socket).phase = .closing := by
    cases phase : (effect.1.tcps socket).phase with
    | opened => cases closing.symm.trans (cancelled.opened socket phase)
    | closing => rfl
    | closed => exact absurd ((cancelled.closed socket).mp phase) alive
  have handlers : ((ended socket effect.1).tcps socket).handlers =
      (effect.1.tcps socket).handlers := by simp [ended]
  cases registered : (effect.1.tcps socket).handlers with
  | none =>
      simp only [notify, handlers, registered, List.append_nil]
      exact after.closed_unread closing registered
  | some side =>
      have there : (ended socket effect.1).deleted = false :=
        after.not_deleted (after.source_of_handler registered) (by simp [closing])
      simp only [notify, handlers, registered, there]
      exact after.closed_read closing registered

/-- Every label keeps the ledgers. -/
theorem step {label : Label} {effect : Effect} (core : Core none state past)
    (moved : Forwarder.step state label = some effect) :
    Core none effect.1 (past ++ effect.2) := by
  cases label with
  | data socket bytes =>
      simp only [Forwarder.step] at moved
      split at moved
      · next opened =>
        obtain rfl := Option.some.inj moved
        rcases core.deliver_cases (show (state.tcps socket).phase ≠ .closed by simp [opened])
          bytes with ⟨-, same⟩ | ⟨side, -, from_, same⟩
        · rw [same]
          exact core.shut (.of_silent state (fun _ => ⟨rfl, rfl⟩) (by simp))
        · rw [same]
          exact core.onData from_ bytes
      · cases moved
  | sent socket =>
      simp only [Forwarder.step] at moved
      split at moved
      · next request rest outstanding =>
        split at moved
        · next alive =>
          obtain rfl := Option.some.inj moved
          exact core.sent alive outstanding
        · cases moved
      · cases moved
  | eof socket =>
      simp only [Forwarder.step] at moved
      split at moved
      · obtain rfl := Option.some.inj moved
        have ended : Shut state state [.ended socket] :=
          .of_silent state (fun _ => ⟨rfl, rfl⟩) (by simp)
        exact core.shut (ended.trans (.of_close socket socket state))
      · cases moved
  | readError socket =>
      simp only [Forwarder.step] at moved
      split at moved
      · next opened =>
        obtain rfl := Option.some.inj moved
        exact core.shut (.of_notify (core.callable (by simp [opened])))
      · cases moved
  | writeError socket =>
      simp only [Forwarder.step] at moved
      split at moved
      · next request rest opened outstanding =>
        obtain rfl := Option.some.inj moved
        exact core.failed opened outstanding
      · cases moved
  | closed socket =>
      simp only [Forwarder.step] at moved
      split at moved
      · next closing =>
        obtain rfl := Option.some.inj moved
        exact core.closed closing
      · cases moved
  | close socket =>
      simp only [Forwarder.step] at moved
      split at moved
      · obtain rfl := Option.some.inj moved
        exact core.shut (.of_close socket socket state)
      · cases moved
  | setOutgoing socket =>
      simp only [Forwarder.step] at moved
      split at moved
      · next allowed =>
        obtain rfl := Option.some.inj moved
        exact core.setOutgoing allowed.1 allowed.2.1 allowed.2.2
      · cases moved

end Core

/-- The ledgers and the lifecycle hold in every reachable state. -/
theorem core_of_reaches {writable : Socket → Bool}
    (reached : Machine.Reaches step Machine.always (State.initial writable) state past) :
    Core none state past :=
  reached.invariant (Core none) core_initial fun _ core _ moved => core.step moved

end Nexer.Forwarder

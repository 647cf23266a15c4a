import Nexer.Forwarder.Handlers
import Nexer.Transition.History
import Mathlib.Data.Fintype.Basic

/-!
# What is delivered when a stream ends

A socket that reads the end of its stream closes, and its close callback closes the
other socket at once.  Whatever is queued for the other socket, or being written to
it, at that moment is not delivered.  If nothing is, everything was.
-/

namespace Nexer.Forwarder

open Nexer.Transition

variable {writable : Socket → Bool} {state following : State} {past out : List Event}
variable {side : Side} {socket target cause : Socket}

/-- Before the forwarder closes a socket in a handler of the other one, all that was
received from the other one has been completed on it. -/
def Delivered (before : List Event) (event : Event) : Prop :=
  ∀ target cause, event = .closing target cause → target ≠ cause →
    receivedFrom cause before = completedOn target before

/-- Nothing that was received from the socket is on its way to another, open one. -/
def Drained (socket : Socket) (state : State) : Prop :=
  ∀ side target, source state side = some socket → dest state side = some target →
    target ≠ socket → (state.tcps target).phase = .opened →
      state.outOf side = [] ∧ state.inOf side = []

instance : Fintype Side := ⟨{.incoming, .outgoing}, fun side => by cases side <;> decide⟩

instance : Fintype Socket := ⟨{.accepted, .connected}, fun socket => by cases socket <;> decide⟩

instance : Decidable (Drained socket state) := by
  unfold Drained
  infer_instance

/-- Neither reads nor writes are reported to have failed. -/
def withoutErrors (_ : State) : Label → Prop
  | .readError _ | .writeError _ => False
  | _ => True

/-- Nothing is on its way to the other socket when the close callback of a socket
runs, or when a write is reported on a socket that is closing, for which more bytes
are queued. -/
def drained (state : State) : Label → Prop
  | .closed socket => Drained socket state
  | .sent socket =>
      (state.tcps socket).writable = false →
        (∃ side, dest state side = some socket ∧ state.inOf side ≠ []) → Drained socket state
  | label => withoutErrors state label

instance : ∀ state label, Decidable (withoutErrors state label) := by
  intro state label
  cases label <;> unfold withoutErrors <;> infer_instance

instance : ∀ state label, Decidable (drained state label) := by
  intro state label
  cases label <;> unfold drained <;> infer_instance

/-- A handler of the socket closes the other socket, which is open. -/
def Severs (socket : Socket) (state : State) (target cause : Socket) : Prop :=
  cause = socket ∧ ∃ side, (state.tcps socket).handlers = some side ∧
    (state.clients side.peer).tcp = some target ∧ (state.tcps target).phase = .opened

theorem Severs.of_shut (severs : Severs socket following target cause)
    (shut : Shut state following out) : Severs socket state target cause := by
  obtain ⟨same, side, registered, named, opened⟩ := severs
  rw [shut.handlers] at registered
  rw [shut.clients] at named
  exact ⟨same, side, registered, named, shut.opened target opened⟩

theorem Severs.congr (severs : Severs socket following target cause)
    (handlers : ∀ another, (following.tcps another).handlers = (state.tcps another).handlers)
    (tcp : ∀ side, (following.clients side).tcp = (state.clients side).tcp)
    (phase : ∀ another, (following.tcps another).phase = (state.tcps another).phase) :
    Severs socket state target cause := by
  simpa only [Severs, handlers, tcp, phase] using severs

theorem closing_of_close {other : Socket}
    (member : .closing target cause ∈ (close socket other state).2) :
    target = socket ∧ cause = other ∧ (state.tcps socket).phase = .opened := by
  unfold close at member
  split at member
  · next opened =>
    simp only [List.mem_singleton, Event.closing.injEq] at member
    exact ⟨member.1, member.2, opened⟩
  · cases member

theorem severs_of_notify
    (named : ∀ side, (state.tcps socket).handlers = some side →
      (state.clients side).tcp = some socket)
    (apart : target ≠ cause) (member : .closing target cause ∈ (notify socket onError state).2) :
    Severs socket state target cause := by
  unfold notify at member
  split at member
  · cases member
  · next side registered =>
    split at member
    · simp at member
    · simp only [onError, named side registered, Reaction.andThen, List.mem_append] at member
      rcases member with own | other
      · obtain ⟨rfl, rfl, -⟩ := closing_of_close own
        exact absurd rfl apart
      · split at other
        · cases other
        · next peer there =>
          obtain ⟨rfl, rfl, opened⟩ := closing_of_close other
          have shut := Shut.of_close cause cause state
          rw [shut.clients] at there
          exact ⟨rfl, side, registered, there, shut.opened target opened⟩

theorem severs_of_cancel (requests : List Request) (callable : Callable socket state)
    (named : ∀ side, (state.tcps socket).handlers = some side →
      (state.clients side).tcp = some socket)
    (apart : target ≠ cause) (member : .closing target cause ∈ (cancel socket requests state).2) :
    Severs socket state target cause := by
  induction requests generalizing state with
  | nil => cases member
  | cons request rest ih =>
      have shut := Shut.of_notify callable
      simp only [cancel, Reaction.andThen, List.mem_append] at member
      rcases member with first | later
      · exact severs_of_notify named apart first
      · refine (ih (shut.callable callable) ?_ later).of_shut shut
        rw [shut.clients, shut.handlers]
        exact named

namespace Core

/-- What was received from a drained socket has been completed on the one it severs. -/
theorem delivered (core : Core none state past) (severs : Severs socket state target cause)
    (apart : target ≠ cause) (drained : Drained socket state) :
    receivedFrom cause past = completedOn target past := by
  obtain ⟨rfl, side, registered, named, opened⟩ := severs
  have from_ := core.source_of_handler registered
  rw [core.tcp side.peer] at named
  have into : dest state side = some target := by
    rw [dest_eq]
    · exact Option.eq_some_of_filter_eq_some named
    · cases side with
      | incoming => exact .inl rfl
      | outgoing => exact .inr fun none => nomatch from_.symm.trans none
  have delivered := (core.balanced side).delivered_iff.mpr (drained side target from_ into apart opened)
  simpa [lane, from_, into] using delivered

theorem names {loose : Option Socket} (core : Core loose state past) (alive : (state.tcps socket).phase ≠ .closed)
    (side : Side) (registered : (state.tcps socket).handlers = some side) :
    (state.clients side).tcp = some socket :=
  core.named (core.source_of_handler registered) alive

end Core

/-- The events of a step close another socket only if all bytes for it have been
completed, and then no more of these bytes are in the step. -/
def Fulfilled (past : List Event) (effect : Effect) : Prop :=
  ∀ target cause, target ≠ cause → .closing target cause ∈ effect.2 →
    receivedFrom cause past = completedOn target past ∧
      receivedFrom cause effect.2 = [] ∧ completedOn target effect.2 = []

theorem Fulfilled.historically {effect : Effect} (fulfilled : Fulfilled past effect)
    (delivered : Historically Delivered past) : Historically Delivered (past ++ effect.2) := by
  refine delivered.append ?_
  rintro before _ after split target cause rfl apart
  obtain ⟨equal, unheard, uncompleted⟩ := fulfilled target cause apart (by simp [split])
  rw [split, receivedFrom_append, List.append_eq_nil_iff] at unheard
  rw [split, completedOn_append, List.append_eq_nil_iff] at uncompleted
  rw [receivedFrom_append, completedOn_append, unheard.1, uncompleted.1, equal]

theorem Callable.swap (callable : Callable socket state) :
    Callable socket (Forwarder.swap side state) := by
  simpa [Callable] using callable

theorem Callable.setString {cell : Cell} {bytes : List UInt8} (callable : Callable socket state) :
    Callable socket (state.setString cell bytes) :=
  callable

theorem silent_of_write {cell : Cell} (callable : Callable socket state) (another : Socket) :
    receivedFrom another (write (some socket) cell state).2 = [] ∧
      completedOn another (write (some socket) cell state).2 = [] := by
  simp only [write]
  split
  · exact ⟨rfl, rfl⟩
  · exact (Shut.of_notify callable).silent another

theorem severs_of_write {cell : Cell}
    (named : ∀ side, (state.tcps socket).handlers = some side →
      (state.clients side).tcp = some socket)
    (apart : target ≠ cause) (member : .closing target cause ∈ (write (some socket) cell state).2) :
    Severs socket state target cause ∧ (state.tcps socket).writable = false := by
  simp only [write] at member
  split at member
  · simp at member
  · next refused => exact ⟨severs_of_notify named apart member, Bool.eq_false_iff.mpr refused⟩

theorem silent_of_onSend (callable : Callable socket state)
    (own : (state.clients side).tcp = some socket) (another : Socket) :
    receivedFrom another (onSend side state).2 = [] ∧
      completedOn another (onSend side state).2 = [] := by
  simp only [onSend]
  split
  · simp only [swap_tcp, State.setString_clients, own]
    exact silent_of_write (callable.setString.swap) another
  · exact ⟨rfl, rfl⟩

theorem severs_of_onSend (pointers : Pointers state)
    (named : ∀ side, (state.tcps socket).handlers = some side →
      (state.clients side).tcp = some socket)
    (own : (state.clients side).tcp = some socket) (apart : target ≠ cause)
    (member : .closing target cause ∈ (onSend side state).2) :
    Severs socket state target cause ∧ (state.tcps socket).writable = false ∧
      state.inOf side.peer ≠ [] := by
  simp only [onSend] at member
  split at member
  · next queued =>
    rw [pointers.inOf_setOut] at queued
    simp only [swap_tcp, State.setString_clients, own] at member
    obtain ⟨severs, refused⟩ := severs_of_write (by simpa using named) apart member
    refine ⟨severs.congr (by simp) (by simp) (by simp), by simpa using refused, ?_⟩
    exact List.ne_nil_of_length_pos queued
  · cases member

theorem silent_of_onClose (another : Socket) :
    receivedFrom another (notify socket (onClose socket) state).2 = [] ∧
      completedOn another (notify socket (onClose socket) state).2 = [] := by
  unfold notify
  split
  · exact ⟨rfl, rfl⟩
  · split
    · exact ⟨rfl, rfl⟩
    · rw [onClose_eq]
      split
      · exact ⟨rfl, rfl⟩
      · exact (Shut.of_close _ _ _).silent another

theorem severs_of_onClose
    (named : ∀ side, (state.tcps socket).handlers = some side →
      (state.clients side).tcp = some socket)
    (member : .closing target cause ∈ (notify socket (onClose socket) (ended socket state)).2) :
    Severs socket state target cause := by
  unfold notify at member
  split at member
  · cases member
  · next side registered =>
    split at member
    · simp at member
    · rw [onClose_eq] at member
      split at member
      · simp at member
      · next other there =>
        obtain ⟨rfl, rfl, opened⟩ := closing_of_close member
        have registered : (state.tcps cause).handlers = some side := by simpa [ended] using registered
        have own : ((ended cause state).clients side).tcp = some cause := named side registered
        rw [dropped_clients own] at there
        dsimp only at there
        split at there
        · cases there
        · next apart =>
          have other : target ≠ cause := by
            rintro rfl
            exact apart there
          refine ⟨rfl, side, registered, there, ?_⟩
          rw [(dropped_fields side _).2.2.1] at opened
          simpa [ended, other] using opened

/-- Data is only written to a socket that takes it. -/
theorem closing_not_mem_onData {bytes : List UInt8} :
    .closing target cause ∉ (onData bytes side state).2 := by
  simp only [onData]
  split
  · split
    · next ready =>
      obtain ⟨peer, there, writable⟩ := Option.any_eq_true _ _ |>.mp ready.1
      simp only [swap_tcp, there, write, swap_tcps, writable]
      simp
    · simp
  · simp

namespace Core

theorem fulfilled_sent {request : Request} {rest : List Request} (core : Core none state past)
    (alive : (state.tcps socket).phase ≠ .closed)
    (outstanding : (state.tcps socket).requests = request :: rest)
    (drained : (state.tcps socket).writable = false →
      (∃ side, dest state side = some socket ∧ state.inOf side ≠ []) → Drained socket state) :
    Fulfilled past (Reaction.andThen
      (state.setRequests socket rest, [.completed socket request.bytes])
        (notify socket Forwarder.onSend)) := by
  obtain ⟨writer, into, rfl, rfl⟩ := core.exists_writer outstanding
  obtain ⟨side, registered, from_⟩ := core.handler (used_of_dest into)
  have there := core.not_deleted from_ alive
  have reads : dest state side.peer = some socket := by
    rw [dest_eq (.inr (attached_of_dest into)), Side.peer_peer, from_]
  have dropped := core.drop into
  have alive' : ((state.setRequests socket []).tcps socket).phase ≠ .closed := by simpa
  have own : ((state.setRequests socket []).clients side).tcp = some socket :=
    dropped.named from_ alive'
  simp only [Reaction.andThen, notify, State.setRequests_handlers, registered,
    State.setRequests_deleted, there, Bool.false_eq_true, if_false]
  intro target cause apart member
  simp only [List.singleton_append, List.mem_cons, reduceCtorEq, false_or] at member
  obtain ⟨severs, refused, queued⟩ :=
    severs_of_onSend dropped.pointers (dropped.names alive') own apart member
  rw [State.setRequests_writable] at refused
  have same : Severs socket state target cause :=
    severs.congr State.setRequests_handlers (fun _ => rfl) State.setRequests_phase
  obtain rfl := same.1
  have silent (another : Socket) := silent_of_onSend (dropped.callable alive') own another
  refine ⟨core.delivered same apart (drained refused ⟨side.peer, reads, queued⟩), ?_, ?_⟩
  · exact (silent cause).1
  · rw [completedOn_append, completedOn_completed, if_neg (Ne.symm apart), (silent target).2]
    rfl

theorem fulfilled_setOutgoing (core : Core none state past) (there : state.deleted = false)
    (fresh : state.attached = none) (alive : (state.tcps socket).phase ≠ .closed) :
    Fulfilled past (Forwarder.setOutgoing socket state) := by
  have after := core.join there fresh alive
  have alive' : ((joined socket state).tcps socket).phase ≠ .closed := by simpa
  obtain ⟨-, unheard, uncompleted⟩ := core.unattached fresh
  intro target cause apart member
  rw [core.setOutgoing_eq alive] at member ⊢
  split at member
  · next ready =>
    rw [if_pos ready]
    simp only [swap_tcp, joined_outgoing_tcp] at member ⊢
    obtain ⟨⟨rfl, side, -, named, -⟩, -⟩ :=
      severs_of_write (by simpa using after.names alive') apart member
    have callable : Callable cause (Forwarder.swap .incoming (joined cause state)) :=
      (after.callable alive').swap
    refine ⟨?_, (silent_of_write callable cause).1, (silent_of_write callable target).2⟩
    rw [uncompleted]
    cases cause with
    | connected => exact unheard
    | accepted =>
      -- In echo mode there is no other socket.
      rw [swap_tcp, after.tcp] at named
      have reads := Option.eq_some_of_filter_eq_some named
      cases side <;> cases reads <;> exact absurd rfl apart
  · cases member

theorem fulfilled_closed (core : Core none state past) (closing : (state.tcps socket).phase = .closing)
    (drained : Drained socket state) :
    Fulfilled past (((cancel socket (state.tcps socket).requests state).andThen
      fun state => (ended socket state, [])).andThen (notify socket (onClose socket))) := by
  have alive : (state.tcps socket).phase ≠ .closed := by simp [closing]
  have cancelled := Shut.of_cancel (state.tcps socket).requests (core.callable alive)
  intro target cause apart member
  simp only [Reaction.andThen, List.append_nil, List.mem_append] at member ⊢
  have severs : Severs socket state target cause := by
    rcases member with first | last
    · exact severs_of_cancel _ (core.callable alive) (core.names alive) apart first
    · have after := core.shut cancelled
      have alive' := mt (cancelled.closed socket).mp alive
      exact (severs_of_onClose (after.names alive') last).of_shut cancelled
  refine ⟨core.delivered severs apart drained, ?_, ?_⟩
  · rw [receivedFrom_append, (cancelled.silent cause).1, (silent_of_onClose cause).1]
    rfl
  · rw [completedOn_append, (cancelled.silent target).2, (silent_of_onClose target).2]
    rfl

/-- Under the guard, a step closes another socket only after all bytes for it. -/
theorem fulfilled {label : Label} {effect : Effect} (core : Core none state past)
    (allowed : drained state label) (moved : Forwarder.step state label = some effect) :
    Fulfilled past effect := by
  cases label with
  | data socket bytes =>
      simp only [Forwarder.step] at moved
      split at moved
      · next opened =>
        obtain rfl := Option.some.inj moved
        intro target cause _ member
        obtain ⟨-, same⟩ | ⟨side, -, -, same⟩ :=
          core.deliver_cases (show (state.tcps socket).phase ≠ .closed by simp [opened]) bytes
        · simp [same] at member
        · simp only [same, Reaction.andThen, List.singleton_append, List.mem_cons, reduceCtorEq,
            false_or] at member
          exact absurd member closing_not_mem_onData
      · cases moved
  | sent socket =>
      simp only [Forwarder.step] at moved
      split at moved
      · next request rest outstanding =>
        split at moved
        · next alive =>
          obtain rfl := Option.some.inj moved
          exact core.fulfilled_sent alive outstanding allowed
        · cases moved
      · cases moved
  | eof socket =>
      simp only [Forwarder.step] at moved
      split at moved
      · obtain rfl := Option.some.inj moved
        intro target cause apart member
        simp only [Reaction.andThen, List.singleton_append, List.mem_cons, reduceCtorEq,
          false_or] at member
        obtain ⟨rfl, rfl, -⟩ := closing_of_close member
        exact absurd rfl apart
      · cases moved
  | readError socket => cases allowed
  | writeError socket => cases allowed
  | closed socket =>
      simp only [Forwarder.step] at moved
      split at moved
      · next closing =>
        obtain rfl := Option.some.inj moved
        exact core.fulfilled_closed closing allowed
      · cases moved
  | close socket =>
      simp only [Forwarder.step] at moved
      split at moved
      · obtain rfl := Option.some.inj moved
        intro target cause apart member
        obtain ⟨rfl, rfl, -⟩ := closing_of_close member
        exact absurd rfl apart
      · cases moved
  | setOutgoing socket =>
      simp only [Forwarder.step] at moved
      split at moved
      · next ready =>
        obtain rfl := Option.some.inj moved
        exact core.fulfilled_setOutgoing ready.1 ready.2.1 ready.2.2
      · cases moved

end Core

/-- In every run in which nothing is left on its way, the forwarder closes a socket
for the other one only when it has delivered all that the other one sent. -/
theorem delivered_before_close
    (reached : Machine.Reaches step drained (State.initial writable) state past) :
    Historically Delivered past := by
  refine reached.invariant (fun _ => Historically Delivered) historically_nil ?_
  intro state following past out label before delivered allowed moved
  have core := core_of_reaches (before.mono fun _ _ _ => trivial)
  exact (core.fulfilled allowed moved).historically delivered

/-- The bytes before the end of the stream are written before the close callback. -/
theorem delivered_before_close_run :
    ∃ before after, Historically Delivered (before ++ .closing .connected .accepted :: after) ∧
      receivedFrom .accepted before = [1, 2] ∧ receivedFrom .accepted before =
        completedOn .connected before := by
  obtain ⟨state, reached, -⟩ := Machine.exists_reaches
    step drained (State.initial fun _ => true)
    [.setOutgoing .connected, .data .accepted [1], .data .accepted [2], .eof .accepted,
      .sent .connected, .sent .connected, .closed .accepted]
    ([.received .accepted [1], .write .connected ⟨⟨.incoming, false⟩, [1]⟩,
      .received .accepted [2], .ended .accepted, .closing .accepted .accepted,
      .completed .connected [1], .write .connected ⟨⟨.incoming, true⟩, [2]⟩,
      .completed .connected [2]] ++ .closing .connected .accepted :: [])
    (fun _ => true) (by decide)
  have delivered := delivered_before_close reached
  exact ⟨_, _, delivered, by decide, delivered _ _ _ rfl _ _ rfl (by decide)⟩

/-- The stream ends while its last bytes are being written to the other socket. -/
theorem dropped_at_end_of_stream :
    ∃ state before after,
      Machine.Reaches step withoutErrors (State.initial fun _ => true) state
        (before ++ .closing .connected .accepted :: after) ∧
      state.attached = some .connected ∧ .ended .accepted ∈ before ∧
      receivedFrom .accepted before = [1] ∧ completedOn .connected before = [] := by
  obtain ⟨state, reached, checked⟩ := Machine.exists_reaches
    step withoutErrors (State.initial fun _ => true)
    [.setOutgoing .connected, .data .accepted [1], .eof .accepted, .closed .accepted]
    ([.received .accepted [1], .write .connected ⟨⟨.incoming, false⟩, [1]⟩, .ended .accepted,
      .closing .accepted .accepted] ++ .closing .connected .accepted :: [])
    (fun state => decide (state.attached = some .connected)) (by decide)
  exact ⟨state, _, _, reached, of_decide_eq_true checked, by decide, by decide, by decide⟩

end Nexer.Forwarder

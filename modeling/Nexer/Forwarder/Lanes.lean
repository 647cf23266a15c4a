import Nexer.Forwarder.Pointers
import Nexer.Stream.DoubleBuffer

/-!
# The two directions of a forwarder as double buffers

The purpose of a record is a double buffer between the socket that it reads and
the socket that its bytes are written to.  `Core` relates the state of the
forwarder, its pointers and its write requests to the ledgers of these buffers.
It can exempt one socket, to which a write is about to be made.
-/

namespace Nexer.Forwarder

open Nexer.Transition Nexer.Stream

def receivedFrom (socket : Socket) (past : List Event) : List UInt8 :=
  past.flatMap fun
    | .received other bytes => if other = socket then bytes else []
    | _ => []

def completedOn (socket : Socket) (past : List Event) : List UInt8 :=
  past.flatMap fun
    | .completed other bytes => if other = socket then bytes else []
    | _ => []

/-- The socket that a record reads, since it was given one. -/
def source (state : State) : Side → Option Socket
  | .incoming => some .accepted
  | .outgoing => state.attached

/-- The socket that the bytes of a record are written to. -/
def dest (state : State) : Side → Option Socket
  | .incoming => state.attached
  | .outgoing => state.attached.map fun _ => .accepted

/-- The double buffer of a record, with its history. -/
def lane (state : State) (past : List Event) (side : Side) : DoubleBuffer UInt8 where
  received := (source state side).elim [] (receivedFrom · past)
  completed := (dest state side).elim [] (completedOn · past)
  flying := state.outOf side
  queued := state.inOf side

/-- The forwarder is deleted once, when all of its sockets have closed, and is not
used afterwards; one closed socket has the other one closing. -/
structure Lifecycle (state : State) (past : List Event) : Prop where
  closed_together : ∀ side other socket another, source state side = some socket →
    source state other = some another → (state.tcps socket).phase = .closed →
      (state.tcps another).phase ≠ .opened
  deleted_iff : state.deleted = true ↔
    ∀ side socket, source state side = some socket → (state.tcps socket).phase = .closed
  deletions : past.count .deleted = if state.deleted then 1 else 0
  sound : .nullCall ∉ past ∧ .deadCall ∉ past

/-- The state of a forwarder between two handlers, up to the socket `loose`. -/
structure Core (loose : Option Socket) (state : State) (past : List Event) : Prop where
  pointers : Pointers state
  tcp : ∀ side, (state.clients side).tcp =
    (source state side).filter fun socket => (state.tcps socket).phase ≠ .closed
  accepted_handlers : (state.tcps .accepted).handlers = some .incoming
  connected_handlers : (state.tcps .connected).handlers =
    if state.attached = some .connected then some .outgoing else none
  writing : ∀ side socket, dest state side = some socket →
    (state.tcps socket).requests = [] ∨
      (state.tcps socket).requests = [⟨(state.clients side).dataOut, state.outOf side⟩] ∧
        state.outOf side ≠ []
  unused : ∀ socket, (∀ side, dest state side ≠ some socket) → (state.tcps socket).requests = []
  idle : ∀ side socket, dest state side = some socket → loose ≠ some socket →
    (state.tcps socket).phase = .opened → (state.tcps socket).requests = [] →
      state.outOf side = []
  flushed : ∀ side socket, dest state side = some socket → loose ≠ some socket →
    (state.tcps socket).writable → state.outOf side = [] → state.inOf side = []
  unattached : state.attached = none → (∀ side, state.outOf side = []) ∧
    receivedFrom .connected past = [] ∧ ∀ socket, completedOn socket past = []
  writable : ∀ socket, (state.tcps socket).writable → (state.tcps socket).phase = .opened
  balanced : ∀ side, (lane state past side).Balanced
  lifecycle : Lifecycle state past

theorem lifecycle_initial {writable : Socket → Bool} : Lifecycle (State.initial writable) [] where
  closed_together := by simp [State.initial]
  deleted_iff := by
    simp only [State.initial, Bool.false_eq_true, false_iff]
    intro closed
    cases closed .incoming .accepted rfl
  deletions := rfl
  sound := by simp

theorem core_initial {writable : Socket → Bool} : Core none (State.initial writable) [] where
  pointers := pointers_initial writable
  tcp := by
    intro side
    cases side <;> rfl
  accepted_handlers := rfl
  connected_handlers := rfl
  writing := by simp [State.initial]
  unused := by simp [State.initial]
  idle := by simp [State.initial, State.outOf]
  flushed := by simp [State.initial, State.inOf]
  unattached := by simp [State.initial, State.outOf, receivedFrom, completedOn]
  writable := by simp [State.initial]
  balanced := by
    intro side
    cases side <;> rfl
  lifecycle := lifecycle_initial

variable {loose : Option Socket} {state following : State} {past out : List Event}
variable {side other : Side} {socket : Socket}

@[simp] theorem receivedFrom_append (socket : Socket) (past out : List Event) :
    receivedFrom socket (past ++ out) = receivedFrom socket past ++ receivedFrom socket out :=
  List.flatMap_append

@[simp] theorem completedOn_append (socket : Socket) (past out : List Event) :
    completedOn socket (past ++ out) = completedOn socket past ++ completedOn socket out :=
  List.flatMap_append

@[simp] theorem receivedFrom_received (socket another : Socket) (bytes : List UInt8) :
    receivedFrom socket [.received another bytes] = if another = socket then bytes else [] := by
  simp [receivedFrom]

@[simp] theorem completedOn_received (socket another : Socket) (bytes : List UInt8) :
    completedOn socket [.received another bytes] = [] :=
  rfl

@[simp] theorem receivedFrom_completed (socket another : Socket) (bytes : List UInt8) :
    receivedFrom socket [.completed another bytes] = [] :=
  rfl

@[simp] theorem completedOn_completed (socket another : Socket) (bytes : List UInt8) :
    completedOn socket [.completed another bytes] = if another = socket then bytes else [] := by
  simp [completedOn]

/-- Bytes are written to the socket that the other record reads. -/
theorem dest_eq (attached : side = .incoming ∨ state.attached ≠ none) :
    dest state side = source state side.peer := by
  cases side with
  | incoming => rfl
  | outgoing =>
      obtain ⟨socket, there⟩ := Option.ne_none_iff_exists'.mp (attached.resolve_left nofun)
      simp [dest, source, Side.peer, there]

theorem attached_of_dest (target : dest state side = some socket) : state.attached ≠ none := by
  intro none
  cases side <;> simp [dest, none] at target

/-- Records whose bytes go to one socket share their strings. -/
theorem touched_of_dest (target : dest state side = some socket)
    (also : dest state other = some socket) : Touched state side other := by
  cases side <;> cases other <;> first | exact .inl rfl | skip
  all_goals
    simp only [dest, Option.map_eq_some_iff] at target also
    first
    | obtain ⟨_, _, rfl⟩ := also; exact .inr target
    | obtain ⟨_, _, rfl⟩ := target; exact .inr also

theorem dest_of_touched (touched : Touched state side other) :
    dest state other = dest state side := by
  rcases touched with rfl | echo
  · rfl
  · cases side <;> cases other <;> simp [dest, echo]

theorem source_of_touched (touched : Touched state side other) :
    source state other = source state side := by
  rcases touched with rfl | echo
  · rfl
  · cases side <;> cases other <;> simp [source, echo]

theorem touched_of_source (from_ : source state side = some socket)
    (also : source state other = some socket) : Touched state side other := by
  cases side <;> cases other <;> first | exact .inl rfl | skip
  · obtain rfl := Option.some.inj from_
    exact .inr also
  · obtain rfl := Option.some.inj also
    exact .inr from_

theorem Pointers.inOf_touched (pointers : Pointers state) (touched : Touched state side other) :
    state.inOf other = state.inOf side := by
  rw [State.inOf, State.inOf, pointers.dataIn_eq_iff.mpr touched]

theorem Pointers.outOf_touched (pointers : Pointers state) (touched : Touched state side other) :
    state.outOf other = state.outOf side := by
  rw [State.outOf, State.outOf, pointers.dataOut_eq_iff.mpr touched]

/-- What closing sockets may change: phases and writability, towards closing. -/
structure Shut (state following : State) (out : List Event) : Prop where
  clients : following.clients = state.clients
  strings : following.strings = state.strings
  attached : following.attached = state.attached
  deleted : following.deleted = state.deleted
  requests : ∀ socket, (following.tcps socket).requests = (state.tcps socket).requests
  handlers : ∀ socket, (following.tcps socket).handlers = (state.tcps socket).handlers
  closed : ∀ socket, (following.tcps socket).phase = .closed ↔ (state.tcps socket).phase = .closed
  opened : ∀ socket, (following.tcps socket).phase = .opened → (state.tcps socket).phase = .opened
  writable : ∀ socket, (following.tcps socket).writable → (state.tcps socket).writable ∧
    ((state.tcps socket).phase = .opened → (following.tcps socket).phase = .opened)
  silent : ∀ socket, receivedFrom socket out = [] ∧ completedOn socket out = []
  sound : .nullCall ∉ out ∧ .deadCall ∉ out ∧ .deleted ∉ out

/-- The closures of a socket can be called: the forwarder exists and their record
names a socket. -/
def Callable (socket : Socket) (state : State) : Prop :=
  ∀ side, (state.tcps socket).handlers = some side →
    (state.clients side).tcp ≠ none ∧ state.deleted = false

namespace Shut

theorem of_silent (state : State)
    (silent : ∀ socket, receivedFrom socket out = [] ∧ completedOn socket out = [])
    (sound : .nullCall ∉ out ∧ .deadCall ∉ out ∧ .deleted ∉ out) :
    Shut state state out := by
  constructor <;> simp [silent, sound]

theorem refl (state : State) : Shut state state [] :=
  .of_silent state (fun _ => ⟨rfl, rfl⟩) (by simp)

theorem trans {last : State} {later : List Event} (first : Shut state following out)
    (second : Shut following last later) : Shut state last (out ++ later) where
  clients := second.clients.trans first.clients
  strings := second.strings.trans first.strings
  attached := second.attached.trans first.attached
  deleted := second.deleted.trans first.deleted
  requests := fun socket => (second.requests socket).trans (first.requests socket)
  handlers := fun socket => (second.handlers socket).trans (first.handlers socket)
  closed := fun socket => (second.closed socket).trans (first.closed socket)
  opened := fun socket still => first.opened socket (second.opened socket still)
  writable := by
    intro socket writable
    obtain ⟨before, kept⟩ := second.writable socket writable
    obtain ⟨earlier, still⟩ := first.writable socket before
    exact ⟨earlier, fun opened => kept (still opened)⟩
  silent := by
    intro socket
    simp [first.silent socket, second.silent socket]
  sound := by
    simp only [List.mem_append, not_or]
    exact ⟨⟨first.sound.1, second.sound.1⟩, ⟨first.sound.2.1, second.sound.2.1⟩,
      first.sound.2.2, second.sound.2.2⟩

theorem andThen {effect : Effect} {next : State → Effect} (first : Shut state effect.1 effect.2)
    (second : Shut effect.1 (next effect.1).1 (next effect.1).2) :
    Shut state (effect.andThen next).1 (effect.andThen next).2 :=
  first.trans second

theorem callable (shut : Shut state following out) (callable : Callable socket state) :
    Callable socket following := by
  intro side registered
  rw [shut.handlers] at registered
  rw [shut.clients, shut.deleted]
  exact callable side registered

theorem of_close (socket cause : Socket) (state : State) :
    Shut state (close socket cause state).1 (close socket cause state).2 := by
  unfold close
  split
  · next opened =>
    constructor
    case silent => simp [receivedFrom, completedOn]
    case sound => simp
    case clients | strings | attached | deleted => rfl
    all_goals
      intro other
      by_cases same : other = socket
      · subst same
        simp [opened]
      · simp [same]
  · exact .refl state

theorem of_onError (named : (state.clients side).tcp ≠ none) :
    Shut state (onError side state).1 (onError side state).2 := by
  unfold onError
  split
  · contradiction
  · refine andThen (of_close _ _ _) ?_
    split
    · exact .refl _
    · exact of_close _ _ _

theorem of_notify (callable : Callable socket state) :
    Shut state (notify socket onError state).1 (notify socket onError state).2 := by
  unfold notify
  split
  · exact .refl state
  · next side registered =>
    obtain ⟨named, exists_⟩ := callable side registered
    rw [exists_]
    exact of_onError named

theorem of_cancel (requests : List Request) (callable : Callable socket state) :
    Shut state (cancel socket requests state).1 (cancel socket requests state).2 := by
  induction requests generalizing state with
  | nil => exact .refl state
  | cons request rest ih =>
      have first := of_notify callable
      exact andThen first (ih (first.callable callable))

end Shut

theorem close_phase (socket cause : Socket) (state : State) :
    ((close socket cause state).1.tcps socket).phase ≠ .opened := by
  unfold close
  split
  · simp
  · assumption

/-- The error callback of a record closes the socket that the record names. -/
theorem onError_phase (named : (state.clients side).tcp = some socket) :
    ((onError side state).1.tcps socket).phase ≠ .opened := by
  simp only [onError, named, Reaction.andThen]
  intro opened
  refine close_phase socket socket state ?_
  split at opened
  · exact opened
  · exact (Shut.of_close _ _ _).opened socket opened

end Nexer.Forwarder

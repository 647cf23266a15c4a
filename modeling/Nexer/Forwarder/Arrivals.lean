import Nexer.Forwarder.Aging

/-!
# What arrives on the sockets of a forwarder

A socket hands its bytes to the closures that are registered on it.  The accepted socket has
them from the beginning, another one since `SetOutgoing`; what it delivers before is dropped.
-/

namespace Nexer.Forwarder

open Nexer.Transition

/-- All bytes that a socket has delivered. -/
def arrivedOn (socket : Socket) (past : List Event) : List UInt8 :=
  past.flatMap fun
    | .received other bytes | .dropped other bytes => if other = socket then bytes else []
    | _ => []

/-- Those that it delivered to nobody. -/
def droppedOn (socket : Socket) (past : List Event) : List UInt8 :=
  past.flatMap fun
    | .dropped other bytes => if other = socket then bytes else []
    | _ => []

variable {state following : State} {past out : List Event} {socket : Socket}

@[simp] theorem arrivedOn_append (socket : Socket) (past out : List Event) :
    arrivedOn socket (past ++ out) = arrivedOn socket past ++ arrivedOn socket out :=
  List.flatMap_append

@[simp] theorem droppedOn_append (socket : Socket) (past out : List Event) :
    droppedOn socket (past ++ out) = droppedOn socket past ++ droppedOn socket out :=
  List.flatMap_append

@[simp] theorem arrivedOn_received (socket another : Socket) (bytes : List UInt8) :
    arrivedOn socket [.received another bytes] = if another = socket then bytes else [] := by
  simp [arrivedOn]

@[simp] theorem arrivedOn_dropped (socket another : Socket) (bytes : List UInt8) :
    arrivedOn socket [.dropped another bytes] = if another = socket then bytes else [] := by
  simp [arrivedOn]

@[simp] theorem droppedOn_received (socket another : Socket) (bytes : List UInt8) :
    droppedOn socket [.received another bytes] = [] :=
  rfl

@[simp] theorem droppedOn_dropped (socket another : Socket) (bytes : List UInt8) :
    droppedOn socket [.dropped another bytes] = if another = socket then bytes else [] := by
  simp [droppedOn]

@[simp] theorem receivedFrom_dropped (socket another : Socket) (bytes : List UInt8) :
    receivedFrom socket [.dropped another bytes] = [] :=
  rfl

/-- Nothing arrives. -/
def Quiet (out : List Event) : Prop :=
  ∀ event ∈ out, ∀ socket bytes, event ≠ .received socket bytes ∧ event ≠ .dropped socket bytes

namespace Quiet

theorem nil : Quiet [] :=
  fun _ member => absurd member List.not_mem_nil

theorem append {later : List Event} (first : Quiet out) (second : Quiet later) :
    Quiet (out ++ later) := by
  intro event member
  rcases List.mem_append.mp member with earlier | here
  · exact first event earlier
  · exact second event here

theorem ledgers (quiet : Quiet out) (socket : Socket) :
    arrivedOn socket out = [] ∧ droppedOn socket out = [] ∧ receivedFrom socket out = [] := by
  simp only [arrivedOn, droppedOn, receivedFrom, List.flatMap_eq_nil_iff]
  refine ⟨fun event member => ?_, fun event member => ?_, fun event member => ?_⟩
  all_goals
    obtain apart := quiet event member
    cases event with
    | received other bytes => exact absurd rfl (apart other bytes).1
    | dropped other bytes => exact absurd rfl (apart other bytes).2
    | _ => rfl

/-- The ledgers after bytes that a handler has received. -/
theorem received (quiet : Quiet out) (socket another : Socket) (bytes : List UInt8) :
    arrivedOn another (.received socket bytes :: out) = (if socket = another then bytes else []) ∧
      droppedOn another (.received socket bytes :: out) = [] ∧
      receivedFrom another (.received socket bytes :: out) =
        if socket = another then bytes else [] := by
  rw [← List.singleton_append, arrivedOn_append, droppedOn_append, receivedFrom_append]
  simp [quiet.ledgers another]

theorem of_close (socket cause : Socket) (state : State) : Quiet (close socket cause state).2 := by
  unfold close
  split
  · simp [Quiet]
  · exact nil

theorem of_onError (side : Side) (state : State) : Quiet (onError side state).2 := by
  unfold onError
  split
  · simp [Quiet]
  · refine (of_close _ _ state).append ?_
    dsimp only
    split
    · exact nil
    · exact of_close _ _ _

theorem of_notify {closure : Side → State → Effect} (quiet : ∀ side, Quiet (closure side state).2) :
    Quiet (notify socket closure state).2 := by
  unfold notify
  split
  · exact nil
  · split
    · simp [Quiet]
    · exact quiet _

theorem of_write (target : Option Socket) (cell : Cell) (state : State) :
    Quiet (write target cell state).2 := by
  unfold write
  split
  · simp [Quiet]
  · split
    · simp [Quiet]
    · exact of_notify fun side => of_onError side state

theorem of_onData (bytes : List UInt8) (side : Side) (state : State) :
    Quiet (onData bytes side state).2 := by
  unfold onData
  dsimp only
  split
  · split
    · exact of_write _ _ _
    · exact nil
  · exact nil

theorem of_onSend (side : Side) (state : State) : Quiet (onSend side state).2 := by
  unfold onSend
  dsimp only
  split
  · exact of_write _ _ _
  · exact nil

theorem of_onClose (own : Socket) (side : Side) (state : State) :
    Quiet (onClose own side state).2 := by
  rw [onClose_eq]
  split
  · simp [Quiet]
  · exact of_close _ _ _

theorem of_cancel (socket : Socket) (requests : List Request) (state : State) :
    Quiet (cancel socket requests state).2 := by
  induction requests generalizing state with
  | nil => exact nil
  | cons request rest ih => exact (of_notify fun side => of_onError side state).append (ih _)

theorem of_setOutgoing (socket : Socket) (state : State) : Quiet (setOutgoing socket state).2 := by
  unfold setOutgoing
  extract_lets named joined swapped
  split
  · exact of_write _ _ _
  · exact nil

/-- Bytes arrive with the label for them only. -/
theorem of_step {label : Label} {effect : Effect} (moved : step state label = some effect)
    (other : ∀ socket bytes, label ≠ .data socket bytes) : Quiet effect.2 := by
  cases label with
  | data socket bytes => exact absurd rfl (other socket bytes)
  | sent socket =>
      simp only [step] at moved
      split at moved
      · split at moved
        · obtain rfl := Option.some.inj moved
          exact append (by simp [Quiet]) (of_notify fun side => of_onSend side _)
        · cases moved
      · cases moved
  | eof socket =>
      simp only [step] at moved
      split at moved
      · obtain rfl := Option.some.inj moved
        exact append (by simp [Quiet]) (of_close _ _ _)
      · cases moved
  | readError socket =>
      simp only [step] at moved
      split at moved
      · obtain rfl := Option.some.inj moved
        exact of_notify fun side => of_onError side state
      · cases moved
  | writeError socket =>
      simp only [step] at moved
      split at moved
      · obtain rfl := Option.some.inj moved
        exact of_notify fun side => of_onError side _
      · cases moved
  | closed socket =>
      simp only [step] at moved
      split at moved
      · obtain rfl := Option.some.inj moved
        exact ((of_cancel _ _ state).append nil).append
          (of_notify fun side => of_onClose socket side _)
      · cases moved
  | close socket =>
      simp only [step] at moved
      split at moved
      · obtain rfl := Option.some.inj moved
        exact of_close _ _ _
      · cases moved
  | setOutgoing socket =>
      simp only [step] at moved
      split at moved
      · obtain rfl := Option.some.inj moved
        exact of_setOutgoing _ _
      · cases moved

end Quiet

/-- What a socket has delivered was dropped first and received later. -/
structure Arrivals (state : State) (past : List Event) : Prop where
  ordered : ∀ socket, arrivedOn socket past = droppedOn socket past ++ receivedFrom socket past
  unread : ∀ socket, (state.tcps socket).handlers = none → receivedFrom socket past = []
  heard : droppedOn .accepted past = []

theorem attached_of_step {label : Label} {effect : Effect}
    (moved : step state label = some effect) (given : state.attached ≠ none) :
    effect.1.attached = state.attached := by
  cases label with
  | setOutgoing socket =>
      simp only [step] at moved
      split at moved
      · next allowed => exact absurd allowed.2.1 given
      · cases moved
  | _ => exact (ages_of_step moved (by simp [Label.socket])).attached

/-- The handlers of a socket are kept. -/
theorem handlers_of_step {label : Label} {effect : Effect} (core : Core none state past)
    (moved : step state label = some effect)
    (missing : (effect.1.tcps socket).handlers = none) : (state.tcps socket).handlers = none := by
  have after := core.step moved
  cases socket with
  | accepted => cases after.accepted_handlers.symm.trans missing
  | connected =>
      rw [core.connected_handlers]
      rw [after.connected_handlers] at missing
      split
      · next attached =>
        rw [attached_of_step moved (by simp [attached]), if_pos attached] at missing
        cases missing
      · rfl

theorem Arrivals.step {label : Label} {effect : Effect} (arrivals : Arrivals state past)
    (core : Core none state past) (moved : Forwarder.step state label = some effect) :
    Arrivals effect.1 (past ++ effect.2) := by
  have missing (socket : Socket) := @handlers_of_step _ _ socket _ _ core moved
  -- no label but `data` adds to the ledgers
  have of_quiet (quiet : Quiet effect.2) : Arrivals effect.1 (past ++ effect.2) :=
    { ordered := fun socket => by simpa [quiet.ledgers socket] using arrivals.ordered socket
      unread := fun socket none => by
        simpa [quiet.ledgers socket] using arrivals.unread socket (missing socket none)
      heard := by simpa [quiet.ledgers .accepted] using arrivals.heard }
  cases label with
  | data socket bytes =>
      simp only [Forwarder.step] at moved
      split at moved
      · next opened =>
        obtain rfl := Option.some.inj moved
        obtain ⟨none, same⟩ | ⟨side, registered, from_, same⟩ :=
          core.deliver_cases (show (state.tcps socket).phase ≠ .closed by simp [opened]) bytes
        · rw [same]
          constructor
          case ordered =>
            intro another
            by_cases here : socket = another
            · subst here
              simp [arrivals.ordered, arrivals.unread socket none]
            · simp [arrivals.ordered, here]
          case unread =>
            intro another none
            simpa using arrivals.unread another none
          case heard =>
            have apart : socket ≠ .accepted := by
              rintro rfl
              cases core.accepted_handlers.symm.trans none
            simpa [apart] using arrivals.heard
        · rw [same] at missing ⊢
          have ledgers := (Quiet.of_onData bytes side state).received socket
          simp only [Reaction.andThen, List.singleton_append] at missing ⊢
          constructor
          case ordered =>
            intro another
            simp [arrivals.ordered, ledgers another bytes]
          case unread =>
            intro another none
            have apart : socket ≠ another := by
              rintro rfl
              cases registered.symm.trans (missing socket none)
            simpa [ledgers another bytes, apart] using
              arrivals.unread another (missing another none)
          case heard => simpa [ledgers .accepted bytes] using arrivals.heard
      · cases moved
  | _ => exact of_quiet (.of_step moved (by simp))

theorem arrivals_of_reaches {writable : Socket → Bool}
    (reached : Machine.Reaches step Machine.always (State.initial writable) state past) :
    Arrivals state past :=
  reached.invariant Arrivals ⟨fun _ => rfl, fun _ _ => rfl, rfl⟩
    fun reached arrivals _ moved => arrivals.step (core_of_reaches reached) moved

/-- A socket that the forwarder has been given drops nothing. -/
theorem dropped_of_step {label : Label} {effect : Effect} {side : Side}
    (core : Core none state past) (from_ : source state side = some socket)
    (moved : step state label = some effect) : droppedOn socket effect.2 = [] := by
  cases label with
  | data another bytes =>
      simp only [step] at moved
      split at moved
      · next opened =>
        obtain rfl := Option.some.inj moved
        obtain ⟨none, same⟩ | ⟨side, -, -, same⟩ :=
          core.deliver_cases (show (state.tcps another).phase ≠ .closed by simp [opened]) bytes
        · have apart : another ≠ socket := by
            rintro rfl
            obtain ⟨side, registered, -⟩ := core.handler (Core.used_of_source from_)
            cases none.symm.trans registered
          simp [same, apart]
        · have quiet := Quiet.of_onData bytes side state
          simp [same, Reaction.andThen, quiet.received another socket bytes]
      · cases moved
  | _ => exact ((Quiet.of_step moved (by simp)).ledgers socket).2.1

end Nexer.Forwarder

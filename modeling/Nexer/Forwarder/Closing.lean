import Nexer.Forwarder.Core

/-!
# The close callback of a socket

When a socket has closed, its requests are gone and no record names it any more.
The records that read it are those whose strings it shares, so that in echo mode
both pointers are reset.  Then the other socket is closed or the forwarder deleted.
-/

namespace Nexer.Forwarder

open Nexer.Transition

variable {state following last : State} {past out later : List Event}
variable {side : Side} {socket : Socket}

/-- What remains of a forwarder when a socket has closed. -/
structure Parted (socket : Socket) (state following : State) (out : List Event) : Prop where
  strings : following.strings = state.strings
  attached : following.attached = state.attached
  clients : ∀ side, following.clients side =
    { state.clients side with
      tcp := if source state side = some socket then none else (state.clients side).tcp }
  requests : ∀ another, (following.tcps another).requests =
    if another = socket then [] else (state.tcps another).requests
  handlers : ∀ another, (following.tcps another).handlers = (state.tcps another).handlers
  closed : ∀ another, (following.tcps another).phase = .closed ↔
    another = socket ∨ (state.tcps another).phase = .closed
  opened : ∀ another, (following.tcps another).phase = .opened →
    another ≠ socket ∧ (state.tcps another).phase = .opened
  writable : ∀ another, (following.tcps another).writable → (state.tcps another).writable ∧
    (another ≠ socket → (state.tcps another).phase = .opened →
      (following.tcps another).phase = .opened)
  silent : ∀ another, receivedFrom another out = [] ∧ completedOn another out = []

theorem Parted.shut (parted : Parted socket state following out) (shut : Shut following last later) :
    Parted socket state last (out ++ later) where
  strings := shut.strings.trans parted.strings
  attached := shut.attached.trans parted.attached
  clients := by
    rw [shut.clients]
    exact parted.clients
  requests := fun another => (shut.requests another).trans (parted.requests another)
  handlers := fun another => (shut.handlers another).trans (parted.handlers another)
  closed := fun another => (shut.closed another).trans (parted.closed another)
  opened := fun another still => parted.opened another (shut.opened another still)
  writable := by
    intro another writable
    obtain ⟨before, kept⟩ := shut.writable another writable
    obtain ⟨earlier, still⟩ := parted.writable another before
    exact ⟨earlier, fun other opened => kept (still other opened)⟩
  silent := by
    intro another
    simp [parted.silent another, shut.silent another]

/-- The close callback has run for the socket; its requests have been cancelled. -/
def ended (socket : Socket) (state : State) : State :=
  state.modifyTcp socket fun tcp => { tcp with phase := .closed, requests := [] }

theorem parted_of_tcps (strings : following.strings = state.strings)
    (attached : following.attached = state.attached)
    (tcps : following.tcps = (ended socket state).tcps)
    (clients : ∀ side, following.clients side =
      { state.clients side with
        tcp := if source state side = some socket then none else (state.clients side).tcp })
    (closing : (state.tcps socket).phase ≠ .opened) : Parted socket state following [] := by
  constructor
  case strings => exact strings
  case attached => exact attached
  case clients => exact clients
  case silent => exact fun _ => ⟨rfl, rfl⟩
  all_goals
    intro another
    rw [tcps]
    by_cases same : another = socket
    · simp [ended, same, closing]
    · simp [ended, same]

/-- The records after the close callback of the socket that the record `side` names. -/
def dropped (side : Side) (state : State) : State :=
  let parted :=
    if (state.clients side.peer).tcp = (state.clients side).tcp then
      state.modifyClient side.peer fun client => { client with tcp := none }
    else state
  parted.modifyClient side fun client => { client with tcp := none }

theorem onClose_eq : onClose socket side state =
    match ((dropped side state).clients side.peer).tcp with
    | none => ({ dropped side state with deleted := true }, [.deleted])
    | some other => close other socket (dropped side state) :=
  rfl

theorem dropped_fields (side : Side) (state : State) :
    (dropped side state).strings = state.strings ∧
      (dropped side state).attached = state.attached ∧ (dropped side state).tcps = state.tcps ∧
        (dropped side state).deleted = state.deleted := by
  simp only [dropped]
  split <;> exact ⟨rfl, rfl, rfl, rfl⟩

theorem dropped_clients (named : (state.clients side).tcp = some socket) (other : Side) :
    (dropped side state).clients other =
      { state.clients other with
        tcp := if (state.clients other).tcp = some socket then none
          else (state.clients other).tcp } := by
  simp only [dropped]
  split
  · next echo =>
    rw [named] at echo
    cases side <;> cases other <;> simp_all [Side.peer]
  · next apart =>
    rw [named] at apart
    cases side <;> cases other <;> simp_all [Side.peer]

namespace Core

/-- The ledgers stay as they are when a socket that is closing has closed. -/
theorem part (core : Core none state past) (parted : Parted socket state following out)
    (closing : (state.tcps socket).phase ≠ .opened)
    (lifecycle : Lifecycle following (past ++ out)) : Core none following (past ++ out) := by
  have dataIn (side : Side) : (following.clients side).dataIn = (state.clients side).dataIn := by
    rw [parted.clients]
  have dataOut (side : Side) : (following.clients side).dataOut = (state.clients side).dataOut := by
    rw [parted.clients]
  have inOf (side : Side) : following.inOf side = state.inOf side := by
    simp only [State.inOf, dataIn, parted.strings]
  have outOf (side : Side) : following.outOf side = state.outOf side := by
    simp only [State.outOf, dataOut, parted.strings]
  constructor
  case pointers =>
    refine ⟨?_, ?_, ?_⟩
    · simpa only [dataIn, dataOut] using core.pointers.apart
    · simpa only [dataIn, dataOut, parted.attached] using core.pointers.own
    · simpa only [dataIn, dataOut, parted.attached] using core.pointers.shared
  case tcp =>
    intro side
    rw [parted.clients, source_congr parted.attached]
    have before := core.tcp side
    cases from_ : source state side with
    | none => simpa [from_] using before
    | some another =>
        rw [from_] at before
        by_cases same : another = socket
        · simp [same, Option.filter, parted.closed]
        · simpa [same, Option.filter, parted.closed] using before
  case accepted_handlers => exact (parted.handlers _).trans core.accepted_handlers
  case connected_handlers =>
    rw [parted.handlers, parted.attached]
    exact core.connected_handlers
  case writing =>
    intro side another also
    rw [dest_congr parted.attached] at also
    rw [parted.requests, dataOut, outOf]
    split
    · exact .inl rfl
    · exact core.writing side another also
  case unused =>
    intro another
    simp only [dest_congr parted.attached, parted.requests]
    intro unused
    split
    · rfl
    · exact core.unused another unused
  case idle =>
    intro side another also _ opened quiet
    rw [dest_congr parted.attached] at also
    obtain ⟨other, before⟩ := parted.opened another opened
    rw [parted.requests, if_neg other] at quiet
    rw [outOf]
    exact core.idle side another also (by simp) before quiet
  case flushed =>
    intro side another also _ writable
    rw [dest_congr parted.attached] at also
    rw [outOf, inOf]
    exact core.flushed side another also (by simp) (parted.writable another writable).1
  case unattached =>
    intro none
    obtain ⟨empty, unheard, uncompleted⟩ := core.unattached (parted.attached ▸ none)
    simp only [outOf, receivedFrom_append, completedOn_append, parted.silent, List.append_nil]
    exact ⟨empty, unheard, uncompleted⟩
  case writable =>
    intro another writable
    obtain ⟨before, kept⟩ := parted.writable another writable
    have opened := core.writable another before
    refine kept ?_ opened
    rintro rfl
    exact closing opened
  case balanced =>
    intro side
    rw [lane_congr parted.attached parted.silent (outOf side) (inOf side)]
    exact core.balanced side
  case lifecycle => exact lifecycle

/-- A socket that no record reads has closed. -/
theorem closed_unread (core : Core none state past) (closing : (state.tcps socket).phase = .closing)
    (unread : (state.tcps socket).handlers = none) : Core none (ended socket state) past := by
  have strange (side : Side) : source state side ≠ some socket := by
    intro from_
    obtain ⟨reader, registered, -⟩ := core.handler (used_of_source from_)
    cases unread.symm.trans registered
  have parted : Parted socket state (ended socket state) [] :=
    parted_of_tcps rfl rfl rfl (by simp [strange, ended]) (by simp [closing])
  have lifecycle : Lifecycle (ended socket state) past := by
    refine core.lifecycle.congr rfl rfl fun side another from_ => ?_
    have other : another ≠ socket := by
      rintro rfl
      exact strange side from_
    simp [ended, other]
  have after := core.part parted (by simp [closing]) (by rwa [List.append_nil])
  rwa [List.append_nil] at after

/-- The record whose socket has closed, and its peer in echo mode, name nothing. -/
theorem parted_dropped (core : Core none state past) (closing : (state.tcps socket).phase = .closing)
    (from_ : source state side = some socket) :
    Parted socket state (dropped side (ended socket state)) [] := by
  have alive : (state.tcps socket).phase ≠ .closed := by simp [closing]
  refine parted_of_tcps (dropped_fields side _).1 (dropped_fields side _).2.1
    (dropped_fields side _).2.2.1 (fun other => ?_) (by simp [closing])
  have named : ((ended socket state).clients side).tcp = some socket := core.named from_ alive
  rw [dropped_clients named]
  have same : (state.clients other).tcp = some socket ↔ source state other = some socket := by
    refine ⟨fun naming => ?_, fun also => core.named also alive⟩
    rw [core.tcp other] at naming
    exact Option.eq_some_of_filter_eq_some naming
  simp [ended, same]

/-- The peer names nothing after a close if the socket that it reads has closed, too. -/
theorem closed_of_dropped (core : Core none state past)
    (parted : Parted socket state following out) (from_ : source state side = some socket)
    (alone : (following.clients side.peer).tcp = none) {other : Side} {another : Socket}
    (also : source state other = some another) : (following.tcps another).phase = .closed := by
  rw [parted.closed]
  by_cases same : another = socket
  · exact .inl same
  · obtain rfl : other = side.peer := by
      cases side <;> cases other <;> simp_all [Side.peer]
    have naming := core.tcp side.peer
    rw [parted.clients, also] at alone
    rw [also] at naming
    by_contra alive
    simp_all [Option.filter]

/-- A peer that is still named after a close reads another socket, which is open. -/
theorem named_of_dropped (core : Core none state past) (parted : Parted socket state following out)
    {other : Side} {another : Socket} (named : (following.clients other).tcp = some another) :
    source state other = some another ∧ another ≠ socket ∧
      (state.tcps another).phase ≠ .closed := by
  rw [parted.clients] at named
  dsimp only at named
  split at named
  · cases named
  · next apart =>
    rw [core.tcp other] at named
    have reads := Option.eq_some_of_filter_eq_some named
    refine ⟨reads, ?_, ?_⟩
    · rintro rfl
      exact apart reads
    · rw [reads] at named
      simpa [Option.filter] using named

theorem closed_read (core : Core none state past) (closing : (state.tcps socket).phase = .closing)
    (registered : (state.tcps socket).handlers = some side) :
    Core none (onClose socket side (ended socket state)).1
      (past ++ (onClose socket side (ended socket state)).2) := by
  have from_ := core.source_of_handler registered
  have parted := core.parted_dropped closing from_
  have there := core.not_deleted from_ (by simp [closing])
  rw [onClose_eq]
  split
  · next alone =>
    have closed {other : Side} {another : Socket} (also : source state other = some another) :=
      core.closed_of_dropped parted from_ alone also
    refine core.part ⟨parted.strings, parted.attached, parted.clients, parted.requests,
      parted.handlers, parted.closed, parted.opened, parted.writable, fun _ => ⟨rfl, rfl⟩⟩
      (by simp [closing]) ?_
    exact {
      closed_together := by
        intro _ record _ another _ also _
        have gone := closed ((source_congr parted.attached).symm.trans also)
        simp [gone]
      deleted_iff := iff_of_true rfl fun record another also =>
        closed ((source_congr parted.attached).symm.trans also)
      deletions := by simp [List.count_append, core.lifecycle.deletions, there]
      sound := by simpa using core.lifecycle.sound }
  · next other named =>
    have shut := Shut.of_close other socket (dropped side (ended socket state))
    have parted' := parted.shut shut
    obtain ⟨reads, apart, alive⟩ := core.named_of_dropped parted named
    refine core.part parted' (by simp [closing]) ?_
    exact {
      closed_together := by
        intro _ record _ another _ also _
        rw [source_congr parted'.attached] at also
        by_cases same : another = socket
        · simp [(parted'.closed another).mpr (.inl same)]
        · obtain rfl : record = side.peer := by
            cases side <;> cases record <;> simp_all [Side.peer]
          obtain rfl := Option.some.inj (also.symm.trans reads)
          exact close_phase another socket _
      deleted_iff := by
        rw [shut.deleted, (dropped_fields side _).2.2.2]
        refine iff_of_false (by simp [ended, there]) fun closed => ?_
        have gone := closed side.peer other ((source_congr parted'.attached).trans reads)
        rcases (parted'.closed other).mp gone with same | before
        · exact apart same
        · exact alive before
      deletions := by
        rw [List.count_append, List.count_eq_zero_of_not_mem shut.sound.2.2, shut.deleted,
          (dropped_fields side _).2.2.2]
        exact core.lifecycle.deletions
      sound := by
        simp only [List.mem_append, not_or]
        exact ⟨⟨core.lifecycle.sound.1, shut.sound.1⟩, core.lifecycle.sound.2, shut.sound.2.1⟩ }

end Core

end Nexer.Forwarder

import Nexer.Proxy.Listing

/-!
# Every proxied connection is settled

While the proxy exists and no address is used twice, the closures of a connection find
their own forwarder or none.  A connection then ends in one of two ways: its incoming
socket is closed because an answer was negative, or its outgoing socket is with the
forwarder, which closes it, or closed at once.
-/

namespace Nexer.Proxy

open Nexer.Transition

/-- Addresses are used once, and the close callback of the proxy does not run. -/
def Lively (state : State) : Label → Prop
  | .accept address => ∀ index < state.count, (state.connections index).address ≠ address
  | .closed => False
  | _ => True

instance : ∀ state label, Decidable (Lively state label)
  | state, .accept address =>
      inferInstanceAs
        (Decidable (∀ index < state.count, (state.connections index).address ≠ address))
  | _, .closed => .isFalse id
  | _, .checked _ _ | _, .connected _ _ | _, .forwarder _ _ | _, .outgoingClosed _
  | _, .close => .isTrue trivial

/-- What the stage of a connection says of its two sockets. -/
def Connection.Settled (index : Nat) (connection : Connection) : Prop :=
  match connection.stage with
  | .checking | .connecting =>
      connection.outgoing = .none ∧ connection.forwarder.attached = none
  | .failed =>
      connection.outgoing = .none ∧ (connection.forwarder.tcps .accepted).phase ≠ .opened
  | .connected =>
      connection.outgoing = .attached index ∧ connection.forwarder.attached = some .connected ∨
        connection.outgoing = .apart .closing ∨ connection.outgoing = .apart .closed

structure Settled (state : State) (past : List Event) : Prop where
  exists_ : state.server ≠ .destroyed
  fresh : ∀ index other, index < state.count → other < state.count →
    (state.connections index).address = (state.connections other).address → index = other
  settled : ∀ index < state.count, (state.connections index).Settled index
  sound : ∀ index, .notFound index ∉ past ∧ .deadIncoming index ∉ past ∧
    .deadForwarder index ∉ past ∧ .deadServer index ∉ past

variable {app : Bool} {state following : State} {past out : List Event} {index : Nat}
variable {connection : Connection} {label : Label}

theorem settled_initial : Settled .initial [] where
  exists_ := nofun
  fresh := by simp [State.initial]
  settled := by simp [State.initial]
  sound := by simp

/-- A connection that waits has no outgoing socket. -/
theorem Settled.waiting (settled : Settled state past) (pending : Pending state index) :
    (state.connections index).outgoing = .none ∧
      (state.connections index).forwarder.attached = none := by
  have connection := settled.settled index pending.1
  rcases pending.2 with stage | stage <;> simpa [Connection.Settled, stage] using connection

/-- The functions of a forwarder neither open a socket nor take one away. -/
theorem Connection.Settled.run {forwarder : Forwarder.State} (settled : connection.Settled index)
    (opened : (forwarder.tcps .accepted).phase = .opened →
      (connection.forwarder.tcps .accepted).phase = .opened)
    (attached : forwarder.attached = connection.forwarder.attached) :
    Connection.Settled index { connection with forwarder } := by
  cases stage : connection.stage <;> simp_all [Connection.Settled]

namespace Settled

theorem put (settled : Settled state past)
    (address : connection.address = (state.connections index).address)
    (kept : index < state.count → connection.Settled index)
    (sound : ∀ index, .notFound index ∉ out ∧ .deadIncoming index ∉ out ∧
      .deadForwarder index ∉ out ∧ .deadServer index ∉ out) :
    Settled (state.put index connection) (past ++ out) where
  exists_ := settled.exists_
  fresh := by
    intro first second
    rw [put_address address, put_address address]
    exact settled.fresh first second
  settled := by
    intro other created
    by_cases same : other = index
    · subst same
      simpa using kept created
    · simpa [same] using settled.settled other created
  sound := by
    intro other
    obtain ⟨found, incoming, forwarder, server⟩ := settled.sound other
    simp [found, incoming, forwarder, server, sound other]

theorem accept {address : Address} (settled : Settled state past)
    (allowed : Lively state (.accept address)) :
    Settled ((state.accepted address).put state.count
        { address, stage := if app then .checking else .connecting })
      (past ++ [.accepted state.count address]) where
  exists_ := settled.exists_
  fresh := by
    intro first second one two
    rw [accepted_connections, accepted_connections]
    have old {other : Nat} (created : other < state.count + 1) (apart : other ≠ state.count) :
        other < state.count := by omega
    by_cases same : first = state.count <;> by_cases equal : second = state.count
    · exact fun _ => same.trans equal.symm
    · simpa [same, equal] using fun shared => absurd shared.symm (allowed second (old two equal))
    · simpa [same, equal] using fun shared => absurd shared (allowed first (old one same))
    · simpa [same, equal] using settled.fresh first second (old one same) (old two equal)
  settled := by
    intro other created
    rw [accepted_connections]
    split
    · cases app <;> exact ⟨rfl, rfl⟩
    · next apart =>
      exact settled.settled other (Nat.lt_of_le_of_ne (Nat.le_of_lt_succ created) apart)
  sound := by simpa using settled.sound

theorem change (settled : Settled state past) (listed : Listed state)
    (allowed : Lively state label) (changed : Change app state label following out) :
    Settled following (past ++ out) := by
  cases changed with
  | accept address opened free => exact settled.accept allowed
  | dead _ _ _ _ destroyed => exact absurd destroyed settled.exists_
  | connecting _ index pending =>
      exact settled.put rfl (fun _ => settled.waiting pending) (by simp)
  | failed _ index _ pending gone =>
      refine settled.put rfl (fun created => ⟨(settled.waiting pending).1, ?_⟩) (by simp)
      have deleted : (state.connections index).forwarder.deleted = true := by
        by_contra alive
        exact gone ((listed.has_iff settled.exists_).mpr ⟨index, ⟨created, by simpa using alive⟩, rfl⟩)
      simp [((listed.driven index created).closed deleted).1]
  | refused _ index _ pending _ forwarder _ closed =>
      exact settled.put rfl (fun _ => ⟨(settled.waiting pending).1, closed⟩) (by simp)
  | deadIncoming _ index _ pending there closed =>
      obtain ⟨target, alive, same⟩ := (listed.has_iff settled.exists_).mp there
      obtain rfl := settled.fresh _ _ alive.1 pending.1 same
      have deleted := ((listed.driven target pending.1).deleted_iff (settled.waiting pending).2).mpr closed
      exact nomatch alive.2.symm.trans deleted
  | discarded index pending =>
      exact settled.put rfl (fun _ => .inr (.inl rfl)) (by simp)
  | attached index target pending there alive same given named _ forwarder _ _ attached =>
      obtain rfl := settled.fresh _ _ alive.1 pending.1 same
      subst named
      rw [put_put]
      refine settled.put (by simp) (fun _ => ?_) (by simp)
      simpa [Connection.Settled] using attached
  | overrun index target pending there alive same taken =>
      obtain rfl := settled.fresh _ _ alive.1 pending.1 same
      exact absurd (settled.waiting pending).2 taken
  | forwarder _ index _ forwarder _ opened attached =>
      exact settled.put rfl (fun created => (settled.settled index created).run opened attached)
        (by simp)
  | removed _ index _ _ forwarder _ opened attached =>
      have kept : Settled (state.put index { state.connections index with forwarder })
          (past ++ [.removed index]) :=
        settled.put rfl (fun created => (settled.settled index created).run opened attached)
          (by simp)
      exact ⟨kept.exists_, kept.fresh, kept.settled, kept.sound⟩
  | deadRemoval _ _ _ destroyed => exact absurd destroyed settled.exists_
  | outgoingClosed index apart =>
      refine settled.put rfl (fun created => ?_) (by simp)
      have before := settled.settled index created
      cases stage : (state.connections index).stage <;> simp_all [Connection.Settled]
  | close =>
      rw [List.append_nil]
      exact ⟨nofun, settled.fresh, settled.settled, settled.sound⟩
  | closed => exact absurd allowed id

/-- No forwarder is given a second socket. -/
theorem running (settled : Settled state past) (running : state.overrun = false)
    (changed : Change app state label following out) : following.overrun = false := by
  cases changed with
  | overrun index target pending there alive same taken =>
      obtain rfl := settled.fresh _ _ alive.1 pending.1 same
      exact absurd (settled.waiting pending).2 taken
  | attached _ _ _ _ _ _ given named =>
      subst named
      exact running
  | _ => exact running

end Settled

theorem settled_of_reaches (reached : Machine.Reaches (step app) Lively .initial state past) :
    Settled state past :=
  reached.invariant Settled settled_initial fun reached settled allowed moved =>
    have listed := listed_of_reaches reached
    settled.change listed allowed (change_of_step listed moved).2

/-- Only the forwarder of a connection that is connected has a second socket. -/
def Joined (state : State) : Prop :=
  ∀ index < state.count, (state.connections index).forwarder.attached ≠ none →
    (state.connections index).stage = .connected

theorem Joined.put (joined : Joined state)
    (kept : index < state.count → connection.forwarder.attached ≠ none →
      connection.stage = .connected) : Joined (state.put index connection) := by
  intro other created
  by_cases same : other = index
  · subst same
    simpa using kept created
  · simpa [same] using joined other created

theorem Joined.change (joined : Joined state) (settled : Settled state past)
    (changed : Change app state label following out) : Joined following := by
  cases changed with
  | accept address =>
      intro other created
      rw [accepted_connections]
      split
      · exact fun some => absurd rfl some
      · next apart =>
        exact joined other (Nat.lt_of_le_of_ne (Nat.le_of_lt_succ created) apart)
  | dead _ _ _ _ destroyed | deadRemoval _ _ _ destroyed =>
      exact absurd destroyed settled.exists_
  | connecting _ index pending | failed _ index _ pending | deadIncoming _ index _ pending =>
      exact joined.put fun _ some => absurd (settled.waiting pending).2 some
  | refused _ index _ pending _ forwarder _ _ attached =>
      exact joined.put fun _ some => absurd (attached.trans (settled.waiting pending).2) some
  | discarded => exact joined.put fun _ _ => rfl
  | attached index target pending there alive same given named =>
      obtain rfl := settled.fresh _ _ alive.1 pending.1 same
      subst named
      rw [put_put]
      exact joined.put fun _ _ => by simp
  | overrun index target pending there alive same taken =>
      obtain rfl := settled.fresh _ _ alive.1 pending.1 same
      exact absurd (settled.waiting pending).2 taken
  | forwarder _ index _ forwarder _ _ attached =>
      exact joined.put fun created some => joined index created (attached ▸ some)
  | removed _ index _ _ forwarder _ _ attached =>
      have kept : Joined (state.put index { state.connections index with forwarder }) :=
        joined.put fun created some => joined index created (attached ▸ some)
      exact kept
  | outgoingClosed index => exact joined.put fun created => joined index created
  | close | closed => exact joined

theorem joined_of_reaches (reached : Machine.Reaches (step app) Lively .initial state past) :
    Joined state :=
  reached.invariant (fun state _ => Joined state) (fun _ _ some => absurd rfl some)
    fun reached joined _ moved =>
      joined.change (settled_of_reaches reached) (change_of_step (listed_of_reaches reached) moved).2

/-- A lively run goes on. -/
theorem running_of_reaches (reached : Machine.Reaches (step app) Lively .initial state past) :
    state.overrun = false :=
  reached.invariant (fun state _ => state.overrun = false) rfl fun reached running _ moved =>
    (settled_of_reaches reached).running running (change_of_step (listed_of_reaches reached) moved).2

/-- The handle of the socket that `Connect` has delivered. -/
def State.outgoingPhase (state : State) (index : Nat) : Option Forwarder.Phase :=
  match (state.connections index).outgoing with
  | .none => none
  | .attached target => some ((state.connections target).forwarder.tcps .connected).phase
  | .apart phase => some phase

/-- A delivered socket is with its own forwarder, which is in the list, or closed; where
an answer was negative the incoming socket is closed; the list holds the forwarders that
were created and not deleted; and nothing is used after its deletion. -/
theorem connections_settled (reached : Machine.Reaches (step app) Lively .initial state past) :
    (∀ index < state.count, (state.connections index).stage = .connected →
        (state.connections index).outgoing = .attached index ∧ has index state ∨
          ∃ phase, state.outgoingPhase index = some phase ∧ phase ≠ .opened) ∧
      (∀ index < state.count, (state.connections index).stage = .failed →
        ((state.connections index).forwarder.tcps .accepted).phase ≠ .opened) ∧
      (∀ index < state.count,
        has index state ↔ (state.connections index).forwarder.deleted = false) ∧
      (∀ address ∈ state.registered, ∃ index < state.count,
        (state.connections index).address = address) ∧
      ∀ index, .notFound index ∉ past ∧ .deadIncoming index ∉ past ∧
        .deadForwarder index ∉ past ∧ .deadServer index ∉ past := by
  have settled := settled_of_reaches reached
  have listed := listed_of_reaches reached
  have has_iff (index : Nat) (created : index < state.count) :
      has index state ↔ (state.connections index).forwarder.deleted = false := by
    rw [listed.has_iff settled.exists_]
    constructor
    · rintro ⟨target, alive, same⟩
      obtain rfl := settled.fresh _ _ alive.1 created same
      exact alive.2
    · exact fun alive => ⟨index, ⟨created, alive⟩, rfl⟩
  refine ⟨fun index created connected => ?_, fun index created failed => ?_, has_iff,
    fun address member => ?_, settled.sound⟩
  · have kept := settled.settled index created
    simp only [Connection.Settled, connected] at kept
    rcases kept with ⟨own, attached⟩ | apart | apart
    · by_cases there : has index state
      · exact .inl ⟨own, there⟩
      · rw [has_iff index created, Bool.not_eq_false] at there
        have closed := ((listed.driven index created).closed there).2 attached
        exact .inr ⟨.closed, by simp [State.outgoingPhase, own, closed], nofun⟩
    · exact .inr ⟨.closing, by simp [State.outgoingPhase, apart], nofun⟩
    · exact .inr ⟨.closed, by simp [State.outgoingPhase, apart], nofun⟩
  · have kept := settled.settled index created
    simp only [Connection.Settled, failed] at kept
    exact kept.2
  · obtain ⟨index, alive, same⟩ := (listed.listed settled.exists_ address).mp member
    exact ⟨index, alive.1, same⟩

/-- A refused client, one that leaves before its connection is made, and one that stays. -/
theorem connections_settled_run :
    ∃ state past, Machine.Reaches (step true) Lively .initial state past ∧ state.count = 3 ∧
      (∀ index < state.count, (state.connections index).stage = .connected →
        (state.connections index).outgoing = .attached index ∧ has index state ∨
          ∃ phase, state.outgoingPhase index = some phase ∧ phase ≠ .opened) ∧
      .notFound 0 ∉ past := by
  obtain ⟨state, reached, three⟩ := Machine.exists_reaches (step true) Lively .initial
    [.accept 1, .accept 2, .checked 0 (-1), .accept 3, .checked 1 0, .checked 2 0,
      .forwarder 1 (.eof .accepted), .forwarder 1 (.closed .accepted), .connected 1 true,
      .connected 2 true, .forwarder 0 (.closed .accepted)]
    [.accepted 0 1, .accepted 1 2, .refused 0, .accepted 2 3, .removed 1, .discarded 1,
      .setOutgoing 2 2, .removed 0] (fun state => decide (state.count = 3)) (by decide)
  obtain ⟨delivered, -, -, -, sound⟩ := connections_settled reached
  exact ⟨state, _, reached, by simpa using three, delivered, (sound 0).1⟩

end Nexer.Proxy

import Nexer.Proxy.Driven

/-!
# The list of forwarders

`OnClose` takes a forwarder from the list when it is deleted.  As long as the proxy
exists, the list therefore holds the addresses of the forwarders that are alive,
whatever addresses are used again, and every step is one of a few changes.
-/

namespace Nexer.Proxy

open Nexer.Transition

variable {app : Bool} {state following : State} {out : List Event} {index other : Nat}
variable {connection : Connection} {address : Address}

section Put

@[simp] theorem put_connections :
    (state.put index connection).connections other =
      if other = index then connection else state.connections other := by
  simp [State.put, Function.update_apply]

@[simp] theorem put_count : (state.put index connection).count = state.count := rfl

@[simp] theorem put_server : (state.put index connection).server = state.server := rfl

@[simp] theorem put_registered : (state.put index connection).registered = state.registered := rfl

@[simp] theorem put_overrun : (state.put index connection).overrun = state.overrun := rfl

@[simp] theorem put_put (again : Connection) :
    (state.put index connection).put index again = state.put index again := by
  simp [State.put]

theorem put_address (same : connection.address = (state.connections index).address) (other : Nat) :
    ((state.put index connection).connections other).address =
      (state.connections other).address := by
  by_cases equal : other = index <;> simp [equal, same]

/-- A new connection comes after the other ones. -/
theorem accepted_connections (other : Nat) :
    ((state.accepted address).put state.count connection).connections other =
      if other = state.count then connection else state.connections other := by
  by_cases same : other = state.count <;> simp [State.accepted, same]

end Put

/-- The forwarder of a connection has been created and not deleted. -/
def Alive (state : State) (index : Nat) : Prop :=
  index < state.count ∧ (state.connections index).forwarder.deleted = false

/-- The list of a proxy that exists, and the forwarders in it. -/
structure Listed (state : State) : Prop where
  driven : ∀ index < state.count, Driven (state.connections index).forwarder
  alone : ∀ index other, Alive state index → Alive state other →
    (state.connections index).address = (state.connections other).address → index = other
  listed : state.server ≠ .destroyed → ∀ address, address ∈ state.registered ↔
    ∃ index, Alive state index ∧ (state.connections index).address = address

theorem listed_initial : Listed .initial where
  driven := by simp [State.initial]
  alone := by simp [Alive, State.initial]
  listed := by simp [Alive, State.initial]

theorem lookup_eq_none : state.lookup address = none ↔
    ∀ index, Alive state index → (state.connections index).address ≠ address := by
  simp only [State.lookup, List.find?_eq_none, List.mem_range, decide_eq_true_eq, Alive]
  constructor
  · rintro free index ⟨created, alive⟩ same
    exact free index created ⟨same, alive⟩
  · rintro free index created ⟨same, alive⟩
    exact free index ⟨created, alive⟩ same

theorem of_lookup (found : state.lookup address = some index) :
    Alive state index ∧ (state.connections index).address = address := by
  simp only [State.lookup] at found
  have property := List.find?_some found
  have member := List.mem_of_find?_eq_some found
  simp only [decide_eq_true_eq] at property
  exact ⟨⟨List.mem_range.mp member, property.2⟩, property.1⟩

/-- The closures of a connection wait for an answer. -/
def Pending (state : State) (index : Nat) : Prop :=
  index < state.count ∧
    ((state.connections index).stage = .checking ∨ (state.connections index).stage = .connecting)

/-- The upstream check or the connect of a connection fails. -/
inductive Fails (index : Nat) : Label → Prop where
  | checked (error : Int) (failure : error ≠ 0) : Fails index (.checked index error)
  | connected : Fails index (.connected index false)

/-- The result of a step, with what is known of it in states with a correct list. -/
inductive Change (app : Bool) (state : State) : Label → State → List Event → Prop where
  | accept (address : Address) (opened : state.server = .opened)
      (free : ∀ index, Alive state index → (state.connections index).address ≠ address) :
      Change app state (.accept address)
        ((state.accepted address).put state.count
          { address, stage := if app then .checking else .connecting })
        [.accepted state.count address]
  /-- An answer of which the proxy would have to be told. -/
  | dead (label : Label) (index : Nat) (stage : Stage) (outgoing : Outgoing)
      (destroyed : state.server = .destroyed) (pending : Pending state index) :
      Change app state label
        (state.put index { state.connections index with stage, outgoing }) [.deadServer index]
  | connecting (error : Int) (index : Nat) (pending : Pending state index)
      (checking : (state.connections index).stage = .checking) :
      Change app state (.checked index error)
        (state.put index { state.connections index with stage := .connecting }) []
  | failed (label : Label) (index : Nat) (fails : Fails index label) (pending : Pending state index)
      (gone : ¬ has index state) :
      Change app state label (state.put index { state.connections index with stage := .failed }) []
  | refused (label : Label) (index : Nat) (fails : Fails index label) (pending : Pending state index) (there : has index state)
      (forwarder : Forwarder.State) (driven : Driven forwarder)
      (closed : (forwarder.tcps .accepted).phase ≠ .opened)
      (attached : forwarder.attached = (state.connections index).forwarder.attached)
      (deleted : forwarder.deleted = (state.connections index).forwarder.deleted) :
      Change app state label
        (state.put index { state.connections index with stage := .failed, forwarder })
        [.refused index]
  | deadIncoming (label : Label) (index : Nat) (fails : Fails index label) (pending : Pending state index)
      (there : has index state)
      (closed : ((state.connections index).forwarder.tcps .accepted).phase = .closed) :
      Change app state label (state.put index { state.connections index with stage := .failed })
        [.deadIncoming index]
  | discarded (index : Nat) (pending : Pending state index) (gone : ¬ has index state) :
      Change app state (.connected index true)
        (state.put index
          { state.connections index with stage := .connected, outgoing := .apart .closing })
        [.discarded index]
  /-- `target` is the forwarder at the address of the one that `SetOutgoing` was meant for. -/
  | attached (index target : Nat) (pending : Pending state index) (there : has index state)
      (alive : Alive state target)
      (same : (state.connections target).address = (state.connections index).address)
      (given : State) (named : given = state.put index
        { state.connections index with stage := .connected, outgoing := .attached target })
      (alone : (given.connections target).forwarder.attached = none)
      (forwarder : Forwarder.State) (driven : Driven forwarder)
      (opened : (forwarder.tcps .accepted).phase = .opened →
        ((state.connections target).forwarder.tcps .accepted).phase = .opened)
      (attached : forwarder.attached = some .connected) (deleted : forwarder.deleted = false) :
      Change app state (.connected index true)
        (given.put target { given.connections target with forwarder }) [.setOutgoing target index]
  | overrun (index target : Nat) (pending : Pending state index) (there : has index state)
      (alive : Alive state target)
      (same : (state.connections target).address = (state.connections index).address)
      (taken : (state.connections target).forwarder.attached ≠ none) :
      Change app state (.connected index true)
        { state.put index
            { state.connections index with stage := .connected, outgoing := .attached target } with
          overrun := true }
        [.setOutgoing target index]
  | forwarder (label : Forwarder.Label) (index : Nat) (created : index < state.count)
      (forwarder : Forwarder.State) (driven : Driven forwarder)
      (opened : (forwarder.tcps .accepted).phase = .opened →
        ((state.connections index).forwarder.tcps .accepted).phase = .opened)
      (attached : forwarder.attached = (state.connections index).forwarder.attached)
      (deleted : forwarder.deleted = (state.connections index).forwarder.deleted) :
      Change app state (.forwarder index label) (state.put index { state.connections index with forwarder }) []
  | removed (label : Forwarder.Label) (index : Nat) (alive : Alive state index)
      (exists_ : state.server ≠ .destroyed) (forwarder : Forwarder.State) (driven : Driven forwarder)
      (opened : (forwarder.tcps .accepted).phase = .opened →
        ((state.connections index).forwarder.tcps .accepted).phase = .opened)
      (attached : forwarder.attached = (state.connections index).forwarder.attached)
      (deleted : forwarder.deleted = true) :
      Change app state (.forwarder index label)
        { state.put index { state.connections index with forwarder } with
          registered := state.registered.erase (state.connections index).address }
        [.removed index]
  | deadRemoval (label : Forwarder.Label) (index : Nat) (alive : Alive state index)
      (destroyed : state.server = .destroyed) (forwarder : Forwarder.State)
      (driven : Driven forwarder)
      (attached : forwarder.attached = (state.connections index).forwarder.attached)
      (deleted : forwarder.deleted = true) :
      Change app state (.forwarder index label) (state.put index { state.connections index with forwarder })
        [.deadServer index]
  | outgoingClosed (index : Nat) (apart : (state.connections index).outgoing = .apart .closing) :
      Change app state (.outgoingClosed index)
        (state.put index { state.connections index with outgoing := .apart .closed }) []
  | close (exists_ : state.server ≠ .destroyed) :
      Change app state .close { state with server := .closing } []
  | closed (exists_ : state.server ≠ .destroyed) :
      Change app state .closed { state with server := .destroyed } []

section Functions

variable {forwarder : Forwarder.State} {effect : Forwarder.Effect} {events : List Forwarder.Event}

theorem onClose_of_undeleted (undeleted : events.count .deleted = 0) :
    onClose index events state = (state, []) := by
  induction events with
  | nil => rfl
  | cons event rest ih =>
      cases event with
      | deleted => simp at undeleted
      | _ => exact ih (by simpa using undeleted)

theorem onClose_of_deleted (deleted : events.count .deleted = 1) :
    onClose index events state = remove index state := by
  induction events with
  | nil => simp at deleted
  | cons event rest ih =>
      cases event with
      | deleted =>
          simp only [List.count_cons_self, Nat.add_eq_right] at deleted
          simp [onClose, Reaction.andThen, onClose_of_undeleted deleted]
      | _ => exact ih (by simpa using deleted)

/-- The proxy is told when a function has deleted its forwarder. -/
theorem forwarded_cases (runs : Runs (state.connections index).forwarder effect) :
    effect.1.deleted = (state.connections index).forwarder.deleted ∧
        forwarded index effect state = (state.setForwarder index effect.1, []) ∨
      (state.connections index).forwarder.deleted = false ∧ effect.1.deleted = true ∧
        forwarded index effect state = remove index (state.setForwarder index effect.1) := by
  rcases runs.deletions with ⟨same, none⟩ | ⟨alive, deleted, once⟩
  · exact .inl ⟨same, onClose_of_undeleted none⟩
  · exact .inr ⟨alive, deleted, onClose_of_deleted once⟩

theorem forwarded_eq (here : (state.connections index).forwarder = forwarder)
    (runs : Runs forwarder effect) (same : effect.1.deleted = forwarder.deleted) :
    forwarded index effect state = (state.setForwarder index effect.1, []) := by
  subst here
  rcases forwarded_cases runs with ⟨-, equal⟩ | ⟨alive, deleted, -⟩
  · exact equal
  · exact nomatch alive.symm.trans (same.symm.trans deleted)

end Functions

theorem alive_put (same : connection.forwarder.deleted = (state.connections index).forwarder.deleted) :
    Alive (state.put index connection) other ↔ Alive state other := by
  by_cases equal : other = index
  · subst equal
    simp [Alive, same]
  · simp [Alive, equal]

/-- `Has` finds the forwarder that is alive at the address. -/
theorem Listed.has_iff (listed : Listed state) (exists_ : state.server ≠ .destroyed) :
    has index state ↔ ∃ target, Alive state target ∧
      (state.connections target).address = (state.connections index).address :=
  listed.listed exists_ _

namespace Change

variable {effect : Effect}

theorem of_closeIncoming (listed : Listed state) (pending : Pending state index)
    (there : has index state) {label : Label} (fails : Fails index label) :
    Change app state label (closeIncoming index (state.setStage index .failed)).1
      (closeIncoming index (state.setStage index .failed)).2 := by
  obtain ⟨runs, attached, deleted⟩ := (listed.driven index pending.1).runs_close
  have same : ((state.setStage index .failed).connections index).forwarder =
      (state.connections index).forwarder := by simp [State.setStage]
  simp only [closeIncoming, same]
  split
  · next closed => exact .deadIncoming label index fails pending there closed
  · simp only [Reaction.andThen, forwarded_eq same runs deleted]
    have change : Change app state _ _ _ := .refused label index fails pending there _
      runs.driven (Forwarder.close_phase _ _ _) attached deleted
    simpa [State.setForwarder, State.setStage] using change

theorem of_setOutgoing (listed : Listed state) (exists_ : state.server ≠ .destroyed)
    (pending : Pending state index) (there : has index state) :
    Change app state (.connected index true) (setOutgoing index (state.setStage index .connected)).1
      (setOutgoing index (state.setStage index .connected)).2 := by
  have address (other : Nat) : ((state.setStage index .connected).connections other).address =
      (state.connections other).address := by
    by_cases same : other = index <;> simp [State.setStage, same]
  have living (other : Nat) : Alive (state.setStage index .connected) other ↔ Alive state other :=
    alive_put rfl
  unfold setOutgoing
  split
  · next free =>
    rw [address] at free
    obtain ⟨target, alive, same⟩ := (listed.has_iff exists_).mp there
    exact absurd ((address target).trans same)
      (lookup_eq_none.mp free target ((living target).mpr alive))
  · next target found =>
    obtain ⟨alive, same⟩ := of_lookup found
    rw [living] at alive
    rw [address, address] at same
    generalize equation : (state.setStage index .connected).setOutgoing index (.attached target) = given
    have named : given = state.put index
        { state.connections index with stage := .connected, outgoing := .attached target } := by
      simp [← equation, State.setOutgoing, State.setStage]
    have here : (given.connections target).forwarder = (state.connections target).forwarder := by
      by_cases same : target = index <;> simp [named, same]
    dsimp only [Reaction.andThen]
    split
    · next alone =>
      have driven := listed.driven target alive.1
      rw [← here] at driven
      obtain ⟨runs, attached, deleted⟩ := driven.runs_setOutgoing (by rw [here]; exact alive.2) alone
      rw [forwarded_eq rfl runs (by rw [deleted, here, alive.2])]
      exact .attached index target pending there alive same given named alone _ runs.driven
        (by rw [← here]; exact runs.opened) attached deleted
    · next taken =>
      rw [here] at taken
      subst named
      exact .overrun index target pending there alive same taken

theorem of_onChecked (listed : Listed state) (pending : Pending state index)
    (checking : (state.connections index).stage = .checking) (error : Int) :
    Change app state (.checked index error) (onChecked error index state).1
      (onChecked error index state).2 := by
  unfold onChecked
  split
  · next destroyed =>
    exact .dead _ index .failed (state.connections index).outgoing destroyed pending
  · split
    · next failure =>
      have fails : Fails index (.checked index error) := .checked error failure
      by_cases there : has index state
      · have still : has index (state.setStage index .failed) := by
          simpa [has, State.setStage] using there
        simp only [still, if_true]
        exact of_closeIncoming listed pending there fails
      · have still : ¬ has index (state.setStage index .failed) := by
          simpa [has, State.setStage] using there
        simp only [still, if_false]
        exact .failed _ index fails pending there
    · exact .connecting error index pending checking

theorem of_onConnected (listed : Listed state) (pending : Pending state index) (success : Bool) :
    Change app state (.connected index success) (onConnected success index state).1
      (onConnected success index state).2 := by
  unfold onConnected
  dsimp only
  split
  · next destroyed =>
    have change : Change app state _ _ _ := .dead (.connected index success) index
      (if success then .connected else .failed) (if success then .apart .opened else .none)
      destroyed pending
    simpa [State.setStage, State.setOutgoing] using change
  · next exists_ =>
    split
    · next gone =>
      cases success with
      | true =>
          have change : Change app state _ _ _ := .discarded index pending gone
          simpa [State.setStage, State.setOutgoing] using change
      | false => exact .failed _ index .connected pending gone
    · next there =>
      rw [not_not] at there
      cases success with
      | true => exact of_setOutgoing listed exists_ pending there
      | false => exact of_closeIncoming listed pending there .connected

/-- A connection that no forwarder lives at the address of. -/
theorem of_accept (free : state.lookup address = none) (opened : state.server = .opened) :
    Change app state (.accept address)
      (Reaction.andThen (state.accepted address, [.accepted state.count address])
        (checkUpstreamProcess app state.count)).1
      (Reaction.andThen (state.accepted address, [.accepted state.count address])
        (checkUpstreamProcess app state.count)).2 := by
  have change : Change app state _ _ _ := .accept address opened (lookup_eq_none.mp free)
  cases app with
  | true => simpa [Reaction.andThen, checkUpstreamProcess, State.accepted, State.put] using change
  | false =>
      have there : state.server ≠ .destroyed := by simp [opened]
      simpa [Reaction.andThen, checkUpstreamProcess, onChecked, there, State.accepted,
        State.setStage, State.put] using change

theorem of_remove {forwarder : Forwarder.State} (listed : Listed state) (alive : Alive state index)
    (driven : Driven forwarder)
    (opened : (forwarder.tcps .accepted).phase = .opened →
      ((state.connections index).forwarder.tcps .accepted).phase = .opened)
    (attached : forwarder.attached = (state.connections index).forwarder.attached)
    (deleted : forwarder.deleted = true) (label : Forwarder.Label) :
    Change app state (.forwarder index label) (remove index (state.setForwarder index forwarder)).1
      (remove index (state.setForwarder index forwarder)).2 := by
  unfold remove
  split
  · next destroyed => exact .deadRemoval label index alive destroyed forwarder driven attached deleted
  · next exists_ =>
    have there : has index state := (listed.has_iff exists_).mpr ⟨index, alive, rfl⟩
    have still : has index (state.setForwarder index forwarder) := by
      simpa [has, State.setForwarder] using there
    rw [if_pos still]
    have change : Change app state _ _ _ := .removed label index alive exists_ forwarder driven opened
      attached deleted
    simpa [State.setForwarder] using change

end Change

/-- With a correct list, every step is one of the changes. -/
theorem change_of_step {label : Label} {effect : Effect} (listed : Listed state)
    (moved : step app state label = some effect) :
    state.overrun = false ∧ Change app state label effect.1 effect.2 := by
  unfold step at moved
  split at moved
  · cases moved
  · next running =>
    refine ⟨by simpa using running, ?_⟩
    cases label with
    | accept address =>
        simp only [move] at moved
        split at moved
        · next allowed =>
          obtain rfl := Option.some.inj moved
          exact .of_accept allowed.2 allowed.1
        · cases moved
    | checked index error =>
        simp only [move] at moved
        split at moved
        · next allowed =>
          obtain rfl := Option.some.inj moved
          exact .of_onChecked listed ⟨allowed.1, .inl allowed.2⟩ allowed.2 error
        · cases moved
    | connected index success =>
        simp only [move] at moved
        split at moved
        · next allowed =>
          obtain rfl := Option.some.inj moved
          exact .of_onConnected listed ⟨allowed.1, .inr allowed.2⟩ success
        · cases moved
    | forwarder index label =>
        simp only [move] at moved
        split at moved
        · next allowed =>
          obtain ⟨effect, ran, rfl⟩ := Option.map_eq_some_iff.mp moved
          obtain ⟨runs, attached⟩ := (listed.driven index allowed.1).runs_step ran allowed.2
          rcases forwarded_cases runs with ⟨same, equal⟩ | ⟨alive, deleted, equal⟩
          · rw [equal]
            exact .forwarder _ index allowed.1 _ runs.driven runs.opened attached same
          · rw [equal]
            exact .of_remove listed ⟨allowed.1, alive⟩ runs.driven runs.opened attached deleted _
        · cases moved
    | outgoingClosed index =>
        simp only [move] at moved
        split at moved
        · next allowed =>
          obtain rfl := Option.some.inj moved
          exact .outgoingClosed index allowed.2
        · cases moved
    | close =>
        simp only [move] at moved
        split at moved
        · next opened =>
          obtain rfl := Option.some.inj moved
          exact .close (by simp [opened])
        · next closing =>
          obtain rfl := Option.some.inj moved
          have change : Change app state _ _ _ := .close (by simp [closing])
          rwa [← closing] at change
        · cases moved
    | closed =>
        simp only [move] at moved
        split at moved
        · next closing =>
          obtain rfl := Option.some.inj moved
          exact .closed (by simp [closing])
        · cases moved

namespace Listed

/-- The list is not concerned by the sockets and the answers. -/
theorem put (listed : Listed state) (driven : index < state.count → Driven connection.forwarder)
    (address : connection.address = (state.connections index).address)
    (deleted : connection.forwarder.deleted = (state.connections index).forwarder.deleted) :
    Listed (state.put index connection) := by
  have addresses := put_address address
  refine ⟨fun other created => ?_, fun first second => ?_, fun exists_ address => ?_⟩
  · by_cases same : other = index
    · subst same
      simpa using driven created
    · simpa [same] using listed.driven other created
  · rw [alive_put deleted, alive_put deleted, addresses, addresses]
    exact listed.alone first second
  · simp only [alive_put deleted, addresses]
    exact listed.listed exists_ address

/-- A deleted forwarder leaves the list, if there is one. -/
theorem remove {forwarder : Forwarder.State} {registered : Finset Address} (listed : Listed state)
    (alive : Alive state index) (driven : Driven forwarder) (deleted : forwarder.deleted = true)
    (erased : state.server ≠ .destroyed →
      registered = state.registered.erase (state.connections index).address) :
    Listed { state.put index { state.connections index with forwarder } with registered } := by
  have addresses (other : Nat) :
      ((state.put index { state.connections index with forwarder }).connections other).address =
        (state.connections other).address := by
    apply put_address
    rfl
  have living (other : Nat) :
      Alive (state.put index { state.connections index with forwarder }) other ↔
        Alive state other ∧ other ≠ index := by
    by_cases same : other = index <;> simp [Alive, same, deleted]
  refine ⟨fun other created => ?_, fun first second one two => ?_, fun exists_ address => ?_⟩
  · by_cases same : other = index
    · simpa [same] using driven
    · simpa [same] using listed.driven other created
  · dsimp only
    rw [addresses, addresses]
    exact listed.alone first second ((living first).mp one).1 ((living second).mp two).1
  · dsimp only
    simp only [erased exists_, Finset.mem_erase, addresses]
    rw [listed.listed exists_]
    constructor
    · rintro ⟨apart, target, there, rfl⟩
      exact ⟨target, (living target).mpr ⟨there, fun same => apart (by rw [same])⟩, rfl⟩
    · rintro ⟨target, there, rfl⟩
      obtain ⟨still, apart⟩ := (living target).mp there
      exact ⟨fun same => apart (listed.alone target index still alive same), target, still, rfl⟩

/-- A new forwarder enters it. -/
theorem accept (listed : Listed state) (stage : Stage) (opened : state.server = .opened)
    (free : ∀ index, Alive state index → (state.connections index).address ≠ address) :
    Listed ((state.accepted address).put state.count { address, stage }) := by
  have connections (other : Nat) :
      ((state.accepted address).put state.count { address, stage }).connections other =
        if other = state.count then { address, stage } else state.connections other :=
    accepted_connections other
  have living (other : Nat) :
      Alive ((state.accepted address).put state.count { address, stage }) other ↔
        Alive state other ∨ other = state.count := by
    by_cases same : other = state.count
    · simp [Alive, State.accepted, same, Forwarder.State.initial]
    · have order : other < state.count + 1 ↔ other < state.count := by omega
      simp [Alive, State.accepted, same, order]
  have apart {other : Nat} (alive : Alive state other) : other ≠ state.count :=
    Nat.ne_of_lt alive.1
  refine ⟨fun other created => ?_, fun first second one two => ?_, fun _ another => ?_⟩
  · rw [connections]
    split
    · exact driven_initial
    · next old =>
      exact listed.driven other (Nat.lt_of_le_of_ne (Nat.le_of_lt_succ created) old)
  · rw [connections, connections]
    rcases (living first).mp one with first_ | rfl <;> rcases (living second).mp two with second_ | rfl
    · simpa [apart first_, apart second_] using listed.alone first second first_ second_
    · simpa [apart first_] using fun same => absurd same (free first first_)
    · simpa [apart second_] using fun same => absurd same.symm (free second second_)
    · exact fun _ => rfl
  · have exists_ : state.server ≠ .destroyed := by simp [opened]
    have registered : ((state.accepted address).put state.count { address, stage }).registered =
        insert address state.registered := rfl
    rw [registered, Finset.mem_insert, listed.listed exists_]
    constructor
    · rintro (rfl | ⟨target, alive, rfl⟩)
      · exact ⟨state.count, (living _).mpr (.inr rfl), by simp⟩
      · exact ⟨target, (living target).mpr (.inl alive), by rw [connections, if_neg (apart alive)]⟩
    · rintro ⟨target, there, rfl⟩
      rw [connections]
      rcases (living target).mp there with alive | rfl
      · exact .inr ⟨target, alive, by simp [apart alive]⟩
      · exact .inl (by simp)

theorem change {label : Label} (listed : Listed state)
    (changed : Change app state label following out) : Listed following := by
  cases changed with
  | accept address opened free => exact listed.accept _ opened free
  | dead _ index => exact listed.put (listed.driven index) rfl rfl
  | connecting _ index => exact listed.put (listed.driven index) rfl rfl
  | failed _ index => exact listed.put (listed.driven index) rfl rfl
  | refused _ index _ _ _ forwarder driven _ _ deleted =>
      exact listed.put (fun _ => driven) rfl deleted
  | deadIncoming _ index => exact listed.put (listed.driven index) rfl rfl
  | discarded index => exact listed.put (listed.driven index) rfl rfl
  | attached index target pending _ alive _ given named _ forwarder driven _ _ deleted =>
      subst named
      have first : Listed (state.put index
          { state.connections index with stage := .connected, outgoing := .attached target }) :=
        listed.put (listed.driven index) rfl rfl
      refine first.put (fun _ => driven) rfl (deleted.trans ?_)
      by_cases same : target = index
      · subst same
        simp [alive.2]
      · simp [same, alive.2]
  | overrun index target =>
      have first : Listed (state.put index
          { state.connections index with stage := .connected, outgoing := .attached target }) :=
        listed.put (listed.driven index) rfl rfl
      exact ⟨first.driven, first.alone, first.listed⟩
  | forwarder _ index _ forwarder driven _ _ deleted => exact listed.put (fun _ => driven) rfl deleted
  | removed _ index alive _ forwarder driven _ _ deleted =>
      exact listed.remove alive driven deleted fun _ => rfl
  | deadRemoval _ index alive destroyed forwarder driven _ deleted =>
      exact listed.remove alive driven deleted fun exists_ => absurd destroyed exists_
  | outgoingClosed index => exact listed.put (listed.driven index) rfl rfl
  | close exists_ => exact ⟨listed.driven, listed.alone, fun _ => listed.listed exists_⟩
  | closed => exact ⟨listed.driven, listed.alone, fun exists_ => absurd rfl exists_⟩

end Listed

theorem listed_of_reaches {guard : State → Label → Prop} {past : List Event}
    (reached : Machine.Reaches (step app) guard .initial state past) : Listed state :=
  reached.invariant (fun state _ => Listed state) listed_initial
    fun _ listed _ moved => listed.change (change_of_step listed moved).2

end Nexer.Proxy

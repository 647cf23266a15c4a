import Nexer.Forwarder.Integrity
import Nexer.Proxy.Addresses
import Nexer.Transition.Annotation
import Nexer.Transition.Instances

/-!
# The streams of a proxy

A proxy runs its forwarders beside each other, and each of them is run by its own machine.
The bytes that a client sends therefore go to the upstream socket of its own connection, in
order and nothing else, and those of this socket go to the client, whatever the other
connections do.
-/

namespace Nexer.Proxy

open Nexer.Transition

/-- What the forwarders do when the proxy calls one of them. -/
def called (state : State) : Event → List (Nat × Forwarder.Event)
  | .setOutgoing target _ =>
      let forwarder := (state.connections target).forwarder
      if forwarder.attached = none then
        (Forwarder.setOutgoing .connected forwarder).2.map (Prod.mk target)
      else []
  | .refused index =>
      (Forwarder.close .accepted .accepted (state.connections index).forwarder).2.map (Prod.mk index)
  | _ => []

/-- What the forwarders do in a step of the proxy. -/
def traffic (state : State) (label : Label) (out : List Event) : List (Nat × Forwarder.Event) :=
  match label with
  | .forwarder index label =>
      ((Forwarder.step (state.connections index).forwarder label).elim [] Prod.snd).map
        (Prod.mk index)
  | _ => out.flatMap (called state)

/-- The proxy, which also reports what its forwarders do. -/
def streaming (app : Bool) : Machine State Label (Event ⊕ Nat × Forwarder.Event) :=
  (step app).annotating traffic

/-- What the forwarder of a connection has done. -/
def streamOf (index : Nat) (past : List (Event ⊕ Nat × Forwarder.Event)) :
    List Forwarder.Event :=
  Machine.eventsOf index (Machine.noted past)

@[simp] theorem streamOf_append (index : Nat) (past out : List (Event ⊕ Nat × Forwarder.Event)) :
    streamOf index (past ++ out) = streamOf index past ++ streamOf index out := by
  simp [streamOf]

variable {app : Bool} {state following : State} {out : List Event} {index other : Nat}
variable {label : Label}

section Unchanged

theorem remove_connections : (remove index state).1.connections = state.connections := by
  unfold remove
  split
  · rfl
  · split
    · rfl
    · rfl

theorem remove_called (before : State) :
    (remove index state).2.flatMap (called before) = [] := by
  unfold remove
  split
  · rfl
  · split
    · rfl
    · rfl

theorem onClose_connections (events : List Forwarder.Event) :
    (onClose index events state).1.connections = state.connections := by
  induction events generalizing state with
  | nil => rfl
  | cons event rest ih =>
      cases event with
      | deleted => exact ih.trans remove_connections
      | _ => exact ih

theorem onClose_called (before : State) (events : List Forwarder.Event) :
    (onClose index events state).2.flatMap (called before) = [] := by
  induction events generalizing state with
  | nil => rfl
  | cons event rest ih =>
      cases event with
      | deleted =>
          show List.flatMap _ ((remove index state).2 ++ _) = []
          rw [List.flatMap_append, remove_called, ih]
          rfl
      | _ => exact ih

theorem setStage_forwarder (stage : Stage) :
    ((state.setStage index stage).connections other).forwarder =
      (state.connections other).forwarder := by
  by_cases same : other = index <;> simp [State.setStage, same]

theorem setOutgoing_forwarder (outgoing : Outgoing) :
    ((state.setOutgoing index outgoing).connections other).forwarder =
      (state.connections other).forwarder := by
  by_cases same : other = index <;> simp [State.setOutgoing, same]

/-- The forwarder of one connection has run a function. -/
theorem forwarded_forwarder (effect : Forwarder.Effect) :
    ((forwarded index effect state).1.connections other).forwarder =
      if other = index then effect.1 else (state.connections other).forwarder := by
  rw [forwarded, onClose_connections, State.setForwarder, put_connections]
  split
  · rfl
  · rfl

theorem forwarded_called (before : State) (effect : Forwarder.Effect) :
    (forwarded index effect state).2.flatMap (called before) = [] :=
  onClose_called before effect.2

end Unchanged

/-- What a step does to the forwarder of a connection. -/
abbrev Relays (before after : Forwarder.State) (events : List Forwarder.Event) : Prop :=
  Machine.Moves Forwarder.step Machine.always before after events

/-- Of the forwarders, one alone has run a function. -/
theorem relays_of_forwarded {effect : Forwarder.Effect} {before : State}
    (here : ∀ other, (state.connections other).forwarder = (before.connections other).forwarder)
    (runs : Relays (before.connections index).forwarder effect.1 effect.2) (other : Nat) :
    Relays (before.connections other).forwarder
      ((forwarded index effect state).1.connections other).forwarder
      (Machine.eventsOf other (effect.2.map (Prod.mk index))) := by
  rw [forwarded_forwarder]
  by_cases same : other = index
  · subst same
    rw [if_pos rfl, Machine.eventsOf_map]
    exact runs
  · rw [if_neg same, here, Machine.eventsOf_map_ne _ (Ne.symm same)]
    exact .rests

theorem relays_of_closeIncoming {before : State}
    (here : ∀ other, (state.connections other).forwarder = (before.connections other).forwarder)
    (other : Nat) :
    Relays (before.connections other).forwarder
      ((closeIncoming index state).1.connections other).forwarder
      (Machine.eventsOf other ((closeIncoming index state).2.flatMap (called before))) := by
  unfold closeIncoming
  dsimp only
  split
  · rw [here]
    exact .rests
  · have runs : Relays (before.connections index).forwarder
        (Forwarder.close .accepted .accepted (state.connections index).forwarder).1
        (Forwarder.close .accepted .accepted (state.connections index).forwarder).2 := by
      rw [here]
      by_cases opened : ((before.connections index).forwarder.tcps .accepted).phase = .opened
      · refine .moves (.close .accepted) _ _ trivial ?_
        simp [Forwarder.step, opened]
      · rw [Forwarder.close, if_neg opened]
        exact .rests
    have relays := relays_of_forwarded here runs other
    rw [Reaction.andThen, List.flatMap_append, forwarded_called, List.append_nil]
    simpa [called, here] using relays

theorem relays_of_setOutgoing {before : State} (listed : Listed before)
    (here : ∀ other, (state.connections other).forwarder = (before.connections other).forwarder)
    (count : state.count = before.count) (other : Nat) :
    Relays (before.connections other).forwarder
      ((setOutgoing index state).1.connections other).forwarder
      (Machine.eventsOf other ((setOutgoing index state).2.flatMap (called before))) := by
  unfold setOutgoing
  split
  · rw [here]
    exact .rests
  · next target found =>
    obtain ⟨⟨created, alive⟩, -⟩ := of_lookup found
    rw [count] at created
    rw [here] at alive
    have given (other : Nat) :
        ((state.setOutgoing index (.attached target)).connections other).forwarder =
          (before.connections other).forwarder := (setOutgoing_forwarder _).trans (here other)
    dsimp only
    rw [Reaction.andThen, List.flatMap_append]
    simp only [given, List.flatMap_cons, List.flatMap_nil, List.append_nil, called]
    split
    · next alone =>
      rw [forwarded_called, List.append_nil]
      refine relays_of_forwarded given ?_ other
      refine .moves (.setOutgoing .connected) _ _ trivial ?_
      simp [Forwarder.step, alive, alone, (listed.driven target created).unattached alone]
    · rw [given]
      exact .rests

theorem relays_of_onChecked {before : State}
    (here : ∀ other, (state.connections other).forwarder = (before.connections other).forwarder)
    (error : Int) (other : Nat) :
    Relays (before.connections other).forwarder
      ((onChecked error index state).1.connections other).forwarder
      (Machine.eventsOf other ((onChecked error index state).2.flatMap (called before))) := by
  unfold onChecked
  split
  · rw [setStage_forwarder, here]
    exact .rests
  · split
    · dsimp only
      split
      · exact relays_of_closeIncoming (fun other => (setStage_forwarder _).trans (here other)) other
      · rw [setStage_forwarder, here]
        exact .rests
    · rw [setStage_forwarder, here]
      exact .rests

theorem relays_of_onConnected (listed : Listed state) (success : Bool) (other : Nat) :
    Relays (state.connections other).forwarder
      ((onConnected success index state).1.connections other).forwarder
      (Machine.eventsOf other ((onConnected success index state).2.flatMap (called state))) := by
  unfold onConnected
  dsimp only
  split
  · rw [setOutgoing_forwarder, setStage_forwarder]
    exact .rests
  · split
    · split
      · rw [setOutgoing_forwarder, setStage_forwarder]
        exact .rests
      · rw [setStage_forwarder]
        exact .rests
    · split
      · exact relays_of_setOutgoing listed (fun _ => setStage_forwarder _) rfl other
      · exact relays_of_closeIncoming (fun _ => setStage_forwarder _) other

/-- The forwarders that have not been created. -/
def Unborn (state : State) : Prop :=
  ∀ index, state.count ≤ index →
    (state.connections index).forwarder = .initial fun _ => true

theorem Unborn.put {connection : Connection} (unborn : Unborn state)
    (kept : state.count ≤ index →
      connection.forwarder = (state.connections index).forwarder) :
    Unborn (state.put index connection) := by
  intro other below
  by_cases same : other = index
  · subst same
    rw [put_connections, if_pos rfl, kept below]
    exact unborn other below
  · rw [put_connections, if_neg same]
    exact unborn other below

theorem Unborn.change (unborn : Unborn state) (changed : Change app state label following out) :
    Unborn following := by
  have created {index : Nat} (below : index < state.count) (above : state.count ≤ index) : False :=
    Nat.not_le_of_lt below above
  cases changed with
  | accept address =>
      intro other below
      rw [accepted_connections]
      have later : state.count < other := below
      rw [if_neg (Nat.ne_of_gt later)]
      exact unborn other (Nat.le_of_lt later)
  | dead | connecting | failed | deadIncoming | discarded | outgoingClosed =>
      exact unborn.put fun _ => rfl
  | refused _ _ _ pending => exact unborn.put fun above => (created pending.1 above).elim
  | forwarder _ _ below => exact unborn.put fun above => (created below above).elim
  | deadRemoval _ _ alive => exact unborn.put fun above => (created alive.1 above).elim
  | removed _ index alive _ forwarder =>
      have kept : Unborn (state.put index { state.connections index with forwarder }) :=
        unborn.put fun above => (created alive.1 above).elim
      exact kept
  | attached index target _ _ alive _ given named =>
      subst named
      have first : Unborn (state.put index { state.connections index with
          stage := .connected, outgoing := .attached target }) := unborn.put fun _ => rfl
      exact first.put fun above => (created alive.1 above).elim
  | overrun index target =>
      have first : Unborn (state.put index { state.connections index with
          stage := .connected, outgoing := .attached target }) := unborn.put fun _ => rfl
      exact first
  | close | closed => exact unborn

theorem unborn_of_reaches {guard : State → Label → Prop} {past : List Event}
    (reached : Machine.Reaches (step app) guard .initial state past) : Unborn state :=
  reached.invariant (fun state _ => Unborn state) (fun _ _ => rfl)
    fun reached unborn _ moved => unborn.change (change_of_step (listed_of_reaches reached) moved).2

/-- A step of the proxy is a step of one forwarder at most. -/
theorem relays_of_step (listed : Listed state) (unborn : Unborn state)
    (moved : step app state label = some (following, out)) (other : Nat) :
    Relays (state.connections other).forwarder (following.connections other).forwarder
      (Machine.eventsOf other (traffic state label out)) := by
  simp only [step, Option.ite_none_left_eq_some] at moved
  obtain ⟨-, moved⟩ := moved
  cases label with
  | accept address =>
      simp only [move, Option.ite_none_right_eq_some, Option.some.injEq] at moved
      obtain ⟨rfl, rfl⟩ := Prod.mk.inj moved.2
      have here (other : Nat) : ((state.accepted address).connections other).forwarder =
          (state.connections other).forwarder := by
        by_cases same : other = state.count
        · subst same
          rw [unborn _ (Nat.le_refl _)]
          simp [State.accepted]
        · simp [State.accepted, same]
      show Relays _ _ (Machine.eventsOf other (List.flatMap (called state) ([_] ++ _)))
      rw [List.flatMap_append]
      unfold checkUpstreamProcess
      split
      · rw [here]
        exact .rests
      · exact relays_of_onChecked here 0 other
  | checked index error =>
      simp only [move, Option.ite_none_right_eq_some, Option.some.injEq] at moved
      obtain ⟨rfl, rfl⟩ := Prod.mk.inj moved.2
      exact relays_of_onChecked (fun _ => rfl) error other
  | connected index success =>
      simp only [move, Option.ite_none_right_eq_some, Option.some.injEq] at moved
      obtain ⟨rfl, rfl⟩ := Prod.mk.inj moved.2
      exact relays_of_onConnected listed success other
  | forwarder index label =>
      simp only [move, Option.ite_none_right_eq_some, Option.map_eq_some_iff] at moved
      obtain ⟨-, effect, stepped, same⟩ := moved
      obtain ⟨rfl, rfl⟩ := Prod.mk.inj same
      simp only [traffic, stepped, Option.elim_some]
      exact relays_of_forwarded (fun _ => rfl) (.moves label _ _ trivial stepped) other
  | outgoingClosed index =>
      simp only [move, Option.ite_none_right_eq_some, Option.some.injEq] at moved
      obtain ⟨rfl, rfl⟩ := Prod.mk.inj moved.2
      rw [setOutgoing_forwarder]
      exact .rests
  | close =>
      simp only [move] at moved
      split at moved
      · obtain ⟨rfl, rfl⟩ := Prod.mk.inj (Option.some.inj moved)
        exact .rests
      · obtain ⟨rfl, rfl⟩ := Prod.mk.inj (Option.some.inj moved)
        exact .rests
      · cases moved
  | closed =>
      simp only [move, Option.ite_none_right_eq_some, Option.some.injEq] at moved
      obtain ⟨rfl, rfl⟩ := Prod.mk.inj moved.2
      exact .rests

/-- Each forwarder runs its own machine, whatever the other ones do. -/
theorem forwarder_of_reaches {guard : State → Label → Prop}
    {past : List (Event ⊕ Nat × Forwarder.Event)}
    (reached : Machine.Reaches (streaming app) guard .initial state past) (index : Nat) :
    Machine.Reaches Forwarder.step Machine.always (.initial fun _ => true)
      (state.connections index).forwarder (streamOf index past) := by
  refine reached.part (fun state => (state.connections index).forwarder) (streamOf index) rfl
    (streamOf_append index) ?_
  intro state following past out label reached _ moved
  obtain ⟨events, stepped, rfl⟩ := Machine.annotating_eq_some.mp moved
  have run := reached.of_annotating
  rw [streamOf, Machine.noted_annotated]
  exact relays_of_step (listed_of_reaches run) (unborn_of_reaches run) stepped index

/-- The socket that a record of a forwarder reads, when it is not an echo. -/
def socketOf : Forwarder.Side → Forwarder.Socket
  | .incoming => .accepted
  | .outgoing => .connected

theorem attached_of_reaches {guard : State → Label → Prop} {past : List Event}
    (reached : Machine.Reaches (step app) guard .initial state past) (index : Nat) :
    (state.connections index).forwarder.attached = none ∨
      (state.connections index).forwarder.attached = some .connected := by
  by_cases created : index < state.count
  · exact ((listed_of_reaches reached).driven index created).attached
  · rw [unborn_of_reaches reached index (Nat.le_of_not_lt created)]
    exact .inl rfl

/-- The two ledgers of a forwarder that is not an echo. -/
theorem ledger {forwarder : Forwarder.State} {stream : List Forwarder.Event}
    (core : Forwarder.Core none forwarder stream)
    (attached : forwarder.attached = none ∨ forwarder.attached = some .connected)
    (side : Forwarder.Side) :
    Forwarder.receivedFrom (socketOf side) stream =
      Forwarder.completedOn (socketOf side.peer) stream ++ forwarder.outOf side ++
        forwarder.inOf side := by
  have balanced := core.balanced side
  rcases attached with alone | attached
  · obtain ⟨-, unread, unwritten⟩ := core.unattached alone
    rw [unwritten]
    cases side with
    | incoming => simpa [Forwarder.lane, Stream.DoubleBuffer.Balanced, Forwarder.source,
        Forwarder.dest, alone, socketOf] using balanced
    | outgoing =>
        rw [socketOf, unread]
        simpa [Forwarder.lane, Stream.DoubleBuffer.Balanced, Forwarder.source,
          Forwarder.dest, alone, unread] using balanced
  · cases side with
    | incoming | outgoing =>
        simpa [Forwarder.lane, Stream.DoubleBuffer.Balanced, Forwarder.source,
          Forwarder.dest, attached, socketOf, Forwarder.Side.peer] using balanced

/-- What a client sends is written to the upstream socket that was connected for it, in order
and once, and what this socket receives is written to the client; nothing else is.  What has
not been written yet is in the strings of the forwarder of this connection, and they are
empty while the socket can be written to and no write is outstanding. -/
theorem streams_apart {past : List (Event ⊕ Nat × Forwarder.Event)}
    (reached : Machine.Reaches (streaming app) Unreused .initial state past) (index : Nat) :
    (∀ side, Forwarder.receivedFrom (socketOf side) (streamOf index past) =
      Forwarder.completedOn (socketOf side.peer) (streamOf index past) ++
        (state.connections index).forwarder.outOf side ++
        (state.connections index).forwarder.inOf side) ∧
    (givenTo index (Machine.reported past) = [] ∧
        Forwarder.receivedFrom .connected (streamOf index past) = [] ∧
        (∀ socket, Forwarder.completedOn socket (streamOf index past) = []) ∨
      givenTo index (Machine.reported past) = [index] ∧
        ∀ side, ((state.connections index).forwarder.tcps (socketOf side.peer)).writable →
          ((state.connections index).forwarder.tcps (socketOf side.peer)).requests = [] →
          Forwarder.completedOn (socketOf side.peer) (streamOf index past) =
            Forwarder.receivedFrom (socketOf side) (streamOf index past)) := by
  have run := reached.of_annotating
  have core := Forwarder.core_of_reaches (forwarder_of_reaches reached index)
  have attached := attached_of_reaches run index
  have balanced := ledger core attached
  refine ⟨balanced, ?_⟩
  have given := (directed_of_reaches run).given index
  rcases attached with alone | attached
  · refine .inl ⟨?_, (core.unattached alone).2⟩
    rw [given, if_neg]
    simp [alone]
  · refine .inr ⟨?_, fun side ready quiet => ?_⟩
    · have created : index < state.count := by
        by_contra above
        rw [unborn_of_reaches run index (Nat.le_of_not_lt above)] at attached
        cases attached
      rw [given, if_pos]
      exact ⟨created, by simp [attached]⟩
    · have target : Forwarder.dest (state.connections index).forwarder side =
          some (socketOf side.peer) := by
        cases side <;> simp [Forwarder.dest, attached, socketOf, Forwarder.Side.peer]
      have opened := core.writable _ ready
      have unwritten := core.idle side _ target (by simp) opened quiet
      have unqueued := core.flushed side _ target (by simp) ready unwritten
      rw [balanced side, unwritten, unqueued, List.append_nil, List.append_nil]

/-- Two clients at once, the second one first connected. -/
theorem streams_apart_run : ∃ state past,
    Machine.Reaches (streaming false) Unreused .initial state past ∧
      Forwarder.completedOn .connected (streamOf 0 past) = [1, 2] ∧
      Forwarder.completedOn .connected (streamOf 1 past) = [5] := by
  obtain ⟨state, reached, checked⟩ := Machine.exists_reaches (streaming false) Unreused .initial
    [.accept 7, .accept 9, .forwarder 1 (.data .accepted [5]), .connected 1 true,
      .forwarder 0 (.data .accepted [1]), .connected 0 true, .forwarder 0 (.data .accepted [2]),
      .forwarder 0 (.sent .connected), .forwarder 1 (.sent .connected),
      .forwarder 0 (.sent .connected)]
    [.inl (.accepted 0 7), .inl (.accepted 1 9), .inr (1, .received .accepted [5]),
      .inr (1, .write .connected ⟨⟨.incoming, false⟩, [5]⟩), .inl (.setOutgoing 1 1),
      .inr (0, .received .accepted [1]), .inr (0, .write .connected ⟨⟨.incoming, false⟩, [1]⟩),
      .inl (.setOutgoing 0 0), .inr (0, .received .accepted [2]),
      .inr (0, .completed .connected [1]),
      .inr (0, .write .connected ⟨⟨.incoming, true⟩, [2]⟩), .inr (1, .completed .connected [5]),
      .inr (0, .completed .connected [2])]
    (fun state => [0, 1].all fun index =>
      let socket := (state.connections index).forwarder.tcps .connected
      socket.writable && socket.requests = []) (by decide)
  simp only [List.all_cons, List.all_nil, Bool.and_true, Bool.and_eq_true,
    decide_eq_true_eq] at checked
  obtain ⟨⟨ready, quiet⟩, readyNext, quietNext⟩ := checked
  refine ⟨state, _, reached, ?_, ?_⟩
  · rcases (streams_apart reached 0).2 with ⟨none, -⟩ | ⟨-, written⟩
    · exact absurd none (by decide)
    · exact (written .incoming ready quiet).trans (by decide)
  · rcases (streams_apart reached 1).2 with ⟨none, -⟩ | ⟨-, written⟩
    · exact absurd none (by decide)
    · exact (written .incoming readyNext quietNext).trans (by decide)

end Nexer.Proxy

import Nexer.TcpClient.State

/-!
# Callbacks of a deleted client

Connect and write requests complete before the close callback of their handle, and
a closed handle reads nothing.  A request to resolve a name is independent of the
handle: it is the only one that can outlive the client.
-/

namespace Nexer.TcpClient

open Nexer.Transition

variable {state following : State} {past out : List Event} {closes : Closes}

/-- The functions of a client neither delete it nor make callbacks of other clients. -/
structure Living (effect : Effect) : Prop where
  phase : effect.1.phase ≠ .destroyed
  events : ∀ name, .dead name ∉ effect.2

namespace Living

theorem of_close (alive : state.phase ≠ .destroyed) : (close state).phase ≠ .destroyed := by
  unfold close
  split
  · simp
  · exact alive

theorem andThen {effect : Effect} {next : State → Effect} (first : Living effect)
    (second : ∀ state : State, state.phase ≠ .destroyed → Living (next state)) :
    Living (effect.andThen next) where
  phase := (second _ first.phase).phase
  events := by
    intro name member
    rcases List.mem_append.mp member with before | after
    · exact first.events name before
    · exact (second _ first.phase).events name after

theorem silent (alive : state.phase ≠ .destroyed) : Living (state, []) :=
  ⟨alive, by simp⟩

theorem of_invoke {handler : Handler} {event : Event} (alive : state.phase ≠ .destroyed)
    (sound : ∀ name, event ≠ .dead name) : Living (invoke handler event closes state) where
  phase := by
    unfold invoke
    split
    · exact of_close alive
    · exact alive
  events := by
    intro name member
    exact sound name (List.mem_singleton.mp member).symm

theorem of_onError {code : Int} (alive : state.phase ≠ .destroyed) :
    Living (onError code closes state) :=
  of_invoke alive nofun

theorem of_getAddrInfo {status : Int} (alive : state.phase ≠ .destroyed) :
    Living (getAddrInfo status closes state) := by
  simp only [getAddrInfo]
  split
  · refine andThen (of_onError alive) fun _ alive => ?_
    exact silent alive
  · exact silent alive

theorem of_connectAddr {status : Int} (alive : state.phase ≠ .destroyed) :
    Living (connectAddr status closes state) := by
  simp only [connectAddr]
  split
  · refine andThen (of_onError alive) fun _ alive => ?_
    exact silent alive
  · exact silent alive

theorem of_readStart {status : Int} (alive : state.phase ≠ .destroyed) :
    Living (readStart status closes state) := by
  simp only [readStart]
  split
  · exact of_onError alive
  · exact silent alive

theorem of_onAddrInfo {status connect : Int} (alive : state.phase ≠ .destroyed) :
    Living (onAddrInfo status connect closes state) := by
  simp only [onAddrInfo]
  split
  · exact of_onError alive
  · exact of_connectAddr alive

theorem of_onConnect {status start : Int} (alive : state.phase ≠ .destroyed) :
    Living (onConnect status start closes state) := by
  simp only [onConnect]
  split
  · exact of_onError alive
  · refine andThen (of_invoke alive ?_) fun _ => of_readStart
    exact nofun

theorem of_onRead {nread : Int} (alive : state.phase ≠ .destroyed) :
    Living (onRead nread closes state) := by
  simp only [onRead]
  split
  · split
    · exact silent (of_close alive)
    · exact of_onError alive
  · exact of_invoke alive nofun

theorem of_write {kind : WriteKind} {status : Int} (alive : state.phase ≠ .destroyed) :
    Living (write kind status closes state) := by
  simp only [write]
  split
  · exact of_onError alive
  · exact silent alive

theorem of_onWrite {status : Int} (alive : state.phase ≠ .destroyed) :
    Living (onWrite status closes state) := by
  simp only [onWrite]
  split
  · exact of_onError alive
  · exact of_invoke alive nofun

theorem of_callback {name : Callback} {run : State → Effect} (alive : state.phase ≠ .destroyed)
    (living : ∀ state : State, state.phase ≠ .destroyed → Living (run state)) :
    Living (callback name run state) := by
  rw [callback, if_neg alive]
  exact living state alive

end Living

/-- A deleted client has at most requests to resolve names. -/
structure Sound (state : State) : Prop where
  connects : state.phase = .destroyed → state.connects = 0
  writes : state.phase = .destroyed → state.writes = []

theorem Sound.of_living {effect : Effect} (living : Living effect) : Sound effect.1 :=
  ⟨fun gone => absurd gone living.phase, fun gone => absurd gone living.phase⟩

/-- What a step can do: a function of a living client, its deletion, or a name that
is resolved for a deleted one. -/
theorem step_cases {label : Label} {effect : Effect} (sound : Sound state)
    (moved : step state label = some effect) :
    Living effect ∧ state.phase ≠ .destroyed ∨
      (label = .closed ∧ effect = ({ state with phase := .destroyed }, [.closed]) ∧
        state.phase ≠ .destroyed ∧ state.connects = 0 ∧ state.writes = []) ∨
      (state.phase = .destroyed ∧ 0 < state.resolvers ∧
        effect = ({ state with resolvers := state.resolvers - 1 }, [.dead .addrInfo])) := by
  cases label with
  | connect status closes =>
      simp only [step] at moved
      split at moved
      · next alive =>
        obtain rfl := Option.some.inj moved
        exact .inl ⟨.of_getAddrInfo alive, alive⟩
      · cases moved
  | readStart status closes =>
      simp only [step] at moved
      split at moved
      · next alive =>
        obtain rfl := Option.some.inj moved
        exact .inl ⟨.of_readStart alive, alive⟩
      · cases moved
  | write kind status closes =>
      simp only [step] at moved
      split at moved
      · next alive =>
        obtain rfl := Option.some.inj moved
        exact .inl ⟨.of_write alive, alive⟩
      · cases moved
  | close =>
      simp only [step] at moved
      split at moved
      · next alive =>
        obtain rfl := Option.some.inj moved
        exact .inl ⟨.silent (Living.of_close alive), alive⟩
      · cases moved
  | addrInfo status connect closes =>
      simp only [step] at moved
      split at moved
      · next pending =>
        obtain rfl := Option.some.inj moved
        by_cases gone : state.phase = .destroyed
        · exact .inr (.inr ⟨gone, pending, by simp [callback, gone]⟩)
        · exact .inl ⟨.of_callback gone fun _ => .of_onAddrInfo, gone⟩
      · cases moved
  | connected status start closes =>
      simp only [step] at moved
      split at moved
      · next pending =>
        obtain rfl := Option.some.inj moved
        have alive : state.phase ≠ .destroyed := fun gone => by
          simp [sound.connects gone] at pending
        exact .inl ⟨.of_callback alive fun _ => .of_onConnect, alive⟩
      · cases moved
  | read nread closes =>
      simp only [step] at moved
      split at moved
      · next ready =>
        obtain rfl := Option.some.inj moved
        have alive : state.phase ≠ .destroyed := by simp [ready.1]
        exact .inl ⟨.of_callback alive fun _ => .of_onRead, alive⟩
      · cases moved
  | wrote status closes =>
      simp only [step] at moved
      split at moved
      · cases moved
      · next kind rest pending =>
        obtain rfl := Option.some.inj moved
        have alive : state.phase ≠ .destroyed := fun gone => by
          simp [sound.writes gone] at pending
        exact .inl ⟨.of_callback alive fun _ => .of_onWrite, alive⟩
  | closed =>
      simp only [step] at moved
      split at moved
      · next ready =>
        obtain rfl := Option.some.inj moved
        exact .inr (.inl ⟨rfl, rfl, by simp [ready.1], ready.2⟩)
      · cases moved

theorem Sound.step {label : Label} {effect : Effect} (sound : Sound state)
    (moved : step state label = some effect) : Sound effect.1 := by
  rcases step_cases sound moved with ⟨living, -⟩ | ⟨-, rfl, -, connects, writes⟩ | ⟨gone, -, rfl⟩
  · exact .of_living living
  · exact ⟨fun _ => connects, fun _ => writes⟩
  · exact ⟨fun _ => sound.connects gone, fun _ => sound.writes gone⟩

theorem sound_of_reaches {guard : State → Label → Prop}
    (reached : Machine.Reaches step guard .initial state past) : Sound state :=
  reached.invariant (fun state _ => Sound state) (by constructor <;> simp [State.initial])
    fun _ sound _ moved => sound.step moved

/-- Only a resolved name can call back a deleted client. -/
theorem dead_only_addrInfo (reached : Machine.Reaches step Machine.always .initial state past)
    {name : Callback} (dead : .dead name ∈ past) : name = .addrInfo := by
  refine reached.invariant (fun _ past => ∀ name, .dead name ∈ past → name = .addrInfo) (by simp) ?_
    name dead
  intro state following past out label before sofar _ moved name member
  rcases List.mem_append.mp member with earlier | now
  · exact sofar name earlier
  · rcases step_cases (sound_of_reaches before) moved with ⟨living, -⟩ | ⟨-, closed, -⟩ | ⟨-, -, dead⟩
    · exact absurd now (living.events name)
    · obtain rfl := (Prod.mk.injEq ..).mp closed |>.2
      simp at now
    · obtain rfl := (Prod.mk.injEq ..).mp dead |>.2
      simpa using now

/-- No name is being resolved when the close callback of the client runs. -/
def resolved (state : State) : Label → Prop
  | .closed => state.resolvers = 0
  | _ => True

/-- In every run in which no client is deleted while a name is being resolved for it,
no callback reaches a deleted client. -/
theorem no_dead_callback (reached : Machine.Reaches step resolved .initial state past)
    (name : Callback) : .dead name ∉ past := by
  suffices holds : (state.phase = .destroyed → state.resolvers = 0) ∧ ∀ name, .dead name ∉ past from
    holds.2 name
  refine reached.invariant (fun state past =>
    (state.phase = .destroyed → state.resolvers = 0) ∧ ∀ name, .dead name ∉ past)
    (by simp [State.initial]) ?_
  rintro state following past out label before ⟨idle, sofar⟩ allowed moved
  have sound := sound_of_reaches before
  rcases step_cases sound moved with ⟨living, -⟩ | ⟨rfl, closed, -⟩ | ⟨gone, pending, -⟩
  · refine ⟨fun gone => absurd gone living.phase, fun name member => ?_⟩
    rcases List.mem_append.mp member with earlier | now
    · exact sofar name earlier
    · exact living.events name now
  · obtain ⟨rfl, rfl⟩ := (Prod.mk.injEq ..).mp closed
    exact ⟨fun _ => allowed, by simpa using sofar⟩
  · simp [idle gone] at pending

instance : ∀ state label, Decidable (resolved state label) := by
  intro state label
  cases label <;> unfold resolved <;> infer_instance

/-- A name is resolved and a connection made before the client is closed. -/
theorem no_dead_callback_run : ∃ state past, Machine.Reaches step resolved .initial state past ∧
    state.phase = .destroyed ∧ .dead .addrInfo ∉ past := by
  obtain ⟨state, reached, checked⟩ := Machine.exists_reaches step resolved .initial
    [.connect 0 fun _ => false, .addrInfo 0 0 fun _ => false, .connected 0 0 fun _ => false,
      .read uvEof fun _ => false, .closed]
    [.connect, .closed] (fun state => decide (state.phase = .destroyed)) (by decide)
  exact ⟨state, _, reached, of_decide_eq_true checked, no_dead_callback reached .addrInfo⟩

/-- The client is closed, as at the timeout, while its host name is being resolved. -/
theorem dead_callback : ∃ state past, Machine.Reaches step Machine.always .initial state past ∧
    .dead .addrInfo ∈ past := by
  obtain ⟨state, reached, -⟩ := Machine.exists_reaches step Machine.always .initial
    [.connect 0 fun _ => false, .close, .closed, .addrInfo 0 0 fun _ => false]
    [.closed, .dead .addrInfo] (fun _ => true) (by decide)
  exact ⟨state, _, reached, by decide⟩

end Nexer.TcpClient

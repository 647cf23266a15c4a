import Nexer.Proxy.Listing

/-!
# Forwarders that share an address

The closure that waits for `Connect` recognises its forwarder by the address only.  If
that forwarder has been deleted and another one lives at its address, the socket goes
to the wrong forwarder.  Whenever this is not so, it goes to its own.
-/

namespace Nexer.Proxy

open Nexer.Transition

/-- The connections whose sockets were given to a forwarder. -/
def givenTo (forwarder : Nat) (past : List Event) : List Nat :=
  past.filterMap fun
    | .setOutgoing target connection => if target = forwarder then some connection else none
    | _ => none

/-- When `Connect` succeeds for a forwarder that has been deleted, no other one lives at
its address. -/
def Unreused (state : State) : Label → Prop
  | .connected index true =>
      (state.connections index).forwarder.deleted = true → ¬ has index state
  | _ => True

instance : ∀ state label, Decidable (Unreused state label)
  | state, .connected index true =>
      inferInstanceAs (Decidable (_ = true → ¬ has index state))
  | _, .connected _ false => .isTrue trivial
  | _, .accept _ | _, .checked _ _ | _, .forwarder _ _ | _, .outgoingClosed _ | _, .close
  | _, .closed => .isTrue trivial

/-- Every forwarder has been given the socket of its own connection, or none. -/
structure Directed (state : State) (past : List Event) : Prop where
  waiting : ∀ index, Pending state index → (state.connections index).forwarder.attached = none
  given : ∀ index, givenTo index past =
    if index < state.count ∧ (state.connections index).forwarder.attached ≠ none then [index] else []

variable {app : Bool} {state following : State} {past out : List Event} {index : Nat}
variable {connection : Connection} {label : Label}

@[simp] theorem givenTo_append (forwarder : Nat) :
    givenTo forwarder (past ++ out) = givenTo forwarder past ++ givenTo forwarder out := by
  simp [givenTo]

theorem mem_givenTo {forwarder : Nat} :
    index ∈ givenTo forwarder past ↔ .setOutgoing forwarder index ∈ past := by
  simp only [givenTo, List.mem_filterMap]
  constructor
  · rintro ⟨event, member, same⟩
    split at same
    · split at same
      · next equal =>
        obtain rfl := Option.some.inj same
        exact equal ▸ member
      · cases same
    · cases same
  · intro member
    exact ⟨_, member, by simp⟩

theorem directed_initial : Directed .initial [] where
  waiting := by simp [Pending, State.initial]
  given := by simp [givenTo, State.initial]

namespace Directed

/-- No socket is given to a forwarder. -/
theorem put (directed : Directed state past)
    (attached : connection.forwarder.attached = (state.connections index).forwarder.attached)
    (pending : Pending (state.put index connection) index → Pending state index)
    (silent : ∀ forwarder, givenTo forwarder out = []) :
    Directed (state.put index connection) (past ++ out) := by
  refine ⟨fun other waits => ?_, fun other => ?_⟩
  · by_cases same : other = index
    · subst same
      simpa [attached] using directed.waiting other (pending waits)
    · simpa [same] using directed.waiting other (by simpa [Pending, same] using waits)
  · rw [givenTo_append, silent, List.append_nil, directed.given]
    by_cases same : other = index
    · subst same
      simp [attached]
    · simp [same]

theorem accept {address : Address} {stage : Stage} (directed : Directed state past) :
    Directed ((state.accepted address).put state.count { address, stage })
      (past ++ [.accepted state.count address]) := by
  refine ⟨fun other waits => ?_, fun other => ?_⟩
  · by_cases same : other = state.count
    · simp [same, Forwarder.State.initial]
    · have order : other < state.count + 1 ↔ other < state.count := by omega
      simp only [Pending, State.accepted, put_connections, same, if_false, put_count, order,
        Function.update_of_ne same] at waits
      simpa [State.accepted, same] using directed.waiting other waits
  · rw [givenTo_append, directed.given]
    by_cases same : other = state.count
    · simp [same, givenTo, State.accepted, Forwarder.State.initial]
    · have order : other < state.count + 1 ↔ other < state.count := by omega
      simp [same, givenTo, State.accepted, order]

/-- The socket of a connection is given to its own forwarder. -/
theorem attach {forwarder : Forwarder.State} (directed : Directed state past)
    (pending : Pending state index) (given : forwarder.attached = some .connected) :
    Directed
      (state.put index
        { state.connections index with
          stage := .connected, outgoing := .attached index, forwarder })
      (past ++ [.setOutgoing index index]) := by
  refine ⟨fun other waits => ?_, fun other => ?_⟩
  · by_cases same : other = index
    · simp [Pending, same] at waits
    · simpa [same] using directed.waiting other (by simpa [Pending, same] using waits)
  · rw [givenTo_append, directed.given]
    by_cases same : other = index
    · subst same
      simp [directed.waiting other pending, given, pending.1, givenTo]
    · simp [same, givenTo, Ne.symm same]

/-- Every step under the condition. -/
theorem change (directed : Directed state past) (listed : Listed state)
    (allowed : Unreused state label) (changed : Change app state label following out) :
    Directed following (past ++ out) := by
  -- Under the condition a socket is given to the forwarder of its own connection.
  have own {index target : Nat} (allowed : Unreused state (.connected index true))
      (pending : Pending state index) (there : has index state) (alive : Alive state target)
      (same : (state.connections target).address = (state.connections index).address) :
      target = index :=
    listed.alone target index alive
      ⟨pending.1, by simpa using fun deleted => allowed deleted there⟩ same
  cases changed with
  | accept address => exact directed.accept
  | dead _ index _ _ _ pending => exact directed.put rfl (fun _ => pending) fun _ => rfl
  | connecting _ index pending => exact directed.put rfl (fun _ => pending) fun _ => rfl
  | failed _ index _ pending => exact directed.put rfl (fun _ => pending) fun _ => rfl
  | refused _ index _ pending _ forwarder _ _ attached =>
      exact directed.put attached (fun _ => pending) fun _ => rfl
  | deadIncoming _ index _ pending => exact directed.put rfl (fun _ => pending) fun _ => rfl
  | discarded index pending => exact directed.put rfl (fun _ => pending) fun _ => rfl
  | attached index target pending there alive same given named _ forwarder _ _ attached =>
      obtain rfl := own allowed pending there alive same
      subst named
      simpa using directed.attach pending attached
  | overrun index target pending there alive same taken =>
      obtain rfl := own allowed pending there alive same
      exact absurd (directed.waiting target pending) taken
  | forwarder _ index _ forwarder _ _ attached =>
      exact directed.put attached (fun pending => by simpa [Pending] using pending) fun _ => rfl
  | removed _ index _ _ forwarder _ _ attached =>
      have kept : Directed (state.put index { state.connections index with forwarder })
          (past ++ [.removed index]) :=
        directed.put attached (fun pending => by simpa [Pending] using pending) fun _ => rfl
      exact ⟨kept.waiting, kept.given⟩
  | deadRemoval _ index _ _ forwarder _ attached =>
      exact directed.put attached (fun pending => by simpa [Pending] using pending) fun _ => rfl
  | outgoingClosed index =>
      exact directed.put rfl (fun pending => by simpa [Pending] using pending) fun _ => rfl
  | close | closed =>
      rw [List.append_nil]
      exact ⟨directed.waiting, directed.given⟩

end Directed

theorem directed_of_reaches (reached : Machine.Reaches (step app) Unreused .initial state past) :
    Directed state past :=
  reached.invariant Directed directed_initial fun reached directed allowed moved =>
    have listed := listed_of_reaches reached
    directed.change listed allowed (change_of_step listed moved).2

/-- Each outgoing connection is given to the forwarder of its own accept, and one at
most to each forwarder.  A step that does not meet the condition gives one to another
forwarder. -/
theorem outgoing_own (reached : Machine.Reaches (step app) Unreused .initial state past) :
    (∀ forwarder connection, .setOutgoing forwarder connection ∈ past → forwarder = connection) ∧
      (∀ forwarder, (givenTo forwarder past).length ≤ 1) ∧
      ∀ label effect, step app state label = some effect → state.server ≠ .destroyed →
        ((∀ forwarder connection, .setOutgoing forwarder connection ∈ effect.2 →
          forwarder = connection) ↔ Unreused state label) := by
  have directed := directed_of_reaches reached
  refine ⟨fun forwarder connection member => ?_, fun forwarder => ?_,
    fun label effect moved exists_ => ⟨fun own => ?_, fun allowed => ?_⟩⟩
  · have member := mem_givenTo.mpr member
    rw [directed.given] at member
    split at member
    · exact (List.mem_singleton.mp member).symm
    · cases member
  · rw [directed.given]
    split <;> simp
  · have listed := listed_of_reaches reached
    by_contra reused
    have changed := (change_of_step listed moved).2
    cases label with
    | connected index success =>
        cases success with
        | false => exact reused trivial
        | true =>
            obtain ⟨deleted, there⟩ := Classical.not_imp.mp reused
            rw [not_not] at there
            generalize effect.1 = following, effect.2 = out at own changed
            cases changed with
            | dead _ _ _ _ destroyed => exact exists_ destroyed
            | discarded _ _ gone => exact gone there
            | attached _ target _ _ alive | overrun _ target _ _ alive =>
                obtain rfl := own target index (by simp)
                exact nomatch deleted.symm.trans alive.2
            | failed _ _ fails | refused _ _ fails | deadIncoming _ _ fails => cases fails
    | accept | checked | forwarder | outgoingClosed | close | closed => exact reused trivial
  · have next := directed.change (listed_of_reaches reached) allowed
      (change_of_step (listed_of_reaches reached) moved).2
    intro forwarder connection member
    have member := mem_givenTo.mpr (List.mem_append_right past member)
    rw [next.given] at member
    split at member
    · exact (List.mem_singleton.mp member).symm
    · cases member

/-- A client leaves and another one comes while a forwarder waits for `Connect`. -/
theorem outgoing_own_run :
    ∃ state past, Machine.Reaches (step true) Unreused .initial state past ∧
      .setOutgoing 1 1 ∈ past ∧ .setOutgoing 1 0 ∉ past ∧ (givenTo 1 past).length ≤ 1 := by
  obtain ⟨state, reached, -⟩ := Machine.exists_reaches (step true) Unreused .initial
    [.accept 7, .checked 0 0, .forwarder 0 (.close .accepted), .forwarder 0 (.closed .accepted),
      .connected 0 true, .accept 7, .checked 1 0, .connected 1 true]
    [.accepted 0 7, .removed 0, .discarded 0, .accepted 1 7, .setOutgoing 1 1]
    (fun _ => true) (by decide)
  obtain ⟨own, once, -⟩ := outgoing_own reached
  exact ⟨state, _, reached, by decide, fun member => absurd (own 1 0 member) (by decide), once 1⟩

/-- The new forwarder has the address of the old one, and gets its connection. -/
theorem outgoing_misdirected :
    ∃ state past, Machine.Reaches (step true) Machine.always .initial state past ∧
      .accepted 0 7 ∈ past ∧ .accepted 1 7 ∈ past ∧ .setOutgoing 1 0 ∈ past := by
  obtain ⟨state, reached, -⟩ := Machine.exists_reaches (step true) Machine.always .initial
    [.accept 7, .checked 0 0, .forwarder 0 (.close .accepted), .forwarder 0 (.closed .accepted),
      .accept 7, .connected 0 true]
    [.accepted 0 7, .removed 0, .accepted 1 7, .setOutgoing 1 0] (fun _ => true) (by decide)
  exact ⟨state, _, reached, by decide, by decide, by decide⟩

end Nexer.Proxy

import Nexer.Proxy.Listing

/-!
# A proxy that is closed

The close callback of a proxy deletes it, while closures that capture it stay with its
forwarders and with the answers that they wait for.  When all of these are done, none of
them can run any more.
-/

namespace Nexer.Proxy

open Nexer.Transition

/-- A connection has no answer to wait for, and its forwarder is deleted. -/
def Done (state : State) (index : Nat) : Prop :=
  (state.connections index).stage ≠ .checking ∧ (state.connections index).stage ≠ .connecting ∧
    (state.connections index).forwarder.deleted = true

instance (state : State) (index : Nat) : Decidable (Done state index) :=
  inferInstanceAs (Decidable (_ ∧ _ ∧ _))

/-- The proxy is destroyed when all of its connections are done. -/
def Drained (state : State) : Label → Prop
  | .closed => ∀ index < state.count, Done state index
  | _ => True

instance : ∀ state label, Decidable (Drained state label)
  | state, .closed => inferInstanceAs (Decidable (∀ index < state.count, Done state index))
  | _, .accept _ | _, .checked _ _ | _, .connected _ _ | _, .forwarder _ _
  | _, .outgoingClosed _ | _, .close => .isTrue trivial

variable {app : Bool} {state following : State} {past out : List Event} {index : Nat}

theorem Done.not_pending (done : Done state index) : ¬ Pending state index := by
  rintro ⟨-, checking | connecting⟩
  · exact done.1 checking
  · exact done.2.1 connecting

theorem Done.not_alive (done : Done state index) : ¬ Alive state index :=
  fun alive => nomatch alive.2.symm.trans done.2.2

/-- A destroyed proxy has nothing left to do and was not asked for anything. -/
structure Over (state : State) (past : List Event) : Prop where
  done : state.server = .destroyed → ∀ index < state.count, Done state index
  sound : ∀ index, .deadServer index ∉ past

theorem over_initial : Over .initial [] where
  done := by
    intro destroyed
    cases destroyed
  sound := by simp

namespace Over

/-- A connection that can still do something belongs to a proxy that exists. -/
theorem put {connection : Connection} (spent : Over state past)
    (kept : state.server = .destroyed → index < state.count → Done state index →
      connection.stage = (state.connections index).stage ∧
        connection.forwarder.deleted = (state.connections index).forwarder.deleted)
    (sound : ∀ index, .deadServer index ∉ out) : Over (state.put index connection) (past ++ out) where
  done := by
    intro destroyed other created
    have before := spent.done destroyed other created
    by_cases same : other = index
    · subst same
      obtain ⟨stage, deleted⟩ := kept destroyed created before
      simpa [Done, stage, deleted] using before
    · simpa [Done, same] using before
  sound := fun other => by simp [spent.sound other, sound other]

theorem change {label : Label} (spent : Over state past) (allowed : Drained state label)
    (changed : Change app state label following out) : Over following (past ++ out) := by
  have idle {index : Nat} (pending : Pending state index) : state.server ≠ .destroyed :=
    fun destroyed => (spent.done destroyed index pending.1).not_pending pending
  cases changed with
  | accept address opened =>
      exact ⟨fun destroyed => (nomatch opened.symm.trans destroyed), by simpa using spent.sound⟩
  | dead _ index _ _ destroyed pending => exact absurd destroyed (idle pending)
  | connecting _ index pending =>
      exact spent.put (fun destroyed => absurd destroyed (idle pending)) (by simp)
  | failed _ index _ pending =>
      exact spent.put (fun destroyed => absurd destroyed (idle pending)) (by simp)
  | refused _ index _ pending =>
      exact spent.put (fun destroyed => absurd destroyed (idle pending)) (by simp)
  | deadIncoming _ index _ pending =>
      exact spent.put (fun destroyed => absurd destroyed (idle pending)) (by simp)
  | discarded index pending =>
      exact spent.put (fun destroyed => absurd destroyed (idle pending)) (by simp)
  | attached index target pending _ _ _ given named =>
      subst named
      exact ⟨fun destroyed => absurd destroyed (idle pending), by simpa using spent.sound⟩
  | overrun index target pending =>
      exact ⟨fun destroyed => absurd destroyed (idle pending), by simpa using spent.sound⟩
  | forwarder _ index _ forwarder _ _ _ deleted =>
      exact spent.put (fun _ _ _ => ⟨rfl, deleted⟩) (by simp)
  | removed _ index _ exists_ =>
      exact ⟨fun destroyed => absurd destroyed exists_, by simpa using spent.sound⟩
  | deadRemoval _ index alive destroyed =>
      exact absurd alive (spent.done destroyed index alive.1).not_alive
  | outgoingClosed index => exact spent.put (fun _ _ _ => ⟨rfl, rfl⟩) (by simp)
  | close => exact ⟨nofun, by simpa using spent.sound⟩
  | closed => exact ⟨fun _ => allowed, by simpa using spent.sound⟩

end Over

theorem over_of_reaches (reached : Machine.Reaches (step app) Drained .initial state past) :
    Over state past :=
  reached.invariant Over over_initial fun reached spent allowed moved =>
    spent.change allowed (change_of_step (listed_of_reaches reached) moved).2

end Nexer.Proxy

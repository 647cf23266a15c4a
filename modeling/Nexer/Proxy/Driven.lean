import Nexer.Forwarder.Aging
import Nexer.Proxy.State

/-!
# The forwarders of a proxy

Each forwarder is run by its own machine.  The proxy hears of its deletion once, and
neither `SetOutgoing` nor a call of `Close` deletes it.
-/

namespace Nexer.Proxy

open Nexer.Transition

/-- A forwarder run by its machine, with two sockets at most. -/
structure Driven (forwarder : Forwarder.State) : Prop where
  reached : ∃ past, Machine.Reaches Forwarder.step Machine.always
    (.initial fun _ => true) forwarder past
  attached : forwarder.attached = none ∨ forwarder.attached = some .connected
  unattached : forwarder.attached = none → (forwarder.tcps .connected).phase ≠ .closed

/-- One of the functions of a forwarder has run. -/
structure Runs (forwarder : Forwarder.State) (effect : Forwarder.Effect) : Prop where
  driven : Driven effect.1
  opened : (effect.1.tcps .accepted).phase = .opened → (forwarder.tcps .accepted).phase = .opened
  deletions : effect.1.deleted = forwarder.deleted ∧ effect.2.count .deleted = 0 ∨
    forwarder.deleted = false ∧ effect.1.deleted = true ∧ effect.2.count .deleted = 1

variable {forwarder : Forwarder.State} {effect : Forwarder.Effect} {label : Forwarder.Label}

theorem driven_initial : Driven (.initial fun _ => true) where
  reached := ⟨[], .start⟩
  attached := .inl rfl
  unattached := fun _ => nofun

namespace Driven

theorem lifecycle (driven : Driven forwarder) : ∃ past, Forwarder.Lifecycle forwarder past := by
  obtain ⟨past, reached⟩ := driven.reached
  exact ⟨past, (Forwarder.core_of_reaches reached).lifecycle⟩

/-- The incoming socket of a forwarder that has no other one. -/
theorem deleted_iff (driven : Driven forwarder) (alone : forwarder.attached = none) :
    forwarder.deleted = true ↔ (forwarder.tcps .accepted).phase = .closed := by
  obtain ⟨past, lifecycle⟩ := driven.lifecycle
  rw [lifecycle.deleted_iff]
  constructor
  · intro closed
    exact closed .incoming .accepted rfl
  · rintro closed (_ | _) socket named
    · obtain rfl := Option.some.inj named
      exact closed
    · exact nomatch alone.symm.trans named

/-- A deleted forwarder has closed its sockets. -/
theorem closed (driven : Driven forwarder) (deleted : forwarder.deleted = true) :
    (forwarder.tcps .accepted).phase = .closed ∧
      (forwarder.attached = some .connected → (forwarder.tcps .connected).phase = .closed) := by
  obtain ⟨past, lifecycle⟩ := driven.lifecycle
  have all := lifecycle.deleted_iff.mp deleted
  exact ⟨all .incoming .accepted rfl, fun named => all .outgoing .connected named⟩

/-- A step of the machine deletes the forwarder if and only if it says so. -/
theorem deletions (driven : Driven forwarder) (moved : Forwarder.step forwarder label = some effect)
    (kept : forwarder.deleted = true → effect.1.deleted = true) :
    effect.1.deleted = forwarder.deleted ∧ effect.2.count .deleted = 0 ∨
      forwarder.deleted = false ∧ effect.1.deleted = true ∧ effect.2.count .deleted = 1 := by
  obtain ⟨past, reached⟩ := driven.reached
  have before := (Forwarder.core_of_reaches reached).lifecycle.deletions
  have after := (Forwarder.core_of_reaches (reached.next trivial moved)).lifecycle.deletions
  rw [List.count_append, before] at after
  cases earlier : forwarder.deleted <;> cases later : effect.1.deleted <;>
    simp_all

theorem next (driven : Driven forwarder) (moved : Forwarder.step forwarder label = some effect) :
    ∃ past, Machine.Reaches Forwarder.step Machine.always (.initial fun _ => true) effect.1 past := by
  obtain ⟨past, reached⟩ := driven.reached
  exact ⟨_, reached.next trivial moved⟩

/-- What a socket of the forwarder reports. -/
theorem runs_step (driven : Driven forwarder) (moved : Forwarder.step forwarder label = some effect)
    (reports : reportable label forwarder = true) :
    Runs forwarder effect ∧ effect.1.attached = forwarder.attached := by
  have socket : label.socket ≠ none := by
    intro none
    simp [reportable, none] at reports
  have ages := Forwarder.ages_of_step moved socket
  refine ⟨⟨⟨driven.next moved, ?_, fun alone late => ?_⟩, ages.opened _,
    driven.deletions moved ages.deleted⟩, ages.attached⟩
  · rw [ages.attached]
    exact driven.attached
  · rw [ages.attached] at alone
    refine driven.unattached alone (ages.others _ (fun own => ?_) late)
    simp [reportable, own, alone] at reports

/-- `incoming.Close()`. -/
theorem runs_close (driven : Driven forwarder) :
    Runs forwarder (Forwarder.close .accepted .accepted forwarder) ∧
      (Forwarder.close .accepted .accepted forwarder).1.attached = forwarder.attached ∧
      (Forwarder.close .accepted .accepted forwarder).1.deleted = forwarder.deleted := by
  have shut := Forwarder.Shut.of_close .accepted .accepted forwarder
  refine ⟨⟨⟨?_, ?_, ?_⟩, shut.opened _, .inl ⟨shut.deleted, ?_⟩⟩, shut.attached, shut.deleted⟩
  · by_cases opened : (forwarder.tcps .accepted).phase = .opened
    · have moved : Forwarder.step forwarder (.close .accepted) =
          some (Forwarder.close .accepted .accepted forwarder) := by
        simp [Forwarder.step, opened]
      exact driven.next moved
    · simpa [Forwarder.close, opened] using driven.reached
  · rw [shut.attached]
    exact driven.attached
  · rw [shut.attached]
    exact fun alone late => driven.unattached alone ((shut.closed _).mp late)
  · exact List.count_eq_zero.mpr shut.sound.2.2

/-- `forwarder.SetOutgoing(*outgoing)`. -/
theorem runs_setOutgoing (driven : Driven forwarder) (alive : forwarder.deleted = false)
    (alone : forwarder.attached = none) :
    Runs forwarder (Forwarder.setOutgoing .connected forwarder) ∧
      (Forwarder.setOutgoing .connected forwarder).1.attached = some .connected ∧
      (Forwarder.setOutgoing .connected forwarder).1.deleted = false := by
  have ages : Forwarder.Ages none _ _ := .of_setOutgoing .connected forwarder
  have moved : Forwarder.step forwarder (.setOutgoing .connected) =
      some (Forwarder.setOutgoing .connected forwarder) := by
    simp [Forwarder.step, alive, alone, driven.unattached alone]
  have unclosed : ((Forwarder.setOutgoing .connected forwarder).1.tcps .connected).phase ≠
      .closed := fun late =>
    driven.unattached alone (ages.others .connected (by simp) late)
  have next : Driven (Forwarder.setOutgoing .connected forwarder).1 :=
    ⟨driven.next moved, .inr ages.attached, fun none => by
      cases ages.attached.symm.trans none⟩
  have undeleted : (Forwarder.setOutgoing .connected forwarder).1.deleted = false := by
    by_contra deleted
    exact unclosed ((next.closed (by simpa using deleted)).2 ages.attached)
  exact ⟨⟨next, ages.opened _, driven.deletions moved (by simp [alive])⟩, ages.attached, undeleted⟩

end Driven

end Nexer.Proxy

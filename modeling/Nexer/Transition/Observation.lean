import Nexer.Transition.Machine

/-!
# Observing a machine

A machine can be run with other reports of its steps than its own, and with a value
beside its state that its steps carry along.  Neither changes which labels are taken.
-/

namespace Nexer.Transition.Machine

variable {State Label Event Note Ghost : Type}

/-- The machine that reports what `note` makes of a step. -/
def noting (machine : Machine State Label Event) (note : State → Label → State → List Note) :
    Machine State Label Note :=
  fun state label =>
    (machine state label).map fun effect => (effect.1, note state label effect.1)

/-- The machine that carries a value along. -/
def carrying (machine : Machine State Label Event) (carry : Ghost → State → Label → State → Ghost) :
    Machine (State × Ghost) Label Event :=
  fun pair label =>
    (machine pair.1 label).map fun effect =>
      ((effect.1, carry pair.2 pair.1 label effect.1), effect.2)

variable {machine : Machine State Label Event} {note : State → Label → State → List Note}
variable {carry : Ghost → State → Label → State → Ghost} {guard : State → Label → Prop}
variable {initial state following : State} {label : Label}

theorem noting_eq_some {out : List Note} :
    machine.noting note state label = some (following, out) ↔
      ∃ events, machine state label = some (following, events) ∧
        out = note state label following := by
  constructor
  · intro moved
    obtain ⟨⟨next, events⟩, step, same⟩ := Option.map_eq_some_iff.1 moved
    obtain ⟨rfl, rfl⟩ := Prod.mk.inj same
    exact ⟨events, step, rfl⟩
  · rintro ⟨events, step, rfl⟩
    exact Option.map_eq_some_iff.2 ⟨_, step, rfl⟩

theorem carrying_eq_some {ghost after : Ghost} {out : List Event} :
    machine.carrying carry (state, ghost) label = some ((following, after), out) ↔
      machine state label = some (following, out) ∧ after = carry ghost state label following := by
  constructor
  · intro moved
    obtain ⟨⟨next, events⟩, step, same⟩ := Option.map_eq_some_iff.1 moved
    simp only [Prod.mk.injEq] at same
    obtain ⟨⟨rfl, rfl⟩, rfl⟩ := same
    exact ⟨step, rfl⟩
  · rintro ⟨step, rfl⟩
    exact Option.map_eq_some_iff.2 ⟨_, step, rfl⟩

/-- A run with other reports is a run of the machine. -/
theorem Reaches.of_noting {past : List Note}
    (reached : Reaches (machine.noting note) guard initial state past) :
    ∃ events, Reaches machine guard initial state events := by
  induction reached with
  | start => exact ⟨[], .start⟩
  | next _ allowed moved ih =>
      obtain ⟨events, reached⟩ := ih
      obtain ⟨out, step, -⟩ := noting_eq_some.1 moved
      exact ⟨events ++ out, reached.next allowed step⟩

/-- So is a run that carries a value along. -/
theorem Reaches.of_carrying {pair : State × Ghost} {start : Ghost} {past : List Event}
    (reached : Reaches (machine.carrying carry) (fun pair label => guard pair.1 label)
      (initial, start) pair past) :
    Reaches machine guard initial pair.1 past := by
  induction reached with
  | start => exact .start
  | next _ allowed moved ih => exact ih.next allowed (carrying_eq_some.1 moved).1

end Nexer.Transition.Machine

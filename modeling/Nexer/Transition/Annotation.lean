import Nexer.Transition.Machine

/-!
# Parts of a machine

A machine can report more of its steps than it does, and a part of its state can be a
machine of its own, with what is reported about it.  If each step leaves the part alone or
is one of its own steps, a run of the whole is a run of the part.
-/

namespace Nexer.Transition.Machine

variable {State Label Event Note : Type}

/-- The machine that also reports what `annotate` makes of a step and its events. -/
def annotating (machine : Machine State Label Event)
    (annotate : State → Label → List Event → List Note) : Machine State Label (Event ⊕ Note) :=
  fun state label =>
    (machine state label).map fun effect =>
      (effect.1, (annotate state label effect.2).map .inr ++ effect.2.map .inl)

/-- What the machine reports itself. -/
def reported (past : List (Event ⊕ Note)) : List Event :=
  past.filterMap Sum.getLeft?

def noted (past : List (Event ⊕ Note)) : List Note :=
  past.filterMap Sum.getRight?

section Annotations

variable {events : List Event} {notes : List Note} {past out : List (Event ⊕ Note)}

@[simp] theorem reported_append : reported (past ++ out) = reported past ++ reported out :=
  List.filterMap_append

@[simp] theorem noted_append : noted (past ++ out) = noted past ++ noted out :=
  List.filterMap_append

@[simp] theorem reported_annotated :
    reported (notes.map .inr ++ events.map (.inl : Event → Event ⊕ Note)) = events := by
  simp [reported, List.filterMap_map, Function.comp_def]

@[simp] theorem noted_annotated :
    noted (notes.map .inr ++ events.map (.inl : Event → Event ⊕ Note)) = notes := by
  simp [noted, List.filterMap_map, Function.comp_def]

variable {machine : Machine State Label Event} {guard : State → Label → Prop}
variable {annotate : State → Label → List Event → List Note}
variable {initial state following : State} {label : Label}

theorem annotating_eq_some :
    machine.annotating annotate state label = some (following, out) ↔
      ∃ events, machine state label = some (following, events) ∧
        out = (annotate state label events).map .inr ++ events.map .inl := by
  constructor
  · intro moved
    obtain ⟨⟨next, events⟩, step, same⟩ := Option.map_eq_some_iff.mp moved
    obtain ⟨rfl, rfl⟩ := Prod.mk.inj same
    exact ⟨events, step, rfl⟩
  · rintro ⟨events, step, rfl⟩
    exact Option.map_eq_some_iff.mpr ⟨_, step, rfl⟩

/-- A run that reports more is a run of the machine. -/
theorem Reaches.of_annotating
    (reached : Reaches (machine.annotating annotate) guard initial state past) :
    Reaches machine guard initial state (reported past) := by
  induction reached with
  | start => exact .start
  | next _ allowed moved ih =>
      obtain ⟨events, step, rfl⟩ := annotating_eq_some.mp moved
      rw [reported_append, reported_annotated]
      exact ih.next allowed step

end Annotations

section Parts

variable {Part PartLabel PartEvent : Type}
variable {machine : Machine State Label Event} {guard : State → Label → Prop}
variable {initial state : State} {past : List Event}

/-- Nothing happens to the part, or one of its steps. -/
inductive Moves (machine : Machine Part PartLabel PartEvent) (guard : Part → PartLabel → Prop)
    (part : Part) : Part → List PartEvent → Prop where
  | rests : Moves machine guard part part []
  | moves (label : PartLabel) (next : Part) (events : List PartEvent) (allowed : guard part label)
      (moved : machine part label = some (next, events)) : Moves machine guard part next events

theorem Moves.reaches {partMachine : Machine Part PartLabel PartEvent}
    {partGuard : Part → PartLabel → Prop} {first part next : Part} {before events : List PartEvent}
    (moves : Moves partMachine partGuard part next events)
    (reached : Reaches partMachine partGuard first part before) :
    Reaches partMachine partGuard first next (before ++ events) := by
  cases moves with
  | rests => rwa [List.append_nil]
  | moves label _ _ allowed moved => exact reached.next allowed moved

/-- The rule of parts: what each step of the whole does to the part is known in the states
that the whole reaches. -/
theorem Reaches.part {partMachine : Machine Part PartLabel PartEvent}
    {partGuard : Part → PartLabel → Prop} (part : State → Part)
    (about : List Event → List PartEvent) (silent : about [] = [])
    (append : ∀ past out, about (past ++ out) = about past ++ about out)
    (keep : ∀ {state following past out label}, Reaches machine guard initial state past →
      guard state label → machine state label = some (following, out) →
      Moves partMachine partGuard (part state) (part following) (about out))
    (reached : Reaches machine guard initial state past) :
    Reaches partMachine partGuard (part initial) (part state) (about past) := by
  induction reached with
  | start =>
      rw [silent]
      exact .start
  | next reached allowed moved ih =>
      rw [append]
      exact (keep reached allowed moved).reaches ih

end Parts

end Nexer.Transition.Machine

import Nexer.Transition.Machine
import Mathlib.Logic.Function.Basic

/-!
# Objects that are created during a run

A program runs many objects of one kind, each created at some time and moved by a
machine of its own from then on.  What one of them does is a run of its machine,
whatever the others do in between.
-/

namespace Nexer.Transition.Machine

variable {Index State Label Event : Type} [DecidableEq Index]

/-- The machine of all objects.  An index without a label creates its object. -/
def instances (machine : Index → Machine State Label Event) (created : State) :
    Machine (Index → Option State) (Index × Option Label) (Index × Event) :=
  fun state label =>
    match state label.1, label.2 with
    | none, none => some (Function.update state label.1 (some created), [])
    | some object, some input =>
        (machine label.1 object input).map fun effect =>
          (Function.update state label.1 (some effect.1), effect.2.map (Prod.mk label.1))
    | _, _ => none

/-- What one object has reported. -/
def eventsOf (index : Index) (past : List (Index × Event)) : List Event :=
  past.filterMap fun entry => if entry.1 = index then some entry.2 else none

variable {machine : Index → Machine State Label Event} {created object : State}
variable {state following : Index → Option State} {index other : Index}
variable {past out : List (Index × Event)}

@[simp] theorem eventsOf_append :
    eventsOf index (past ++ out) = eventsOf index past ++ eventsOf index out :=
  List.filterMap_append

@[simp] theorem eventsOf_map (events : List Event) :
    eventsOf index (events.map (Prod.mk index)) = events := by
  induction events with
  | nil => rfl
  | cons event rest ih =>
      have kept : (if (index, event).1 = index then some event else none) = some event := if_pos rfl
      calc eventsOf index ((event :: rest).map (Prod.mk index))
          = event :: eventsOf index (rest.map (Prod.mk index)) := List.filterMap_cons_some kept
        _ = event :: rest := by rw [ih]

theorem eventsOf_map_ne (events : List Event) (apart : other ≠ index) :
    eventsOf index (events.map (Prod.mk other)) = [] := by
  rw [eventsOf, List.filterMap_eq_nil_iff]
  intro entry member
  obtain ⟨event, -, rfl⟩ := List.mem_map.mp member
  exact if_neg apart

/-- A step creates an object or moves one that exists. -/
inductive Steps (machine : Index → Machine State Label Event) (created : State)
    (state : Index → Option State) :
    Index × Option Label → (Index → Option State) → List (Index × Event) → Prop where
  | create (index : Index) (absent : state index = none) :
      Steps machine created state (index, none) (Function.update state index (some created)) []
  | move (index : Index) (label : Label) (object next : State) (events : List Event)
      (there : state index = some object) (moved : machine index object label = some (next, events)) :
      Steps machine created state (index, some label) (Function.update state index (some next))
        (events.map (Prod.mk index))

theorem steps_of_instances {label : Index × Option Label}
    (moved : instances machine created state label = some (following, out)) :
    Steps machine created state label following out := by
  obtain ⟨index, input⟩ := label
  simp only [instances] at moved
  split at moved
  · next absent =>
    obtain ⟨rfl, rfl⟩ := Prod.mk.inj (Option.some.inj moved)
    exact .create index absent
  · next object label there =>
    obtain ⟨⟨next, events⟩, stepped, same⟩ := Option.map_eq_some_iff.mp moved
    obtain ⟨rfl, rfl⟩ := Prod.mk.inj same
    exact .move index label object next events there stepped
  · cases moved

/-- An object that exists takes the labels that its machine takes. -/
theorem instances_of_move {label : Label} {next : State} {events : List Event}
    (there : state index = some object) (moved : machine index object label = some (next, events)) :
    instances machine created state (index, some label) =
      some (Function.update state index (some next), events.map (Prod.mk index)) := by
  simp [instances, there, moved]

/-- Each object has run its machine, and nothing was reported of an object before it
was created. -/
theorem instance_of_reaches {guard : (Index → Option State) → Index × Option Label → Prop}
    {allowed : Index → State → Label → Prop}
    (implies : ∀ {state index label object}, guard state (index, some label) →
      state index = some object → allowed index object label)
    (reached : Reaches (instances machine created) guard (fun _ => none) state past) :
    (∀ object, state index = some object →
      Reaches (machine index) (allowed index) created object (eventsOf index past)) ∧
    (state index = none → eventsOf index past = []) := by
  induction reached with
  | start => exact ⟨nofun, fun _ => rfl⟩
  | next _ guarded moved ih =>
      cases steps_of_instances moved with
      | create other absent =>
          by_cases same : index = other
          · subst same
            have unreported := ih.2 absent
            simp only [Function.update_self, List.append_nil, unreported, Option.some.injEq,
              reduceCtorEq, false_implies, and_true, forall_eq']
            exact .start
          · simpa [same] using ih
      | move other label object next events there stepped =>
          by_cases same : index = other
          · subst same
            simp only [Function.update_self, eventsOf_append, eventsOf_map, Option.some.injEq,
              reduceCtorEq, false_implies, and_true, forall_eq']
            exact (ih.1 object there).next (implies guarded there) stepped
          · simpa [same, eventsOf_map_ne events (Ne.symm same)] using ih

end Nexer.Transition.Machine

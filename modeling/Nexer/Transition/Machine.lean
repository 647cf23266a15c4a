import Mathlib.Logic.Basic

/-!
# Labelled machines and the histories of their runs

A machine consumes one label at a time.  It may refuse the label; otherwise it
moves to a next state and reports a list of observable events.  The history of
a run is the concatenation of what its steps reported, in order.

Runs are taken under a guard on the state before a step and the label of that
step.  The trivial guard gives every run.
-/

namespace Nexer.Transition

/-- A state together with the events that were reported on the way to it. -/
abbrev Reaction (State Event : Type) := State × List Event

/-- Go on with the state that an effect leaves. -/
def Reaction.andThen {State Event : Type} (effect : Reaction State Event)
    (next : State → Reaction State Event) : Reaction State Event :=
  ((next effect.1).1, effect.2 ++ (next effect.1).2)

/-- A partial step function that reports observable events. -/
abbrev Machine (State Label Event : Type) :=
  State → Label → Option (Reaction State Event)

namespace Machine

variable {State Label Event : Type}

/-- Execute a list of labels, stopping at the first refusal. -/
def run (machine : Machine State Label Event) :
    State → List Label → Option (State × List Event)
  | state, [] => some (state, [])
  | state, label :: rest =>
      match machine state label with
      | none => none
      | some (next, out) =>
          match run machine next rest with
          | none => none
          | some (last, later) => some (last, out ++ later)

/-- The states, each with the history that led to it, of runs all of whose
steps satisfy the guard. -/
inductive Reaches (machine : Machine State Label Event)
    (guard : State → Label → Prop) (initial : State) :
    State → List Event → Prop where
  | start : Reaches machine guard initial initial []
  | next {state following : State} {past out : List Event} {label : Label}
      (reached : Reaches machine guard initial state past)
      (allowed : guard state label)
      (moved : machine state label = some (following, out)) :
      Reaches machine guard initial following (past ++ out)

/-- The guard of unrestricted runs. -/
def always : State → Label → Prop := fun _ _ => True

instance : ∀ (state : State) (label : Label), Decidable (always state label) :=
  fun _ _ => .isTrue trivial

variable {machine : Machine State Label Event}
variable {guard weaker : State → Label → Prop} {initial state : State}
variable {past : List Event}

/-- A run under a guard is a run under every weaker guard. -/
theorem Reaches.mono (implies : ∀ state label, guard state label → weaker state label)
    (reached : Reaches machine guard initial state past) :
    Reaches machine weaker initial state past := by
  induction reached with
  | start => exact .start
  | next _ allowed moved ih => exact .next ih (implies _ _ allowed) moved

/-- A run goes on from where another one has ended. -/
theorem Reaches.trans {last : State} {later : List Event}
    (reached : Reaches machine guard initial state past)
    (after : Reaches machine guard state last later) :
    Reaches machine guard initial last (past ++ later) := by
  induction after with
  | start => simpa using reached
  | next _ allowed moved ih =>
      rw [← List.append_assoc]
      exact .next ih allowed moved

/-- The machine that refuses the labels that the guard does not allow. -/
def guarded (machine : Machine State Label Event) (guard : State → Label → Prop)
    [∀ state label, Decidable (guard state label)] : Machine State Label Event :=
  fun state label => if guard state label then machine state label else none

section Execution

variable [∀ state label, Decidable (guard state label)] {labels : List Label}

/-- An executed list of labels extends a reached state. -/
theorem Reaches.append_run {last : State} {later : List Event}
    (reached : Reaches machine guard initial state past)
    (executed : (machine.guarded guard).run state labels = some (last, later)) :
    Reaches machine guard initial last (past ++ later) := by
  induction labels generalizing state past later with
  | nil =>
      simp only [run, Option.some.injEq, Prod.mk.injEq] at executed
      obtain ⟨rfl, rfl⟩ := executed
      simpa using reached
  | cons label rest ih =>
      simp only [run, guarded] at executed
      split at executed
      · cases executed
      · next following out moved =>
          split at moved
          · split at executed
            · cases executed
            · next final tail ran =>
                simp only [Option.some.injEq, Prod.mk.injEq] at executed
                obtain ⟨rfl, rfl⟩ := executed
                rw [← List.append_assoc]
                exact ih (reached.next ‹_› moved) ran
          · cases moved

/-- An executed list of labels is a run, here with what is known of its end. -/
theorem exists_reaches [DecidableEq Event] (machine : Machine State Label Event)
    (guard : State → Label → Prop) [∀ state label, Decidable (guard state label)]
    (initial : State) (labels : List Label) (past : List Event) (check : State → Bool)
    (executed : ((machine.guarded guard).run initial labels).any
      (fun result => check result.1 && decide (result.2 = past)) = true) :
    ∃ last, Reaches machine guard initial last past ∧ check last = true := by
  rw [Option.any_eq_true] at executed
  obtain ⟨⟨last, history⟩, ran, holds⟩ := executed
  simp only [Bool.and_eq_true, decide_eq_true_eq] at holds
  obtain ⟨checked, rfl⟩ := holds
  exact ⟨last, by simpa using Reaches.start.append_run ran, checked⟩

end Execution

/--
The invariant rule.  What holds initially and is kept by every allowed step
holds of every reached state and its history; the step may use that its source
was reached, so that invariants can be established one after another.
-/
theorem Reaches.invariant (Holds : State → List Event → Prop)
    (base : Holds initial [])
    (keep : ∀ {state following past out label},
      Reaches machine guard initial state past → Holds state past →
      guard state label → machine state label = some (following, out) →
      Holds following (past ++ out))
    (reached : Reaches machine guard initial state past) : Holds state past := by
  induction reached with
  | start => exact base
  | next reached allowed moved ih => exact keep reached ih allowed moved

end Machine

end Nexer.Transition

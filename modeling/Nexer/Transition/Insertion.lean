import Nexer.Transition.Machine

/-!
# Runs with additional labels

Two runs of one machine are compared: one executes a list of labels, the other
the same list with blocks of labels inserted.  The insertions are not seen when
each block returns to the state in which it was inserted and reports nothing
that is visible.
-/

namespace Nexer.Transition

namespace Machine

variable {State Label Event : Type} {machine : Machine State Label Event}

theorem run_cons {state following last : State} {label : Label} {rest : List Label}
    {out later : List Event} (moved : machine state label = some (following, out))
    (ran : run machine following rest = some (last, later)) :
    run machine state (label :: rest) = some (last, out ++ later) := by
  simp [run, moved, ran]

/-- An executed list of labels executes its first label, then the others. -/
theorem exists_of_run_cons {state last : State} {label : Label} {rest : List Label}
    {events : List Event} (ran : run machine state (label :: rest) = some (last, events)) :
    ∃ following out later, machine state label = some (following, out) ∧
      run machine following rest = some (last, later) ∧ events = out ++ later := by
  unfold run at ran
  split at ran
  · cases ran
  · next following out moved =>
    split at ran
    · cases ran
    · next final later tail =>
      obtain ⟨rfl, rfl⟩ : final = last ∧ out ++ later = events := by simpa using ran
      exact ⟨following, out, later, moved, tail, rfl⟩

theorem run_append {state middle last : State} {first rest : List Label} {out later : List Event}
    (ran : run machine state first = some (middle, out))
    (tail : run machine middle rest = some (last, later)) :
    run machine state (first ++ rest) = some (last, out ++ later) := by
  induction first generalizing state out with
  | nil =>
      obtain ⟨rfl, rfl⟩ : state = middle ∧ [] = out := by simpa [run] using ran
      exact tail
  | cons label others ih =>
      obtain ⟨following, head, more, moved, further, rfl⟩ := exists_of_run_cons ran
      rw [List.cons_append, List.append_assoc]
      exact run_cons moved (ih further)

theorem exists_of_run_append {state last : State} {first rest : List Label} {events : List Event}
    (ran : run machine state (first ++ rest) = some (last, events)) :
    ∃ middle out later, run machine state first = some (middle, out) ∧
      run machine middle rest = some (last, later) ∧ events = out ++ later := by
  induction first generalizing state events with
  | nil => exact ⟨state, [], events, rfl, ran, rfl⟩
  | cons label others ih =>
      obtain ⟨following, head, more, moved, further, rfl⟩ := exists_of_run_cons ran
      obtain ⟨middle, out, later, begun, tail, rfl⟩ := ih further
      exact ⟨middle, head ++ out, later, run_cons moved begun, tail, by simp⟩

/-- The second list is the first one with blocks inserted.  A block is inserted in
the state that the second run has reached. -/
inductive Inserted (machine : Machine State Label Event) (block : State → List Label → Prop) :
    State → List Label → List Label → Prop where
  | done {state : State} : Inserted machine block state [] []
  | step {state following : State} {label : Label} {out : List Event} {base longer : List Label}
      (moved : machine state label = some (following, out))
      (rest : Inserted machine block following base longer) :
      Inserted machine block state (label :: base) (label :: longer)
  | block {state settled : State} {labels : List Label} {out : List Event}
      {base longer : List Label} (allowed : block state labels)
      (ran : run machine state labels = some (settled, out))
      (rest : Inserted machine block settled base longer) :
      Inserted machine block state base (labels ++ longer)

/-- Both lists are executed, to the same state and with the same visible events. -/
def Unseen (machine : Machine State Label Event) (visible : Event → Bool) (state : State)
    (base longer : List Label) : Prop :=
  ∃ last events more, run machine state base = some (last, events) ∧
    run machine state longer = some (last, more) ∧ more.filter visible = events.filter visible

/-- A reached state and its history come from some list of labels. -/
theorem Reaches.exists_run {guard : State → Label → Prop} {initial state : State}
    {past : List Event} (reached : Reaches machine guard initial state past) :
    ∃ labels, run machine initial labels = some (state, past) := by
  induction reached with
  | start => exact ⟨[], rfl⟩
  | @next _ _ _ _ label _ _ moved ih =>
      obtain ⟨labels, ran⟩ := ih
      exact ⟨labels ++ [label], run_append ran (by simp [run, moved])⟩

theorem Inserted.of_run {block : State → List Label → Prop} {state last : State}
    {base longer : List Label} {events : List Event}
    (ran : run machine state base = some (last, events))
    (rest : Inserted machine block last [] longer) :
    Inserted machine block state base (base ++ longer) := by
  induction base generalizing state events with
  | nil =>
      obtain ⟨rfl, rfl⟩ : state = last ∧ [] = events := by simpa [run] using ran
      exact rest
  | cons label others ih =>
      obtain ⟨following, out, later, moved, further, rfl⟩ := exists_of_run_cons ran
      exact .step moved (ih further)

variable {block : State → List Label → Prop} {visible : Event → Bool} {initial : State}

/-- The block returns to the state in which it was inserted and reports nothing visible. -/
def Silent (machine : Machine State Label Event) (visible : Event → Bool) (state : State)
    (labels : List Label) : Prop :=
  ∀ settled out, run machine state labels = some (settled, out) →
    settled = state ∧ out.filter visible = []

/-- Blocks that are silent in reached states are not seen, wherever and however often
they are inserted. -/
theorem Inserted.unseen
    (silent : ∀ state past, Reaches machine always initial state past →
      ∀ labels, block state labels → Silent machine visible state labels)
    {state : State} {past : List Event} (reached : Reaches machine always initial state past)
    {base longer : List Label} (inserted : Inserted machine block state base longer) :
    Unseen machine visible state base longer := by
  induction inserted generalizing past with
  | done => exact ⟨_, [], [], rfl, rfl, rfl⟩
  | step moved _ ih =>
      obtain ⟨last, events, more, ran, longer, same⟩ := ih (reached.next trivial moved)
      exact ⟨last, _, _, run_cons moved ran, run_cons moved longer, by simp [same]⟩
  | block allowed ran _ ih =>
      obtain ⟨rfl, hidden⟩ := silent _ _ reached _ allowed _ _ ran
      obtain ⟨last, events, more, base, longer, same⟩ := ih reached
      exact ⟨last, events, _, base, run_append ran longer, by simp [hidden, same]⟩

/-- Insertions are never seen exactly when every block is silent in the reached states
in which it may be inserted. -/
theorem unseen_iff_silent :
    (∀ base longer, Inserted machine block initial base longer →
      Unseen machine visible initial base longer) ↔
    ∀ state past, Reaches machine always initial state past →
      ∀ labels, block state labels → Silent machine visible state labels := by
  refine ⟨fun unseen state past reached labels allowed settled out ran => ?_,
    fun silent base longer inserted => inserted.unseen silent .start⟩
  obtain ⟨base, first⟩ := reached.exists_run
  have inserted : Inserted machine block initial base (base ++ (labels ++ [])) :=
    .of_run first (.block allowed ran .done)
  obtain ⟨last, events, more, again, longer, same⟩ := unseen _ _ inserted
  obtain ⟨rfl, rfl⟩ : state = last ∧ past = events := by simpa [again] using first.symm
  have both := run_append first ran
  rw [List.append_nil] at longer
  obtain ⟨rfl, rfl⟩ : settled = state ∧ past ++ out = more := by simpa [longer] using both.symm
  exact ⟨rfl, by simpa using same⟩

end Machine

end Nexer.Transition

import Mathlib.Data.List.Induction

/-!
# Statements about the order of events in a history

A history lists events in the order in which they happened.  `Historically P`
says that `P` relates every entry to the entries before it, and `Since x Q`
that an entry satisfying `Q` follows some occurrence of `x`.  Both are stated
by splitting the list, and both are carried along a run by what one more entry
or one more block of entries does to them.
-/

namespace Nexer.Transition

variable {Event : Type} {P : List Event → Event → Prop} {Q : Event → Prop}
variable {past later before after : List Event} {entry mark : Event}

/-- `P before entry` holds at every entry, `before` being all that precedes it. -/
def Historically (P : List Event → Event → Prop) (past : List Event) : Prop :=
  ∀ before entry after, past = before ++ entry :: after → P before entry

@[simp] theorem historically_nil : Historically P [] := by
  intro before entry after split
  simp at split

/-- One more entry adds the obligation of that entry only. -/
theorem historically_snoc :
    Historically P (past ++ [entry]) ↔ Historically P past ∧ P past entry := by
  constructor
  · intro holds
    refine ⟨fun before first after split => ?_, holds past entry [] rfl⟩
    exact holds before first (after ++ [entry]) (by simp [split])
  · rintro ⟨holds, last⟩ before first after split
    rcases List.eq_nil_or_concat after with rfl | ⟨init, final, rfl⟩
    · obtain ⟨rfl, same⟩ := List.append_inj' split rfl
      obtain rfl := (List.cons.inj same).1
      exact last
    · have lengths : past ++ [entry] = (before ++ first :: init) ++ [final] := by
        simpa using split
      exact holds before first init (List.append_inj' lengths rfl).1

/-- A block of entries adds the obligations of its entries, in order. -/
theorem Historically.append (holds : Historically P past)
    (block : ∀ before entry after, later = before ++ entry :: after →
      P (past ++ before) entry) :
    Historically P (past ++ later) := by
  induction later using List.reverseRecOn with
  | nil => simpa using holds
  | append_singleton init final ih =>
      rw [← List.append_assoc, historically_snoc]
      refine ⟨ih fun before entry after split => ?_, block init final [] rfl⟩
      exact block before entry (after ++ [final]) (by simp [split])

/-- Some entry satisfying `Q` follows an occurrence of `mark`. -/
def Since (mark : Event) (Q : Event → Prop) (past : List Event) : Prop :=
  ∃ before after, past = before ++ mark :: after ∧ ∃ entry ∈ after, Q entry

theorem Since.exists (holds : Since mark Q past) : ∃ entry ∈ past, Q entry := by
  obtain ⟨before, after, rfl, entry, member, good⟩ := holds
  exact ⟨entry, by simp [member], good⟩

theorem Since.append (holds : Since mark Q past) (later : List Event) :
    Since mark Q (past ++ later) := by
  obtain ⟨before, after, split, entry, member, good⟩ := holds
  exact ⟨before, after ++ later, by simp [split], entry, by simp [member], good⟩

/-- A present mark followed by a satisfying entry of the next block. -/
theorem since_of_mem (marked : mark ∈ past) (member : entry ∈ later) (good : Q entry) :
    Since mark Q (past ++ later) := by
  obtain ⟨before, after, split⟩ := List.append_of_mem marked
  exact ⟨before, after ++ later, by simp [split], entry, by simp [member], good⟩

/-- Some entry satisfying `Q` has not been followed by `mark`. -/
def Outstanding (Q : Event → Prop) (mark : Event) (past : List Event) : Prop :=
  ∃ before entry after, past = before ++ entry :: after ∧ Q entry ∧ mark ∉ after

@[simp] theorem not_outstanding_nil : ¬Outstanding Q mark [] := by
  rintro ⟨before, first, after, split, -⟩
  simp at split

/-- One more entry ends what is outstanding, or is outstanding itself. -/
theorem outstanding_snoc :
    Outstanding Q mark (past ++ [entry]) ↔ Outstanding Q mark past ∧ entry ≠ mark ∨ Q entry := by
  constructor
  · rintro ⟨before, first, after, split, good, unmarked⟩
    rcases List.eq_nil_or_concat after with rfl | ⟨init, final, rfl⟩
    · obtain ⟨-, same⟩ := List.append_inj' split rfl
      obtain rfl := (List.cons.inj same).1
      exact .inr good
    · have lengths : past ++ [entry] = (before ++ first :: init) ++ [final] := by
        simpa using split
      obtain ⟨rfl, same⟩ := List.append_inj' lengths rfl
      obtain rfl := (List.cons.inj same).1
      have absent : mark ∉ init ∧ mark ≠ entry := by simpa using unmarked
      exact .inl ⟨⟨before, first, init, rfl, good, absent.1⟩, absent.2.symm⟩
  · rintro (⟨⟨before, first, after, rfl, good, unmarked⟩, different⟩ | good)
    · refine ⟨before, first, after ++ [entry], by simp, good, ?_⟩
      simpa [unmarked] using different.symm
    · exact ⟨past, entry, [], rfl, good, by simp⟩

end Nexer.Transition

import Mathlib.Data.List.Basic

/-!
# Writing over a part of a list

A block of memory is a list; what is stored into it begins at an offset, which may lie outside.
-/

namespace Nexer

variable {α : Type}

/-- Write over a list, from an offset on.  What falls outside is dropped. -/
def overlay (start : Int) (new old : List α) : List α :=
  old.mapIdx fun i x => if start ≤ i then (new[((i : Int) - start).toNat]?).getD x else x

/-- A range of a block that has this size. -/
def InBlock (start : Int) (length size : Nat) : Prop :=
  length = 0 ∨ (0 ≤ start ∧ start + length ≤ size)

instance (start : Int) (length size : Nat) : Decidable (InBlock start length size) :=
  inferInstanceAs (Decidable (length = 0 ∨ (0 ≤ start ∧ start + length ≤ size)))

/-- A block whose size is changed: the old items first, then what the allocator has left. -/
def resized (size : Nat) (rest : Nat → α) (old : List α) : List α :=
  old.take size ++ (List.range (size - old.length)).map rest

variable {start : Int} {new old left right : List α} {size : Nat}

@[simp] theorem overlay_length : (overlay start new old).length = old.length := by
  simp [overlay]

theorem overlay_getElem? (i : Nat) : (overlay start new old)[i]? =
    old[i]?.map fun x => if start ≤ i then (new[((i : Int) - start).toNat]?).getD x else x :=
  List.getElem?_mapIdx

@[simp] theorem overlay_nil : overlay start [] old = old := by
  apply List.ext_getElem?
  intro i
  simp [overlay_getElem?]

/-- What is written behind the first part of a block. -/
theorem overlay_append (room : new.length ≤ right.length) :
    overlay left.length new (left ++ right) = left ++ (new ++ right.drop new.length) := by
  apply List.ext_getElem?
  intro i
  rw [overlay_getElem?]
  rcases Nat.lt_or_ge i left.length with before | behind
  · rw [List.getElem?_append_left before, List.getElem?_append_left before]
    simp [show ¬ (left.length : Int) ≤ i by omega]
  · obtain ⟨j, rfl⟩ := Nat.exists_eq_add_of_le behind
    have offset : (((left.length + j : Nat) : Int) - left.length).toNat = j := by omega
    rw [List.getElem?_append_right behind, List.getElem?_append_right behind, Nat.add_sub_cancel_left,
      offset]
    simp only [show (left.length : Int) ≤ ((left.length + j : Nat) : Int) by omega, if_true]
    rcases Nat.lt_or_ge j new.length with inside | outside
    · rw [List.getElem?_append_left inside, List.getElem?_eq_getElem inside,
        List.getElem?_eq_getElem (Nat.lt_of_lt_of_le inside room)]
      rfl
    · rw [List.getElem?_append_right outside, List.getElem?_eq_none outside, List.getElem?_drop,
        Nat.add_sub_cancel' outside]
      simp

theorem overlay_zero (room : new.length ≤ old.length) :
    overlay 0 new old = new ++ old.drop new.length :=
  @overlay_append _ new [] old room

theorem resized_length (rest : Nat → α) (grows : old.length ≤ size) :
    (resized size rest old).length = size := by
  simp [resized, Nat.add_sub_cancel' grows, grows]

theorem resized_eq (rest : Nat → α) (grows : old.length ≤ size) :
    resized size rest old = old ++ (List.range (size - old.length)).map rest := by
  rw [resized, List.take_of_length_le grows]

theorem inBlock_append {left new right : List α} (room : new.length ≤ right.length) :
    InBlock left.length new.length (left ++ right).length := by
  rw [List.length_append]
  exact .inr ⟨Int.natCast_nonneg _, by omega⟩

end Nexer

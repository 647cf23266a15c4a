import Nexer.Text.Bytes
import Mathlib.Algebra.Group.Nat.Defs

/-!
# Formatted text

`vsnprintf` stores a text as far as there is room and returns its length, as an `int`.
-/

namespace Nexer

/-- The values of `size_t`. -/
def sizeMax : Nat := 2 ^ 64

/-- The conversion of a number to `int`. -/
def toInt (n : Int) : Int := n.bmod (2 ^ 32)

/-- The conversion of a number to `size_t`. -/
def toSize (n : Int) : Nat := (n % sizeMax).toNat

theorem toSize_natCast {n : Nat} (small : n < sizeMax) : toSize n = n := by
  rw [toSize, ← Int.natCast_emod, Nat.mod_eq_of_lt small, Int.toNat_natCast]

theorem toInt_natCast {n : Nat} (small : n < 2 ^ 31) : toInt n = n :=
  Int.bmod_eq_of_le (by omega) (by omega)

theorem toInt_eq (n : Int) :
    n % 4294967296 < 2147483648 ∧ toInt n = n % 4294967296 ∨
      2147483648 ≤ n % 4294967296 ∧ toInt n = n % 4294967296 - 4294967296 := by
  simp only [toInt, Int.bmod_def]
  split <;> omega

/-- What `vsnprintf` stores of a text. -/
def terminated (room : Nat) (text : Bytes) : Bytes :=
  if room = 0 then [] else text.take (room - 1) ++ [0]

/-- A format with its arguments: its text, and the attempts that fail, with what they store. -/
structure Formatting where
  text : Bytes
  short : text.length < 2 ^ 31
  fails : Nat → Option Bytes := fun _ => none

namespace Formatting

/-- What an attempt stores that has this room. -/
def stores (format : Formatting) (room : Nat) : Bytes :=
  match format.fails room with
  | some junk => junk.take room
  | none => terminated room format.text

/-- What an attempt returns. -/
def returns (format : Formatting) (room : Nat) : Int :=
  if (format.fails room).isSome then -1 else format.text.length

end Formatting

theorem terminated_eq {room : Nat} {text : Bytes} (fits : text.length < room) :
    terminated room text = text ++ [0] := by
  rw [terminated, if_neg (Nat.ne_of_gt (Nat.zero_lt_of_lt fits)),
    List.take_of_length_le (Nat.le_sub_one_of_lt fits)]

theorem stores_length {format : Formatting} (room : Nat) :
    (format.stores room).length ≤ room := by
  unfold Formatting.stores terminated
  split
  · exact List.length_take_le ..
  · split
    · next none => simp [none]
    · next positive =>
      rw [List.length_append, List.length_take, List.length_singleton]
      omega

end Nexer

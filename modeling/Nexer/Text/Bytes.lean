import Mathlib.Data.List.TakeWhile

/-!
# Bytes

Strings of the program are lists of bytes.
-/

namespace Nexer

abbrev Bytes := List UInt8

/-- A string literal. -/
def ascii (text : String) : Bytes := text.toList.map fun char => UInt8.ofNat char.toNat

/-- What `<<` prints of a number. -/
def decimal (number : Nat) : Bytes :=
  (Nat.toDigits 10 number).map fun char => UInt8.ofNat char.toNat

/-- What a C function reads of a string: all before the first NUL. -/
def cString (bytes : Bytes) : Bytes := bytes.takeWhile (· ≠ 0)

theorem cString_eq {bytes : Bytes} (clean : 0 ∉ bytes) : cString bytes = bytes := by
  rw [cString, List.takeWhile_eq_self_iff]
  intro byte member
  have nonzero : byte ≠ 0 := by
    rintro rfl
    exact clean member
  simpa using nonzero

end Nexer

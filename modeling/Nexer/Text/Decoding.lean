import Mathlib.Logic.Function.Basic
import Nexer.Text.Bytes

/-!
# Percent-decoding

`DecodeUrlComponent` reads a C string and writes another one, which may stand at the same place.
The memory has the bytes that may be accessed; any other access is a fault.
-/

namespace Nexer

abbrev Memory := Nat → Option UInt8

namespace Memory

/-- The bytes stand at this address. -/
def Holds (memory : Memory) (address : Nat) (bytes : Bytes) : Prop :=
  ∀ i < bytes.length, memory (address + i) = bytes[i]?

/-- The bytes from this address on may be written. -/
def Owns (memory : Memory) (address length : Nat) : Prop :=
  ∀ i < length, (memory (address + i)).isSome

def store (memory : Memory) (address : Nat) (byte : UInt8) : Option Memory :=
  if (memory address).isSome then some (Function.update memory address (some byte)) else none

variable {memory : Memory} {address : Nat}

theorem holds_cons {byte : UInt8} {bytes : Bytes} : memory.Holds address (byte :: bytes) ↔
    memory address = some byte ∧ memory.Holds (address + 1) bytes := by
  constructor
  · intro holds
    refine ⟨holds 0 (Nat.succ_pos _), fun i bound => ?_⟩
    rw [Nat.add_assoc, Nat.add_comm 1]
    exact holds (i + 1) (Nat.succ_lt_succ bound)
  · rintro ⟨first, rest⟩ (_ | i) bound
    · exact first
    · have here := rest i (Nat.lt_of_succ_lt_succ bound)
      rwa [Nat.add_assoc, Nat.add_comm 1] at here

theorem Holds.owns {bytes : Bytes} (holds : memory.Holds address bytes) {length : Nat}
    (enough : length ≤ bytes.length) : memory.Owns address length := by
  intro i bound
  have inside := Nat.lt_of_lt_of_le bound enough
  rw [holds i inside, List.getElem?_eq_getElem inside]
  rfl

theorem Owns.store {length : Nat} (owns : memory.Owns address (length + 1)) (byte : UInt8) :
    memory.store address byte = some (Function.update memory address (some byte)) :=
  if_pos (owns 0 (Nat.succ_pos _))

theorem Owns.tail {length : Nat} (owns : memory.Owns address (length + 1)) (byte : UInt8) :
    Owns (Function.update memory address (some byte)) (address + 1) length := by
  intro i bound
  have here := owns (i + 1) (Nat.succ_lt_succ bound)
  rw [Nat.add_comm i, ← Nat.add_assoc] at here
  rwa [Function.update_of_ne (by omega)]

/-- What does not stand at the written address stays. -/
theorem Holds.update {bytes : Bytes} (holds : memory.Holds address bytes) {written : Nat}
    (apart : written < address ∨ address + bytes.length ≤ written) (byte : UInt8) :
    Holds (Function.update memory written (some byte)) address bytes := by
  intro i bound
  rw [Function.update_of_ne (by omega)]
  exact holds i bound

end Memory

namespace Url

def percent : UInt8 := 37
def plus : UInt8 := 43
def space : UInt8 := 32

def isxdigit (c : UInt8) : Bool :=
  (48 ≤ c ∧ c ≤ 57) ∨ (65 ≤ c ∧ c ≤ 70) ∨ (97 ≤ c ∧ c ≤ 102)

def toupper (c : UInt8) : UInt8 :=
  if 97 ≤ c ∧ c ≤ 122 then c - 32 else c

/-- `src[1] < 'A' ? src[1] - '0' : toupper(src[1]) - 'A' + 10` -/
def nibble (c : UInt8) : UInt8 :=
  if c < 65 then c - 48 else toupper c - 65 + 10

/-- `(x << 4) + y` -/
def hexByte (x y : UInt8) : UInt8 :=
  (nibble x <<< 4) + nibble y

/-- The two digits after `src`; the second one is read after a first one only. -/
def hexPair (memory : Memory) (src : Nat) : Option (Option (UInt8 × UInt8)) := do
  let x ← memory (src + 1)
  if isxdigit x then
    let y ← memory (src + 2)
    if isxdigit y then some (some (x, y)) else some none
  else some none

def escape (memory : Memory) (src : Nat) (c : UInt8) : Option (Option (UInt8 × UInt8)) :=
  if c = percent then hexPair memory src else some none

/-- The loop of `DecodeUrlComponent`, for as many turns as `fuel` says. -/
def decodeLoop : Nat → Memory → Nat → Nat → Nat → Option (Memory × Nat)
  | 0, _, _, _, _ => none
  | fuel + 1, memory, src, dst, len => do
      let c ← memory src
      if c = 0 then
        let memory ← memory.store dst 0
        some (memory, len)
      else
        let pair ← escape memory src c
        match pair with
        | some (x, y) =>
            let memory ← memory.store dst (hexByte x y)
            decodeLoop fuel memory (src + 3) (dst + 1) (len + 1)
        | none =>
            let memory ← memory.store dst (if c = plus then space else c)
            decodeLoop fuel memory (src + 1) (dst + 1) (len + 1)

/-- `DecodeUrlComponent`: the memory after it, and what it returns. -/
def decodeUrlComponent (fuel : Nat) (memory : Memory) (src dst : Nat) : Option (Memory × Nat) :=
  decodeLoop fuel memory src dst 0

/-- Two digits at the beginning of a text. -/
def leadingPair : Bytes → Option (UInt8 × UInt8)
  | x :: y :: _ => if isxdigit x ∧ isxdigit y then some (x, y) else none
  | _ => none

theorem leadingPair_eq_some {text : Bytes} {x y : UInt8} (found : leadingPair text = some (x, y)) :
    ∃ rest, text = x :: y :: rest := by
  rcases text with _ | ⟨x', _ | ⟨y', rest⟩⟩
  · cases found
  · cases found
  · obtain ⟨-, same⟩ := Option.ite_none_right_eq_some.1 found
    obtain ⟨rfl, rfl⟩ := Prod.mk.inj (Option.some.inj same)
    exact ⟨rest, rfl⟩

/-- What a text is decoded to. -/
def decodeText : Bytes → Bytes
  | c :: x :: y :: rest =>
      if c = percent ∧ isxdigit x ∧ isxdigit y then hexByte x y :: decodeText rest
      else (if c = plus then space else c) :: decodeText (x :: y :: rest)
  | c :: rest => (if c = plus then space else c) :: decodeText rest
  | [] => []

theorem decodeText_cons (c : UInt8) (rest : Bytes) :
    decodeText (c :: rest) = ((if c = percent then leadingPair rest else none).elim
      ((if c = plus then space else c) :: decodeText rest)
      fun pair => hexByte pair.1 pair.2 :: decodeText (rest.drop 2)) := by
  rcases rest with _ | ⟨x, _ | ⟨y, rest⟩⟩
  · simp [decodeText, leadingPair]
  · simp [decodeText, leadingPair]
  · rw [decodeText, leadingPair]
    by_cases percent : c = percent <;> by_cases digits : isxdigit x ∧ isxdigit y <;>
      simp [percent, digits]

theorem decodeText_length_le (text : Bytes) : (decodeText text).length ≤ text.length := by
  fun_induction decodeText text with
  | case1 c x y rest digits ih => simp only [List.length_cons]; omega
  | case2 c x y rest literal ih => simpa using ih
  | case3 c rest short ih => simpa using ih
  | case4 => exact Nat.le_refl _

/-- The digits are looked for up to the terminator only. -/
theorem hexPair_eq {memory : Memory} {src : Nat} {rest : Bytes}
    (holds : memory.Holds (src + 1) (rest ++ [0])) :
    hexPair memory src = some (leadingPair rest) := by
  have stop : isxdigit 0 = false := by decide
  unfold hexPair
  rcases rest with _ | ⟨x, _ | ⟨y, rest⟩⟩
  · rw [(Memory.holds_cons.1 holds).1]
    simp [stop, leadingPair]
  · obtain ⟨first, rest⟩ := Memory.holds_cons.1 holds
    rw [first, (Memory.holds_cons.1 rest).1]
    simp [stop, leadingPair]
  · obtain ⟨first, rest⟩ := Memory.holds_cons.1 holds
    rw [first, (Memory.holds_cons.1 rest).1]
    by_cases digit : isxdigit x <;> by_cases digit' : isxdigit y <;>
      simp [leadingPair, digit, digit']

/-- The text, with its terminator, has been written at this address and nothing else has. -/
structure Written (memory : Memory) (address : Nat) (text : Bytes) (memory' : Memory) : Prop where
  holds : memory'.Holds address (text ++ [0])
  others : ∀ other, other < address ∨ address + text.length < other →
    memory' other = memory other

theorem Written.nil {memory : Memory} {address : Nat} :
    Written memory address [] (Function.update memory address (some 0)) where
  holds := by
    intro i bound
    obtain rfl : i = 0 := by simpa using bound
    simp
  others := by
    intro other apart
    exact Function.update_of_ne (by simp at apart; omega) _ _

theorem Written.cons {memory memory' : Memory} {address : Nat} {byte : UInt8} {text : Bytes}
    (written : Written (Function.update memory address (some byte)) (address + 1) text memory') :
    Written memory address (byte :: text) memory' where
  holds := by
    rw [List.cons_append, Memory.holds_cons]
    refine ⟨?_, written.holds⟩
    rw [written.others address (by omega), Function.update_self]
  others := by
    intro other apart
    rw [List.length_cons] at apart
    rw [written.others other (by omega), Function.update_of_ne (by omega)]

/-- From any of its turns on, the loop writes what is left of the text. -/
theorem decodeLoop_written : ∀ (fuel : Nat) {text : Bytes} {memory : Memory} {src dst : Nat}
    (len : Nat), text.length < fuel → 0 ∉ text → memory.Holds src (text ++ [0]) →
      memory.Owns dst ((decodeText text).length + 1) → dst ≤ src ∨ src + text.length < dst →
        ∃ memory', decodeLoop fuel memory src dst len =
            some (memory', len + (decodeText text).length) ∧
          Written memory dst (decodeText text) memory'
  | 0, _, _, _, _, _, enough, _, _, _, _ => absurd enough (Nat.not_lt_zero _)
  | fuel + 1, [], memory, src, dst, len, _, _, holds, owns, _ => by
      refine ⟨_, ?_, .nil⟩
      rw [decodeLoop, (Memory.holds_cons.1 holds).1, owns.store]
      rfl
  | fuel + 1, c :: rest, memory, src, dst, len, enough, nonzero, holds, owns, apart => by
      obtain ⟨first, holds⟩ := Memory.holds_cons.1 holds
      obtain ⟨visible, nonzero⟩ := not_or.1 fun either => nonzero (List.mem_cons.2 either)
      have pair : escape memory src c = some (if c = percent then leadingPair rest else none) := by
        unfold escape
        split
        · exact hexPair_eq holds
        · rfl
      rw [List.length_cons] at apart enough
      rw [decodeLoop, first]
      simp only [Option.bind_eq_bind, Option.bind_some, if_neg (Ne.symm visible), pair]
      rw [decodeText_cons] at owns ⊢
      generalize found : (if c = percent then leadingPair rest else none) = digits at owns ⊢
      cases digits with
      | none =>
          rw [Option.elim_none] at owns ⊢
          simp only [owns.store, Option.bind_some]
          obtain ⟨memory', run, written⟩ := decodeLoop_written fuel (len + 1)
            (Nat.lt_of_succ_lt_succ enough) nonzero
            (holds.update (by simp; omega) (if c = plus then space else c)) (owns.tail _) (by omega)
          refine ⟨memory', ?_, written.cons⟩
          rw [run, List.length_cons, Nat.add_assoc, Nat.add_comm 1]
      | some digits =>
          obtain ⟨x, y⟩ := digits
          obtain ⟨rest, rfl⟩ := leadingPair_eq_some (Option.ite_none_right_eq_some.1 found).2
          rw [Option.elim_some] at owns ⊢
          simp only [owns.store, Option.bind_some, List.length_cons, List.mem_cons, not_or] at enough apart nonzero ⊢
          have later := (Memory.holds_cons.1 (Memory.holds_cons.1 holds).2).2
          obtain ⟨memory', run, written⟩ := decodeLoop_written fuel (len + 1) (by omega)
            nonzero.2.2 (later.update (by simp; omega) (hexByte x y)) (owns.tail _) (by omega)
          refine ⟨memory', ?_, written.cons⟩
          rw [run, Nat.add_assoc, Nat.add_comm 1]
          rfl

/-- The digits of a number below 16, in both cases. -/
def hexDigits (value : UInt8) : List UInt8 :=
  if value < 10 then [48 + value] else [55 + value, 87 + value]

/-- The ways to write bytes in a URL component. -/
inductive Encodes : Bytes → Bytes → Prop where
  | nil : Encodes [] []
  | plain {byte : UInt8} {bytes text : Bytes} (ordinary : byte ∉ [0, percent, plus])
      (rest : Encodes bytes text) : Encodes (byte :: bytes) (byte :: text)
  | hex {byte x y : UInt8} {bytes text : Bytes} (high : x ∈ hexDigits (byte / 16))
      (low : y ∈ hexDigits (byte % 16)) (rest : Encodes bytes text) :
      Encodes (byte :: bytes) (percent :: x :: y :: text)
  | plus {bytes text : Bytes} (rest : Encodes bytes text) :
      Encodes (space :: bytes) (plus :: text)

theorem hexDigits_spec {value digit : UInt8} (small : value.toNat < 16)
    (written : digit ∈ hexDigits value) :
    isxdigit digit = true ∧ nibble digit = value ∧ digit ≠ 0 := by
  have all : ∀ number < 16, ((hexDigits (UInt8.ofNat number)).all fun digit =>
      isxdigit digit && nibble digit == UInt8.ofNat number && digit != 0) = true := by decide
  have here := all value.toNat small
  rw [UInt8.ofNat_toNat, List.all_eq_true] at here
  simpa [and_assoc] using here digit written

theorem shift_add (byte : UInt8) : (byte / 16) <<< 4 + byte % 16 = byte := by
  have bound := byte.toNat_lt
  apply UInt8.toNat_inj.1
  simp [UInt8.toNat_add, UInt8.toNat_shiftLeft, Nat.shiftLeft_eq]
  omega

/-- Encoded bytes are read back. -/
theorem Encodes.decode {bytes text : Bytes} (encodes : Encodes bytes text) :
    0 ∉ text ∧ decodeText text = bytes := by
  induction encodes with
  | nil => exact ⟨by simp, rfl⟩
  | @plain byte bytes text ordinary _ ih =>
      obtain ⟨visible, notPercent, notPlus⟩ : byte ≠ 0 ∧ byte ≠ percent ∧ byte ≠ Url.plus := by
        simpa using ordinary
      refine ⟨by simpa using ⟨Ne.symm visible, ih.1⟩, ?_⟩
      rw [decodeText_cons, if_neg notPercent, if_neg notPlus, Option.elim_none, ih.2]
  | @hex byte x y bytes text high low _ ih =>
      have divided : (byte / 16).toNat < 16 := by
        have bound := byte.toNat_lt
        have sixteen : (16 : UInt8).toNat = 16 := rfl
        rw [UInt8.toNat_div, sixteen]
        omega
      have left : (byte % 16).toNat < 16 := by
        rw [UInt8.toNat_mod]
        exact Nat.mod_lt _ (by decide)
      obtain ⟨digit, same, visible⟩ := hexDigits_spec divided high
      obtain ⟨digit', same', visible'⟩ := hexDigits_spec left low
      refine ⟨?_, ?_⟩
      · simpa [percent] using ⟨Ne.symm visible, Ne.symm visible', ih.1⟩
      · rw [decodeText, if_pos ⟨rfl, digit, digit'⟩, hexByte, same, same', shift_add, ih.2]
  | plus _ ih =>
      refine ⟨by simpa [Url.plus] using ih.1, ?_⟩
      rw [decodeText_cons, if_neg (by decide), if_pos rfl, Option.elim_none, ih.2]

/-- A component is decoded within the memory of its text and of the result, also in place;
whatever encodes bytes is decoded to them, and a `%` without two digits is kept. -/
theorem decode_url_component :
    (∀ (text : Bytes) (memory : Memory) (src dst fuel : Nat), text.length < fuel → 0 ∉ text →
      memory.Holds src (text ++ [0]) →
      dst = src ∨ memory.Owns dst ((decodeText text).length + 1) ∧
        (dst ≤ src ∨ src + text.length < dst) →
      ∃ memory', decodeUrlComponent fuel memory src dst =
          some (memory', (decodeText text).length) ∧
        Written memory dst (decodeText text) memory') ∧
    (∀ bytes text, Encodes bytes text → 0 ∉ text ∧ decodeText text = bytes) ∧
    ∀ text, leadingPair text = none → decodeText (percent :: text) = percent :: decodeText text := by
  refine ⟨?_, fun _ _ encodes => encodes.decode, fun text none => ?_⟩
  · intro text memory src dst fuel enough nonzero holds room
    have run := @decodeLoop_written fuel text memory src dst 0 enough nonzero holds
    rw [Nat.zero_add] at run
    rcases room with rfl | ⟨owns, apart⟩
    · refine run (holds.owns ?_) (.inl (Nat.le_refl _))
      simpa using decodeText_length_le text
    · exact run owns apart
  · rw [decodeText_cons, if_pos rfl, none, if_neg (by decide), Option.elim_none]

/-- `100%+%2f` in place. -/
theorem decode_url_component_inPlace : ∃ memory' : Memory,
    decodeUrlComponent 9 (fun address => (ascii "100%+%2f" ++ [0])[address]?) 0 0 =
        some (memory', 6) ∧ memory'.Holds 0 (ascii "100% /" ++ [0]) := by
  have same : decodeText (ascii "100%+%2f") = ascii "100% /" := by decide
  obtain ⟨memory', run, written⟩ := decode_url_component.1 (ascii "100%+%2f")
    (fun address => (ascii "100%+%2f" ++ [0])[address]?) 0 0 9 (by decide) (by decide)
    (fun i _ => by rw [Nat.zero_add]) (.inl rfl)
  rw [same] at run written
  exact ⟨memory', run, written.holds⟩

end Url

end Nexer

import Mathlib.Data.List.Infix
import Nexer.Text.Url

/-!
# What the loops of `ParseUrl` stop at

The search for `://` splits a string at the first place, and a loop reads all
that stands before the first delimiter.
-/

namespace Nexer.Url

/-- `://` -/
def separator : Bytes := [colon, slash, slash]

theorem isPrefixOf_iff (bytes : Bytes) :
    [colon, slash, slash].isPrefixOf bytes = true ↔ separator <+: bytes :=
  List.isPrefixOf_iff_prefix

theorem strstr_eq_some {bytes before after : Bytes} (found : strstr bytes = some (before, after)) :
    bytes = before ++ separator ++ after ∧ ¬separator <:+: before := by
  induction bytes generalizing before with
  | nil => cases found
  | cons byte rest ih =>
      unfold strstr at found
      split at found
      · rename_i here
        obtain ⟨tail, split⟩ := (isPrefixOf_iff _).1 here
        obtain ⟨rfl, rfl⟩ := Prod.mk.inj (Option.some.inj found)
        simp only [separator, List.cons_append, List.nil_append, List.cons.injEq] at split
        obtain ⟨rfl, rfl⟩ := split
        refine ⟨rfl, fun infix_ => ?_⟩
        cases List.infix_nil.1 infix_
      · rename_i elsewhere
        obtain ⟨⟨before', after'⟩, found', same⟩ := Option.map_eq_some_iff.1 found
        obtain ⟨rfl, rfl⟩ := Prod.mk.inj same
        obtain ⟨rfl, apart⟩ := ih found'
        refine ⟨rfl, fun inside => ?_⟩
        rcases List.infix_cons_iff.1 inside with start | later
        · apply elsewhere
          rw [isPrefixOf_iff]
          exact start.trans (by simp)
        · exact apart later

theorem strstr_eq_none_iff (bytes : Bytes) : strstr bytes = none ↔ ¬separator <:+: bytes := by
  induction bytes with
  | nil => simp [strstr, separator]
  | cons byte rest ih =>
      unfold strstr
      rw [List.infix_cons_iff, ← isPrefixOf_iff]
      split
      · rename_i here
        simp [here]
      · rename_i elsewhere
        simp [elsewhere, ih]

/-- The first occurrence is found: no other one reaches into the separator. -/
theorem strstr_append {before : Bytes} (apart : ¬separator <:+: before) (after : Bytes) :
    strstr (before ++ separator ++ after) = some (before, after) := by
  induction before with
  | nil => rfl
  | cons byte rest ih =>
      rw [List.infix_cons_iff, not_or] at apart
      have elsewhere : ¬[colon, slash, slash].isPrefixOf
          (byte :: rest ++ separator ++ after) = true := by
        rw [isPrefixOf_iff]
        intro start
        apply apart.1
        rcases rest with _ | ⟨second, _ | ⟨third, tail⟩⟩
        · simp [separator, colon, slash] at start
        · simp [separator, colon, slash] at start
        · simp only [separator, List.cons_append, List.cons_prefix_cons] at start ⊢
          exact ⟨start.1, start.2.1, start.2.2.1, List.nil_prefix⟩
      have later := ih apart.2
      simp only [List.cons_append] at elsewhere later ⊢
      rw [strstr, if_neg elsewhere, later]
      rfl

theorem upTo_eq (delimiters : List UInt8) (bytes : Bytes) :
    upTo delimiters bytes = (bytes.takeWhile (· ∉ delimiters), bytes.dropWhile (· ∉ delimiters)) :=
  List.span_eq_takeWhile_dropWhile ..

/-- A loop stops at the first delimiter or at the end. -/
theorem upTo_append {delimiters : List UInt8} {word rest : Bytes}
    (free : ∀ byte ∈ word, byte ∉ delimiters) (stops : ∀ byte ∈ rest.head?, byte ∈ delimiters) :
    upTo delimiters (word ++ rest) = (word, rest) := by
  have free' : ∀ byte ∈ word, decide (byte ∉ delimiters) = true := by simpa using free
  rw [upTo_eq, List.takeWhile_append_of_pos free', List.dropWhile_append_of_pos free']
  cases rest with
  | nil => simp
  | cons byte tail =>
      have stop : byte ∈ delimiters := stops byte rfl
      simp [stop]

theorem upTo_fst_free (delimiters : List UInt8) (bytes : Bytes) :
    ∀ byte ∈ (upTo delimiters bytes).1, byte ∉ delimiters := by
  intro byte found
  rw [upTo_eq] at found
  simpa using List.mem_takeWhile_imp found

theorem upTo_append_upTo (delimiters : List UInt8) (bytes : Bytes) :
    (upTo delimiters bytes).1 ++ (upTo delimiters bytes).2 = bytes := by
  rw [upTo_eq]
  exact List.takeWhile_append_dropWhile

theorem upTo_snd_head (delimiters : List UInt8) (bytes : Bytes) :
    ∀ byte ∈ (upTo delimiters bytes).2.head?, byte ∈ delimiters := by
  intro byte found
  rw [upTo_eq] at found
  have stopped := List.head?_dropWhile_not (· ∉ delimiters) bytes
  rw [Option.mem_def.1 found] at stopped
  simpa using stopped

end Nexer.Url

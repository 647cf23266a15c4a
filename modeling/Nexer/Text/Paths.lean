import Nexer.Text.Printing

/-!
# Which strings have a given path

The path of a URL may follow an authority, but it may also begin the string, and then its
`/` may be missing.  A `://` anywhere decides, also in a query or a fragment.
-/

namespace Nexer.Url

/-- The rest of a string after its path. -/
def Ends (rest : Bytes) : Prop := ∀ byte ∈ rest.head?, byte ∈ [question, hash]

/-- The strings whose path is `/` and a word. -/
inductive Addresses (word : Bytes) : Bytes → Prop
  | rooted (rest : Bytes) (ends : Ends rest) (apart : ¬separator <:+: slash :: word ++ rest) :
      Addresses word (slash :: word ++ rest)
  | bare (rest : Bytes) (ends : Ends rest) (apart : ¬separator <:+: word ++ rest)
      (unrooted : word.head? ≠ some slash) : Addresses word (word ++ rest)
  | absolute (scheme authority rest : Bytes) (ends : Ends rest) (apart : ¬separator <:+: scheme)
      (free : ∀ byte ∈ authority, byte ∉ [slash, question, hash]) :
      Addresses word (scheme ++ separator ++ (authority ++ slash :: word ++ rest))

/-- The host and the port are read by two loops, which stop where one would. -/
theorem parseAuthority_rest {bytes before after : Bytes} (found : strstr bytes = some (before, after)) :
    (parseAuthority bytes).2.2.2 = (upTo [slash, question, hash] after).2 := by
  have whole := upTo_append_upTo [colon, slash, question, hash] after
  have hostFree := upTo_fst_free [colon, slash, question, hash] after
  have stops := upTo_snd_head [colon, slash, question, hash] after
  simp only [parseAuthority, found]
  generalize upTo [colon, slash, question, hash] after = read at whole hostFree stops ⊢
  obtain ⟨host, left⟩ := read
  have free : ∀ byte ∈ host, byte ∉ [slash, question, hash] := by
    intro byte member delimiter
    exact hostFree byte member (.tail _ delimiter)
  cases left with
  | nil => rw [← whole, upTo_append free (by simp)]
  | cons byte rest =>
      simp only at whole ⊢
      by_cases port : byte = colon
      · subst port
        have portFree : ∀ byte ∈ host ++ [colon] ++ (upTo [slash, question, hash] rest).1,
            byte ∉ [slash, question, hash] := by
          simp only [List.mem_append, List.mem_singleton]
          rintro byte ((member | rfl) | member)
          · exact free byte member
          · decide
          · exact upTo_fst_free _ rest byte member
        have split : after = host ++ [colon] ++ (upTo [slash, question, hash] rest).1 ++
            (upTo [slash, question, hash] rest).2 := by
          rw [List.append_assoc, upTo_append_upTo, ← whole]
          simp
        rw [split, upTo_append portFree (upTo_snd_head _ rest), if_pos rfl]
      · have last : byte ∈ [slash, question, hash] := by
          simpa [port] using stops byte rfl
        rw [← whole, upTo_append free (by simpa using last), if_neg port]

/-- The path that is read from what follows the authority. -/
def pathOf (rest : Bytes) : Bytes :=
  (if rest.head?.any (· ≠ slash) then [slash] else []) ++ (upTo [question, hash] rest).1

theorem parse_path (text : Bytes) :
    (parse text).path = pathOf (parseAuthority (cString text)).2.2.2 := rfl

variable {word : Bytes} (filled : word ≠ []) (free : ∀ byte ∈ word, byte ∉ [question, hash])

include free in
theorem pathOf_rooted {rest : Bytes} (ends : Ends rest) :
    pathOf (slash :: word ++ rest) = slash :: word := by
  have rooted : ∀ byte ∈ slash :: word, byte ∉ [question, hash] := by
    simp only [List.mem_cons, forall_eq_or_imp]
    exact ⟨by decide, by simpa using free⟩
  rw [pathOf, upTo_append rooted ends]
  rfl

include filled free in
theorem pathOf_bare {rest : Bytes} (ends : Ends rest) (unrooted : word.head? ≠ some slash) :
    pathOf (word ++ rest) = slash :: word := by
  have first : (word ++ rest).head?.any (· ≠ slash) = true := by
    cases word with
    | nil => exact absurd rfl filled
    | cons byte others => simpa using unrooted
  rw [pathOf, if_pos first, upTo_append free ends]
  rfl

/-- What can have been read as the path. -/
theorem pathOf_cases {rest : Bytes} (path : pathOf rest = slash :: word) :
    ∃ tail, Ends tail ∧
      (rest = slash :: word ++ tail ∨ rest = word ++ tail ∧ rest.head? ≠ some slash) := by
  refine ⟨(upTo [question, hash] rest).2, upTo_snd_head _ rest, ?_⟩
  have whole := upTo_append_upTo [question, hash] rest
  unfold pathOf at path
  split at path
  · next root =>
    have read : (upTo [question, hash] rest).1 = word := (List.cons.inj path).2
    refine .inr ⟨?_, ?_⟩
    · rw [← read]
      exact whole.symm
    · intro rooted
      simp [rooted] at root
  · refine .inl ?_
    rw [← path]
    exact whole.symm

include filled free in
/--
`ParseUrl` reads a path that is not `/` from a string that begins with it, with or without
its first `/`, and has no `://` in it; or from one in which it follows an authority.
-/
theorem path_eq_iff (text : Bytes) :
    (parse text).path = slash :: word ↔ Addresses word (cString text) := by
  rw [parse_path]
  generalize cString text = bytes
  constructor
  · intro path
    obtain ⟨tail, ends, shapes⟩ := pathOf_cases path
    cases found : strstr bytes with
    | none =>
        have apart := (strstr_eq_none_iff bytes).mp found
        have same : (parseAuthority bytes).2.2.2 = bytes := by simp [parseAuthority, found]
        rw [same] at shapes
        rcases shapes with rfl | ⟨rfl, unrooted⟩
        · exact .rooted tail ends apart
        · refine .bare tail ends apart ?_
          obtain ⟨byte, others, rfl⟩ := List.exists_cons_of_ne_nil filled
          exact unrooted
    | some parts =>
        obtain ⟨scheme, after⟩ := parts
        obtain ⟨split, apart⟩ := strstr_eq_some found
        rw [parseAuthority_rest found] at shapes
        have whole := upTo_append_upTo [slash, question, hash] after
        rcases shapes with rooted | ⟨bare, unrooted⟩
        · rw [split, ← whole, rooted, ← List.append_assoc (upTo _ after).1]
          exact .absolute scheme _ tail ends apart (upTo_fst_free _ after)
        · -- Only a query or a fragment can follow an authority without a path.
          obtain ⟨byte, others, rfl⟩ := List.exists_cons_of_ne_nil filled
          have stops := upTo_snd_head [slash, question, hash] after
          rw [bare] at stops unrooted
          have delimiter : byte ∈ [slash, question, hash] := stops byte rfl
          have other : byte ≠ slash := by simpa using unrooted
          exact absurd (by simpa [other] using delimiter) (free byte (by simp))
  · intro addresses
    cases addresses with
    | rooted rest ends apart =>
        have none := (strstr_eq_none_iff _).mpr apart
        rw [parseAuthority, none]
        exact pathOf_rooted free ends
    | bare rest ends apart unrooted =>
        have none := (strstr_eq_none_iff _).mpr apart
        rw [parseAuthority, none]
        exact pathOf_bare filled free ends unrooted
    | absolute scheme authority rest ends apart authorityFree =>
        rw [parseAuthority_rest (strstr_append apart _), List.append_assoc,
          upTo_append authorityFree (by simp)]
        exact pathOf_rooted free ends

/-- A shutdown in a query, and one that a query hides. -/
example : (parse (ascii "/a?b=c://d/shutdown")).path = ascii "/shutdown" ∧
    (parse (ascii "/shutdown?a=b://c")).path = [] := by
  decide

end Nexer.Url

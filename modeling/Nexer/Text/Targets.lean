import Nexer.Text.Printing

/-!
# Request targets

A target that begins with `/` is a path with a query and a fragment.  `ParseUrl`
looks for `://` in the whole target first, so it takes one that contains it for a
URL with a scheme.
-/

namespace Nexer.Url

/-- The components of a target that is a path. -/
def pathForm (target : Bytes) : Url where
  path := target.takeWhile fun byte => byte ≠ question ∧ byte ≠ hash
  query := ((target.takeWhile (· ≠ hash)).dropWhile (· ≠ question)).drop 1
  fragment := (target.dropWhile (· ≠ hash)).drop 1

/-- The text between the path and the fragment. -/
theorem parseMarked_query (rest : Bytes) (stops : ∀ byte ∈ rest.head?, byte ∈ [question, hash]) :
    parseMarked question [hash] rest =
      (((rest.takeWhile (· ≠ hash)).dropWhile (· ≠ question)).drop 1, rest.dropWhile (· ≠ hash)) := by
  cases rest with
  | nil => rfl
  | cons byte tail =>
      rcases List.mem_cons.1 (stops byte rfl) with rfl | last
      · have other : question ≠ hash := by decide
        rw [parseMarked, if_pos rfl, upTo_eq]
        simp [other]
      · have same : byte = hash := List.mem_singleton.1 last
        subst same
        have other : hash ≠ question := by decide
        rw [parseMarked, if_neg other]
        simp

theorem parseMarked_fragment (rest : Bytes) (stops : ∀ byte ∈ rest.head?, byte = hash) :
    parseMarked hash [] rest = (rest.drop 1, []) := by
  cases rest with
  | nil => rfl
  | cons byte tail =>
      rw [parseMarked, if_pos (stops byte rfl), upTo_eq]
      simp

/-- Without a separator the whole target is read as a path. -/
theorem parse_pathForm {target : Bytes} (rooted : (cString target).head? = some slash)
    (apart : ¬separator <:+: cString target) : parse target = pathForm (cString target) := by
  have noScheme := (strstr_eq_none_iff _).2 apart
  unfold parse parseAuthority
  generalize cString target = bytes at rooted noScheme ⊢
  have noRoot : ¬bytes.head?.any (· ≠ slash) = true := by simp [rooted]
  have split := upTo_append_upTo [question, hash] bytes
  have pathFree := upTo_fst_free [question, hash] bytes
  have queryStops := upTo_snd_head [question, hash] bytes
  have pathIs : (upTo [question, hash] bytes).1 =
      bytes.takeWhile fun byte => byte ≠ question ∧ byte ≠ hash := by
    simp [upTo_eq]
  simp only [noScheme, if_neg noRoot, List.nil_append]
  generalize upTo [question, hash] bytes = read at split pathFree queryStops pathIs ⊢
  obtain ⟨path, rest⟩ := read
  have noHash : ∀ byte ∈ path, decide (byte ≠ hash) = true := by
    intro byte found
    simpa using fun same : byte = hash => pathFree byte found (by simp [same])
  have noQuestion : ∀ byte ∈ path, decide (byte ≠ question) = true := by
    intro byte found
    simpa using fun same : byte = question => pathFree byte found (by simp [same])
  have fragmentStops : ∀ byte ∈ (rest.dropWhile (· ≠ hash)).head?, byte = hash := by
    intro byte found
    have stopped := List.head?_dropWhile_not (· ≠ hash) rest
    rw [Option.mem_def.1 found] at stopped
    simpa using stopped
  simp only at split pathIs queryStops ⊢
  simp only [parseMarked_query rest queryStops, parseMarked_fragment _ fragmentStops, pathForm,
    pathIs, Url.mk.injEq, true_and]
  rw [← split, List.takeWhile_append_of_pos noHash, List.dropWhile_append_of_pos noQuestion,
    List.dropWhile_append_of_pos noHash]
  exact ⟨rfl, rfl⟩

/-- With a separator the text before it is read as a scheme. -/
theorem parse_scheme_ne_nil {target : Bytes} (rooted : (cString target).head? = some slash)
    (contains : separator <:+: cString target) : (parse target).scheme ≠ [] := by
  cases found : strstr (cString target) with
  | none => exact absurd contains ((strstr_eq_none_iff _).1 found)
  | some parts =>
      obtain ⟨before, after⟩ := parts
      have scheme : (parse target).scheme = before := by
        unfold parse parseAuthority
        simp only [found]
        split <;> [rfl; split <;> rfl]
      obtain ⟨split, -⟩ := strstr_eq_some found
      rw [scheme]
      rintro rfl
      rw [split] at rooted
      simp [separator, colon, slash] at rooted

/-- A target that begins with `/` is read as a path just when it has no `://`. -/
theorem path_stays_iff (before : Url) (target : Bytes)
    (rooted : (cString target).head? = some slash) :
    parseUrl before target = pathForm (cString target) ↔ ¬separator <:+: cString target := by
  rw [parseUrl_eq]
  constructor
  · intro read contains
    apply parse_scheme_ne_nil rooted contains
    rw [read]
    rfl
  · exact parse_pathForm rooted

/-- `/a?b=c#d` -/
theorem path_stays_query :
    parseUrl {} (ascii "/a?b=c#d") = pathForm (cString (ascii "/a?b=c#d")) :=
  (path_stays_iff {} (ascii "/a?b=c#d") (by decide)).2 (by decide)

/-- The query of `/a?u=b://c` is lost, and the path is `/`. -/
theorem path_lost :
    (cString (ascii "/a?u=b://c")).head? = some slash ∧
      parseUrl {} (ascii "/a?u=b://c") ≠ pathForm (cString (ascii "/a?u=b://c")) := by
  decide

end Nexer.Url

import Nexer.Text.Url

/-!
# Query strings

The loop of `ParseQueryString` reads a query string byte by byte.  What it has read of a pair and
what is left to read always make up the rest of the string.
-/

namespace Nexer.Url

def equals : UInt8 := 61
def ampersand : UInt8 := 38

/-- What the loop reads next: 0 or 1 in the source. -/
inductive QueryState where
  | key
  | value
  deriving DecidableEq

/-- The variables of the loop, with the calls of `cb`. -/
structure QueryLoop where
  key : Bytes := []
  value : Bytes := []
  state : QueryState := .key
  calls : List (Bytes × Bytes) := []

namespace QueryLoop

/-- `run_cb` -/
def runCb (loop : QueryLoop) : QueryLoop :=
  { loop with
    calls :=
      if loop.key.length > 0 ∨ loop.value.length > 0 then loop.calls ++ [(loop.key, loop.value)]
      else loop.calls
    key := []
    value := [] }

def step (loop : QueryLoop) (c : UInt8) : QueryLoop :=
  match loop.state with
  | .key =>
      if c = equals then { loop with state := .value }
      else if c = ampersand then loop.runCb
      else { loop with key := loop.key ++ [c] }
  | .value =>
      if c = ampersand then { loop.runCb with state := .key }
      else { loop with value := loop.value ++ [c] }

end QueryLoop

/-- `ParseQueryString`, as the calls of `cb`. -/
def parseQueryString (qs : Bytes) : List (Bytes × Bytes) :=
  (qs.foldl QueryLoop.step {}).runCb.calls

/-- The key before the first `=` of a piece and the value after it. -/
def splitPair (piece : Bytes) : Bytes × Bytes :=
  (piece.takeWhile (· ≠ equals), (piece.dropWhile (· ≠ equals)).drop 1)

/-- The pairs in a query string. -/
def queryPairs (qs : Bytes) : List (Bytes × Bytes) :=
  ((qs.splitOn ampersand).map splitPair).filter (· ≠ ([], []))

def joinPair (pair : Bytes × Bytes) : Bytes :=
  pair.1 ++ equals :: pair.2

def joinPairs (pairs : List (Bytes × Bytes)) : Bytes :=
  [ampersand].intercalate (pairs.map joinPair)

theorem splitPair_of_free {piece : Bytes} (free : equals ∉ piece) : splitPair piece = (piece, []) := by
  have all : ∀ byte ∈ piece, decide (byte ≠ equals) = true := by
    intro byte found
    simpa using fun same : byte = equals => free (same ▸ found)
  unfold splitPair
  rw [List.takeWhile_eq_self_iff.2 all, List.dropWhile_eq_nil_iff.2 all]
  rfl

theorem splitPair_joinPair {key : Bytes} (free : equals ∉ key) (value : Bytes) :
    splitPair (joinPair (key, value)) = (key, value) := by
  have all : ∀ byte ∈ key, decide (byte ≠ equals) = true := by
    intro byte found
    simpa using fun same : byte = equals => free (same ▸ found)
  unfold splitPair joinPair
  rw [List.takeWhile_append_of_pos all, List.dropWhile_append_of_pos all]
  simp

theorem queryPairs_of_free {piece : Bytes} (free : ampersand ∉ piece) :
    queryPairs piece = [splitPair piece].filter (· ≠ ([], [])) := by
  rw [queryPairs, List.splitOn_eq_singleton free]
  rfl

theorem queryPairs_append {piece : Bytes} (free : ampersand ∉ piece) (rest : Bytes) :
    queryPairs (piece ++ ampersand :: rest) = queryPairs piece ++ queryPairs rest := by
  rw [queryPairs_of_free free, queryPairs, List.splitOn_append_cons_self_of_not_mem free,
    List.map_cons, ← List.singleton_append, List.filter_append]
  rfl

namespace QueryLoop

/-- What has been read of the current piece. -/
def piece (loop : QueryLoop) : Bytes :=
  match loop.state with
  | .key => loop.key
  | .value => joinPair (loop.key, loop.value)

/-- The key has no delimiter, the value no `&`, and there is no value before the first `=`. -/
structure Reading (loop : QueryLoop) : Prop where
  key_equals : equals ∉ loop.key
  key_ampersand : ampersand ∉ loop.key
  value_ampersand : ampersand ∉ loop.value
  unread : loop.state = .key → loop.value = []

theorem Reading.initial : Reading {} where
  key_equals := by simp
  key_ampersand := by simp
  value_ampersand := by simp
  unread _ := rfl

variable {loop : QueryLoop}

theorem Reading.piece_free (reading : loop.Reading) : ampersand ∉ loop.piece := by
  obtain ⟨key, value, state, calls⟩ := loop
  obtain ⟨-, key_ampersand, value_ampersand, -⟩ := reading
  have other : ampersand ≠ equals := by decide
  cases state
  · exact key_ampersand
  · simpa [piece, joinPair, other] using ⟨key_ampersand, value_ampersand⟩

theorem Reading.splitPair_piece (reading : loop.Reading) :
    splitPair loop.piece = (loop.key, loop.value) := by
  obtain ⟨key, value, state, calls⟩ := loop
  cases state with
  | key =>
      obtain rfl : value = [] := reading.unread rfl
      exact splitPair_of_free reading.key_equals
  | value => exact splitPair_joinPair reading.key_equals value

/-- The callback is called for the current piece. -/
theorem Reading.runCb_calls (reading : loop.Reading) :
    loop.runCb.calls = loop.calls ++ queryPairs loop.piece := by
  rw [queryPairs_of_free reading.piece_free, reading.splitPair_piece]
  obtain ⟨key, value, state, calls⟩ := loop
  cases key <;> cases value <;> simp [runCb]

theorem Reading.step (reading : loop.Reading) (c : UInt8) : (loop.step c).Reading := by
  obtain ⟨key, value, state, calls⟩ := loop
  obtain ⟨key_equals, key_ampersand, value_ampersand, unread⟩ := reading
  unfold QueryLoop.step
  cases state with
  | key =>
      dsimp only
      split
      · exact ⟨key_equals, key_ampersand, value_ampersand, nofun⟩
      · split
        · exact ⟨by simp [runCb], by simp [runCb], by simp [runCb], fun _ => rfl⟩
        · rename_i notEquals notAmpersand
          refine ⟨?_, ?_, value_ampersand, unread⟩
          · simpa using ⟨key_equals, Ne.symm notEquals⟩
          · simpa using ⟨key_ampersand, Ne.symm notAmpersand⟩
  | value =>
      dsimp only
      split
      · exact ⟨by simp [runCb], by simp [runCb], by simp [runCb], fun _ => rfl⟩
      · rename_i notAmpersand
        refine ⟨key_equals, key_ampersand, ?_, nofun⟩
        simpa using ⟨value_ampersand, Ne.symm notAmpersand⟩

/-- One byte leaves the pairs that are called or to be called. -/
theorem Reading.step_pairs (reading : loop.Reading) (c : UInt8) (rest : Bytes) :
    (loop.step c).calls ++ queryPairs ((loop.step c).piece ++ rest) =
      loop.calls ++ queryPairs (loop.piece ++ c :: rest) := by
  have called := reading.runCb_calls
  have free := reading.piece_free
  obtain ⟨key, value, state, calls⟩ := loop
  unfold QueryLoop.step
  cases state with
  | key =>
      have none : value = [] := reading.unread rfl
      dsimp only
      split
      · subst c none
        simp [piece, joinPair]
      · split
        · subst c
          rw [queryPairs_append free, ← List.append_assoc, ← called]
          simp [piece, runCb]
        · simp [piece]
  | value =>
      dsimp only
      split
      · subst c
        rw [queryPairs_append free, ← List.append_assoc, ← called]
        simp [piece, runCb]
      · simp [piece, joinPair]

/-- The loop, from any of its states on. -/
theorem Reading.calls (reading : loop.Reading) (rest : Bytes) :
    (rest.foldl QueryLoop.step loop).runCb.calls = loop.calls ++ queryPairs (loop.piece ++ rest) := by
  induction rest generalizing loop with
  | nil => simpa using reading.runCb_calls
  | cons c rest ih => rw [List.foldl_cons, ih (reading.step c), reading.step_pairs]

end QueryLoop

theorem parseQueryString_eq (qs : Bytes) : parseQueryString qs = queryPairs qs :=
  QueryLoop.Reading.initial.calls qs

/-- A pair that can be written in a query string. -/
structure Joinable (pair : Bytes × Bytes) : Prop where
  key_equals : equals ∉ pair.1
  key_ampersand : ampersand ∉ pair.1
  value_ampersand : ampersand ∉ pair.2
  nonempty : pair ≠ ([], [])

theorem queryPairs_joinPairs {pairs : List (Bytes × Bytes)}
    (joinable : ∀ pair ∈ pairs, Joinable pair) : queryPairs (joinPairs pairs) = pairs := by
  by_cases empty : pairs = []
  · subst empty
    rfl
  have apart : ∀ piece ∈ pairs.map joinPair, ampersand ∉ piece := by
    simp only [List.mem_map, forall_exists_index, and_imp, forall_apply_eq_imp_iff₂]
    intro pair found
    have other : ampersand ≠ equals := by decide
    simpa [joinPair, other] using
      And.intro (joinable pair found).key_ampersand (joinable pair found).value_ampersand
  have split : (joinPairs pairs).splitOn ampersand = pairs.map joinPair :=
    List.splitOn_intercalate _ apart (by simpa using empty)
  rw [queryPairs, split, List.map_map]
  have same : pairs.map (splitPair ∘ joinPair) = pairs.map id :=
    List.map_congr_left fun pair found => splitPair_joinPair (joinable pair found).key_equals pair.2
  rw [same, List.map_id, List.filter_eq_self]
  exact fun pair found => decide_eq_true (joinable pair found).nonempty

/-- The callback gets the pairs in the string, in order; what was joined is read back. -/
theorem query_string :
    (∀ qs, parseQueryString qs = queryPairs qs) ∧
      ∀ pairs, (∀ pair ∈ pairs, Joinable pair) → parseQueryString (joinPairs pairs) = pairs := by
  refine ⟨parseQueryString_eq, fun pairs joinable => ?_⟩
  rw [parseQueryString_eq, queryPairs_joinPairs joinable]

theorem query_string_joined :
    parseQueryString (joinPairs [(ascii "q", ascii "a=b"), ([], ascii "v"), (ascii "k", [])]) =
      [(ascii "q", ascii "a=b"), ([], ascii "v"), (ascii "k", [])] := by
  apply query_string.2
  simp only [List.mem_cons, List.not_mem_nil, or_false, forall_eq_or_imp, forall_eq]
  refine ⟨⟨?_, ?_, ?_, ?_⟩, ⟨?_, ?_, ?_, ?_⟩, ⟨?_, ?_, ?_, ?_⟩⟩ <;> decide

end Nexer.Url

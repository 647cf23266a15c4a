import Nexer.StringBuffer.Operations

/-!
# Formatted text

Each turn of the loop of `vprintf` begins with a zero tail.  An attempt without the room for the
text leaves a part of it there, which the next growth clears; when that growth is refused, the part
stays.
-/

namespace Nexer.StringBuffer

/-- An attempt with this room has the whole text. -/
def Fits (format : Formatting) (room : Nat) : Prop :=
  format.fails room = none ∧ format.text.length < room

instance (format : Formatting) (room : Nat) : Decidable (Fits format room) :=
  inferInstanceAs (Decidable (format.fails room = none ∧ format.text.length < room))

/-- What is asked for after an attempt without the room. -/
def request (format : Formatting) (size cap : Nat) : Nat :=
  let m :=
    if (format.fails (cap - size)).isSome then toInt (2 * (cap - size : Nat))
    else toInt (format.text.length + 1)
  toSize (size + m + 1)

/-- The growth that is asked for at the capacity `last` is refused. -/
inductive Stops (heap : Heap) (format : Formatting) (size : Nat) : Nat → Nat → Nat → Prop where
  | here {calls cap : Nat} (lacks : ¬ Fits format (cap - size))
      (refused : ¬ Granted heap calls (request format size cap)) :
      Stops heap format size calls cap cap
  | later {calls cap last : Nat} (lacks : ¬ Fits format (cap - size))
      (granted : Granted heap calls (request format size cap))
      (stops : Stops heap format size (calls + 1) (roundUp (request format size cap)) last) :
      Stops heap format size calls cap last

variable {heap : Heap} {format : Formatting} {buf : MyBuf} {content : Bytes}
variable {calls cap size last fuel : Nat}

theorem Stops.unique {other : Nat} (stops : Stops heap format size calls cap last)
    (also : Stops heap format size calls cap other) : last = other := by
  induction stops generalizing other with
  | here lacks refused =>
      cases also with
      | here => rfl
      | later _ granted _ => exact absurd granted refused
  | later lacks granted stops ih =>
      cases also with
      | here _ refused => exact absurd granted refused
      | later _ _ stops => exact ih stops

theorem Stops.lacks (stops : Stops heap format size calls cap last) :
    ¬ Fits format (cap - size) := by
  cases stops <;> assumption

/-- The growth is asked for beyond the capacity, and its size does not wrap. -/
theorem request_bounds (lacks : ¬ Fits format (cap - size)) (inside : size ≤ cap)
    (bounded : cap ≤ maxSize) : cap < request format size cap ∧
      request format size cap + minSize ≤ sizeMax := by
  have short := format.short
  simp only [maxSize] at bounded
  unfold request toSize sizeMax minSize
  split
  · have doubled := toInt_eq (2 * (cap - size : Nat))
    dsimp only
    omega
  · next attempt =>
    have long : cap - size ≤ format.text.length :=
      Nat.not_lt.1 fun less => lacks ⟨Option.not_isSome_iff_eq_none.1 attempt, less⟩
    have next := toInt_eq (format.text.length + 1)
    dsimp only
    omega

theorem Stops.cap_le (stops : Stops heap format size calls cap last) (inside : size ≤ cap)
    (bounded : cap ≤ maxSize) : cap ≤ last := by
  induction stops with
  | here => exact Nat.le_refl _
  | later lacks granted _ ih =>
      have larger := (request_bounds lacks inside bounded).1
      have rounded := le_roundUp granted.1
      exact Nat.le_trans (by omega) (ih (by omega) granted.2.1)

/-- The text has been appended. -/
structure Printed (buf next : MyBuf) (content text : Bytes) : Prop where
  holds : Holds next (content ++ text)
  room : content.length + text.length < next.cap
  refusals : next.refusals = buf.refusals

/-- The first part of the text stands in the tail. -/
structure Truncated (buf next : MyBuf) (content : Bytes) (format : Formatting) (last : Nat) :
    Prop where
  keeps : Keeps next content (format.stores (last - content.length) ++
    zeros (last - content.length - (format.stores (last - content.length)).length))
  cap : next.cap = last
  refusals : next.refusals = buf.refusals + 1
  null : last = buf.cap → buf.base = .null → next.base = .null

/-- The body of the loop: the buffer after it, and the result if it returns. -/
def MyBuf.vprintfTurn (heap : Heap) (format : Formatting) (size : Nat) (buf : MyBuf) :
    MyBuf × Option Int :=
  let m := toInt (buf.cap - size)
  let (buf, n) := buf.vsnprintf size (toSize m) format
  if -1 < n ∧ n < m then (buf.pbump n, some n)
  else
    let m := if -1 < n then toInt (n + 1) else toInt (2 * m)
    let newCap := toSize (size + m + 1)
    let (buf, code) := if buf.cap < newCap then buf.reserve heap newCap else (buf, 0)
    (buf, if code ≠ 0 then some (-1) else none)

theorem vprintfLoop_succ : MyBuf.vprintfLoop heap format size (fuel + 1) buf =
    match buf.vprintfTurn heap format size with
    | (next, some n) => some (next, n)
    | (next, none) => MyBuf.vprintfLoop heap format size fuel next := by
  rw [MyBuf.vprintfLoop, MyBuf.vprintfTurn]
  obtain ⟨attempt, n⟩ := buf.vsnprintf size (toSize (toInt (buf.cap - size))) format
  dsimp only
  split
  · rfl
  · rw [ite_reserve]
    obtain ⟨grown, code⟩ := attempt.reserve heap _
    split <;> rfl

section Turns

variable {tail : Bytes}

/-- The room that the loop computes. -/
theorem Keeps.room (keeps : Keeps buf content tail) :
    toInt (buf.cap - content.length) = (buf.cap - content.length : Nat) ∧
      toSize (buf.cap - content.length : Nat) = buf.cap - content.length := by
  have bounded := keeps.bounded
  have inside := keeps.content_le
  rw [← Int.natCast_sub inside]
  simp only [maxSize] at bounded
  exact ⟨toInt_natCast (by omega), toSize_natCast (by simp only [sizeMax]; omega)⟩

/-- The buffer after an attempt. -/
theorem Keeps.attempt (keeps : Keeps buf content tail) (format : Formatting) :
    Keeps (buf.store content.length (format.stores (buf.cap - content.length))) content
      (format.stores (buf.cap - content.length) ++
        tail.drop (format.stores (buf.cap - content.length)).length) := by
  refine keeps.store ?_
  rw [keeps.cap, Nat.add_sub_cancel_left]
  exact stores_length _

end Turns

theorem returns_iff {room : Nat} :
    (-1 < format.returns room ∧ format.returns room < room) ↔ Fits format room := by
  rw [Formatting.returns, Fits]
  split
  · next failed =>
    have some : format.fails room ≠ none := fun none => by simp [none] at failed
    exact ⟨fun both => absurd both.1 (Int.lt_irrefl _), fun both => absurd both.1 some⟩
  · next succeeded =>
    have none := Option.not_isSome_iff_eq_none.1 succeeded
    exact ⟨fun both => ⟨none, by omega⟩, fun both => ⟨by omega, by omega⟩⟩

theorem request_eq : toSize (size + (if -1 < format.returns (cap - size) then
    toInt (format.returns (cap - size) + 1) else toInt (2 * (cap - size : Nat))) + 1) =
      request format size cap := by
  rw [Formatting.returns, request]
  split
  · rw [if_neg (by decide)]
  · rw [if_pos (by omega)]

namespace Keeps

variable {tail : Bytes} (keeps : Keeps buf content tail)
include keeps

/-- One turn of the loop, with the put pointer inside of the block. -/
theorem turn : buf.vprintfTurn heap format content.length =
    let attempt := buf.store content.length (format.stores (buf.cap - content.length))
    if Fits format (buf.cap - content.length) then
      (attempt.pbump format.text.length, some (format.text.length : Int))
    else
      let grown := attempt.reserve heap (request format content.length buf.cap)
      (grown.1, if grown.2 ≠ 0 then some (-1) else none) := by
  rw [MyBuf.vprintfTurn]
  simp only [MyBuf.vsnprintf, keeps.room.1, keeps.room.2]
  by_cases fits : Fits format (buf.cap - content.length)
  · have returned : format.returns (buf.cap - content.length) = format.text.length := by
      rw [Formatting.returns, fits.1]
      rfl
    rw [if_pos (returns_iff.2 fits), if_pos fits, returned]
  · rw [if_neg fun both => fits (returns_iff.1 both), if_neg fits, request_eq, ite_reserve]

/-- The attempt has the text, and its terminator in the tail. -/
theorem turn_fits (fits : Fits format (buf.cap - content.length)) :
    buf.vprintfTurn heap format content.length =
        ((buf.store content.length (format.text ++ [0])).pbump format.text.length,
          some (format.text.length : Int)) ∧
      Keeps ((buf.store content.length (format.text ++ [0])).pbump format.text.length)
        (content ++ format.text) ([0] ++ tail.drop (format.text.length + 1)) := by
  have stored : format.stores (buf.cap - content.length) = format.text ++ [0] := by
    rw [Formatting.stores, fits.1]
    exact terminated_eq fits.2
  have attempt := keeps.attempt format
  rw [stored, List.append_assoc, List.length_append] at attempt
  refine ⟨?_, attempt.pbump⟩
  simp only [keeps.turn, if_pos fits, stored]

theorem turn_grows (lacks : ¬ Fits format (buf.cap - content.length))
    (granted : Granted heap buf.calls (request format content.length buf.cap)) :
    ∃ next, buf.vprintfTurn heap format content.length = (next, none) ∧
      Grown buf next content (request format content.length buf.cap) := by
  obtain ⟨larger, -⟩ := request_bounds lacks keeps.content_le keeps.bounded
  obtain ⟨next, reserved, grown⟩ := (keeps.attempt format).reserve_granted larger granted
  refine ⟨next, ?_, grown.holds, grown.cap, grown.calls, grown.refusals, grown.allocated⟩
  simp only [keeps.turn, if_neg lacks, reserved, ne_eq, not_true_eq_false, if_false]

theorem turn_refused (lacks : ¬ Fits format (buf.cap - content.length))
    (refused : ¬ Granted heap buf.calls (request format content.length buf.cap)) :
    ∃ next, buf.vprintfTurn heap format content.length = (next, some (-1)) ∧
      Refused (buf.store content.length (format.stores (buf.cap - content.length))) next := by
  obtain ⟨larger, small⟩ := request_bounds lacks keeps.content_le keeps.bounded
  have full : ¬ Room heap (buf.store content.length (format.stores (buf.cap - content.length)))
      (request format content.length buf.cap) := not_or.2 ⟨Nat.not_le.2 larger, refused⟩
  obtain ⟨next, code, reserved, failed, unchanged⟩ := reserve_refused small full
  refine ⟨next, ?_, unchanged⟩
  simp only [keeps.turn, if_neg lacks, reserved, if_pos failed]

end Keeps

theorem Holds.printed (holds : Holds buf content) (fits : Fits format (buf.cap - content.length)) :
    Printed buf ((buf.store content.length (format.text ++ [0])).pbump format.text.length) content
      format.text := by
  have printed := (@Keeps.turn_fits (fun _ => none) _ _ _ _ holds fits).2
  rw [drop_zeros] at printed
  refine ⟨@Keeps.holds _ _ (_ + 1) printed, ?_, rfl⟩
  have room := fits.2
  change content.length + format.text.length < buf.cap
  omega

theorem Holds.truncated {next : MyBuf} (holds : Holds buf content)
    (refused : Refused (buf.store content.length (format.stores (buf.cap - content.length))) next) :
    Truncated buf next content format buf.cap := by
  have attempt := Keeps.attempt holds format
  rw [drop_zeros] at attempt
  refine ⟨refused.untouched.keeps attempt, refused.untouched.cap, refused.refusals, ?_⟩
  intro _ null
  rw [refused.untouched.base]
  exact Base.update_eq_null.2 null

/-- The loop ends, with the whole text or at a capacity that it cannot go beyond. -/
theorem Holds.vprintfLoop (holds : Holds buf content)
    (enough : maxSize / minSize - buf.cap / minSize < fuel) :
    ∃ next n, MyBuf.vprintfLoop heap format content.length fuel buf = some (next, n) ∧
      ((Printed buf next content format.text ∧
          ¬ ∃ last, Stops heap format content.length buf.calls buf.cap last) ∨
        ∃ last, Stops heap format content.length buf.calls buf.cap last ∧
          Truncated buf next content format last) := by
  induction fuel generalizing buf with
  | zero => exact absurd enough (Nat.not_lt_zero _)
  | succ fuel ih =>
      by_cases fits : Fits format (buf.cap - content.length)
      · obtain ⟨turned, -⟩ := Keeps.turn_fits holds fits
        refine ⟨_, _, by rw [vprintfLoop_succ, turned], .inl ⟨holds.printed fits, ?_⟩⟩
        exact fun ⟨_, stops⟩ => stops.lacks fits
      · obtain ⟨larger, small⟩ := request_bounds fits holds.length_le holds.bounded
        by_cases granted : Granted heap buf.calls (request format content.length buf.cap)
        · obtain ⟨between, turned, grown⟩ := Keeps.turn_grows holds fits granted
          have further : buf.cap / minSize < between.cap / minSize :=
            grown.cap ▸ div_lt_roundUp larger small
          have limit : between.cap / minSize ≤ maxSize / minSize :=
            Nat.div_le_div_right grown.holds.bounded
          obtain ⟨next, n, rest, outcome⟩ := ih grown.holds (by omega)
          rw [grown.calls, grown.cap] at outcome
          refine ⟨next, n, by rw [vprintfLoop_succ, turned]; exact rest, ?_⟩
          rcases outcome with ⟨printed, goes⟩ | ⟨last, stops, truncated⟩
          · refine .inl ⟨⟨printed.holds, printed.room, printed.refusals.trans grown.refusals⟩, ?_⟩
            rintro ⟨last, stops⟩
            cases stops with
            | here _ refused => exact refused granted
            | later _ _ stops => exact goes ⟨last, stops⟩
          · refine .inr ⟨last, .later fits granted stops, truncated.keeps, truncated.cap,
              truncated.refusals.trans (by rw [grown.refusals]), fun same => absurd same ?_⟩
            have rounded := le_roundUp small
            have inside := holds.length_le
            have beyond := stops.cap_le (by omega) (grown.cap ▸ grown.holds.bounded)
            omega
        · obtain ⟨next, turned, refused⟩ := Keeps.turn_refused holds fits granted
          refine ⟨next, -1, by rw [vprintfLoop_succ, turned], .inr ⟨buf.cap, ?_⟩⟩
          exact ⟨.here fits granted, holds.truncated refused⟩

theorem Holds.vprintf (holds : Holds buf content) (heap : Heap) (format : Formatting) :
    ∃ next n, buf.vprintf heap format = some (next, n) ∧
      ((Printed buf next content format.text ∧
          ¬ ∃ last, Stops heap format content.length buf.calls buf.cap last) ∨
        ∃ last, Stops heap format content.length buf.calls buf.cap last ∧
          Truncated buf next content format last) := by
  rw [MyBuf.vprintf, Keeps.size holds]
  refine holds.vprintfLoop ?_
  have limit := Nat.sub_le (maxSize / minSize) (buf.cap / minSize)
  simp only [MyBuf.turns]
  omega

end Nexer.StringBuffer

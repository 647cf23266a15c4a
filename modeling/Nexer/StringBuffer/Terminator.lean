import Nexer.StringBuffer.Refinement

/-!
# The contents as a C string

`Write`, `Printf` and a growing `put` leave at least one byte behind the contents.  A `put` before
the end pointer, `Resize` and `Load` do not.
-/

namespace Nexer.StringBuffer

open Nexer.Transition

/-- Once there is a block, a NUL byte of it stands behind the contents. -/
def Terminated (buf : MyBuf) : Prop :=
  buf.base ≠ .null → buf.size < buf.cap ∧ buf.base.bytes[buf.size]? = some 0

/-- This size ends before the capacity: before the one there is, or before the one that a growth to
exactly this size obtains. -/
def EndsBefore (heap : Heap) (buf : MyBuf) (n : Nat) : Prop :=
  n < buf.cap ∨ (buf.cap < n ∧ Granted heap buf.calls n ∧ ¬ minSize ∣ n)

/-- A growth of `Printf` is not refused, or the attempt before left only zeros. -/
def LeavesZeros (heap : Heap) (buf : MyBuf) (format : Formatting) : Prop :=
  ∀ last, Stops heap format buf.size buf.calls buf.cap last →
    ∀ byte ∈ format.stores (last - buf.size), byte = 0

/-- The calls that the interface allows; a file is loaded as a whole. -/
def Op.Allowed (buf : MyBuf) : Op → Prop
  | .consume n => n.toNat ≤ buf.size
  | .load (some file) => file.got.length = file.length
  | _ => True

/-- The sizes that the operation leads to leave room for the NUL. -/
def Op.Terminates (heap : Heap) (buf : MyBuf) : Op → Prop
  | .sputc _ => EndsBefore heap buf (buf.size + 1)
  | .printf format => LeavesZeros heap buf format
  | .resize newSize => newSize.toNat ≤ buf.size ∨ EndsBefore heap buf newSize.toNat
  | .reserve n => buf.cap - buf.size < n.toNat → buf.cap < moreCap buf n.toNat →
      roundUp (moreCap buf n.toNat) ≠ 0
  | .load (some file) => file.length = 0 ∨ EndsBefore heap buf file.length
  | _ => True

/-- There is no block yet, or the contents end before its capacity. -/
def Good (buf : MyBuf) : Prop :=
  ∃ content, Holds buf content ∧ (buf.base = .null ∨ content.length < buf.cap)

variable {heap : Heap} {buf next : MyBuf} {content : Bytes} {op : Op} {n : Nat}

theorem Good.terminated (good : Good buf) : Terminated buf := by
  obtain ⟨content, holds, ends⟩ := good
  intro block
  have inside : buf.size < buf.cap := by
    rw [Keeps.size holds]
    exact ends.resolve_left block
  exact ⟨inside, holds.refines.2.2 _ (Nat.le_refl _) inside⟩

theorem EndsBefore.room (ends : EndsBefore heap buf n) : Room heap buf n :=
  ends.imp Nat.le_of_lt fun grows => grows.2.1

theorem EndsBefore.lt (ends : EndsBefore heap buf n) (yields : Yields buf next content n) :
    n < next.cap := by
  rw [yields.cap]
  rcases ends with less | ⟨grows, granted, apart⟩
  · rwa [if_neg (Nat.not_lt.2 (Nat.le_of_lt less))]
  · rw [if_pos grows]
    refine Nat.lt_of_le_of_ne (le_roundUp granted.1) fun same => apart ?_
    rw [same, roundUp]
    exact Nat.dvd_mul_left _ _

/-- What does not grow the contents keeps what stands behind them. -/
theorem Yields.good_of_le (yields : Yields buf next content 0) {before : Bytes}
    (ends : buf.base = .null ∨ before.length < buf.cap) (less : content.length ≤ before.length) :
    Good next := by
  refine ⟨content, yields.holds, ends.imp (yields.null (Nat.zero_le _)) fun inside => ?_⟩
  rw [yields.cap, if_neg (Nat.not_lt_zero _)]
  exact Nat.lt_of_le_of_lt less inside

theorem Refused.good (refused : Refused buf next) (good : Good buf) : Good next := by
  obtain ⟨content, holds, ends⟩ := good
  refine ⟨content, refused.holds holds, ?_⟩
  rwa [refused.untouched.base, refused.untouched.cap]

/-- `Write` needs no condition. -/
theorem Good.write (good : Good buf) {new : Bytes} (short : new.length < 2 ^ 63) :
    Good (buf.write heap new).1 := by
  obtain ⟨content, holds, ends⟩ := good
  rcases holds.write_cases heap short with yields | refused
  · refine ⟨_, yields.holds, .inr ?_⟩
    rw [List.length_append]
    exact yields.room
  · exact refused.good ⟨content, holds, ends⟩

theorem zeros_of_all {bytes : Bytes} (all : ∀ byte ∈ bytes, byte = 0) :
    bytes = zeros bytes.length :=
  List.eq_replicate_iff.2 ⟨rfl, all⟩

/-- What a refused `Printf` leaves is part of the zero tail. -/
theorem Truncated.holds {format : Formatting} {last : Nat}
    (truncated : Truncated buf next content format last)
    (all : ∀ byte ∈ format.stores (last - content.length), byte = 0) : Holds next content := by
  have keeps := truncated.keeps
  rw [zeros_of_all all, zeros_append] at keeps
  exact keeps.holds

theorem Good.printf (good : Good buf) {format : Formatting} (leaves : LeavesZeros heap buf format) :
    ∃ next n, buf.vprintf heap format = some (next, n) ∧ Good next := by
  obtain ⟨content, holds, ends⟩ := good
  rw [LeavesZeros, Keeps.size holds] at leaves
  obtain ⟨next, n, ran, ⟨printed, -⟩ | ⟨last, stops, truncated⟩⟩ :=
    holds.vprintf heap format
  · refine ⟨next, n, ran, _, printed.holds, .inr ?_⟩
    rw [List.length_append]
    exact printed.room
  · refine ⟨next, n, ran, content, truncated.holds (leaves last stops), ?_⟩
    have inside := holds.length_le
    rw [truncated.cap]
    rcases Nat.eq_or_lt_of_le (stops.cap_le inside holds.bounded) with same | grown
    · exact ends.imp (truncated.null same.symm) fun less => same ▸ less
    · exact .inr (Nat.lt_of_le_of_lt inside grown)

theorem Good.reserveMore (good : Good buf)
    (rounds : buf.cap - buf.size < n → buf.cap < moreCap buf n → roundUp (moreCap buf n) ≠ 0) :
    Good (buf.reserveMore heap n).1 := by
  obtain ⟨content, holds, ends⟩ := good
  have limit : moreCap buf n < sizeMax := Nat.mod_lt _ (by decide)
  rw [holds.reserveMore_eq]
  split
  · next lacks =>
    rw [← Keeps.size holds] at lacks
    rcases Nat.lt_or_ge buf.cap (moreCap buf n) with grows | enough
    · have positive := rounds lacks grows
      have small : moreCap buf n + minSize ≤ sizeMax :=
        Nat.not_lt.1 fun wraps => positive (roundUp_wraps limit wraps)
      have larger := le_roundUp small
      by_cases room : Room heap buf (moreCap buf n)
      · obtain ⟨next, reserved, yields⟩ := holds.reserve room
        rw [reserved]
        exact ⟨content, yields.holds,
          .inr (Nat.lt_of_lt_of_le (Nat.lt_of_le_of_lt holds.length_le grows) yields.room)⟩
      · obtain ⟨next, code, reserved, -, refused⟩ := reserve_refused small room
        rw [reserved]
        exact refused.good ⟨content, holds, ends⟩
    · rw [reserve_eq enough]
      exact ⟨content, holds, ends⟩
  · exact ⟨content, holds, ends⟩

/-- One step of an operation that leaves room for the NUL. -/
theorem Good.apply (good : Good buf) (allowed : op.Allowed buf)
    (terminates : op.Terminates heap buf) : ∃ next, op.apply heap buf = some next ∧ Good next := by
  obtain ⟨content, holds, ends⟩ := good
  have size := Keeps.size holds
  cases op with
  | write s n => exact ⟨_, rfl, Good.write ⟨content, holds, ends⟩ (written_length s n)⟩
  | writeChar ch =>
      exact ⟨_, rfl, Good.write ⟨content, holds, ends⟩ (short_singleton _)⟩
  | sputn s => exact ⟨_, rfl, Good.write ⟨content, holds, ends⟩ s.bounded⟩
  | sputc c =>
      rw [Op.Terminates, size] at terminates
      have yields : Yields buf (buf.sputc heap c) (content ++ [c]) (content.length + 1) := by
        rcases Nat.lt_or_eq_of_le holds.length_le with room | full
        · exact holds.sputc c room
        · refine holds.sputc_overflow c full ?_
          exact full ▸ terminates.room.resolve_left (by omega)
      refine ⟨_, rfl, _, yields.holds, .inr ?_⟩
      rw [List.length_append]
      exact terminates.lt yields
  | printf format =>
      obtain ⟨next, n, ran, good⟩ := Good.printf ⟨content, holds, ends⟩ terminates
      exact ⟨next, apply_printf ran, good⟩
  | consume n =>
      rw [Op.Allowed, size] at allowed
      refine ⟨_, rfl, (holds.consume allowed).good_of_le ends ?_⟩
      rw [List.length_drop]
      exact Nat.sub_le _ _
  | resize n =>
      rw [Op.Terminates, size] at terminates
      rcases terminates with less | before
      · have enough := Nat.le_trans less holds.length_le
        refine ⟨_, rfl, ((holds.resize (.inl enough)).within enough).good_of_le ends ?_⟩
        rwa [resizedTo_length]
      · have yields := holds.resize before.room
        refine ⟨_, rfl, _, yields.holds, .inr ?_⟩
        rw [resizedTo_length]
        exact before.lt yields
  | reserve n =>
      exact ⟨_, rfl, Good.reserveMore ⟨content, holds, ends⟩ terminates⟩
  | clear => exact ⟨_, rfl, holds.clear.good_of_le ends (Nat.zero_le _)⟩
  | load file =>
      cases file with
      | none => exact ⟨_, rfl, content, holds, ends⟩
      | some file =>
          rcases terminates with empty | before
          · have enough : file.length ≤ buf.cap := empty ▸ Nat.zero_le _
            refine ⟨_, rfl, ((holds.load allowed (.inl enough)).within enough).good_of_le ends ?_⟩
            rw [allowed, empty]
            exact Nat.zero_le _
          · have yields := holds.load allowed before.room
            refine ⟨_, rfl, _, yields.holds, .inr ?_⟩
            rw [allowed]
            exact before.lt yields

variable {past : List Op}

/-- The guard of the runs in which every operation leaves room for the NUL. -/
def Terminating (heap : Heap) (buf : MyBuf) (op : Op) : Prop :=
  op.Allowed buf ∧ op.Terminates heap buf

theorem good_initial : Good {} := ⟨[], holds_initial, .inl rfl⟩

theorem good_of_reaches (run : (step heap).Reaches (Terminating heap) {} buf past) : Good buf := by
  refine run.invariant (fun buf _ => Good buf) good_initial ?_
  intro buf next past out op _ good terminating moved
  obtain ⟨after, applied, kept⟩ := good.apply terminating.1 terminating.2
  rw [step, applied] at moved
  obtain ⟨rfl, rfl⟩ := Prod.mk.inj (Option.some.inj moved)
  exact kept

/-- In every run whose operations leave room for the NUL the contents are a C string, and every
operation returns. -/
theorem terminated_of_reaches (run : (step heap).Reaches (Terminating heap) {} buf past) :
    Terminated buf ∧ ∀ op, Terminating heap buf op → (step heap buf op).isSome := by
  have good := good_of_reaches run
  refine ⟨good.terminated, fun op terminating => ?_⟩
  obtain ⟨next, applied, -⟩ := good.apply terminating.1 terminating.2
  rw [step, applied]
  rfl

theorem terminated_of_reaches_put : ∃ buf, (step plenty).Reaches (Terminating plenty) {} buf
    [.sputc 97, .clear, .writeChar 98] ∧ Terminated buf := by
  have put : Terminating plenty {} (.sputc 97) := ⟨trivial, .inr (by decide)⟩
  have clear : Terminating plenty (MyBuf.sputc plenty {} 97) .clear := ⟨trivial, trivial⟩
  have write : Terminating plenty (MyBuf.sputc plenty {} 97).clear (.writeChar 98) :=
    ⟨trivial, trivial⟩
  have run : (step plenty).Reaches (Terminating plenty) {} _ _ :=
    ((Machine.Reaches.start.next put rfl).next clear rfl).next write rfl
  exact ⟨_, run, (terminated_of_reaches run).1⟩

/-- `Resize` to a multiple of the block size leaves no byte behind the contents. -/
theorem terminated_of_reaches_resize : ¬ ∀ (heap : Heap) (buf : MyBuf) (past : List Op),
    (step heap).Reaches (fun buf op => op.Allowed buf) {} buf past → Terminated buf := by
  intro claim
  have granted : Granted plenty 0 512 := by decide
  have room : Room plenty {} 512 := .inr granted
  have yields := holds_initial.resize room
  have allowed : Op.Allowed {} (.resize 512) := trivial
  have run : (step plenty).Reaches (fun buf op => op.Allowed buf) {}
      (MyBuf.resize plenty {} 512) ([] ++ [.resize 512]) :=
    Machine.Reaches.start.next allowed rfl
  have cap : (MyBuf.resize plenty {} 512).cap = 512 := yields.cap
  have size : (MyBuf.resize plenty {} 512).size = 512 := by
    rw [Keeps.size yields.holds, resizedTo_length]
  have block : (MyBuf.resize plenty {} 512).base ≠ .null := fun null => by
    have none := yields.holds.null null
    rw [cap] at none
    cases none
  have less := (claim plenty _ _ run block).1
  rw [cap, size] at less
  exact absurd less (Nat.lt_irrefl _)

end Nexer.StringBuffer

import Nexer.StringBuffer.Terminator

/-!
# A growth that fails

`Write` and `Reserve` pass the failure on.  `overflow` and `Resize` do not look at it, and `Printf`
has already stored a part of its text.
-/

namespace Nexer.StringBuffer

open Nexer.Transition

/-- The operations that may grow the block, apart from `Load`. -/
def Op.Grows : Op → Prop
  | .consume _ | .clear | .load _ => False
  | _ => True

/-- A call of `Reserve` fails in the operation. -/
def Op.Fails (heap : Heap) (buf : MyBuf) (op : Op) : Prop :=
  ∃ next, op.apply heap buf = some next ∧ buf.refusals < next.refusals

/-- A `put` or a file finds room, a refused `Printf` has left only zeros, a refused `Resize` comes
to the old size as an `int`, and `Reserve` does not free the block. -/
def Op.Spares (heap : Heap) (buf : MyBuf) : Op → Prop
  | .sputc _ => Room heap buf (buf.size + 1)
  | .printf format => LeavesZeros heap buf format
  | .consume n => n.toNat ≤ buf.size
  | .resize newSize => Room heap buf newSize.toNat ∨ toInt newSize.toNat = buf.size
  | .reserve n => Keeping buf n.toNat
  | .load (some file) => file.got.length = file.length ∧ Room heap buf file.length
  | _ => True

/-- The operation returns, and the buffer has these contents after it. -/
def Leaves (heap : Heap) (buf : MyBuf) (op : Op) (content : Bytes) : Prop :=
  ∃ next, op.apply heap buf = some next ∧ Holds next content

variable {heap : Heap} {buf next : MyBuf} {content : Bytes} {op : Op} {n : Nat}

theorem Op.Fails.lt (fails : op.Fails heap buf) (applied : op.apply heap buf = some next) :
    buf.refusals < next.refusals := by
  obtain ⟨other, same, more⟩ := fails
  obtain rfl := Option.some.inj (same.symm.trans applied)
  exact more

theorem leaves_iff (applied : op.apply heap buf = some next) :
    Leaves heap buf op content ↔ Holds next content := by
  refine ⟨fun ⟨other, same, holds⟩ => ?_, fun holds => ⟨next, applied, holds⟩⟩
  obtain rfl := Option.some.inj (same.symm.trans applied)
  exact holds

/-- A failed `Write` has no effect. -/
theorem Holds.write_fails (holds : Holds buf content) {new : Bytes} (short : new.length < 2 ^ 63)
    (fails : buf.refusals < (buf.write heap new).1.refusals) : Holds (buf.write heap new).1 content := by
  rcases holds.write_cases heap short with yields | refused
  · rw [yields.refusals] at fails
    exact absurd fails (Nat.lt_irrefl _)
  · exact refused.holds holds

/-- A failed `put` stores its character behind the block. -/
theorem Holds.sputc_fails (holds : Holds buf content) (c : UInt8)
    (fails : buf.refusals < (buf.sputc heap c).refusals) :
    ¬ Room heap buf (content.length + 1) ∧ (buf.sputc heap c).stray ≠ [] := by
  have absent : ∀ newCap, ¬ Yields buf (buf.sputc heap c) (content ++ [c]) newCap := by
    intro newCap yields
    rw [yields.refusals] at fails
    exact absurd fails (Nat.lt_irrefl _)
  have full := Nat.le_antisymm holds.length_le
    (Nat.not_lt.1 fun room => absent _ (holds.sputc c room))
  have refused : ¬ Granted heap buf.calls (buf.cap + 1) := fun granted =>
    absent _ (holds.sputc_overflow c full granted)
  refine ⟨?_, ?_⟩
  · rw [full]
    exact not_or.2 ⟨Nat.not_succ_le_self _, refused⟩
  · rw [(holds.sputc_refused c full refused).1]
    exact List.cons_ne_nil _ _

/-- The bytes that a refused `Printf` has stored are not part of the zero tail. -/
theorem Truncated.holds_iff {format : Formatting} {last : Nat}
    (truncated : Truncated buf next content format last) :
    Holds next content ↔ ∀ byte ∈ format.stores (last - content.length), byte = 0 := by
  refine ⟨fun holds byte stored => ?_, truncated.holds⟩
  have tails := List.append_cancel_left (holds.bytes.symm.trans truncated.keeps.bytes)
  have member : byte ∈ zeros (next.cap - content.length) := by
    rw [tails]
    exact List.mem_append_left _ stored
  exact List.eq_of_mem_replicate member

theorem toInt_wraps (bounded : n < sizeMax) (wraps : sizeMax < n + minSize) : toInt n < 0 := by
  have cases := toInt_eq n
  simp only [sizeMax, minSize] at *
  omega

theorem not_holds_of_freed (freed : next.base = .freed) {put : Int} :
    ¬ Holds (next.setp.pbump put) content :=
  fun after => after.alive freed

/-- A growth that would free the block, because it is rounded to no bytes, does so. -/
theorem Holds.reserve_freed (holds : Holds buf content) (heap : Heap) (grows : buf.cap < n)
    (frees : ¬ Asks buf n) :
    roundUp n = 0 ∧ ∃ next code, buf.reserve heap n = (next, code) ∧ next.base = .freed := by
  obtain ⟨allocated, wraps⟩ := not_or.1 frees
  have wraps := Decidable.not_not.1 wraps
  obtain ⟨bytes, block⟩ : ∃ bytes, buf.base = .block bytes := by
    cases base : buf.base with
    | null => exact absurd base allocated
    | block bytes => exact ⟨bytes, rfl⟩
    | freed => exact absurd base holds.alive
  obtain ⟨next, code, reserved, -, freed, -⟩ :=
    @StringBuffer.reserve_freed _ heap _ grows bytes block wraps
  exact ⟨wraps, next, code, reserved, freed⟩

/-- The put pointer is where `int` has it, and a request of no bytes has freed the block. -/
theorem Holds.resize_fails (holds : Holds buf content) (bounded : n < sizeMax)
    (fails : buf.refusals < (buf.resize heap n).refusals) :
    Holds (buf.resize heap n) content ↔ Room heap buf n ∨ toInt n = buf.size := by
  have full : ¬ Room heap buf n := fun room => by
    rw [(holds.resize room).refusals] at fails
    exact Nat.lt_irrefl _ fails
  have grows : buf.cap < n := Nat.not_le.1 fun enough => full (.inl enough)
  have more : content.length ≤ n := Nat.le_of_lt (Nat.lt_of_le_of_lt holds.length_le grows)
  have shape := @Keeps.resize_eq heap _ _ n _ holds more
  rw [or_iff_right full, Keeps.size holds]
  by_cases asks : Asks buf n
  · rcases holds.reserve_cases heap bounded fun _ => asks with
      ⟨next, reserved, -, same, -⟩ | ⟨next, code, reserved, -, refused⟩
    · rw [shape, reserved] at fails
      simp only [MyBuf.pbump, MyBuf.setp, same, Nat.lt_irrefl] at fails
    · rw [shape, reserved]
      have kept := refused.holds holds
      refine ⟨fun after => ?_, fun same => ?_⟩
      · have put := after.put
        simpa [MyBuf.pbump, MyBuf.setp] using put
      · rwa [MyBuf.setp_pbump (kept.put.trans same.symm)]
  · obtain ⟨wraps, next, code, reserved, freed⟩ := holds.reserve_freed heap grows asks
    have negative : toInt n < 0 := by
      rcases Nat.lt_or_ge sizeMax (n + minSize) with wraps | small
      · exact toInt_wraps bounded wraps
      · have larger := le_roundUp small
        omega
    rw [shape, reserved]
    exact ⟨fun after => absurd after (not_holds_of_freed freed), fun same => by omega⟩

/-- A failed `Reserve` has no effect, unless it frees the block. -/
theorem Holds.reserveMore_iff (holds : Holds buf content) :
    Holds (buf.reserveMore heap n).1 content ↔ Keeping buf n := by
  refine ⟨fun after lacks grows => ?_, holds.reserveMore⟩
  by_contra frees
  obtain ⟨-, next, code, reserved, freed⟩ := holds.reserve_freed heap grows frees
  rw [Keeps.size holds] at lacks
  rw [holds.reserveMore_eq, if_pos lacks, reserved] at after
  exact after.alive freed

/-- What becomes of a sound buffer when the growth fails. -/
theorem Holds.leaves_iff (holds : Holds buf content) (grows : op.Grows)
    (fails : op.Fails heap buf) : Leaves heap buf op content ↔ op.Spares heap buf := by
  have size := Keeps.size holds
  cases op with
  | write s n =>
      have more := fails.lt rfl
      exact iff_of_true ⟨_, rfl, holds.write_fails (written_length s n) more⟩ trivial
  | writeChar ch =>
      have more := fails.lt rfl
      exact iff_of_true ⟨_, rfl, holds.write_fails (short_singleton _) more⟩ trivial
  | sputn s =>
      have more := fails.lt rfl
      exact iff_of_true ⟨_, rfl, holds.write_fails s.bounded more⟩ trivial
  | sputc c =>
      obtain ⟨full, outside⟩ := holds.sputc_fails c (fails.lt rfl)
      rw [StringBuffer.leaves_iff rfl, Op.Spares, size]
      exact iff_of_false (fun after => outside after.inside) full
  | printf format =>
      obtain ⟨next, n, ran, ⟨printed, -⟩ | ⟨last, stops, truncated⟩⟩ := holds.vprintf heap format
      · have applied := apply_printf ran
        have more := fails.lt applied
        rw [printed.refusals] at more
        exact absurd more (Nat.lt_irrefl _)
      · have applied := apply_printf ran
        rw [StringBuffer.leaves_iff applied, truncated.holds_iff, Op.Spares, LeavesZeros, size]
        refine ⟨fun zero other also => ?_, fun leaves => leaves last stops⟩
        rwa [← stops.unique also]
  | consume n => exact grows.elim
  | resize n =>
      rw [StringBuffer.leaves_iff rfl]
      exact holds.resize_fails n.toNat_lt (fails.lt rfl)
  | reserve n =>
      rw [StringBuffer.leaves_iff rfl]
      exact holds.reserveMore_iff
  | clear => exact grows.elim
  | load file => exact grows.elim

/-- One step that meets the condition. -/
theorem Holds.apply_spares (holds : Holds buf content) (spares : op.Spares heap buf) :
    ∃ next content, op.apply heap buf = some next ∧ Holds next content := by
  have size := Keeps.size holds
  have writes : ∀ new : Bytes, new.length < 2 ^ 63 →
      ∃ content, Holds (buf.write heap new).1 content := by
    intro new short
    rcases holds.write_cases heap short with yields | refused
    · exact ⟨_, yields.holds⟩
    · exact ⟨_, refused.holds holds⟩
  cases op with
  | write s n => exact ⟨_, (writes _ (written_length s n)).imp fun _ after => ⟨rfl, after⟩⟩
  | writeChar ch => exact ⟨_, (writes _ (short_singleton _)).imp fun _ after => ⟨rfl, after⟩⟩
  | sputn s => exact ⟨_, (writes _ s.bounded).imp fun _ after => ⟨rfl, after⟩⟩
  | sputc c =>
      rw [Op.Spares, size] at spares
      refine ⟨_, content ++ [c], rfl, ?_⟩
      rcases Nat.lt_or_eq_of_le holds.length_le with room | full
      · exact (holds.sputc c room).holds
      · exact (holds.sputc_overflow c full (full ▸ spares.resolve_left (by omega))).holds
  | printf format =>
      rw [Op.Spares, LeavesZeros, size] at spares
      obtain ⟨next, n, ran, ⟨printed, -⟩ | ⟨last, stops, truncated⟩⟩ := holds.vprintf heap format
      · exact ⟨next, _, apply_printf ran, printed.holds⟩
      · exact ⟨next, _, apply_printf ran, truncated.holds (spares last stops)⟩
  | consume n =>
      rw [Op.Spares, size] at spares
      exact ⟨_, _, rfl, (holds.consume spares).holds⟩
  | resize n =>
      by_cases room : Room heap buf n.toNat
      · exact ⟨_, _, rfl, (holds.resize room).holds⟩
      · have same := spares.resolve_left room
        have small : n.toNat + minSize ≤ sizeMax := Nat.not_lt.1 fun wraps => by
          have negative := toInt_wraps n.toNat_lt wraps
          omega
        obtain ⟨next, refused, shape⟩ := holds.resize_refused small room
        have kept := refused.holds holds
        refine ⟨_, content, rfl, ?_⟩
        rwa [shape, MyBuf.setp_pbump (kept.put.trans (size ▸ same.symm))]
  | reserve n => exact ⟨_, _, rfl, holds.reserveMore spares⟩
  | clear => exact ⟨_, _, rfl, holds.clear.holds⟩
  | load file =>
      cases file with
      | none => exact ⟨_, _, rfl, holds⟩
      | some file => exact ⟨_, _, rfl, (holds.load spares.1 spares.2).holds⟩

theorem holds_of_spares {past : List Op}
    (run : (step heap).Reaches (fun buf op => op.Spares heap buf) {} buf past) :
    ∃ content, Holds buf content := by
  refine run.invariant (fun buf _ => ∃ content, Holds buf content) ⟨[], holds_initial⟩ ?_
  intro buf next past out op _ holds spares moved
  obtain ⟨content, holds⟩ := holds
  obtain ⟨after, content, applied, kept⟩ := holds.apply_spares spares
  rw [step, applied] at moved
  obtain ⟨rfl, rfl⟩ := Prod.mk.inj (Option.some.inj moved)
  exact ⟨content, kept⟩

/-- A growth that fails leaves a sound buffer as it is exactly under the condition, and in runs that
meet the condition the size does not exceed the capacity and nothing outside of the block is
accessed. -/
theorem growth_failure (heap : Heap) :
    (∀ (buf : MyBuf) (content : Bytes) (op : Op), Holds buf content → op.Grows → op.Fails heap buf →
      (Leaves heap buf op content ↔ op.Spares heap buf)) ∧
    ∀ (buf : MyBuf) (past : List Op),
      (step heap).Reaches (fun buf op => op.Spares heap buf) {} buf past →
        buf.size ≤ buf.cap ∧ buf.stray = [] ∧
          ∀ op : Op, op.Spares heap buf → (step heap buf op).isSome := by
  refine ⟨fun buf content op holds grows fails => holds.leaves_iff grows fails, ?_⟩
  intro buf past run
  obtain ⟨content, holds⟩ := holds_of_spares run
  refine ⟨?_, holds.inside, fun op spares => ?_⟩
  · rw [Keeps.size holds]
    exact holds.length_le
  · obtain ⟨next, -, applied, -⟩ := holds.apply_spares spares
    rw [step, applied]
    rfl

/-- An allocator that succeeds once. -/
def single : Heap := fun call => if call = 0 then some fun _ => 170 else none

/-- A refused `Reserve` leaves the character that was put before. -/
theorem growth_failure_reserve : ∃ buf,
    (step single).Reaches (fun buf op => op.Spares single buf) {} buf [.sputc 97] ∧
      Op.Fails single buf (.reserve 600) ∧ Leaves single buf (.reserve 600) [97] ∧
        buf.size ≤ buf.cap := by
  have granted : Granted single 0 1 := by decide
  have put : Op.Spares single {} (.sputc 97) := .inr granted
  have run : (step single).Reaches (fun buf op => op.Spares single buf) {}
      (MyBuf.sputc single {} 97) ([] ++ [.sputc 97]) := Machine.Reaches.start.next put rfl
  have holds := (holds_initial.sputc_overflow 97 rfl granted).holds
  have fails : Op.Fails single (MyBuf.sputc single {} 97) (.reserve 600) := ⟨_, rfl, by decide⟩
  have spares : Op.Spares single (MyBuf.sputc single {} 97) (.reserve 600) :=
    fun _ _ => .inr (by decide)
  have grows : Op.Grows (.reserve 600) := trivial
  have failure := growth_failure single
  exact ⟨_, run, fails, (failure.1 _ _ _ holds grows fails).2 spares, (failure.2 _ _ run).1⟩

/-- A first `put` without memory stores its character at the null pointer. -/
theorem growth_failure_put : ¬ ∀ (heap : Heap) (buf : MyBuf) (content : Bytes) (op : Op),
    Holds buf content → op.Grows → op.Fails heap buf → Leaves heap buf op content := by
  intro claim
  have fails : Op.Fails (fun _ => none) {} (.sputc 97) := ⟨_, rfl, by decide⟩
  obtain ⟨next, applied, holds⟩ := claim (fun _ => none) {} [] (.sputc 97) holds_initial trivial fails
  obtain rfl := Option.some.inj applied
  have none := holds.inside
  exact absurd none (by decide)

end Nexer.StringBuffer

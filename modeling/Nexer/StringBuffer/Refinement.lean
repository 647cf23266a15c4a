import Nexer.StringBuffer.Printing

/-!
# A string buffer is a list of bytes
-/

namespace Nexer.StringBuffer

open Nexer.Transition

/-- The operation on a list of bytes. -/
def Op.onList (content : Bytes) : Op → Bytes
  | .write s n => content ++ written s n
  | .writeChar ch => content ++ [UInt8.ofInt ch]
  | .sputn s => content ++ s.bytes
  | .sputc c => content ++ [c]
  | .printf format => content ++ format.text
  | .consume n => content.drop n.toNat
  | .resize newSize => resizedTo newSize.toNat content
  | .reserve _ => content
  | .clear => []
  | .load (some file) => file.got
  | .load none => content

def listAfter (ops : List Op) : Bytes := ops.foldl Op.onList []

/-- `data()[0..size)` -/
def MyBuf.contents (buf : MyBuf) : Bytes := buf.base.bytes.take buf.size

/-- `Write` has a length, no attempt of `vsnprintf` fails, `Consume` takes what there is, and no
file is loaded. -/
def Op.Listed (buf : MyBuf) : Op → Prop
  | .write s n => n ≠ 0 ∧ n.toNat ≤ s.bytes.length
  | .printf format => ∀ room, format.fails room = none
  | .consume n => n.toNat ≤ buf.size
  | .load _ => False
  | _ => True

/-- The size stays below the limit. -/
def Claimed (buf : MyBuf) (op : Op) : Prop :=
  op.Listed buf ∧ (op.onList buf.contents).length < maxSize

/-- A growing `Printf` asks for one byte more than it needs, and `Reserve` does not free. -/
def Provident (buf : MyBuf) : Op → Prop
  | .printf format => buf.size + format.text.length < buf.cap ∨
      buf.size + format.text.length + 2 ≤ maxSize
  | .reserve n => Keeping buf n.toNat
  | _ => True

def Ordinary (buf : MyBuf) (op : Op) : Prop := Claimed buf op ∧ Provident buf op

variable {heap : Heap} {buf : MyBuf} {content : Bytes} {op : Op} {newCap : Nat}

theorem written_length (s : Source) (n : UInt64) : (written s n).length < 2 ^ 63 := by
  have bounded := s.bounded
  have shorter : (written s n).length ≤ s.bytes.length := by
    unfold written
    split
    · exact (List.takeWhile_prefix _).length_le
    · exact List.length_take_le' ..
  exact Nat.lt_of_le_of_lt shorter bounded

theorem Keeps.contents_eq {tail : Bytes} (keeps : Keeps buf content tail) :
    buf.contents = content := by
  rw [MyBuf.contents, keeps.size, keeps.bytes, List.take_left]

theorem Holds.contents (holds : Holds buf content) : buf.contents = content :=
  Keeps.contents_eq holds

theorem granted_of_granting (granting : ∀ call, (heap call).isSome) (calls : Nat)
    (small : newCap ≤ maxSize) : Granted heap calls newCap := by
  have limits : newCap + minSize ≤ sizeMax := by
    simp only [maxSize, minSize, sizeMax] at *
    omega
  refine ⟨limits, ?_, granting _⟩
  rw [roundUp_eq limits]
  simp only [maxSize, minSize] at *
  omega

/-- A text that needs two bytes less than the limit is printed. -/
theorem Holds.prints (holds : Holds buf content) (granting : ∀ call, (heap call).isSome)
    {format : Formatting} (works : ∀ room, format.fails room = none)
    (fits : content.length + format.text.length < buf.cap ∨
      content.length + format.text.length + 2 ≤ maxSize) {last : Nat} :
    ¬ Stops heap format content.length buf.calls buf.cap last := by
  intro stops
  have inside := holds.length_le
  have small : content.length + format.text.length + 2 ≤ maxSize := by
    refine fits.resolve_left fun enough => stops.lacks ⟨works _, ?_⟩
    omega
  have asked : request format content.length buf.cap = content.length + format.text.length + 2 := by
    simp only [request, works, Option.isSome_none, Bool.false_eq_true, if_false, maxSize] at *
    rw [show (format.text.length : Int) + 1 = (format.text.length + 1 : Nat) from rfl,
      toInt_natCast (by omega)]
    rw [show (content.length : Int) + (format.text.length + 1 : Nat) + 1 =
      (content.length + format.text.length + 2 : Nat) by omega]
    exact toSize_natCast (by simp only [sizeMax]; omega)
  have granted : ∀ calls, Granted heap calls (request format content.length buf.cap) := by
    intro calls
    rw [asked]
    exact granted_of_granting granting calls small
  cases stops with
  | here _ refused => exact refused (granted _)
  | later _ _ stops =>
      refine stops.lacks ⟨works _, ?_⟩
      have larger := le_roundUp (granted 0).1
      omega

theorem apply_printf {next : MyBuf} {format : Formatting} {n : Int}
    (ran : buf.vprintf heap format = some (next, n)) :
    Op.apply heap buf (.printf format) = some next := by
  rw [Op.apply, ran]
  rfl

/-- One step of the refinement. -/
theorem Holds.apply (holds : Holds buf content) (granting : ∀ call, (heap call).isSome)
    (ordinary : Ordinary buf op) :
    ∃ next, op.apply heap buf = some next ∧ Holds next (op.onList content) := by
  obtain ⟨⟨listed, below⟩, provident⟩ := ordinary
  rw [holds.contents] at below
  have size := Keeps.size holds
  have writes : ∀ new : Bytes, new.length < 2 ^ 63 → (content ++ new).length < maxSize →
      Holds (buf.write heap new).1 (content ++ new) := by
    intro new short less
    rw [List.length_append] at less
    obtain ⟨next, wrote, yields⟩ := holds.write short
      (.inr (granted_of_granting granting _ (Nat.succ_le_of_lt less)))
    rw [wrote]
    exact yields.holds
  cases op with
  | write s n => exact ⟨_, rfl, writes _ (written_length s n) below⟩
  | writeChar ch => exact ⟨_, rfl, writes _ (short_singleton _) below⟩
  | sputn s => exact ⟨_, rfl, writes _ s.bounded below⟩
  | sputc c =>
      refine ⟨_, rfl, ?_⟩
      rcases Nat.lt_or_eq_of_le holds.length_le with room | full
      · exact (holds.sputc c room).holds
      · refine (holds.sputc_overflow c full ?_).holds
        have less : buf.cap + 1 ≤ maxSize := by
          simp only [Op.onList, List.length_append, List.length_singleton] at below
          omega
        exact granted_of_granting granting _ less
  | printf format =>
      obtain ⟨next, n, ran, ⟨printed, -⟩ | ⟨last, stops, -⟩⟩ :=
        holds.vprintf heap format
      · exact ⟨next, apply_printf ran, printed.holds⟩
      · refine absurd stops (holds.prints granting listed ?_)
        rwa [Provident, size] at provident
  | consume n =>
      refine ⟨_, rfl, (holds.consume ?_).holds⟩
      rwa [Op.Listed, size] at listed
  | resize n =>
      rw [Op.onList, resizedTo_length] at below
      have granted := granted_of_granting granting buf.calls (Nat.le_of_lt below)
      exact ⟨_, rfl, (holds.resize (.inr granted)).holds⟩
  | reserve n => exact ⟨_, rfl, holds.reserveMore provident⟩
  | clear => exact ⟨_, rfl, holds.clear.holds⟩
  | load file => exact listed.elim

theorem holds_initial : Holds {} [] where
  bytes := rfl
  cap := rfl
  put := rfl
  alive := by simp
  bounded := Nat.zero_le _
  inside := rfl

variable {past : List Op}

theorem holds_of_reaches (granting : ∀ call, (heap call).isSome)
    (run : (step heap).Reaches Ordinary {} buf past) : Holds buf (listAfter past) := by
  refine run.invariant (fun buf past => Holds buf (listAfter past)) holds_initial ?_
  intro buf next past out op _ holds ordinary moved
  obtain ⟨after, applied, kept⟩ := holds.apply granting ordinary
  rw [step, applied] at moved
  obtain ⟨rfl, rfl⟩ := Prod.mk.inj (Option.some.inj moved)
  rwa [listAfter, List.foldl_append]

/-- The buffer has the bytes of the list, and zeros behind them. -/
def Refines (buf : MyBuf) (content : Bytes) : Prop :=
  buf.size = content.length ∧ buf.contents = content ∧
    ∀ i, buf.size ≤ i → i < buf.cap → buf.base.bytes[i]? = some 0

theorem Holds.refines (holds : Holds buf content) : Refines buf content := by
  refine ⟨Keeps.size holds, holds.contents, fun i behind inside => ?_⟩
  rw [Keeps.size holds] at behind
  rw [holds.bytes, List.getElem?_append_right behind, zeros, List.getElem?_replicate,
    if_pos (by omega)]

/-- In every run whose sizes stay below the limit the buffer is the list that the same operations
make, whatever `realloc` leaves in new memory, and every operation returns. -/
theorem refines_list (granting : ∀ call, (heap call).isSome)
    (run : (step heap).Reaches Ordinary {} buf past) :
    Refines buf (listAfter past) ∧ ∀ op, Ordinary buf op → (step heap buf op).isSome := by
  have holds := holds_of_reaches granting run
  refine ⟨holds.refines, fun op ordinary => ?_⟩
  obtain ⟨next, applied, -⟩ := holds.apply granting ordinary
  rw [step, applied]
  rfl

/-- An allocator that never fails and clears nothing. -/
def plenty : Heap := fun _ => some fun _ => 170

theorem refines_list_resized : ∃ buf, (step plenty).Reaches Ordinary {} buf
    [.sputc 97, .resize 3, .consume 1] ∧ Refines buf [0, 0] := by
  have granting : ∀ call, (plenty call).isSome := fun _ => rfl
  have put : Ordinary {} (.sputc 97) := ⟨⟨trivial, by decide⟩, trivial⟩
  have one : (step plenty).Reaches Ordinary {} _ _ := Machine.Reaches.start.next put rfl
  have here := holds_of_reaches granting one
  have resize : Ordinary _ (.resize 3) := ⟨⟨trivial, by rw [here.contents]; decide⟩, trivial⟩
  have two := one.next resize rfl
  have here := holds_of_reaches granting two
  have consume : Ordinary _ (.consume 1) :=
    ⟨⟨by rw [Op.Listed, Keeps.size here]; decide, by rw [here.contents]; decide⟩, trivial⟩
  have three := two.next consume rfl
  exact ⟨_, three, (refines_list granting three).1⟩

/-- A text that ends one byte below the limit. -/
def longText : Formatting where
  text := List.replicate (maxSize - 1) 97
  short := by
    rw [List.length_replicate]
    decide

/-- `Printf` refuses a text that `Write` would append. -/
theorem refines_list_longText : ¬ ∀ (heap : Heap) (buf : MyBuf) (past : List Op),
    (∀ call, (heap call).isSome) → (step heap).Reaches Claimed {} buf past →
      Refines buf (listAfter past) := by
  intro claim
  have length : longText.text.length = maxSize - 1 := List.length_replicate
  obtain ⟨next, n, ran, outcome⟩ := holds_initial.vprintf plenty longText
  have claimed : Claimed {} (.printf longText) := by
    refine ⟨fun _ => rfl, ?_⟩
    rw [Op.onList, holds_initial.contents, List.nil_append, length]
    decide
  have run : (step plenty).Reaches Claimed {} next ([] ++ [.printf longText]) := by
    refine Machine.Reaches.start.next claimed ?_
    rw [step, apply_printf ran]
    rfl
  have stops : Stops plenty longText ([] : Bytes).length 0 0 0 := by
    refine .here (fun fits => Nat.not_lt_zero _ fits.2) fun granted => ?_
    have asked : request longText ([] : Bytes).length 0 = maxSize + 1 := by
      simp only [request, length]
      decide
    rw [asked] at granted
    exact absurd granted.2.1 (by decide)
  have refines := (claim plenty next _ (fun _ => rfl) run).1
  have size : (listAfter ([] ++ [.printf longText])).length = maxSize - 1 := length
  rcases outcome with ⟨-, goes⟩ | ⟨last, -, truncated⟩
  · exact goes ⟨0, stops⟩
  · rw [truncated.keeps.size, size] at refines
    exact absurd refines (by decide)

end Nexer.StringBuffer

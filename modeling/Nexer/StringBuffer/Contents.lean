import Nexer.StringBuffer.State

/-!
# The contents of a string buffer

The block of a sound buffer is its contents with an unused part behind them, and the put pointer
stands between the two.
-/

namespace Nexer.StringBuffer

theorem roundUp_eq {newCap : Nat} (small : newCap + minSize ≤ sizeMax) :
    roundUp newCap = (newCap + (minSize - 1)) / minSize * minSize := by
  rw [roundUp, Nat.mod_eq_of_lt]
  simp only [minSize] at small ⊢
  omega

theorem le_roundUp {newCap : Nat} (small : newCap + minSize ≤ sizeMax) :
    newCap ≤ roundUp newCap := by
  rw [roundUp_eq small, minSize]
  omega

/-- A larger block has more units of `MIN_SIZE`. -/
theorem div_lt_roundUp {cap newCap : Nat} (grows : cap < newCap)
    (small : newCap + minSize ≤ sizeMax) : cap / minSize < roundUp newCap / minSize := by
  rw [roundUp_eq small, Nat.mul_div_cancel _ (by decide)]
  simp only [minSize]
  omega

/-- Only a request that reaches the end of the numbers is rounded to no bytes. -/
theorem roundUp_wraps {newCap : Nat} (bounded : newCap < sizeMax)
    (large : sizeMax < newCap + minSize) : roundUp newCap = 0 := by
  simp only [roundUp, minSize, sizeMax] at *
  omega

def zeros (length : Nat) : Bytes := List.replicate length 0

@[simp] theorem zeros_length {length : Nat} : (zeros length).length = length :=
  List.length_replicate

@[simp] theorem zeros_append {first second : Nat} :
    zeros first ++ zeros second = zeros (first + second) :=
  List.replicate_append_replicate

@[simp] theorem drop_zeros {count length : Nat} :
    (zeros length).drop count = zeros (length - count) :=
  List.drop_replicate

namespace Base

theorem update_bytes {base : Base} {start : Int} {new : Bytes} :
    (base.update (overlay start new)).bytes = overlay start new base.bytes := by
  cases base <;> rfl

theorem update_eq_freed {base : Base} {change : Bytes → Bytes} :
    base.update change = .freed ↔ base = .freed := by
  cases base <;> simp [update]

theorem update_eq_null {base : Base} {change : Bytes → Bytes} :
    base.update change = .null ↔ base = .null := by
  cases base <;> simp [update]

end Base

/-- The block has these contents, and this behind them; nothing outside of it was accessed. -/
structure Keeps (buf : MyBuf) (content tail : Bytes) : Prop where
  bytes : buf.base.bytes = content ++ tail
  cap : buf.cap = content.length + tail.length
  put : buf.put = content.length
  alive : buf.base ≠ .freed
  bounded : buf.cap ≤ maxSize
  inside : buf.stray = []

/-- The block has these contents, and the unused part is zero. -/
def Holds (buf : MyBuf) (content : Bytes) : Prop :=
  Keeps buf content (zeros (buf.cap - content.length))

theorem MyBuf.setp_eq {buf : MyBuf} (here : buf.put = 0) : buf.setp = buf := by
  simp only [setp, ← here]

theorem MyBuf.setp_pbump {buf : MyBuf} {put : Int} (here : buf.put = put) :
    buf.setp.pbump put = buf := by
  subst here
  simp only [setp, pbump, Int.zero_add]

/-- The block that `realloc` has returned. -/
def MyBuf.moved (buf : MyBuf) (bytes : Bytes) (size : Nat) : MyBuf :=
  { buf with base := .block bytes, cap := size, calls := buf.calls + 1 }

/-- What the operations change of the block did not change. -/
structure Untouched (buf next : MyBuf) : Prop where
  base : next.base = buf.base
  cap : next.cap = buf.cap
  put : next.put = buf.put
  stray : next.stray = buf.stray

theorem Untouched.keeps {buf next : MyBuf} {content tail : Bytes} (same : Untouched buf next)
    (keeps : Keeps buf content tail) : Keeps next content tail where
  bytes := same.base ▸ keeps.bytes
  cap := same.cap ▸ keeps.cap
  put := same.put ▸ keeps.put
  alive := same.base ▸ keeps.alive
  bounded := same.cap ▸ keeps.bounded
  inside := same.stray ▸ keeps.inside

namespace Keeps

variable {buf : MyBuf} {content tail new : Bytes} {heap : Heap}

theorem length_le (keeps : Keeps buf content tail) : content.length + tail.length ≤ maxSize :=
  keeps.cap ▸ keeps.bounded

theorem content_le (keeps : Keeps buf content tail) : content.length ≤ buf.cap :=
  keeps.cap ▸ Nat.le_add_right ..

theorem size (keeps : Keeps buf content tail) : buf.size = content.length := by
  have bounded := keeps.length_le
  rw [MyBuf.size, keeps.put]
  exact toSize_natCast (by simp only [sizeMax, maxSize] at *; omega)

theorem holds {length : Nat} (keeps : Keeps buf content (zeros length)) : Holds buf content := by
  have enough := keeps.cap
  rw [zeros_length] at enough
  rwa [Holds, enough, Nat.add_sub_cancel_left]

/-- What is stored behind the contents. -/
theorem store (keeps : Keeps buf content tail) (room : new.length ≤ tail.length) :
    Keeps (buf.store content.length new) content (new ++ tail.drop new.length) where
  bytes := by
    simp only [MyBuf.store, Base.update_bytes, keeps.bytes]
    exact overlay_append room
  cap := by
    simp only [List.length_append, List.length_drop, Nat.add_sub_cancel' room]
    exact keeps.cap
  put := keeps.put
  alive := fun freed => keeps.alive (Base.update_eq_freed.1 freed)
  bounded := keeps.bounded
  inside := by
    simp only [MyBuf.store, MyBuf.touch, keeps.bytes, keeps.inside,
      if_pos (inBlock_append room), List.append_nil]

/-- The put pointer goes over a part of what stands behind the contents. -/
theorem pbump {first rest : Bytes} (keeps : Keeps buf content (first ++ rest)) :
    Keeps (buf.pbump first.length) (content ++ first) rest where
  bytes := by rw [List.append_assoc]; exact keeps.bytes
  cap := by
    rw [List.length_append, Nat.add_assoc, ← List.length_append]
    exact keeps.cap
  put := by simp [MyBuf.pbump, keeps.put]
  alive := keeps.alive
  bounded := keeps.bounded
  inside := keeps.inside

/-- The bytes are stored, and the put pointer goes over them. -/
theorem append (keeps : Keeps buf content tail) (room : new.length ≤ tail.length) :
    Keeps ((buf.store content.length new).pbump new.length) (content ++ new)
      (tail.drop new.length) :=
  (keeps.store room).pbump

end Keeps

theorem Holds.append {buf : MyBuf} {content new : Bytes} (holds : Holds buf content)
    (room : content.length + new.length ≤ buf.cap) :
    Holds ((buf.store content.length new).pbump new.length) (content ++ new) := by
  have stored := @Keeps.append _ _ _ new holds (by rw [zeros_length]; omega)
  rw [drop_zeros] at stored
  exact stored.holds

/-- The next call of `realloc` gives `Reserve` this capacity. -/
def Granted (heap : Heap) (calls newCap : Nat) : Prop :=
  newCap + minSize ≤ sizeMax ∧ roundUp newCap ≤ maxSize ∧ (heap calls).isSome

instance (heap : Heap) (calls newCap : Nat) : Decidable (Granted heap calls newCap) :=
  inferInstanceAs (Decidable (newCap + minSize ≤ sizeMax ∧ roundUp newCap ≤ maxSize ∧
    (heap calls).isSome))

/-- The block has grown and keeps its contents; the rest is zero. -/
structure Grown (buf next : MyBuf) (content : Bytes) (newCap : Nat) : Prop where
  holds : Holds next content
  cap : next.cap = roundUp newCap
  calls : next.calls = buf.calls + 1
  refusals : next.refusals = buf.refusals
  allocated : next.base ≠ .null

/-- The block is not freed by a request of no bytes. -/
def Asks (buf : MyBuf) (newCap : Nat) : Prop :=
  buf.base = .null ∨ roundUp newCap ≠ 0

theorem Granted.asks {heap : Heap} {buf : MyBuf} {calls newCap : Nat}
    (granted : Granted heap calls newCap) (grows : buf.cap < newCap) : Asks buf newCap := by
  have larger := le_roundUp granted.1
  exact .inr (by omega)

/-- What `realloc` does when it can. -/
theorem Base.realloc_some {base : Base} {size : Nat} {rest : Nat → UInt8}
    (alive : base ≠ .freed) (asks : base = .null ∨ size ≠ 0) :
    base.realloc size (some rest) = (.block (resized size rest base.bytes), true) := by
  cases base with
  | null => rfl
  | block bytes =>
      have positive : size ≠ 0 := asks.resolve_left (by simp)
      exact if_neg positive
  | freed => exact absurd rfl alive

theorem Base.realloc_none {base : Base} {size : Nat} (asks : base = .null ∨ size ≠ 0) :
    base.realloc size none = (base, false) := by
  cases base with
  | null => rfl
  | block bytes =>
      have positive : size ≠ 0 := asks.resolve_left (by simp)
      exact if_neg positive
  | freed => rfl

namespace Keeps

variable {buf : MyBuf} {content tail : Bytes} {heap : Heap} {newCap : Nat}

/-- The old block is the first part of the new one. -/
theorem moved (keeps : Keeps buf content tail) {rest : Nat → UInt8} {size : Nat}
    (larger : buf.cap ≤ size) (bounded : size ≤ maxSize) :
    ∃ unused, Keeps (buf.moved (resized size rest buf.base.bytes) size) content unused := by
  have fits : (content ++ tail).length ≤ size := by
    rw [List.length_append, ← keeps.cap]
    exact larger
  have total := resized_length rest fits
  have bytes := resized_eq rest fits
  rw [List.append_assoc] at bytes
  rw [keeps.bytes, bytes]
  rw [bytes, List.length_append] at total
  exact ⟨_, ⟨rfl, total.symm, keeps.put, by simp [MyBuf.moved], bounded, keeps.inside⟩⟩

/-- The part of `Reserve` after the call of `realloc`. -/
theorem cleared (keeps : Keeps buf content tail) :
    Holds ((buf.zero (toInt buf.put) (toSize (buf.cap - toInt buf.put))).setp.pbump
      (toInt buf.put)) content := by
  have cap := keeps.cap
  have short := keeps.length_le
  have put : toInt buf.put = content.length := by
    rw [keeps.put]
    exact toInt_natCast (by simp only [maxSize] at short; omega)
  have length : toSize (buf.cap - toInt buf.put) = tail.length := by
    rw [put, show (buf.cap : Int) - content.length = tail.length by omega]
    exact toSize_natCast (by simp only [maxSize, sizeMax] at *; omega)
  rw [length, put]
  have stored := @store _ _ _ (zeros tail.length) keeps (by rw [zeros_length])
  rw [zeros_length, List.drop_length, List.append_nil] at stored
  rw [MyBuf.zero, ← zeros, MyBuf.setp_pbump stored.put]
  exact stored.holds

theorem reserve_some (keeps : Keeps buf content tail) (grows : buf.cap < newCap)
    (asks : Asks buf newCap) (larger : buf.cap ≤ roundUp newCap)
    (bounded : roundUp newCap ≤ maxSize) (some : (heap buf.calls).isSome) :
    ∃ next, buf.reserve heap newCap = (next, 0) ∧ Grown buf next content newCap := by
  obtain ⟨rest, answer⟩ := Option.isSome_iff_exists.1 some
  obtain ⟨unused, moved⟩ := @moved _ _ _ keeps rest _ larger bounded
  refine ⟨_, ?_, moved.cleared, rfl, rfl, rfl, by simp [MyBuf.moved, MyBuf.pbump, MyBuf.setp,
    MyBuf.zero, MyBuf.store, Base.update]⟩
  simp only [MyBuf.reserve, if_pos grows, if_pos bounded, answer,
    Base.realloc_some keeps.alive asks, if_true]
  rfl

theorem reserve_granted (keeps : Keeps buf content tail) (grows : buf.cap < newCap)
    (granted : Granted heap buf.calls newCap) :
    ∃ next, buf.reserve heap newCap = (next, 0) ∧ Grown buf next content newCap :=
  keeps.reserve_some grows (granted.asks grows)
    (Nat.le_trans (Nat.le_of_lt grows) (le_roundUp granted.1)) granted.2.1 granted.2.2

end Keeps

/-- `Reserve` has failed and the buffer is as before. -/
structure Refused (buf next : MyBuf) : Prop where
  untouched : Untouched buf next
  refusals : next.refusals = buf.refusals + 1

section Failures

variable {buf : MyBuf} {heap : Heap} {newCap : Nat}

theorem reserve_denied (grows : buf.cap < newCap) (asks : Asks buf newCap)
    (denied : ¬ (roundUp newCap ≤ maxSize ∧ (heap buf.calls).isSome)) :
    ∃ next code, buf.reserve heap newCap = (next, code) ∧ code ≠ 0 ∧ Refused buf next := by
  by_cases bounded : roundUp newCap ≤ maxSize
  · have none : heap buf.calls = none := by
      rw [← Option.not_isSome_iff_eq_none]
      exact fun some => denied ⟨bounded, some⟩
    refine ⟨{ buf with calls := buf.calls + 1, refusals := buf.refusals + 1 }, -1, ?_, by decide,
      ⟨rfl, rfl, rfl, rfl⟩, rfl⟩
    simp only [MyBuf.reserve, if_pos grows, if_pos bounded, none, Base.realloc_none asks,
      Bool.false_eq_true, if_false]
  · refine ⟨{ buf with refusals := buf.refusals + 1 }, -2, ?_, by decide, ⟨rfl, rfl, rfl, rfl⟩, rfl⟩
    simp only [MyBuf.reserve, if_pos grows, if_neg bounded]

/-- A request that is rounded to no bytes frees the block. -/
theorem reserve_freed (grows : buf.cap < newCap) {bytes : Bytes} (block : buf.base = .block bytes)
    (wraps : roundUp newCap = 0) :
    ∃ next code, buf.reserve heap newCap = (next, code) ∧ code ≠ 0 ∧ next.base = .freed ∧
      next.refusals = buf.refusals + 1 := by
  refine ⟨{ buf with base := .freed, calls := buf.calls + 1, refusals := buf.refusals + 1 }, -1, ?_,
    by decide, rfl, rfl⟩
  simp only [MyBuf.reserve, if_pos grows, wraps, Nat.zero_le, if_true, block, Base.realloc,
    Bool.false_eq_true, if_false]

end Failures

end Nexer.StringBuffer

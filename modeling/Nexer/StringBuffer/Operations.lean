import Nexer.StringBuffer.Contents

/-!
# What the operations make of the contents

Each operation on a sound buffer succeeds when `Reserve` has the room for it.  When it has not, it
depends on the operation what becomes of the buffer.
-/

namespace Nexer.StringBuffer

/-- `Reserve` has this capacity, or it can obtain it. -/
def Room (heap : Heap) (buf : MyBuf) (newCap : Nat) : Prop :=
  newCap ≤ buf.cap ∨ Granted heap buf.calls newCap

/-- The buffer has these contents now, in a block that was asked for this capacity. -/
structure Yields (buf next : MyBuf) (content : Bytes) (newCap : Nat) : Prop where
  holds : Holds next content
  room : newCap ≤ next.cap
  cap : next.cap = if buf.cap < newCap then roundUp newCap else buf.cap
  refusals : next.refusals = buf.refusals
  null : newCap ≤ buf.cap → buf.base = .null → next.base = .null

theorem Refused.holds {buf next : MyBuf} {content : Bytes} (refused : Refused buf next)
    (holds : Holds buf content) : Holds next content :=
  (refused.untouched.keeps holds).holds

variable {heap : Heap} {buf : MyBuf} {content new : Bytes} {newCap n : Nat}

theorem reserve_eq (enough : newCap ≤ buf.cap) : buf.reserve heap newCap = (buf, 0) :=
  if_neg (Nat.not_lt.2 enough)

/-- The callers that test the capacity by themselves need not do so. -/
theorem ite_reserve : (if buf.cap < newCap then buf.reserve heap newCap else (buf, 0)) =
    buf.reserve heap newCap := by
  split
  · rfl
  · next enough => exact (reserve_eq (Nat.not_lt.1 enough)).symm

theorem Holds.length_le (holds : Holds buf content) : content.length ≤ buf.cap := by
  have cap := holds.cap
  omega

theorem Holds.reserve (holds : Holds buf content) (room : Room heap buf newCap) :
    ∃ next, buf.reserve heap newCap = (next, 0) ∧ Yields buf next content newCap := by
  by_cases enough : newCap ≤ buf.cap
  · refine ⟨buf, reserve_eq enough, holds, enough, ?_, rfl, fun _ null => null⟩
    rw [if_neg (Nat.not_lt.2 enough)]
  · have granted := room.resolve_left enough
    obtain ⟨next, reserved, grown⟩ := Keeps.reserve_granted holds (Nat.not_le.1 enough) granted
    refine ⟨next, reserved, grown.holds, ?_, ?_, grown.refusals, fun less => absurd less enough⟩
    · rw [grown.cap]
      exact le_roundUp granted.1
    · rw [grown.cap, if_pos (Nat.not_le.1 enough)]

theorem reserve_refused (small : newCap + minSize ≤ sizeMax) (full : ¬ Room heap buf newCap) :
    ∃ next code, buf.reserve heap newCap = (next, code) ∧ code ≠ 0 ∧ Refused buf next := by
  have lacks := not_or.1 full
  have larger := le_roundUp small
  exact reserve_denied (Nat.not_le.1 lacks.1) (.inr (by omega)) fun both => lacks.2 ⟨small, both⟩

theorem Yields.append {next : MyBuf} (yields : Yields buf next content newCap)
    (enough : content.length + new.length ≤ newCap) :
    Yields buf ((next.store content.length new).pbump new.length) (content ++ new) newCap where
  holds := yields.holds.append (Nat.le_trans enough yields.room)
  room := yields.room
  cap := yields.cap
  refusals := yields.refusals
  null less null := Base.update_eq_null.2 (yields.null less null)

/-- The capacity that `Write` reserves. -/
theorem Holds.write_request (holds : Holds buf content) (short : new.length < 2 ^ 63) :
    (buf.size + new.length + 1) % sizeMax = content.length + new.length + 1 ∧
      content.length + new.length + 1 + minSize ≤ sizeMax := by
  have bounded := holds.bounded
  have length := holds.length_le
  have small : content.length + new.length + 1 + minSize ≤ sizeMax := by
    simp only [sizeMax, maxSize, minSize] at *
    omega
  refine ⟨?_, small⟩
  rw [Keeps.size holds, Nat.mod_eq_of_lt (by simp only [minSize] at small; omega)]

theorem Holds.write_eq (holds : Holds buf content) (short : new.length < 2 ^ 63) {next : MyBuf}
    {code : Int} (reserved : buf.reserve heap (content.length + new.length + 1) = (next, code)) :
    buf.write heap new =
      if code ≠ 0 then (next, -1)
      else ((next.store content.length new).pbump (toInt new.length), (new.length : Int)) := by
  simp only [MyBuf.write, (holds.write_request short).1]
  rw [ite_reserve, reserved, Keeps.size holds]

theorem Holds.write (holds : Holds buf content) (short : new.length < 2 ^ 63)
    (room : Room heap buf (content.length + new.length + 1)) :
    ∃ next, buf.write heap new = (next, (new.length : Int)) ∧
      Yields buf next (content ++ new) (content.length + new.length + 1) := by
  obtain ⟨next, reserved, yields⟩ := holds.reserve room
  have bounded := yields.holds.bounded
  have enough := yields.room
  refine ⟨_, ?_, yields.append (Nat.le_succ _)⟩
  rw [holds.write_eq short reserved, if_neg (by simp),
    toInt_natCast (by simp only [maxSize] at bounded; omega)]

theorem Holds.write_refused (holds : Holds buf content) (short : new.length < 2 ^ 63)
    (full : ¬ Room heap buf (content.length + new.length + 1)) :
    ∃ next, buf.write heap new = (next, -1) ∧ Refused buf next := by
  obtain ⟨next, code, reserved, failed, refused⟩ :=
    reserve_refused (holds.write_request short).2 full
  refine ⟨next, ?_, refused⟩
  rw [holds.write_eq short reserved, if_pos failed]

/-- A `Write` appends its bytes, or its growth is refused. -/
theorem Holds.write_cases (holds : Holds buf content) (heap : Heap)
    (short : new.length < 2 ^ 63) :
    Yields buf (buf.write heap new).1 (content ++ new) (content.length + new.length + 1) ∨
      Refused buf (buf.write heap new).1 := by
  by_cases room : Room heap buf (content.length + new.length + 1)
  · obtain ⟨next, wrote, yields⟩ := holds.write short room
    exact .inl (wrote ▸ yields)
  · obtain ⟨next, wrote, refused⟩ := holds.write_refused short room
    exact .inr (wrote ▸ refused)

theorem short_singleton (byte : UInt8) : [byte].length < 2 ^ 63 := by
  rw [List.length_singleton]
  decide

theorem ofInt_toNat (c : UInt8) : UInt8.ofInt c.toNat = c := by
  have small : ((c.toNat : Int) % 2 ^ 8).toNat = c.toNat := by
    have bound := c.toNat_lt
    omega
  rw [UInt8.ofInt, small, UInt8.ofNat_toNat]

theorem toNat_ne_eof (c : UInt8) : (c.toNat : Int) ≠ MyBuf.eof := by
  simp only [MyBuf.eof]
  omega

/-- A character is stored directly. -/
theorem Holds.sputc (holds : Holds buf content) (c : UInt8) (room : content.length < buf.cap) :
    Yields buf (buf.sputc heap c) (content ++ [c]) (content.length + 1) := by
  have put := holds.put
  have direct : buf.sputc heap c = (buf.store content.length [c]).pbump 1 := by
    rw [MyBuf.sputc, if_pos (by omega), put]
  rw [direct]
  exact ⟨holds.append (show content.length + [c].length ≤ _ from room), room, (if_neg (Nat.not_lt.2 room)).symm, rfl,
    fun _ null => Base.update_eq_null.2 null⟩

/-- A character is stored where the block ends. -/
theorem Holds.sputc_full (holds : Holds buf content) (c : UInt8) (full : content.length = buf.cap) :
    buf.sputc heap c =
      (((buf.reserve heap (buf.cap + 1)).1.store (buf.reserve heap (buf.cap + 1)).1.put [c]).pbump
        1) := by
  have put := holds.put
  have bounded := holds.bounded
  have request : (buf.cap + 1) % sizeMax = buf.cap + 1 :=
    Nat.mod_eq_of_lt (by simp only [sizeMax, maxSize] at *; omega)
  rw [MyBuf.sputc, if_neg (by omega), MyBuf.overflow, if_pos (toNat_ne_eof c), request, ofInt_toNat]

theorem Holds.sputc_overflow (holds : Holds buf content) (c : UInt8)
    (full : content.length = buf.cap) (granted : Granted heap buf.calls (buf.cap + 1)) :
    Yields buf (buf.sputc heap c) (content ++ [c]) (content.length + 1) := by
  obtain ⟨next, reserved, yields⟩ := holds.reserve (.inr granted)
  rw [holds.sputc_full c full, reserved, yields.holds.put]
  rw [← full] at yields
  exact yields.append (show content.length + [c].length ≤ _ from Nat.le_refl _)

/-- A character for which there is no room is stored behind the block. -/
theorem Holds.sputc_refused (holds : Holds buf content) (c : UInt8)
    (full : content.length = buf.cap) (refused : ¬ Granted heap buf.calls (buf.cap + 1)) :
    (buf.sputc heap c).stray = [((buf.cap : Int), 1)] ∧
      (buf.sputc heap c).refusals = buf.refusals + 1 := by
  have bounded := holds.bounded
  have small : buf.cap + 1 + minSize ≤ sizeMax := by simp only [sizeMax, maxSize, minSize] at *; omega
  obtain ⟨next, code, reserved, -, failed⟩ :=
    reserve_refused small (not_or.2 ⟨Nat.not_succ_le_self _, refused⟩)
  have after := failed.holds holds
  have cap := after.cap
  have outside : ¬ InBlock buf.cap 1 next.base.bytes.length := by
    have same := failed.untouched.cap
    rw [after.bytes, List.length_append]
    rintro (none | ⟨-, enough⟩)
    · cases none
    · omega
  rw [holds.sputc_full c full, reserved]
  simp only [MyBuf.pbump, MyBuf.store, MyBuf.touch, after.put, after.inside, List.length_singleton,
    if_neg outside, List.nil_append, full, failed.refusals, and_self]

theorem overlay_zeros {left middle tail : Bytes} :
    overlay left.length (zeros middle.length) (left ++ middle ++ tail) =
      left ++ (zeros middle.length ++ tail) := by
  rw [List.append_assoc]
  have stored := @overlay_append _ (zeros middle.length) left (middle ++ tail) (by simp)
  simpa using stored

/-- What a buffer is cut down to; the rest becomes zero. -/
theorem Holds.shrink (holds : Holds buf content) (less : n ≤ content.length) :
    Keeps ((buf.zero n (content.length - n)).setp.pbump n) (content.take n)
      (zeros (buf.cap - n)) := by
  have length : (content.take n).length = n := List.length_take_of_le less
  have gone : (content.drop n).length = content.length - n := List.length_drop
  have cap := holds.length_le
  have total := holds.cap
  rw [zeros_length] at total
  have old : buf.base.bytes = content.take n ++ content.drop n ++ zeros (buf.cap - content.length) := by
    rw [List.take_append_drop]
    exact holds.bytes
  exact
    { bytes := by
        have stored := @overlay_zeros (content.take n) (content.drop n)
          (zeros (buf.cap - content.length))
        rw [length, gone, zeros_append, ← old] at stored
        rw [show content.length - n + (buf.cap - content.length) = buf.cap - n by omega] at stored
        exact Base.update_bytes.trans stored
      cap := by
        rw [length, zeros_length]
        exact (Nat.add_sub_cancel' (Nat.le_trans less cap)).symm
      put := by simp [MyBuf.pbump, MyBuf.setp, length]
      alive := fun freed => holds.alive (Base.update_eq_freed.1 freed)
      bounded := holds.bounded
      inside := by
        have range : InBlock n (content.length - n) buf.base.bytes.length := by
          rw [holds.bytes, List.length_append, zeros_length]
          exact .inr ⟨Int.natCast_nonneg _, by omega⟩
        simp [MyBuf.pbump, MyBuf.setp, MyBuf.zero, MyBuf.store, MyBuf.touch, holds.inside, range] }

/-- The list that `Resize` makes of a list. -/
def resizedTo (n : Nat) (content : Bytes) : Bytes :=
  content.take n ++ zeros (n - content.length)

@[simp] theorem resizedTo_length : (resizedTo n content).length = n := by
  simp only [resizedTo, List.length_append, List.length_take, zeros_length]
  omega

/-- The put pointer moves over zeros. -/
theorem Holds.extend (holds : Holds buf content) (more : content.length ≤ n)
    (enough : n ≤ buf.cap) : Holds (buf.setp.pbump n) (resizedTo n content) := by
  have split : zeros (buf.cap - content.length) = zeros (n - content.length) ++ zeros (buf.cap - n) := by
    rw [zeros_append]
    congr 1
    omega
  have kept : Keeps buf content (zeros (n - content.length) ++ zeros (buf.cap - n)) := split ▸ holds
  have moved := kept.pbump
  have same : buf.pbump (zeros (n - content.length)).length = buf.setp.pbump n := by
    simp only [MyBuf.pbump, MyBuf.setp, holds.put, zeros_length]
    congr 1
    omega
  rw [same] at moved
  rw [resizedTo, List.take_of_length_le more]
  exact moved.holds

theorem Holds.toInt_eq (holds : Holds buf content) (enough : n ≤ buf.cap) : toInt n = n := by
  have bounded := holds.bounded
  exact toInt_natCast (by simp only [maxSize] at bounded; omega)

theorem Holds.resize_shrink (holds : Holds buf content) (heap : Heap) (less : n < content.length) :
    Yields buf (buf.resize heap n) (resizedTo n content) n := by
  have enough : n ≤ buf.cap := Nat.le_trans (Nat.le_of_lt less) holds.length_le
  have shape : buf.resize heap n = (buf.zero n (content.length - n)).setp.pbump n := by
    rw [MyBuf.resize, Keeps.size holds, holds.toInt_eq enough]
    exact congrArg (fun next => (MyBuf.setp next).pbump n) (if_pos less)
  rw [shape, resizedTo, Nat.sub_eq_zero_of_le (Nat.le_of_lt less)]
  refine ⟨?_, enough, (if_neg (Nat.not_lt.2 enough)).symm, rfl,
    fun _ null => Base.update_eq_null.2 null⟩
  simpa [zeros] using (holds.shrink (Nat.le_of_lt less)).holds

/-- What `Resize` does when it does not cut the contents down. -/
theorem Keeps.resize_eq {tail : Bytes} (keeps : Keeps buf content tail)
    (more : content.length ≤ n) :
    buf.resize heap n = (buf.reserve heap n).1.setp.pbump (toInt n) := by
  rw [MyBuf.resize, keeps.size, if_neg (Nat.not_lt.2 more), ← @ite_reserve heap buf n]
  split <;> rfl

theorem Holds.resize_extend (holds : Holds buf content) (more : content.length ≤ n)
    (room : Room heap buf n) : Yields buf (buf.resize heap n) (resizedTo n content) n := by
  obtain ⟨next, reserved, yields⟩ := holds.reserve room
  rw [Keeps.resize_eq holds more, reserved, yields.holds.toInt_eq yields.room]
  exact ⟨yields.holds.extend more yields.room, yields.room, yields.cap, yields.refusals,
    yields.null⟩

theorem Holds.resize (holds : Holds buf content) (room : Room heap buf n) :
    Yields buf (buf.resize heap n) (resizedTo n content) n := by
  rcases Nat.lt_or_ge n content.length with less | more
  · exact holds.resize_shrink heap less
  · exact holds.resize_extend more room

/-- The put pointer is moved although there is no room. -/
theorem Holds.resize_refused (holds : Holds buf content) (small : n + minSize ≤ sizeMax)
    (full : ¬ Room heap buf n) :
    ∃ next, Refused buf next ∧ buf.resize heap n = next.setp.pbump (toInt n) := by
  have larger : buf.cap < n := Nat.not_le.1 fun enough => full (.inl enough)
  have more : content.length ≤ n := Nat.le_of_lt (Nat.lt_of_le_of_lt holds.length_le larger)
  obtain ⟨next, code, reserved, -, refused⟩ := reserve_refused small full
  refine ⟨next, refused, ?_⟩
  rw [Keeps.resize_eq holds more, reserved]

/-- No more capacity was asked for than there was. -/
theorem Yields.within {next : MyBuf} (yields : Yields buf next content n) (enough : n ≤ buf.cap) :
    Yields buf next content 0 where
  holds := yields.holds
  room := Nat.zero_le _
  cap := by rw [yields.cap, if_neg (Nat.not_lt.2 enough), if_neg (Nat.not_lt_zero _)]
  refusals := yields.refusals
  null _ null := yields.null enough null

/-- The contents are moved to the front, with a part of them still behind. -/
theorem Holds.moveFront (holds : Holds buf content) (inside : n ≤ content.length) :
    Holds (((buf.touch n (content.length - n)).touch 0 (content.length - n)).store 0
      (content.drop n)) (content.drop n ++ content.drop (content.length - n)) := by
  have length : (content.drop n).length = content.length - n := List.length_drop
  have total := holds.cap
  have size : buf.base.bytes.length = buf.cap := by
    rw [holds.bytes, List.length_append, ← total]
  have within : ∀ start : Nat, start ≤ n →
      InBlock start (content.length - n) buf.base.bytes.length := by
    intro start before
    have enough := holds.length_le
    exact .inr ⟨Int.natCast_nonneg _, by omega⟩
  have source := within n (Nat.le_refl _)
  have target := within 0 (Nat.zero_le _)
  have stored : overlay 0 (content.drop n) buf.base.bytes =
      content.drop n ++ content.drop (content.length - n) ++
        zeros (buf.cap - content.length) := by
    rw [overlay_zero (by rw [length, size]; have enough := holds.length_le; omega), length,
      holds.bytes, List.drop_append_of_le_length (Nat.sub_le _ _), List.append_assoc]
  refine @Keeps.holds _ _ (buf.cap - content.length) ?_
  exact
    { bytes := Base.update_bytes.trans stored
      cap := by
        rw [zeros_length] at total ⊢
        simp only [List.length_append, List.length_drop]
        exact total.trans (by omega)
      put := by
        simp only [MyBuf.store, MyBuf.touch, holds.put, List.length_append, List.length_drop]
        omega
      alive := fun freed => holds.alive (Base.update_eq_freed.1 freed)
      bounded := holds.bounded
      inside := by
        simp only [MyBuf.store, MyBuf.touch, length, holds.inside, if_pos source,
          if_pos (show InBlock 0 _ _ from target), List.append_nil] }

theorem Holds.consume (holds : Holds buf content) (inside : n ≤ content.length) :
    Yields buf (buf.consume heap n) (content.drop n) 0 := by
  rcases Nat.eq_zero_or_pos n with rfl | positive
  · exact ⟨holds, Nat.zero_le _, (if_neg (Nat.not_lt_zero _)).symm, rfl, fun _ null => null⟩
  · have bounded := holds.length_le
    have limit := holds.bounded
    have length : (content.drop n).length = content.length - n := List.length_drop
    have rest : toSize (buf.size - n) = content.length - n := by
      rw [Keeps.size holds, ← Int.natCast_sub inside]
      exact toSize_natCast (by simp only [maxSize, sizeMax] at *; omega)
    have moved : (buf.base.bytes.drop n).take (content.length - n) = content.drop n := by
      rw [holds.bytes, List.drop_append_of_le_length inside, ← length, List.take_left]
    have shape : buf.consume heap n =
        (((buf.touch n (content.length - n)).touch 0 (content.length - n)).store 0
          (content.drop n)).resize heap (content.length - n) := by
      simp only [MyBuf.consume, if_pos positive, rest, moved]
      exact congrArg (MyBuf.resize heap _) rest
    have less : content.length - n <
        (content.drop n ++ content.drop (content.length - n)).length := by
      rw [List.length_append, List.length_drop, List.length_drop]
      omega
    have yields := (holds.moveFront inside).resize_shrink heap less
    have cut : resizedTo (content.length - n)
        (content.drop n ++ content.drop (content.length - n)) = content.drop n := by
      rw [resizedTo, ← length, List.take_left, List.length_append, Nat.sub_eq_zero_of_le (by omega)]
      simp [zeros]
    rw [cut] at yields
    rw [shape]
    exact Yields.within ⟨yields.holds, yields.room, yields.cap, yields.refusals, fun less null =>
      yields.null less (Base.update_eq_null.2 null)⟩ (Nat.le_trans (Nat.sub_le _ _) bounded)

theorem Holds.clear (holds : Holds buf content) : Yields buf buf.clear [] 0 := by
  have total := holds.cap
  rw [zeros_length] at total
  have length : buf.base.bytes.length = buf.cap := by
    rw [holds.bytes, List.length_append, zeros_length, ← total]
  have stored : overlay 0 (zeros buf.cap) buf.base.bytes = zeros buf.cap := by
    rw [overlay_zero (by rw [zeros_length, length]), List.drop_of_length_le (by simp [length]),
      List.append_nil]
  have keeps : Keeps buf.clear [] (zeros buf.cap) :=
    { bytes := Base.update_bytes.trans stored
      cap := by simp [MyBuf.clear, MyBuf.setp, MyBuf.zero, MyBuf.store, MyBuf.touch]
      put := rfl
      alive := fun freed => holds.alive (Base.update_eq_freed.1 freed)
      bounded := holds.bounded
      inside := by
        have range : InBlock 0 buf.cap buf.base.bytes.length := by
          rw [length]
          exact .inr ⟨Int.le_refl _, by omega⟩
        simp [MyBuf.clear, MyBuf.setp, MyBuf.zero, MyBuf.store, MyBuf.touch, holds.inside, range] }
  exact ⟨keeps.holds, Nat.zero_le _, (if_neg (Nat.not_lt_zero _)).symm, rfl,
    fun _ null => Base.update_eq_null.2 null⟩

/-- What `StringBuffer::Reserve` asks for. -/
def moreCap (buf : MyBuf) (n : Nat) : Nat := (buf.size + n) % sizeMax

theorem Holds.reserveMore_eq (holds : Holds buf content) : (buf.reserveMore heap n).1 =
    if buf.cap - content.length < n then (buf.reserve heap (moreCap buf n)).1 else buf := by
  have bounded := holds.bounded
  have space : toSize (buf.cap - buf.size) = buf.cap - content.length := by
    rw [Keeps.size holds, ← Int.natCast_sub holds.length_le]
    exact toSize_natCast (by simp only [maxSize, sizeMax] at *; omega)
  simp only [MyBuf.reserveMore, space]
  split <;> rfl

theorem Holds.null (holds : Holds buf content) (null : buf.base = .null) : buf.cap = 0 := by
  have total := holds.cap
  have bytes := holds.bytes
  rw [null] at bytes
  have empty := congrArg List.length bytes
  rw [List.length_append, ← total] at empty
  exact empty.symm

/-- `Reserve` obtains the capacity or it leaves the buffer as it is, unless the block is freed. -/
theorem Holds.reserve_cases (holds : Holds buf content) (heap : Heap) (bounded : newCap < sizeMax)
    (asks : buf.cap < newCap → Asks buf newCap) :
    (∃ next, buf.reserve heap newCap = (next, 0) ∧ Holds next content ∧
        next.refusals = buf.refusals ∧ next.cap = if buf.cap < newCap then roundUp newCap else buf.cap) ∨
      ∃ next code, buf.reserve heap newCap = (next, code) ∧ code ≠ 0 ∧ Refused buf next := by
  rcases Nat.lt_or_ge buf.cap newCap with grows | enough
  · by_cases grants : roundUp newCap ≤ maxSize ∧ (heap buf.calls).isSome
    · have larger : buf.cap ≤ roundUp newCap := by
        rcases Nat.lt_or_ge sizeMax (newCap + minSize) with wraps | small
        · have null := (asks grows).resolve_right fun positive =>
            positive (roundUp_wraps bounded wraps)
          rw [holds.null null]
          exact Nat.zero_le _
        · exact Nat.le_trans (Nat.le_of_lt grows) (le_roundUp small)
      obtain ⟨next, reserved, grown⟩ :=
        Keeps.reserve_some holds grows (asks grows) larger grants.1 grants.2
      refine .inl ⟨next, reserved, grown.holds, grown.refusals, ?_⟩
      rw [grown.cap, if_pos grows]
    · exact .inr (reserve_denied grows (asks grows) grants)
  · exact .inl ⟨buf, reserve_eq enough, holds, rfl, (if_neg (Nat.not_lt.2 enough)).symm⟩

/-- `StringBuffer::Reserve` does not free the block. -/
def Keeping (buf : MyBuf) (n : Nat) : Prop :=
  buf.cap - buf.size < n → buf.cap < moreCap buf n → Asks buf (moreCap buf n)

theorem Holds.reserveMore (holds : Holds buf content) (keeping : Keeping buf n) :
    Holds (buf.reserveMore heap n).1 content := by
  have bounded : moreCap buf n < sizeMax := Nat.mod_lt _ (by decide)
  rw [holds.reserveMore_eq]
  split
  · next lacks =>
    rw [← Keeps.size holds] at lacks
    rcases holds.reserve_cases heap bounded (keeping lacks) with
      ⟨next, reserved, after, -⟩ | ⟨next, code, reserved, -, refused⟩
    · rwa [reserved]
    · rw [reserved]
      exact refused.holds holds
  · exact holds

theorem Holds.load (holds : Holds buf content) {file : File}
    (complete : file.got.length = file.length) (room : Room heap buf file.length) :
    Yields buf (buf.load heap (some file)).1 file.got file.length := by
  have short := file.bounded
  have cleared := holds.clear
  have request : (buf.clear.size + file.length) % sizeMax = file.length := by
    rw [Keeps.size cleared.holds, List.length_nil, Nat.zero_add]
    exact Nat.mod_eq_of_lt (Nat.lt_trans short (by decide))
  have provided : Room heap buf.clear file.length := room
  obtain ⟨next, reserved, yields⟩ := cleared.holds.reserve provided
  have size := Keeps.size yields.holds
  have again : (next.size + file.length) % sizeMax = file.length := by
    rw [size, List.length_nil, Nat.zero_add]
    exact Nat.mod_eq_of_lt (Nat.lt_trans short (by decide))
  have fits : ([] : Bytes).length + file.got.length ≤ file.length := by simp [complete]
  have appended := yields.append fits
  have shape : (buf.load heap (some file)).1 =
      (next.store ([] : Bytes).length file.got).resize heap file.length := by
    simp only [MyBuf.load, MyBuf.read, request, reserved, complete, if_true, size]
    exact congrArg (MyBuf.resize heap _) again
  have inside : file.got.length ≤ (zeros (next.cap - ([] : Bytes).length)).length := by
    have enough := yields.room
    rw [zeros_length, complete, List.length_nil]
    omega
  have stored := Keeps.store yields.holds inside
  have room : file.length ≤ (next.store ([] : Bytes).length file.got).cap := yields.room
  have resized : (next.store ([] : Bytes).length file.got).resize heap file.length =
      (next.store ([] : Bytes).length file.got).pbump file.got.length := by
    rw [Keeps.resize_eq stored (Nat.zero_le _), reserve_eq room,
      yields.holds.toInt_eq yields.room, complete, MyBuf.setp_eq stored.put]
  rw [shape, resized]
  exact ⟨appended.holds, appended.room, appended.cap, appended.refusals, fun less null =>
    appended.null less (Base.update_eq_null.2 null)⟩

end Nexer.StringBuffer

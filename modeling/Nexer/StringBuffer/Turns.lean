import Nexer.StringBuffer.Growth
import Mathlib.Logic.Relation

/-!
# The turns of `vprintf`

A turn that does not return makes the block larger, as long as the put pointer is inside of the
block.  `Resize` and `overflow` may leave it behind the block, where the room is negative: then the
loop stores outside of the block, or goes round for ever.
-/

namespace Nexer.StringBuffer

open Nexer.Transition Relation

variable {heap : Heap} {format : Formatting} {buf next : MyBuf} {content tail : Bytes}
variable {size fuel : Nat} {n : Int}

/-- What `Reserve` can do: nothing, fail before it calls `realloc`, or call it. -/
theorem reserve_inversion (newCap : Nat) :
    (buf.reserve heap newCap).1 = buf ∨
    (buf.reserve heap newCap).1 = { buf with refusals := buf.refusals + 1 } ∨
    ∃ base, roundUp newCap ≤ maxSize ∧
      (buf.base.realloc (roundUp newCap) (heap buf.calls) = (base, false) ∧
        (buf.reserve heap newCap).1 =
          { buf with base, calls := buf.calls + 1, refusals := buf.refusals + 1 } ∨
      buf.base.realloc (roundUp newCap) (heap buf.calls) = (base, true) ∧
        ∃ start length put, (buf.reserve heap newCap).1 =
          { ({ buf with base, cap := roundUp newCap, calls := buf.calls + 1 } : MyBuf).zero
              start length with put := put }) := by
  unfold MyBuf.reserve
  split
  · dsimp only
    split
    · next bounded =>
      obtain ⟨base, granted⟩ := buf.base.realloc (roundUp newCap) (heap buf.calls)
      refine .inr (.inr ⟨base, bounded, ?_⟩)
      cases granted with
      | true => exact .inr ⟨rfl, _, _, _, rfl⟩
      | false => exact .inl ⟨rfl, rfl⟩
    · exact .inr (.inl rfl)
  · exact .inl rfl

section Rules

/-- What is kept by the parts of the operations. -/
structure Kept (heap : Heap) (Q : MyBuf → Prop) : Prop where
  touch : ∀ {buf : MyBuf} (start : Int) (length : Nat), Q buf → Q (buf.touch start length)
  store : ∀ {buf : MyBuf} (start : Int) (bytes : Bytes), Q buf → Q (buf.store start bytes)
  put : ∀ {buf : MyBuf} (put : Int), Q buf → Q { buf with put := put }
  reserve : ∀ {buf : MyBuf} (newCap : Nat), Q buf → Q (buf.reserve heap newCap).1

namespace Kept

variable {Q : MyBuf → Prop} (kept : Kept heap Q)
include kept

theorem resize (newSize : Nat) (holds : Q buf) : Q (buf.resize heap newSize) := by
  refine kept.put _ (kept.put _ ?_)
  split
  · exact kept.store _ _ holds
  · split
    · exact kept.reserve _ holds
    · exact holds

theorem consume (count : Nat) (holds : Q buf) : Q (buf.consume heap count) := by
  unfold MyBuf.consume
  split
  · exact kept.resize _ (kept.store _ _ (kept.touch _ _ (kept.touch _ _ holds)))
  · exact holds

theorem clear (holds : Q buf) : Q buf.clear :=
  kept.put _ (kept.store _ _ holds)

theorem sputc (c : UInt8) (holds : Q buf) : Q (buf.sputc heap c) := by
  unfold MyBuf.sputc MyBuf.overflow
  split
  · exact kept.put _ (kept.store _ _ holds)
  · split
    · exact kept.put _ (kept.store _ _ (kept.reserve _ holds))
    · exact holds

theorem write (s : Bytes) (holds : Q buf) : Q (buf.write heap s).1 := by
  simp only [MyBuf.write, ite_reserve]
  have reserved := kept.reserve ((buf.size + s.length + 1) % sizeMax) holds
  split
  · exact reserved
  · exact kept.put _ (kept.store _ _ reserved)

/-- The rule for a turn of `vprintf`, from the buffer after the attempt on. -/
theorem turn (holds : Q (buf.store size (format.stores (toSize (toInt (buf.cap - size)))))) :
    Q (buf.vprintfTurn heap format size).1 := by
  have attempted : Q (buf.vsnprintf size (toSize (toInt (buf.cap - size))) format).1 := holds
  rw [MyBuf.vprintfTurn]
  generalize buf.vsnprintf size (toSize (toInt (buf.cap - size))) format = attempt at attempted ⊢
  dsimp only
  split
  · exact kept.put _ attempted
  · rw [ite_reserve]
    exact kept.reserve _ attempted

/-- The rule for the loop of `vprintf`. -/
theorem loop (holds : Q (buf.store size (format.stores (toSize (toInt (buf.cap - size))))))
    (ran : MyBuf.vprintfLoop heap format size fuel buf = some (next, n)) : Q next := by
  induction fuel generalizing buf with
  | zero => cases ran
  | succ fuel ih =>
      have turned := kept.turn holds
      rw [vprintfLoop_succ] at ran
      generalize buf.vprintfTurn heap format size = after at turned ran
      obtain ⟨after, result⟩ := after
      cases result with
      | some n =>
          obtain ⟨rfl, -⟩ := Prod.mk.inj (Option.some.inj ran)
          exact turned
      | none => exact ih (kept.store _ _ turned) ran

theorem reserveMore (count : Nat) (holds : Q buf) : Q (buf.reserveMore heap count).1 := by
  unfold MyBuf.reserveMore
  split
  · exact kept.reserve _ holds
  · exact holds

theorem load (file : Option File) (holds : Q buf) : Q (buf.load heap file).1 := by
  cases file with
  | none => exact holds
  | some file =>
      have reserved := kept.reserve ((buf.clear.size + file.length) % sizeMax) (kept.clear holds)
      have stored := kept.store
        (buf.clear.reserve heap ((buf.clear.size + file.length) % sizeMax)).1.size file.got reserved
      simp only [MyBuf.load, MyBuf.read]
      split
      · exact kept.resize _ stored
      · exact stored

/-- What the parts keep, every operation keeps. -/
theorem apply {op : Op} (applied : op.apply heap buf = some next) (holds : Q buf) : Q next := by
  cases op with
  | write s count =>
      obtain rfl := Option.some.inj applied
      exact kept.write _ holds
  | writeChar ch =>
      obtain rfl := Option.some.inj applied
      exact kept.write _ holds
  | sputn s =>
      obtain rfl := Option.some.inj applied
      exact kept.write _ holds
  | sputc c =>
      obtain rfl := Option.some.inj applied
      exact kept.sputc c holds
  | printf format =>
      obtain ⟨⟨next, n⟩, ran, rfl⟩ := Option.map_eq_some_iff.1 applied
      exact kept.loop (kept.store _ _ holds) ran
  | consume count =>
      obtain rfl := Option.some.inj applied
      exact kept.consume _ holds
  | resize newSize =>
      obtain rfl := Option.some.inj applied
      exact kept.resize _ holds
  | reserve count =>
      obtain rfl := Option.some.inj applied
      exact kept.reserveMore _ holds
  | clear =>
      obtain rfl := Option.some.inj applied
      exact kept.clear holds
  | load file =>
      obtain rfl := Option.some.inj applied
      exact kept.load file holds

end Kept

end Rules

section Blocks

/-- The block has the size that the buffer has noted, unless it is freed. -/
structure Blocked (buf : MyBuf) : Prop where
  length : buf.base ≠ .freed → buf.base.bytes.length = buf.cap
  bounded : buf.cap ≤ maxSize

theorem resized_size {rest : Nat → UInt8} {old : Bytes} :
    (resized size rest old).length = size := by
  simp only [resized, List.length_append, List.length_take, List.length_map, List.length_range]
  omega

/-- What `realloc` returns has the size that was asked for. -/
theorem Base.realloc_length {base : Base} {answer : Option (Nat → UInt8)}
    (alive : (base.realloc size answer).1 ≠ .freed) :
    base ≠ .freed ∧ (base.realloc size answer).1.bytes.length =
      if (base.realloc size answer).2 then size else base.bytes.length := by
  have before : base ≠ .freed := by
    rintro rfl
    exact alive rfl
  have asks : base = .null ∨ size ≠ 0 := by
    cases base with
    | null => exact .inl rfl
    | block bytes => exact .inr fun zero => alive (by rw [zero]; rfl)
    | freed => exact (before rfl).elim
  refine ⟨before, ?_⟩
  cases answer with
  | none => rw [Base.realloc_none asks]; rfl
  | some rest => rw [Base.realloc_some before asks]; exact resized_size

namespace Blocked

variable (blocked : Blocked buf)
include blocked

theorem store (start : Int) (bytes : Bytes) : Blocked (buf.store start bytes) := by
  refine ⟨fun alive => ?_, blocked.bounded⟩
  simp only [MyBuf.store, Base.update_bytes, overlay_length]
  exact blocked.length fun freed => alive (Base.update_eq_freed.2 freed)

theorem put (put : Int) : Blocked { buf with put := put } :=
  ⟨blocked.length, blocked.bounded⟩

theorem reserve (newCap : Nat) : Blocked (buf.reserve heap newCap).1 := by
  have length := @Base.realloc_length (roundUp newCap) buf.base (heap buf.calls)
  rcases @reserve_inversion heap buf newCap with same | same |
    ⟨base, bounded, ⟨moved, same⟩ | ⟨moved, start, cleared, put, same⟩⟩
  all_goals rw [same]
  · exact blocked
  · exact ⟨blocked.length, blocked.bounded⟩
  · refine ⟨fun alive => ?_, blocked.bounded⟩
    rw [moved] at length
    exact (length alive).2.trans (blocked.length (length alive).1)
  · rw [moved] at length
    have grown : Blocked { buf with base, cap := roundUp newCap, calls := buf.calls + 1 } :=
      ⟨fun alive => (length alive).2, bounded⟩
    exact (grown.store _ _).put _

end Blocked

theorem kept_blocked : Kept heap Blocked where
  touch _ _ blocked := ⟨blocked.length, blocked.bounded⟩
  store start bytes blocked := blocked.store start bytes
  put put blocked := blocked.put put
  reserve newCap blocked := blocked.reserve newCap

/-- Every run keeps the size of the block, whatever becomes of the put pointer. -/
theorem blocked_of_reaches {past : List Op} (run : (step heap).Reaches Machine.always {} buf past) :
    Blocked buf := by
  refine run.invariant (fun buf _ => Blocked buf) ⟨fun _ => rfl, by decide⟩ ?_
  intro buf next past out op _ blocked _ moved
  obtain ⟨after, applied, same⟩ := Option.map_eq_some_iff.1 moved
  obtain ⟨rfl, -⟩ := Prod.mk.inj same
  exact kept_blocked.apply applied blocked

end Blocks

section Statement

/-- A turn of the loop does not return, and leaves this buffer. -/
def Again (heap : Heap) (format : Formatting) (size : Nat) (buf next : MyBuf) : Prop :=
  buf.vprintfTurn heap format size = (next, none)

/-- These bytes have been appended, `Reserve` has failed so often, and nothing outside of the block
has been accessed. -/
structure Adds (buf next : MyBuf) (bytes : Bytes) (refused : Nat) : Prop where
  contents : next.contents = buf.contents ++ bytes
  size : next.size = buf.size + bytes.length
  refusals : next.refusals = buf.refusals + refused
  alive : next.base ≠ .freed
  stray : next.stray = buf.stray

/-- The text has been appended and its length is returned; or `Reserve` has failed and -1 is. -/
def Settled (format : Formatting) (buf next : MyBuf) (n : Int) : Prop :=
  n = format.text.length ∧ Adds buf next format.text 0 ∨ n = -1 ∧ Adds buf next [] 1

/-- `vprintf` ends, and each turn before the last one makes the block larger. -/
structure Settles (heap : Heap) (format : Formatting) (buf : MyBuf) : Prop where
  grows : ∀ between next, ReflTransGen (Again heap format buf.size) buf between →
    Again heap format buf.size between next → between.cap < next.cap
  ends : ∃ fuel next n, MyBuf.vprintfLoop heap format buf.size fuel buf = some (next, n) ∧
    Settled format buf next n ∧
    ((∀ room, format.fails room = none) → next.calls ≤ buf.calls + 1)

/-- A state of the buffer before which nothing outside of the block was accessed.  The put pointer
may be anywhere. -/
structure Formed (buf : MyBuf) : Prop extends Blocked buf where
  pointer : -9223372036854775808 ≤ buf.put ∧ buf.put < 9223372036854775808
  clean : buf.stray = []

/-- The block is not freed, and the put pointer is inside of it, or so many times 4 GiB away from
its end that the room is 0 and the growth too large. -/
def Printable (buf : MyBuf) : Prop :=
  buf.base ≠ .freed ∧
    (0 ≤ buf.put ∧ buf.put ≤ buf.cap ∨ (4294967296 : Int) ∣ buf.put - buf.cap)

end Statement

section Inside

theorem Adds.trans {between : MyBuf} {first second : Bytes} {before after : Nat}
    (adds : Adds buf between first before) (more : Adds between next second after) :
    Adds buf next (first ++ second) (before + after) where
  contents := by rw [more.contents, adds.contents, List.append_assoc]
  size := by rw [more.size, adds.size, List.length_append, Nat.add_assoc]
  refusals := by rw [more.refusals, adds.refusals, Nat.add_assoc]
  alive := more.alive
  stray := more.stray.trans adds.stray

theorem reserve_calls (newCap : Nat) : (buf.reserve heap newCap).1.calls ≤ buf.calls + 1 := by
  rcases @reserve_inversion heap buf newCap with same | same |
    ⟨base, bounded, ⟨moved, same⟩ | ⟨moved, start, length, put, same⟩⟩
  all_goals rw [same]
  · exact Nat.le_succ _
  · exact Nat.le_succ _
  · exact Nat.le_refl _

theorem turn_calls : (buf.vprintfTurn heap format size).1.calls ≤ buf.calls + 1 := by
  have attempted : (buf.vsnprintf size (toSize (toInt (buf.cap - size))) format).1.calls =
      buf.calls := rfl
  rw [MyBuf.vprintfTurn, ← attempted]
  generalize buf.vsnprintf size (toSize (toInt (buf.cap - size))) format = attempt
  dsimp only
  split
  · exact Nat.le_succ _
  · rw [ite_reserve]
    exact reserve_calls _

/-- After the growth for a text that can be formatted, it fits. -/
theorem fits_grown (never : ∀ room, format.fails room = none) (calls cap : Nat)
    (inside : size ≤ maxSize) (granted : Granted heap calls (request format size cap)) :
    Fits format (roundUp (request format size cap) - size) := by
  refine ⟨never _, ?_⟩
  have rounded := le_roundUp granted.1
  have bounded := granted.2.1
  have short := format.short
  have next := toInt_eq (format.text.length + 1)
  have asked : request format size cap = toSize (size + toInt (format.text.length + 1) + 1) := by
    simp only [request, never, Option.isSome_none, Bool.false_eq_true, if_false]
  simp only [toSize, sizeMax, maxSize] at *
  omega

namespace Keeps

/-- What two states of the block say about what has happened between them. -/
theorem adds {bytes rest : Bytes} {refused : Nat} (before : Keeps buf content tail)
    (after : Keeps next (content ++ bytes) rest)
    (refusals : next.refusals = buf.refusals + refused) : Adds buf next bytes refused where
  contents := by rw [after.contents_eq, before.contents_eq]
  size := by rw [after.size, before.size, List.length_append]
  refusals := refusals
  alive := after.alive
  stray := after.inside.trans before.inside.symm

theorem again (keeps : Keeps buf content tail)
    (again : Again heap format content.length buf next) :
    Grown buf next content (request format content.length buf.cap) ∧ buf.cap < next.cap := by
  by_cases fits : Fits format (buf.cap - content.length)
  · have turned := (keeps.turn_fits fits).1.symm.trans again
    cases (Prod.mk.inj turned).2
  · by_cases granted : Granted heap buf.calls (request format content.length buf.cap)
    · obtain ⟨after, turned, grown⟩ := keeps.turn_grows fits granted
      obtain ⟨rfl, -⟩ := Prod.mk.inj (turned.symm.trans again)
      refine ⟨grown, ?_⟩
      rw [grown.cap]
      have larger := (request_bounds fits keeps.content_le keeps.bounded).1
      exact Nat.lt_of_lt_of_le larger (le_roundUp granted.1)
    · obtain ⟨after, turned, -⟩ := keeps.turn_refused fits granted
      cases (Prod.mk.inj (turned.symm.trans again)).2

/-- The turns that do not return keep the contents. -/
theorem between (keeps : Keeps buf content tail)
    (turns : ReflTransGen (Again heap format content.length) buf next) :
    ∃ rest, Keeps next content rest := by
  induction turns with
  | refl => exact ⟨tail, keeps⟩
  | tail _ again ih =>
      obtain ⟨rest, keeps⟩ := ih
      exact ⟨_, (keeps.again again).1.holds⟩

/-- The induction is on the turns that are left, of which there are at most as many as sizes of the
block above the present one. -/
theorem loop (keeps : Keeps buf content tail)
    (enough : maxSize / minSize - buf.cap / minSize < fuel) :
    ∃ next n, MyBuf.vprintfLoop heap format content.length fuel buf = some (next, n) ∧
      Settled format buf next n ∧
      ((∀ room, format.fails room = none) →
        next.calls ≤ buf.calls + if Fits format (buf.cap - content.length) then 0 else 1) := by
  induction fuel generalizing buf tail with
  | zero => exact absurd enough (Nat.not_lt_zero _)
  | succ fuel ih =>
      by_cases fits : Fits format (buf.cap - content.length)
      · obtain ⟨turned, after⟩ := keeps.turn_fits fits
        have adds : Adds buf _ format.text 0 := keeps.adds after rfl
        exact ⟨_, _, by rw [vprintfLoop_succ, turned], .inl ⟨rfl, adds⟩, fun _ => Nat.le_add_right ..⟩
      · rw [if_neg fits]
        by_cases granted : Granted heap buf.calls (request format content.length buf.cap)
        · obtain ⟨between, turned, grown⟩ := keeps.turn_grows fits granted
          obtain ⟨larger, small⟩ := request_bounds fits keeps.content_le keeps.bounded
          have further : buf.cap / minSize < between.cap / minSize :=
            grown.cap ▸ div_lt_roundUp larger small
          have limit : between.cap / minSize ≤ maxSize / minSize :=
            Nat.div_le_div_right grown.holds.bounded
          obtain ⟨next, n, ran, settled, once⟩ := ih grown.holds (by omega)
          have same : Adds buf between [] 0 :=
            keeps.adds (by rw [List.append_nil]; exact grown.holds) grown.refusals
          refine ⟨next, n, by rw [vprintfLoop_succ, turned]; exact ran, ?_, fun never => ?_⟩
          · exact settled.imp (And.imp_right same.trans) (And.imp_right same.trans)
          · have fits := fits_grown never buf.calls buf.cap
              (Nat.le_trans keeps.content_le keeps.bounded) granted
            rw [← grown.cap] at fits
            have calls := once never
            rwa [if_pos fits, grown.calls] at calls
        · obtain ⟨next, turned, refused⟩ := keeps.turn_refused fits granted
          have after := refused.untouched.keeps (keeps.attempt format)
          refine ⟨next, -1, by rw [vprintfLoop_succ, turned], .inr ⟨rfl, ?_⟩, fun _ => ?_⟩
          · exact keeps.adds (by rw [List.append_nil]; exact after) refused.refusals
          · have calls := @turn_calls heap format buf content.length
            rwa [turned] at calls

end Keeps

/-- The put pointer is inside of the block. -/
theorem Formed.keeps (formed : Formed buf) (alive : buf.base ≠ .freed)
    (inside : 0 ≤ buf.put ∧ buf.put ≤ buf.cap) :
    Keeps buf (buf.base.bytes.take buf.put.toNat) (buf.base.bytes.drop buf.put.toNat) where
  bytes := (List.take_append_drop ..).symm
  cap := by
    rw [← List.length_append, List.take_append_drop]
    exact (formed.length alive).symm
  put := by
    have length := formed.length alive
    rw [List.length_take]
    omega
  alive := alive
  bounded := formed.bounded
  inside := formed.clean

theorem Keeps.settles (keeps : Keeps buf content tail) : Settles heap format buf where
  grows := by
    rw [keeps.size]
    intro between next turns again
    obtain ⟨rest, kept⟩ := keeps.between turns
    exact (kept.again again).2
  ends := by
    rw [keeps.size]
    have enough : maxSize / minSize - buf.cap / minSize < MyBuf.turns := by
      have limit := Nat.sub_le (maxSize / minSize) (buf.cap / minSize)
      simp only [MyBuf.turns]
      omega
    obtain ⟨next, n, ran, settled, once⟩ := @Keeps.loop heap format _ _ _ _ keeps enough
    refine ⟨_, next, n, ran, settled, fun never => Nat.le_trans (once never) ?_⟩
    split
    · exact Nat.le_succ _
    · exact Nat.le_refl _

end Inside

section Outside

/-- The put pointer is so far away that the difference to the capacity is 0 as an `int`. -/
structure Far (buf : MyBuf) : Prop where
  room : toInt (buf.cap - buf.size) = 0
  above : maxSize + 2147483648 < buf.size
  below : buf.size + 2147484160 < sizeMax

theorem Formed.far (formed : Formed buf) (multiple : (4294967296 : Int) ∣ buf.put - buf.cap)
    (outside : buf.put ≠ buf.cap) : Far buf := by
  obtain ⟨low, high⟩ := formed.pointer
  have bounded := formed.bounded
  have difference := toInt_eq (buf.cap - buf.size)
  have size : buf.size = (buf.put % sizeMax).toNat := rfl
  simp only [sizeMax, maxSize] at size bounded
  constructor
  · omega
  · simp only [maxSize]
    omega
  · simp only [sizeMax]
    omega

/-- The growth that is asked for is larger than any block. -/
theorem Far.request (far : Far buf) : maxSize < request format buf.size buf.size ∧
    StringBuffer.request format buf.size buf.size + minSize ≤ sizeMax := by
  have short := format.short
  obtain ⟨-, above, below⟩ := far
  unfold StringBuffer.request toSize
  simp only [sizeMax, maxSize, minSize, Nat.sub_self] at *
  split
  · have none := toInt_eq (2 * (0 : Nat))
    omega
  · have next := toInt_eq (format.text.length + 1)
    omega

theorem store_nil (start : Int) : buf.store start [] = buf := by
  have same : buf.base.update (overlay start []) = buf.base := by
    cases buf.base with
    | null => rfl
    | block bytes => exact congrArg Base.block overlay_nil
    | freed => rfl
  have inside : InBlock start 0 buf.base.bytes.length := .inl rfl
  simp only [MyBuf.store, MyBuf.touch, List.length_nil, same, if_pos inside, List.append_nil]

/-- With no room nothing is stored, and this far away from the block the growth is refused. -/
theorem Far.turn (far : Far buf) (bounded : buf.cap ≤ maxSize) :
    ∃ next, buf.vprintfTurn heap format buf.size = (next, some (-1)) ∧ Refused buf next := by
  have stored : format.stores 0 = [] :=
    List.eq_nil_of_length_eq_zero (Nat.le_zero.1 (stores_length 0))
  have lacks : ¬ (-1 < format.returns 0 ∧ format.returns 0 < 0) := fun both => by omega
  have asked := @request_eq format buf.size buf.size
  rw [Nat.sub_self, Int.natCast_zero] at asked
  obtain ⟨large, small⟩ := @Far.request format _ far
  have full : ¬ Room heap buf (StringBuffer.request format buf.size buf.size) := by
    rintro (enough | ⟨-, granted, -⟩)
    · exact absurd (Nat.le_trans enough bounded) (Nat.not_le.2 large)
    · exact absurd (Nat.le_trans (le_roundUp small) granted) (Nat.not_le.2 large)
  obtain ⟨next, code, reserved, failed, refused⟩ := reserve_refused small full
  refine ⟨next, ?_, refused⟩
  rw [MyBuf.vprintfTurn]
  simp only [MyBuf.vsnprintf, far.room]
  rw [show toSize 0 = 0 from rfl, stored, store_nil, if_neg lacks, ite_reserve, asked, reserved,
    if_pos failed]

theorem Refused.adds (refused : Refused buf next) (alive : buf.base ≠ .freed) :
    Adds buf next [] 1 := by
  obtain ⟨⟨base, cap, put, stray⟩, refusals⟩ := refused
  have size : next.size = buf.size := by rw [MyBuf.size, put, MyBuf.size]
  exact {
    contents := by rw [MyBuf.contents, base, size, List.append_nil, MyBuf.contents]
    size := size
    refusals := refusals
    alive := base ▸ alive
    stray := stray }

theorem Far.settles (far : Far buf) (bounded : buf.cap ≤ maxSize) (alive : buf.base ≠ .freed) :
    Settles heap format buf := by
  obtain ⟨next, turned, refused⟩ := @Far.turn heap format _ far bounded
  have returns : ∀ other, ¬ Again heap format buf.size buf other := by
    intro other again
    cases (Prod.mk.inj (turned.symm.trans again)).2
  constructor
  · intro between other turns again
    rcases ReflTransGen.cases_head turns with rfl | ⟨first, again, -⟩
    · exact (returns other again).elim
    · exact (returns first again).elim
  · have calls := @turn_calls heap format buf buf.size
    rw [turned] at calls
    exact ⟨1, next, -1, by rw [vprintfLoop_succ, turned], .inr ⟨rfl, refused.adds alive⟩,
      fun _ => calls⟩

theorem kept_freed : Kept heap fun buf => buf.base = .freed where
  touch _ _ freed := freed
  store _ _ freed := Base.update_eq_freed.2 freed
  put _ freed := freed
  reserve := by
    intro buf newCap freed
    rcases @reserve_inversion heap buf newCap with same | same |
      ⟨base, bounded, ⟨moved, same⟩ | ⟨moved, start, length, put, same⟩⟩
    all_goals rw [same]
    · exact freed
    · exact freed
    · rw [freed] at moved
      exact (Prod.mk.inj moved).1.symm
    · rw [freed] at moved
      cases (Prod.mk.inj moved).2

/-- What has been accessed outside of the block stays so. -/
theorem kept_stray : Kept heap fun buf => buf.stray ≠ [] where
  touch _ _ stray := List.append_ne_nil_of_left_ne_nil stray _
  store _ _ stray := List.append_ne_nil_of_left_ne_nil stray _
  put _ stray := stray
  reserve := by
    intro buf newCap stray
    rcases @reserve_inversion heap buf newCap with same | same |
      ⟨base, bounded, ⟨moved, same⟩ | ⟨moved, start, length, put, same⟩⟩
    all_goals rw [same]
    · exact stray
    · exact stray
    · exact stray
    · exact List.append_ne_nil_of_left_ne_nil stray _

/-- A text of one byte. -/
def letter : Formatting where
  text := [120]
  short := by decide

/-- The first attempt stores outside of the block. -/
theorem Formed.stray (formed : Formed buf) (alive : buf.base ≠ .freed)
    (beyond : buf.cap < buf.size) (room : toInt (buf.cap - buf.size) ≠ 0) :
    (buf.store buf.size (letter.stores (toSize (toInt (buf.cap - buf.size))))).stray ≠ [] := by
  have positive : toSize (toInt (buf.cap - buf.size)) ≠ 0 := by
    have small := toInt_eq (buf.cap - buf.size)
    simp only [toSize, sizeMax]
    omega
  have stored : (letter.stores (toSize (toInt (buf.cap - buf.size)))).length ≠ 0 := by
    have all : letter.stores (toSize (toInt (buf.cap - buf.size))) =
        letter.text.take (toSize (toInt (buf.cap - buf.size)) - 1) ++ [0] := if_neg positive
    rw [all, List.length_append]
    exact Nat.succ_ne_zero _
  have outside : ¬ InBlock buf.size (letter.stores (toSize (toInt (buf.cap - buf.size)))).length
      buf.base.bytes.length := by
    rw [formed.length alive]
    rintro (none | ⟨-, enough⟩)
    · exact stored none
    · omega
  simp only [MyBuf.store, MyBuf.touch, if_neg outside]
  exact List.append_ne_nil_of_right_ne_nil _ (List.cons_ne_nil _ _)

/-- Where the letter is appended, or refused without an access outside of the block. -/
theorem Formed.printable (formed : Formed buf) (settles : Settles heap letter buf) :
    Printable buf := by
  obtain ⟨fuel, next, n, ran, settled, -⟩ := settles.ends
  have after : next.base ≠ .freed ∧ next.stray = buf.stray := by
    rcases settled with ⟨-, adds⟩ | ⟨-, adds⟩
    · exact ⟨adds.alive, adds.stray⟩
    · exact ⟨adds.alive, adds.stray⟩
  have alive : buf.base ≠ .freed := fun freed =>
    after.1 ((@kept_freed heap).loop ((@kept_freed heap).store _ _ freed) ran)
  refine ⟨alive, ?_⟩
  by_contra outside
  obtain ⟨beyond, room⟩ : buf.cap < buf.size ∧ toInt (buf.cap - buf.size) ≠ 0 := by
    obtain ⟨low, high⟩ := formed.pointer
    have bounded := formed.bounded
    have size : buf.size = (buf.put % sizeMax).toNat := rfl
    have difference := toInt_eq (buf.cap - buf.size)
    simp only [sizeMax, maxSize] at size bounded
    constructor
    · omega
    · omega
  exact kept_stray.loop (formed.stray alive beyond room) ran (after.2.trans formed.clean)

end Outside

/-- `vprintf` ends as it should, for every format, exactly when the put pointer is inside of the
block (or too far away to do any harm). -/
theorem vprintf_settles_iff (heap : Heap) (formed : Formed buf) :
    (∀ format, Settles heap format buf) ↔ Printable buf := by
  refine ⟨fun settles => formed.printable (settles letter), fun ⟨alive, place⟩ format => ?_⟩
  by_cases inside : 0 ≤ buf.put ∧ buf.put ≤ buf.cap
  · exact (formed.keeps alive inside).settles
  · have outside : buf.put ≠ buf.cap := by omega
    exact (formed.far (place.resolve_left inside) outside).settles formed.bounded alive

/-- A format that cannot be formatted. -/
def invalid : Formatting where
  text := []
  short := by decide
  fails := fun _ => some []

/-- A buffer without a block: a letter finds room in the second turn, and what cannot be formatted
is refused in the end. -/
theorem vprintf_settles_null : Settles plenty letter {} ∧ Settles plenty invalid {} := by
  have formed : Formed {} := ⟨⟨fun _ => rfl, by decide⟩, by decide, rfl⟩
  have inside : Printable {} := ⟨by simp, .inl (by decide)⟩
  exact ⟨(vprintf_settles_iff plenty formed).mpr inside letter,
    (vprintf_settles_iff plenty formed).mpr inside invalid⟩

/-- `Resize(1)` without memory leaves the put pointer behind the block, and then the loop goes
round for ever when the text cannot be formatted. -/
theorem vprintf_settles_resize : ¬ ∀ (heap : Heap) (buf : MyBuf) (past : List Op),
    (step heap).Reaches Machine.always {} buf past → ∀ format, Settles heap format buf := by
  intro claim
  have allowed : Machine.always ({} : MyBuf) (.resize 1 : Op) := trivial
  have run : (step fun _ => none).Reaches Machine.always {} (MyBuf.resize (fun _ => none) {} 1)
      ([] ++ [.resize 1]) := Machine.Reaches.start.next allowed rfl
  obtain ⟨fuel, next, n, ran, -⟩ := (claim _ _ _ run invalid).ends
  have round : (MyBuf.resize (fun _ => none) {} 1).vprintfTurn (fun _ => none) invalid 1 =
      (MyBuf.resize (fun _ => none) {} 1, none) := rfl
  have forever : MyBuf.vprintfLoop (fun _ => none) invalid 1 fuel
      (MyBuf.resize (fun _ => none) {} 1) = none := by
    clear ran
    induction fuel with
    | zero => rfl
    | succ fuel ih => rw [vprintfLoop_succ, round]; exact ih
  cases forever.symm.trans ran

end Nexer.StringBuffer

import Nexer.Manager.Calls
import Nexer.TcpClient.Retry

/-!
# The wall clock

`Timer` measures time with the wall clock, which somebody may set back.  The readings are in
seconds and microseconds, and all the tests of elapsed time are in whole milliseconds.
-/

namespace Nexer.Timer

open Manager (App AppConfig startTimeout)

/-- `uv_timeval64_t` -/
structure Timeval where
  sec : Int64
  usec : Int32
  ranged : 0 ≤ usec.toInt ∧ usec.toInt < 1000000

namespace Timeval

variable (reading : Timeval)

/-- `tv_sec * 1000LL + tv_usec / 1000` as a `uint64_t`. -/
def millis : UInt64 :=
  (reading.sec * 1000 + (reading.usec / 1000).toInt64).toUInt64

/-- The reading in microseconds. -/
def micros : Int :=
  reading.sec.toInt * 1000000 + reading.usec.toInt

/-- The reading in whole milliseconds, without any overflow. -/
def whole : Int :=
  reading.sec.toInt * 1000 + reading.usec.toInt / 1000

theorem whole_eq : reading.whole = reading.micros / 1000 := by
  simp only [whole, micros]
  omega

theorem toUInt64_toNat (value : Int64) :
    (value.toUInt64.toNat : Int) = value.toInt % UInt64.size := by
  rw [← Int64.toInt_toBitVec, BitVec.toInt_eq_toNat_bmod]
  have small := value.toBitVec.isLt
  exact ((Int.bmod_emod ..).trans (Int.emod_eq_of_lt (by omega) (by exact_mod_cast small))).symm

/-- The arithmetic of the code only drops multiples of the size of the word. -/
theorem millis_toNat : (reading.millis.toNat : Int) = reading.whole % UInt64.size := by
  obtain ⟨nonnegative, small⟩ := reading.ranged
  have quotient : (reading.usec / 1000).toInt = reading.usec.toInt / 1000 := by
    rw [Int32.toInt_div_of_ne_right _ _ (by decide), Int.tdiv_eq_ediv_of_nonneg nonnegative]
    rfl
  have signed : (reading.sec * 1000 + (reading.usec / 1000).toInt64).toInt =
      reading.whole.bmod UInt64.size := by
    rw [Int64.toInt_add, Int64.toInt_mul, Int32.toInt_toInt64, quotient, Int.bmod_add_bmod]
    rfl
  rw [millis, toUInt64_toNat, signed, Int.bmod_emod]

end Timeval

variable (start stop : Timeval)

/-- The value of `Timer::GetElapsedTime`. -/
def getElapsedTime : UInt64 :=
  stop.millis - start.millis

/-- The value of `Timer::Now`. -/
def now : UInt64 :=
  stop.millis

/-- Whether `Timer::OnTick` runs the handler. -/
def onTick (handled : Bool) (interval : UInt64) : Bool :=
  handled && interval ≤ getElapsedTime start stop

/-- The difference of the readings, in microseconds. -/
def difference : Int :=
  stop.micros - start.micros

/-- A number of milliseconds is less than one from the time between the readings. -/
def Accurate (elapsed : UInt64) : Prop :=
  (1000 * (elapsed.toNat : Int) - max 0 (difference start stop)).natAbs < 1000

/-- Less than one millisecond is left of a limit in milliseconds. -/
def Passed (limit : Int) : Prop :=
  1000 * limit < difference start stop + 1000

/-- The elapsed time does not run ahead of the clock, and nothing that waits for it is early. -/
structure InTime : Prop where
  elapsed : Accurate start stop (getElapsedTime start stop)
  sinceNow : Accurate start stop (now stop - now start)
  /-- No handler of a tick runs early. -/
  handler : ∀ handled interval,
    onTick start stop handled interval → Passed start stop interval.toNat
  /-- No connect gives up early. -/
  connect : ∀ (timeout : UInt64) state following out,
    TcpClient.Retry.step timeout.toNat state (.tick (getElapsedTime start stop).toNat) =
      some (following, out) →
    .answered none ∈ out → Passed start stop timeout.toNat
  /-- No limit of starting is applied early. -/
  startLimit : ∀ (α : Type) (config : AppConfig α) (fields : App α),
    fields.requireStartTime = now start →
    startTimeout config fields (now stop) → Passed start stop config.maxStartTime

variable {start stop}

/-- Both readings have lost less than a millisecond. -/
theorem whole_sub : 1000 * (stop.whole - start.whole) < difference start stop + 1000 ∧
    difference start stop < 1000 * (stop.whole - start.whole) + 1000 := by
  simp only [Timeval.whole_eq, difference]
  omega

theorem getElapsedTime_toNat :
    ((getElapsedTime start stop).toNat : Int) = (stop.whole - start.whole) % UInt64.size := by
  have left := start.millis_toNat
  have right := stop.millis_toNat
  have size : start.millis.toNat < UInt64.size := start.millis.toNat_lt
  rw [getElapsedTime, UInt64.toNat_sub]
  simp only [UInt64.size] at *
  omega

/-- The later reading is not of an earlier millisecond, and the milliseconds between the
readings fit in the word. -/
def Forward (start stop : Timeval) : Prop :=
  start.whole ≤ stop.whole ∧ stop.whole - start.whole < UInt64.size

namespace Forward

variable (forward : Forward start stop)
include forward

theorem getElapsedTime_eq :
    ((getElapsedTime start stop).toNat : Int) = stop.whole - start.whole := by
  rw [getElapsedTime_toNat, Int.emod_eq_of_lt (Int.sub_nonneg_of_le forward.1) forward.2]

theorem accurate : Accurate start stop (getElapsedTime start stop) := by
  obtain ⟨above, below⟩ := @whole_sub start stop
  have later := forward.1
  rw [Accurate, forward.getElapsedTime_eq]
  omega

/-- A limit that the elapsed time has reached has passed, up to a millisecond. -/
theorem passed {limit : Int} (reached : limit ≤ (getElapsedTime start stop).toNat) :
    Passed start stop limit := by
  obtain ⟨above, below⟩ := @whole_sub start stop
  rw [forward.getElapsedTime_eq] at reached
  rw [Passed]
  omega

end Forward

/-- An accurate time from readings that are not in order has wrapped to zero. -/
theorem forward_of_accurate (accurate : Accurate start stop (getElapsedTime start stop))
    (passed : Passed start stop 0) : Forward start stop := by
  obtain ⟨above, below⟩ := @whole_sub start stop
  have wrapped := @getElapsedTime_toNat start stop
  rw [Accurate] at accurate
  rw [Passed] at passed
  simp only [Forward, UInt64.size] at *
  omega

/-- A tick before the timeout at most makes a new attempt. -/
theorem onTick_answered {timeout elapsed : Nat} {state : TcpClient.Retry.State}
    (answered : .answered none ∈ (TcpClient.Retry.onTick timeout elapsed state).2) :
    timeout ≤ elapsed := by
  by_contra early
  simp only [TcpClient.Retry.onTick, TcpClient.Retry.connect, early, if_false,
    Transition.Reaction.andThen] at answered
  split at answered <;> simp at answered

theorem step_answered {timeout elapsed : Nat} {state following : TcpClient.Retry.State}
    {out : List TcpClient.Retry.Event}
    (moved : TcpClient.Retry.step timeout state (.tick elapsed) = some (following, out))
    (answered : .answered none ∈ out) : timeout ≤ elapsed := by
  simp only [TcpClient.Retry.step] at moved
  split at moved
  · have reaction := Option.some.inj moved
    split at reaction
    · exact onTick_answered (by rw [reaction]; exact answered)
    · obtain ⟨-, rfl⟩ := Prod.mk.inj reaction
      cases answered
  · cases moved

/-- The time that the code measures never runs ahead exactly when the later reading, cut to
whole milliseconds, is not behind the earlier one, and the time between them fits in the word. -/
theorem inTime_iff (start stop : Timeval) : InTime start stop ↔ Forward start stop := by
  constructor
  · intro inTime
    exact forward_of_accurate inTime.elapsed (inTime.handler true 0 (by simp [onTick]))
  · intro forward
    exact {
      elapsed := forward.accurate
      sinceNow := forward.accurate
      handler := by
        intro handled interval ran
        simp only [onTick, Bool.and_eq_true, decide_eq_true_eq] at ran
        exact forward.passed (by exact_mod_cast ran.2)
      connect := by
        intro timeout state following out moved answered
        exact forward.passed (by exact_mod_cast step_answered moved answered)
      startLimit := by
        intro α config fields started limit
        simp only [startTimeout, decide_eq_true_eq, started] at limit
        exact forward.passed (Int.le_of_lt limit.2) }

/-- The clock is set back by one second, from 2 to 1. -/
theorem inTime_fails : ¬ ∀ start stop : Timeval, InTime start stop := by
  intro always
  have inTime := always ⟨2, 0, by decide⟩ ⟨1, 0, by decide⟩
  exact absurd inTime.elapsed (by unfold Accurate; decide)

end Nexer.Timer

import AnalogX.Kernel.SystemTime

namespace AnalogX
namespace Adc

/-!
# The timing of the sampling loop

Every cycle of `system_adc_worker` reads the system time at its start, does its
work, and sleeps for the period of the configured rate less the time the work
took.  Both subtractions are unsigned.  The elapsed time is right across a wrap
of the counter; the sleeping time is right as long as the work stayed below the
period, and wraps to several days as soon as it did not.

A rate of zero has no period: the division of the source is undefined there, and
the sleep argument has no value.
-/

open Kernel

/-- `1000 / get_sample_rate()`.  Both operands are nonnegative, so the signed
quotient of the source is the unsigned one; it does not exist for a rate of zero. -/
def sampleInterval (rate : UInt8) : Option UInt32 :=
  if rate = 0 then none else some (1000 / rate.toUInt32)

/-- The argument of `chThdSleep` at the end of a cycle that started at `start`. -/
def sleepArgument (rate : UInt8) (start now : Systime) : Option Systime :=
  let workTime := now - start
  (sampleInterval rate).map fun interval => ms2st interval - workTime

/-- A sample rate as the loop expects it, in the range `1..255`. -/
structure ConfiguredRate where
  hz : UInt8
  positive : hz ≠ 0

namespace ConfiguredRate

/-- The period of the rate, in ticks. -/
def period (rate : ConfiguredRate) : Systime :=
  ms2st (1000 / rate.hz.toUInt32)

theorem hz_bounds (rate : ConfiguredRate) : 1 ≤ rate.hz.toNat ∧ rate.hz.toNat ≤ 255 := by
  have nonzero : rate.hz.toNat ≠ 0 := fun zero => rate.positive (UInt8.toNat_inj.mp zero)
  have bounded := rate.hz.toNat_lt
  omega

/-- Ten ticks for each whole millisecond of the interval. -/
theorem toNat_period (rate : ConfiguredRate) :
    rate.period.toNat = 10 * (1000 / rate.hz.toNat) := by
  have interval : (1000 / rate.hz.toUInt32).toNat = 1000 / rate.hz.toNat := by
    rw [UInt32.toNat_div, UInt8.toNat_toUInt32]
    rfl
  unfold period
  rw [toNat_ms2st, interval]
  rw [interval]
  exact Nat.le_trans (Nat.div_le_self _ _) (by decide)

/-- The period is between three milliseconds and one second. -/
theorem period_bounds (rate : ConfiguredRate) :
    30 ≤ rate.period.toNat ∧ rate.period.toNat ≤ 10000 := by
  have bounds := rate.hz_bounds
  have lower : 3 ≤ 1000 / rate.hz.toNat :=
    (Nat.le_div_iff_mul_le bounds.1).mpr (by omega)
  have upper : 1000 / rate.hz.toNat ≤ 1000 := Nat.div_le_self _ _
  rw [toNat_period]
  omega

theorem sampleInterval_eq (rate : ConfiguredRate) :
    sampleInterval rate.hz = some (1000 / rate.hz.toUInt32) := by
  unfold sampleInterval
  rw [if_neg rate.positive]

/-- The sleep argument after `work` ticks does not depend on the starting time. -/
theorem sleepArgument_eq (rate : ConfiguredRate) (start : Systime) (work : Nat) :
    sleepArgument rate.hz start (after start work) =
      some (rate.period - UInt32.ofNat work) := by
  unfold sleepArgument
  rw [rate.sampleInterval_eq, after_sub_start]
  rfl

/-- Its value, in terms of the elapsed ticks modulo `2 ^ 32`. -/
theorem toNat_sleep (rate : ConfiguredRate) (work : Nat) :
    (rate.period - UInt32.ofNat work).toNat =
      (2 ^ 32 - work % 2 ^ 32 + rate.period.toNat) % 2 ^ 32 := by
  rw [UInt32.toNat_sub, UInt32.toNat_ofNat']

end ConfiguredRate

/-- The value passed to `chThdSleep` is a proper delay within one period. -/
def SleepsWithinPeriod (rate : ConfiguredRate) (start now : Systime) : Prop :=
  ∃ ticks, sleepArgument rate.hz start now = some ticks ∧
    1 ≤ ticks.toNat ∧ ticks.toNat ≤ rate.period.toNat ∧
    ticks ≠ timeImmediate ∧ ticks ≠ timeInfinite

/-- For every rate, every starting time and every elapsed work time, the sleeping
time lies within the period exactly if the work, on the counter, stayed below it. -/
theorem sleepsWithinPeriod_iff (rate : ConfiguredRate) (start : Systime) (work : Nat) :
    SleepsWithinPeriod rate start (after start work) ↔
      work % 2 ^ 32 < rate.period.toNat := by
  have bounds := rate.period_bounds
  have elapsed : work % 2 ^ 32 < 2 ^ 32 := Nat.mod_lt _ (by decide)
  unfold SleepsWithinPeriod
  rw [rate.sleepArgument_eq]
  constructor
  · rintro ⟨ticks, value, least, most, _, _⟩
    cases value
    rw [rate.toNat_sleep] at least most
    omega
  · intro short
    have value : (rate.period - UInt32.ofNat work).toNat =
        rate.period.toNat - work % 2 ^ 32 := by
      rw [rate.toNat_sleep]
      omega
    refine ⟨_, rfl, by omega, by omega, ?_, ?_⟩
    · intro immediate
      rw [immediate] at value
      have zero : timeImmediate.toNat = 0 := rfl
      omega
    · intro infinite
      rw [infinite] at value
      have largest : timeInfinite.toNat = 2 ^ 32 - 1 := rfl
      omega

/-- At the default rate, a transmission that waits for its whole timeout of 1000
ticks leaves a sleep of `2 ^ 32 - 800` ticks. -/
theorem transmit_timeout_oversleeps :
    ¬ SleepsWithinPeriod ⟨50, by decide⟩ 0 (after 0 1000) := by
  rw [sleepsWithinPeriod_iff]
  decide

example : sleepArgument 50 0 (after 0 1000) = some 4294966496 := by decide

/-! ## Cycle starts over a run -/

section Cycles

variable (chThdSleep : Systime → Systime → Systime)

/-- The start of the following cycle, given what the kernel makes of the sleep:
`chThdSleep now ticks` is the time at which the thread resumes. -/
def nextCycleStart (rate : UInt8) (start : Systime) (work : Nat) : Option Systime :=
  let now := after start work
  (sleepArgument rate start now).map (chThdSleep now)

/-- The start of the `k`-th cycle when cycle `k` works for `work k` ticks. -/
def cycleStart (rate : UInt8) (t0 : Systime) (work : Nat → Nat) : Nat → Option Systime
  | 0 => some t0
  | k + 1 =>
      (cycleStart rate t0 work k).bind fun start => nextCycleStart chThdSleep rate start (work k)

variable {chThdSleep}

/-- One cycle takes exactly one period, however long its work was. -/
theorem nextCycleStart_eq (rate : ConfiguredRate) (start : Systime) {work : Nat}
    (precise : ∀ now ticks, stTimedelta ≤ ticks → chThdSleep now ticks = now + ticks)
    (short : work + 2 ≤ rate.period.toNat) :
    nextCycleStart chThdSleep rate.hz start work = some (after start rate.period.toNat) := by
  have bounds := rate.period_bounds
  have enough : stTimedelta ≤ rate.period - UInt32.ofNat work := by
    apply UInt32.le_iff_toNat_le.mpr
    rw [rate.toNat_sleep]
    change 2 ≤ _
    omega
  dsimp only [nextCycleStart]
  rw [rate.sleepArgument_eq, Option.map_some, precise _ _ enough]
  congr 1
  unfold after
  rw [UInt32.ofNat_toNat, add_assoc, add_sub_cancel]

/-- No cumulative drift: the cycles of a run start exactly one period apart, on
the wrapping counter, for every sequence of work times that leave room to sleep. -/
theorem cycleStart_without_drift (rate : ConfiguredRate) (t0 : Systime) (work : Nat → Nat)
    (precise : ∀ now ticks, stTimedelta ≤ ticks → chThdSleep now ticks = now + ticks)
    (short : ∀ k, work k ≤ rate.period.toNat - 2) (k : Nat) :
    ∃ start, cycleStart chThdSleep rate.hz t0 work k = some start ∧
      start.toNat = (t0.toNat + k * rate.period.toNat) % 2 ^ 32 := by
  have bounds := rate.period_bounds
  have starts : cycleStart chThdSleep rate.hz t0 work k =
      some (after t0 (k * rate.period.toNat)) := by
    induction k with
    | zero => rw [cycleStart, Nat.zero_mul, after_zero]
    | succ k inductionHypothesis =>
        have room : work k + 2 ≤ rate.period.toNat := by
          have limit := short k
          omega
        rw [cycleStart, inductionHypothesis, Option.bind_some,
          nextCycleStart_eq rate _ precise room, after_after, Nat.succ_mul]
  exact ⟨_, starts, toNat_after _ _⟩

/-- Sampling at 50 Hz from just before the wrap of the counter, with work times
that alternate between nothing and all that is allowed. -/
theorem cycleStart_without_drift_at_wrap :
    (∀ k : Nat, (if k % 2 = 0 then 0 else 198) ≤
        (ConfiguredRate.mk 50 (by decide)).period.toNat - 2) ∧
      ∃ start, cycleStart (fun now ticks => now + ticks) 50 4294967290
          (fun k => if k % 2 = 0 then 0 else 198) 3 = some start ∧
        start.toNat = (4294967290 + 3 * 200) % 2 ^ 32 := by
  have period : (ConfiguredRate.mk 50 (by decide)).period.toNat = 200 := by decide
  have short : ∀ k : Nat, (if k % 2 = 0 then 0 else 198) ≤
      (ConfiguredRate.mk 50 (by decide)).period.toNat - 2 := by
    intro k
    rw [period]
    split <;> decide
  have run := cycleStart_without_drift ⟨50, by decide⟩ 4294967290
    (fun k => if k % 2 = 0 then 0 else 198) (fun now ticks _ => rfl) short 3
  rw [period] at run
  exact ⟨short, run⟩

end Cycles

end Adc
end AnalogX

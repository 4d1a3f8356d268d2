import Mathlib.Data.UInt
import Mathlib.Tactic.Common

namespace AnalogX
namespace Kernel

/-!
# The system timer and its conversion macros

`systime_t` is the 32-bit tick counter of the kernel (`CH_CFG_ST_RESOLUTION` is
32), so every time and every difference of times is a `UInt32` and wraps like
one.  The conversions below are the macros of `chvt.h` with the tick frequency
of `chconf.h`; on this target `uint32_t` and `unsigned long` have the same
width, so all of their arithmetic is 32-bit arithmetic.
-/

/-- `systime_t` of the kernel. -/
abbrev Systime : Type := UInt32

/-- `CH_CFG_ST_FREQUENCY`. -/
def stFrequency : UInt32 := 10000

/-- `CH_CFG_ST_TIMEDELTA`, the smallest delay the tick-less timer can serve. -/
def stTimedelta : Systime := 2

/-- `TIME_IMMEDIATE`. -/
def timeImmediate : Systime := 0

/-- `TIME_INFINITE`, that is `(systime_t)-1`. -/
def timeInfinite : Systime := 4294967295

/-- `MS2ST`: milliseconds to ticks, rounded up. -/
def ms2st (msec : UInt32) : Systime :=
  (msec * stFrequency + 999) / 1000

/-- `ST2MS`: ticks to milliseconds, rounded up. -/
def st2ms (ticks : Systime) : UInt32 :=
  (ticks * 1000 + stFrequency - 1) / stFrequency

/-- As long as the product fits the counter, a millisecond is exactly ten ticks:
the rounding term never contributes. -/
theorem toNat_ms2st {msec : UInt32} (fits : msec.toNat ≤ 400000) :
    (ms2st msec).toNat = 10 * msec.toNat := by
  unfold ms2st stFrequency
  simp only [UInt32.toNat_div, UInt32.toNat_add, UInt32.toNat_mul, UInt32.reduceToNat]
  omega

/-- The time read `ticks` ticks after `start`, on the wrapping counter. -/
def after (start : Systime) (ticks : Nat) : Systime :=
  start + UInt32.ofNat ticks

/-- The counter difference forgets the starting time, also across a wrap. -/
theorem after_sub_start (start : Systime) (ticks : Nat) :
    after start ticks - start = UInt32.ofNat ticks := by
  unfold after
  rw [add_sub_cancel_left]

theorem after_zero (start : Systime) : after start 0 = start := by
  unfold after
  exact add_zero start

theorem after_after (start : Systime) (first second : Nat) :
    after (after start first) second = after start (first + second) := by
  unfold after
  rw [UInt32.ofNat_add, add_assoc]

/-- Reading the counter in full: it is the unbounded time modulo `2 ^ 32`. -/
theorem toNat_after (start : Systime) (ticks : Nat) :
    (after start ticks).toNat = (start.toNat + ticks) % 2 ^ 32 := by
  unfold after
  rw [UInt32.toNat_add, UInt32.toNat_ofNat', Nat.add_mod_mod]

end Kernel
end AnalogX

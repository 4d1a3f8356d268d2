import AnalogX.Firmware.State
import AnalogX.Foundations.Numerals

namespace AnalogX
namespace Firmware

/-!
# The time stamps of the console

`log_info` and `log_debug` begin their lines with the milliseconds since the start
of the system, printed by the `%i` of `chprintf`.  The conversion `ST2MS` multiplies
the tick counter before it divides, all in thirty-two bits, so the stamp is right
only while the product fits.  The value then goes through a signed format.  No
result of the conversion reaches the sign bit.  The digits of `%i` are right for every
other argument as well, if the negation of the least one is taken to wrap.
-/

open Kernel Foundations Foundations.Numerals

/-! ## The format `%i` -/

/-- `ch_ltoa` with the radix ten.  The characters are stored from the end of the
filler on downwards, so each one is put in front of the others.  The radix is
unsigned, and so is the division. -/
def chLtoa (num : Nat) (stored : List UInt8) : List UInt8 :=
  let stored := UInt8.ofNat ('0'.toNat + num % 10) :: stored
  if num / 10 = 0 then stored else chLtoa (num / 10) stored
termination_by num
decreasing_by omega

/-- The characters of `%i`, with a negation that wraps. -/
def formatI (value : Int32) : List UInt8 :=
  if value < 0 then minus :: chLtoa (-value).toUInt32.toNat [] else chLtoa value.toUInt32.toNat []

theorem chLtoa_eq (num : Nat) (stored : List UInt8) :
    chLtoa num stored = digitsText (loopDigits 10 num) ++ stored := by
  fun_induction chLtoa num stored with
  | case1 num stored written last =>
      have digit : digitByte (num % 10) = UInt8.ofNat ('0'.toNat + num % 10) :=
        if_pos (Nat.mod_lt num (by decide))
      rw [loopDigits_eq_cons (by decide), if_pos last, digitsText_cons, digit]
      rfl
  | case2 num stored written continues inductionHypothesis =>
      have digit : digitByte (num % 10) = UInt8.ofNat ('0'.toNat + num % 10) :=
        if_pos (Nat.mod_lt num (by decide))
      rw [inductionHypothesis, loopDigits_eq_cons (by decide) num, if_neg continues,
        digitsText_cons, digit, List.append_assoc]
      rfl

/-- The signed reading of a word. -/
theorem toInt_eq_toNat (value : Int32) :
    value.toInt = if value.toUInt32.toNat < 2 ^ 31 then (value.toUInt32.toNat : Int)
      else (value.toUInt32.toNat : Int) - 2 ^ 32 := by
  change value.toBitVec.toInt = _
  rw [← Int32.toNat_toBitVec, BitVec.toInt_eq_toNat_cond]
  split <;> split <;> omega

/-- The magnitude of a number as the unsigned division sees it.  At the least value
the negation wraps to the right unsigned number. -/
theorem toNat_magnitude (value : Int32) :
    (if value < 0 then (-value).toUInt32 else value.toUInt32).toNat = value.toInt.natAbs := by
  have word := value.toUInt32.toNat_lt
  have signed := toInt_eq_toNat value
  have sign : value < 0 ↔ value.toInt < 0 := Int32.lt_iff_toInt_lt
  by_cases negative : value < 0
  · have below := sign.mp negative
    have size : UInt32.size = 2 ^ 32 := rfl
    rw [if_pos negative, Int32.toUInt32_neg, UInt32.toNat_neg, size]
    split at signed <;> omega
  · have above := sign.not.mp negative
    rw [if_neg negative]
    split at signed <;> omega

/-- The format is right for every argument. -/
theorem formatI_eq (value : Int32) : formatI value = numeral 10 value.toInt := by
  have magnitude := toNat_magnitude value
  have sign : value < 0 ↔ value.toInt < 0 := Int32.lt_iff_toInt_lt
  unfold formatI numeral
  by_cases negative : value < 0
  · rw [if_pos negative] at magnitude
    rw [if_pos negative, if_pos (sign.mp negative), chLtoa_eq, List.append_nil, magnitude]
    rfl
  · rw [if_neg negative] at magnitude
    rw [if_neg negative, if_neg (sign.not.mp negative), chLtoa_eq, List.append_nil, magnitude]
    rfl

/-! ## The stamp of a line -/

/-- The blank of the format `"%i "`. -/
def blank : UInt8 := ' '.toUInt8

/-- What stands before the text of a line that is printed at the given time. -/
def linePrefix (now : Systime) : Effect → List UInt8
  | .log true _ _ => formatI (st2ms now).toInt32 ++ [blank]
  | _ => []

/-- The number before the first blank of a line. -/
def stampOf (text : List UInt8) : Option Int :=
  readNumeral 10 (text.takeWhile (· ≠ blank))

/-- The result of the conversion never reaches the sign. -/
theorem st2ms_lt (now : Systime) : (st2ms now).toNat < 2 ^ 31 := by
  unfold st2ms stFrequency
  rw [UInt32.toNat_div]
  change _ / 10000 < _
  have word := (now * 1000 + 10000 - 1).toNat_lt
  omega

/-- A stamped line shows the result of the conversion. -/
theorem stampOf_linePrefix (now : Systime) (format : String) (arguments : List (Option Nat)) :
    stampOf (linePrefix now (.log true format arguments)) = some ((st2ms now).toNat : Int) := by
  have value : (st2ms now).toInt32.toInt = ((st2ms now).toNat : Int) := by
    rw [toInt_eq_toNat, UInt32.toUInt32_toInt32, if_pos (st2ms_lt now)]
  have noBlank : blank ∉ numeral 10 ((st2ms now).toNat : Int) :=
    notMem_numeral (by decide) (by decide) _ (by decide) (by decide)
  unfold stampOf linePrefix
  rw [formatI_eq, value, List.takeWhile_append_of_pos
    (fun byte member => decide_eq_true (ne_of_mem_of_not_mem member noBlank)),
    List.takeWhile_cons_of_neg (by simp), List.append_nil,
    readNumeral_numeral (by decide) (by decide)]

/-- The milliseconds from the start of the system to a tick, rounded up. -/
def elapsedMilliseconds (now : Systime) : Int :=
  ⌈((now.toNat : ℚ) * 1000) / stFrequency.toNat⌉

theorem elapsedMilliseconds_eq (now : Systime) :
    elapsedMilliseconds now = ((now.toNat * 1000 + 9999) / 10000 : Nat) := by
  have frequency : stFrequency.toNat = 10000 := rfl
  unfold elapsedMilliseconds
  rw [frequency, Int.ceil_eq_iff, Int.cast_natCast, Nat.cast_ofNat]
  have lower : 10000 * ((now.toNat * 1000 + 9999) / 10000) ≤ now.toNat * 1000 + 9999 :=
    Nat.mul_div_le _ _
  have upper : now.toNat * 1000 ≤ 10000 * ((now.toNat * 1000 + 9999) / 10000) := by
    omega
  generalize (now.toNat * 1000 + 9999) / 10000 = quotient at lower upper
  have lowerRat : 10000 * (quotient : ℚ) ≤ (now.toNat : ℚ) * 1000 + 9999 := by
    exact_mod_cast lower
  have upperRat : (now.toNat : ℚ) * 1000 ≤ 10000 * (quotient : ℚ) := by
    exact_mod_cast upper
  constructor <;> linarith

/-- The conversion is exact as long as the product and its rounding term fit the
counter, and wrong from there on. -/
theorem st2ms_eq_iff (now : Systime) :
    ((st2ms now).toNat : Int) = elapsedMilliseconds now ↔ now.toNat ≤ 4294957 := by
  have word := now.toNat_lt
  rw [elapsedMilliseconds_eq, Int.natCast_inj]
  unfold st2ms stFrequency
  simp only [UInt32.toNat_div, UInt32.toNat_sub, UInt32.toNat_add, UInt32.toNat_mul,
    UInt32.reduceToNat]
  omega

/-- Two lines printed at the given times show these times, in milliseconds rounded
up, and in their order. -/
def ShowTimes (earlier later : Systime) (first second : Effect) : Prop :=
  ∃ before after, stampOf (linePrefix earlier first) = some before ∧
    stampOf (linePrefix later second) = some after ∧ before ≤ after ∧
    before = elapsedMilliseconds earlier ∧ after = elapsedMilliseconds later

theorem elapsedMilliseconds_mono {earlier later : Systime} (ordered : earlier ≤ later) :
    elapsedMilliseconds earlier ≤ elapsedMilliseconds later := by
  have ticks : earlier.toNat ≤ later.toNat := UInt32.le_iff_toNat_le.mp ordered
  rw [elapsedMilliseconds_eq, elapsedMilliseconds_eq]
  omega

/-- For every two times in their order and all stamped lines printed at them, the
stamps are right and in order exactly if the later time is within the first 4294957
ticks. -/
theorem stamps_show_times_iff {earlier later : Systime} (ordered : earlier ≤ later)
    (firstFormat secondFormat : String) (firstArguments secondArguments : List (Option Nat)) :
    ShowTimes earlier later (.log true firstFormat firstArguments)
        (.log true secondFormat secondArguments) ↔ later.toNat ≤ 4294957 := by
  have ticks : earlier.toNat ≤ later.toNat := UInt32.le_iff_toNat_le.mp ordered
  unfold ShowTimes
  simp only [stampOf_linePrefix, Option.some.injEq]
  constructor
  · rintro ⟨before, after, _, shown, _, _, right⟩
    rw [← shown] at right
    exact (st2ms_eq_iff later).mp right
  · intro early
    have first := (st2ms_eq_iff earlier).mpr (ticks.trans early)
    have second := (st2ms_eq_iff later).mpr early
    refine ⟨_, _, first, second, elapsedMilliseconds_mono ordered, rfl, rfl⟩

/-- The first line of a run and one printed just before the conversion overflows. -/
theorem stamps_show_times_until_overflow :
    (0 : Systime) ≤ 4294957 ∧
      ShowTimes 0 4294957 (.log true "first" []) (.log true "last" []) :=
  ⟨by decide, (stamps_show_times_iff (by decide) "first" "last" [] []).mpr (by decide)⟩

/-- One tick later the stamp starts again from zero. -/
theorem stamps_restart :
    (4294957 : Systime) ≤ 4294958 ∧
      ¬ ShowTimes 4294957 4294958 (.log true "last" []) (.log true "next" []) :=
  ⟨by decide, (stamps_show_times_iff (by decide) "last" "next" [] []).not.mpr (by decide)⟩

example : (st2ms 4294957, st2ms 4294958) = (429496, 0) := by decide

end Firmware
end AnalogX

import AnalogX.Foundations.Buffers
import AnalogX.Foundations.Numerals

namespace AnalogX
namespace Util

/-!
# The integer converters of `modp_numtoa.c`

Every converter writes the digits of its argument from the least significant one
on, then the sign and the terminating NUL, and reverses what it has written in
place.  The digit loops use the truncating division of C.  A quotient never
exceeds its dividend in absolute value, so the loops run over integers; the width
of the argument matters only where a converter negates it, and there the machine
type wraps.

What a converter leaves in the buffer is computed once, as a list: the reversed
remainders, each turned into a character.  Correctness, the failure at the least
values and the number of bytes needed are then facts about that list.
-/

open Foundations Foundations.Numerals

/-! ## In-place reversal -/

/-- `strreverse`, between two offsets that are both included. -/
def strreverse (first last : Nat) (str : Buffer UInt8) : Buffer UInt8 :=
  if first < last then strreverse (first + 1) (last - 1) (str.exchange first last) else str
termination_by last - first

/-- The loop reverses the list stored between the two offsets and nothing else. -/
theorem strreverse_storeAll (str : Buffer UInt8) (start : Nat) (text : List UInt8) :
    strreverse start (start + text.length - 1) (str.storeAll start text) =
      str.storeAll start text.reverse := by
  induction text using List.bidirectionalRec generalizing str start with
  | nil =>
      rw [strreverse, if_neg (by rw [List.length_nil]; omega)]
      rfl
  | singleton byte =>
      rw [strreverse, if_neg (by rw [List.length_singleton]; omega)]
      rfl
  | cons_append head middle last inductionHypothesis =>
      have position : start + (head :: (middle ++ [last])).length - 1 =
          start + 1 + middle.length := by
        rw [List.length_cons, List.length_append, List.length_singleton]
        omega
      rw [position, strreverse, if_pos (by omega), Buffer.exchange_ends, Buffer.storeAll_ends,
        inductionHypothesis, List.reverse_cons, List.reverse_append, List.reverse_singleton,
        List.singleton_append, List.cons_append, Buffer.storeAll_ends, List.length_reverse]

/-- Reversing a terminated string keeps its terminator in place. -/
theorem strreverse_terminated (str : Buffer UInt8) (text : List UInt8) :
    strreverse 0 (text.length - 1) (str.storeAll 0 (text ++ [0])) =
      str.storeAll 0 (text.reverse ++ [0]) := by
  have reversed := strreverse_storeAll (str.store text.length 0) 0 text
  rw [Nat.zero_add] at reversed
  rw [Buffer.storeAll_concat, Nat.zero_add,
    Buffer.store_storeAll_comm _ _ (Or.inr (by rw [Nat.zero_add])), reversed,
    Buffer.storeAll_concat, Nat.zero_add, List.length_reverse,
    Buffer.store_storeAll_comm _ _ (Or.inr (by rw [Nat.zero_add, List.length_reverse]))]

/-- Terminate what was written up to the pointer, and reverse it. -/
def terminateReversed (wstr : Cursor UInt8) : Buffer UInt8 :=
  strreverse 0 (wstr.ptr - 1) (wstr.push 0).buffer

theorem terminateReversed_write (str : Buffer UInt8) (text : List UInt8) :
    terminateReversed ((Cursor.mk 0 str).write text) = str.storeAll 0 (text.reverse ++ [0]) := by
  unfold terminateReversed
  rw [Cursor.buffer_write_push, Cursor.ptr_write, Nat.zero_add, strreverse_terminated]

/-! ## The decimal converters -/

/-- `48 + (value % 10)`, stored as a `char`. -/
def decimalByte (remainder : Int) : UInt8 :=
  UInt8.ofInt (48 + remainder)

/-- `do *wstr++ = 48 + (value % 10); while (value /= 10);` -/
def writeDigits (value : Int) (wstr : Cursor UInt8) : Cursor UInt8 :=
  let wstr := wstr.push (decimalByte (value.tmod 10))
  if value.tdiv 10 = 0 then wstr else writeDigits (value.tdiv 10) wstr
termination_by value.natAbs
decreasing_by
  rename_i continues
  have nonzero : value.natAbs ≠ 0 := by
    intro zero
    rw [Int.natAbs_eq_zero.mp zero] at continues
    exact continues (Int.zero_tdiv 10)
  rw [Int.natAbs_tdiv]
  exact Nat.div_lt_self (by omega) (by decide)

private theorem decimal_cons (value : Int) :
    signedDigits 10 value = value.tmod 10 ::
      (if value.tdiv 10 = 0 then [] else signedDigits 10 (value.tdiv 10)) :=
  signedDigits_eq_cons (by decide) value

/-- What the loop writes. -/
theorem writeDigits_eq (value : Int) (wstr : Cursor UInt8) :
    writeDigits value wstr = wstr.write ((signedDigits 10 value).map decimalByte) := by
  fun_induction writeDigits value wstr with
  | case1 value wstr written last =>
      rw [decimal_cons, if_pos last, List.map_singleton, Cursor.write_cons]
      rfl
  | case2 value wstr written continues inductionHypothesis =>
      rw [inductionHypothesis, decimal_cons value, if_neg continues, List.map_cons,
        Cursor.write_cons]

/-- The sign as text. -/
def signText (negative : Bool) : List UInt8 :=
  if negative then [minus] else []

/-- `if (sign < 0) *wstr++ = '-';` -/
def writeSign (negative : Bool) (wstr : Cursor UInt8) : Cursor UInt8 :=
  if negative then wstr.push minus else wstr

theorem writeSign_eq (negative : Bool) (wstr : Cursor UInt8) :
    writeSign negative wstr = wstr.write (signText negative) := by
  cases negative <;> rfl

/-- The common body of the decimal converters: the digits of `value`, a sign if
there is one, the terminator, and the reversal. -/
def convert10 (negative : Bool) (value : Int) (str : Buffer UInt8) : Buffer UInt8 :=
  terminateReversed (writeSign negative (writeDigits value ⟨0, str⟩))

/-- `modp_itoa10`. -/
def modpItoa10 (value : Int32) (str : Buffer UInt8) : Buffer UInt8 :=
  convert10 (value < 0) (if value < 0 then -value else value).toInt str

/-- `modp_uitoa10`. -/
def modpUitoa10 (value : UInt32) (str : Buffer UInt8) : Buffer UInt8 :=
  convert10 false value.toNat str

/-- `modp_ltoa10`. -/
def modpLtoa10 (value : Int64) (str : Buffer UInt8) : Buffer UInt8 :=
  convert10 (value < 0) (if value < 0 then -value else value).toInt str

/-- `modp_ultoa10`. -/
def modpUltoa10 (value : UInt64) (str : Buffer UInt8) : Buffer UInt8 :=
  convert10 false value.toNat str

/-- The text which `convert10` leaves in the buffer. -/
def decimalText (negative : Bool) (value : Int) : List UInt8 :=
  signText negative ++ ((signedDigits 10 value).map decimalByte).reverse

theorem reverse_decimalText (negative : Bool) (value : Int) :
    (decimalText negative value).reverse =
      (signedDigits 10 value).map decimalByte ++ signText negative := by
  unfold decimalText
  rw [List.reverse_append, List.reverse_reverse]
  cases negative <;> rfl

/-- The digits and the sign are the text backwards. -/
theorem writeSign_writeDigits (negative : Bool) (value : Int) (wstr : Cursor UInt8) :
    writeSign negative (writeDigits value wstr) =
      wstr.write (decimalText negative value).reverse := by
  rw [writeDigits_eq, writeSign_eq, ← Cursor.write_append, reverse_decimalText]

theorem convert10_eq (negative : Bool) (value : Int) (str : Buffer UInt8) :
    convert10 negative value str = str.storeAll 0 (decimalText negative value ++ [0]) := by
  unfold convert10
  rw [writeSign_writeDigits, terminateReversed_write, List.reverse_reverse]

theorem length_decimalText (negative : Bool) (value : Int) :
    (decimalText negative value).length =
      (loopDigits 10 value.natAbs).length + if negative then 1 else 0 := by
  unfold decimalText
  rw [List.length_append, List.length_reverse, List.length_map, length_signedDigits,
    Nat.add_comm]
  cases negative <;> rfl

theorem decimalByte_digit {digit : Nat} (decimal : digit < 10) :
    decimalByte digit = digitByte digit := by
  have every : ∀ digit < 10, decimalByte (digit : Nat) = digitByte digit := by decide
  exact every digit decimal

/-- None of the characters is a NUL, whatever the sign of the value. -/
theorem nul_notMem_decimalText (negative : Bool) (value : Int) :
    (0 : UInt8) ∉ decimalText negative value := by
  have every : ∀ digit < 10, decimalByte (digit : Nat) ≠ 0 ∧ decimalByte (-(digit : Nat)) ≠ 0 := by
    decide
  unfold decimalText
  intro member
  rcases List.mem_append.mp member with signed | digit
  · cases negative with
    | false => cases signed
    | true => exact absurd (List.mem_singleton.mp signed) (by decide)
  · rw [List.mem_reverse, List.mem_map] at digit
    rcases digit with ⟨remainder, inside, byte⟩
    have nonzero := every remainder.natAbs (natAbs_lt_of_mem_signedDigits (by decide) inside)
    rcases Int.natAbs_eq remainder with positive | negative
    · rw [← positive] at nonzero
      exact nonzero.1 byte
    · rw [← negative] at nonzero
      exact nonzero.2 byte

/-- On a nonnegative value the loop writes the digits of the numeral. -/
theorem map_decimalByte_of_nonneg {value : Int} (nonnegative : 0 ≤ value) :
    (signedDigits 10 value).map decimalByte = (loopDigits 10 value.natAbs).map digitByte := by
  rw [signedDigits_of_nonneg nonnegative, List.map_map]
  apply List.map_congr_left
  intro digit inside
  exact decimalByte_digit (loopDigits_lt_base (by decide) inside)

/-- On the absolute value of a number the text is the numeral of the number. -/
theorem decimalText_eq_numeral {negative : Bool} {value number : Int}
    (magnitude : value = number.natAbs) (sign : negative = true ↔ number < 0) :
    decimalText negative value = numeral 10 number := by
  unfold decimalText numeral digitsText signText
  rw [magnitude, map_decimalByte_of_nonneg (Int.natCast_nonneg _), Int.natAbs_natCast]
  simp only [sign]

/-- The character of a negative remainder is not a digit. -/
theorem readDigit_decimalByte_neg {remainder : Int} (least : -10 < remainder)
    (negative : remainder < 0) : readDigit 10 (decimalByte remainder) = none := by
  have every : ∀ digit < 10, digit ≠ 0 → readDigit 10 (decimalByte (-(digit : Nat))) = none := by
    decide
  have value := every remainder.natAbs (by omega) (by omega)
  rwa [Int.ofNat_natAbs_of_nonpos negative.le, neg_neg] at value

/-- A negative value that is not a multiple of ten shows in its last character. -/
theorem decimalText_not_canonical {value number : Int} (negative : value < 0)
    (remainder : value.tmod 10 ≠ 0) : ¬ Canonical 10 (decimalText true value) number := by
  intro canonical
  have bounds : -10 < value.tmod 10 ∧ value.tmod 10 < 0 := by
    have signed : value.tmod 10 = value.sign * ((value.natAbs % 10 : Nat) : Int) :=
      tmod_eq_sign_mul 10 value
    rw [Int.sign_eq_neg_one_of_neg negative] at signed
    omega
  have shown : decimalByte (value.tmod 10) ∈ unsigned (decimalText true value) := by
    change _ ∈ ((signedDigits 10 value).map decimalByte).reverse
    rw [List.mem_reverse, decimal_cons, List.map_cons]
    exact List.mem_cons_self
  have digit := canonical.digits _ shown
  rw [readDigit_decimalByte_neg bounds.1 bounds.2] at digit
  cases digit

/-! ## Canonical numerals -/

/-- The buffer holds the canonical numeral of the value, terminated by a NUL. -/
def WritesNumeral (base : Nat) (value : Int) (final : Buffer UInt8) : Prop :=
  ∃ text, final.Holds 0 text ∧ Canonical base text value

/-- A buffer that was filled with a numeral and its terminator. -/
theorem writesNumeral_storeAll {base : Nat} (proper : 1 < base) (small : base ≤ 36)
    (value : Int) (str : Buffer UInt8) :
    WritesNumeral base value (str.storeAll 0 (numeral base value ++ [0])) :=
  ⟨numeral base value, str.storeAll_holds [] (nul_notMem_numeral proper small value),
    canonical_numeral proper small value⟩

/-- The converters succeed where the digits are those of the absolute value. -/
theorem convert10_writesNumeral {negative : Bool} {value number : Int}
    (magnitude : value = number.natAbs) (sign : negative = true ↔ number < 0)
    (str : Buffer UInt8) : WritesNumeral 10 number (convert10 negative value str) := by
  rw [convert10_eq, decimalText_eq_numeral magnitude sign]
  exact writesNumeral_storeAll (by decide) (by decide) number str

/-- They fail where the negation left the value negative. -/
theorem convert10_not_writesNumeral {value number : Int} (negative : value < 0)
    (remainder : value.tmod 10 ≠ 0) (str : Buffer UInt8) :
    ¬ WritesNumeral 10 number (convert10 true value str) := by
  rintro ⟨text, holds, canonical⟩
  rw [convert10_eq] at holds
  rw [holds.unique (str.storeAll_holds [] (nul_notMem_decimalText true value))] at canonical
  exact decimalText_not_canonical negative remainder canonical

/-- Except at the least value, negation gives the absolute value. -/
theorem toInt_magnitude32 {value : Int32} (representable : value ≠ Int32.minValue) :
    (if value < 0 then -value else value).toInt = value.toInt.natAbs := by
  have least := value.le_toInt
  have most := value.toInt_lt
  have above : value.toInt ≠ -2 ^ 31 := fun least => representable (Int32.toInt_inj.mp least)
  by_cases negative : value < 0
  · have below : value.toInt < 0 := Int32.lt_iff_toInt_lt.mp negative
    rw [if_pos negative, Int32.toInt_neg, Int.bmod_eq_of_le (by omega) (by omega)]
    omega
  · have above : ¬ value.toInt < 0 := fun below => negative (Int32.lt_iff_toInt_lt.mpr below)
    rw [if_neg negative]
    omega

theorem toInt_magnitude64 {value : Int64} (representable : value ≠ Int64.minValue) :
    (if value < 0 then -value else value).toInt = value.toInt.natAbs := by
  have least := value.le_toInt
  have most := value.toInt_lt
  have above : value.toInt ≠ -2 ^ 63 := fun least => representable (Int64.toInt_inj.mp least)
  by_cases negative : value < 0
  · have below : value.toInt < 0 := Int64.lt_iff_toInt_lt.mp negative
    rw [if_pos negative, Int64.toInt_neg, Int.bmod_eq_of_le (by omega) (by omega)]
    omega
  · have above : ¬ value.toInt < 0 := fun below => negative (Int64.lt_iff_toInt_lt.mpr below)
    rw [if_neg negative]
    omega

theorem modpItoa10_writesNumeral_iff (value : Int32) (str : Buffer UInt8) :
    WritesNumeral 10 value.toInt (modpItoa10 value str) ↔ value ≠ Int32.minValue := by
  constructor
  · rintro writes rfl
    exact convert10_not_writesNumeral (by decide) (by decide) str writes
  · intro representable
    apply convert10_writesNumeral (toInt_magnitude32 representable)
    rw [decide_eq_true_iff]
    exact Int32.lt_iff_toInt_lt

theorem modpLtoa10_writesNumeral_iff (value : Int64) (str : Buffer UInt8) :
    WritesNumeral 10 value.toInt (modpLtoa10 value str) ↔ value ≠ Int64.minValue := by
  constructor
  · rintro writes rfl
    exact convert10_not_writesNumeral (by decide) (by decide) str writes
  · intro representable
    apply convert10_writesNumeral (toInt_magnitude64 representable)
    rw [decide_eq_true_iff]
    exact Int64.lt_iff_toInt_lt

/-- The unsigned converters have no sign to lose. -/
theorem convert10_unsigned (value : Nat) (str : Buffer UInt8) :
    WritesNumeral 10 value (convert10 false value str) := by
  apply convert10_writesNumeral rfl
  exact iff_of_false Bool.false_ne_true (by omega)

/-- For every argument and whatever the buffer contained, the converters write the
canonical decimal numeral, except the signed ones at the least value of their type. -/
theorem integer_converters_canonical_iff (str : Buffer UInt8) :
    (∀ value : Int32, WritesNumeral 10 value.toInt (modpItoa10 value str) ↔
        value ≠ Int32.minValue) ∧
      (∀ value : UInt32, WritesNumeral 10 value.toNat (modpUitoa10 value str)) ∧
      (∀ value : Int64, WritesNumeral 10 value.toInt (modpLtoa10 value str) ↔
        value ≠ Int64.minValue) ∧
      ∀ value : UInt64, WritesNumeral 10 value.toNat (modpUltoa10 value str) :=
  ⟨fun value => modpItoa10_writesNumeral_iff value str,
    fun value => convert10_unsigned value.toNat str,
    fun value => modpLtoa10_writesNumeral_iff value str,
    fun value => convert10_unsigned value.toNat str⟩

/-- At `INT32_MIN` the negation wraps, and the remainders stay negative. -/
theorem modpItoa10_minValue :
    ¬ WritesNumeral 10 Int32.minValue.toInt
      (modpItoa10 Int32.minValue (Buffer.fresh fun _ => 0)) :=
  convert10_not_writesNumeral (by decide) (by decide) _

/-! ## Selectable bases -/

/-- A base which `modp_itoaX` accepts. -/
structure Radix where
  base : Int32
  least : 2 ≤ base.toInt
  most : base.toInt ≤ 36

/-- The base as a natural number. -/
def Radix.number (radix : Radix) : Nat :=
  radix.base.toInt.toNat

theorem Radix.number_bounds (radix : Radix) : 1 < radix.number ∧ radix.number ≤ 36 := by
  have least := radix.least
  have most := radix.most
  unfold Radix.number
  omega

theorem Radix.toInt_base (radix : Radix) : radix.base.toInt = radix.number := by
  have least := radix.least
  unfold Radix.number
  omega

/-- The digit table of `modp_itoaX`, mirrored around the digit zero. -/
def digitTable : List UInt8 :=
  "zyxwvutsrqponmlkjihgfedcba9876543210123456789abcdefghijklmnopqrstuvwxyz".toList.map
    Char.toUInt8

/-- An access to the table, which has no value outside of it. -/
def digitTableAt (index : Int) : Option UInt8 :=
  if 0 ≤ index then digitTable[index.toNat]? else none

/-- The table serves remainders of either sign below the largest base. -/
theorem digitTableAt_remainder {remainder : Int} (small : remainder.natAbs < 36) :
    digitTableAt (35 + remainder) = some (digitByte remainder.natAbs) := by
  have every : ∀ digit < 36, digitTableAt (35 + (digit : Nat)) = some (digitByte digit) ∧
      digitTableAt (35 + -(digit : Nat)) = some (digitByte digit) := by
    decide
  have entries := every remainder.natAbs small
  rcases Int.natAbs_eq remainder with positive | negative
  · rw [← positive] at entries
    exact entries.1
  · rw [← negative] at entries
    exact entries.2

/-- The digit loop of `modp_itoaX`.  It returns the last `tmp_value` and the
advanced pointer, and has no result if it ever leaves the table. -/
def itoaXDigits (radix : Radix) (value : Int) (ptr : Cursor UInt8) :
    Option (Int × Cursor UInt8) :=
  let tmpValue := value
  let quotient := value.tdiv radix.base.toInt
  match digitTableAt (35 + (tmpValue - quotient * radix.base.toInt)) with
  | none => none
  | some digit =>
      let ptr := ptr.push digit
      if quotient = 0 then some (tmpValue, ptr) else itoaXDigits radix quotient ptr
termination_by value.natAbs
decreasing_by
  rename_i continues
  have least := radix.least
  have nonzero : value.natAbs ≠ 0 := by
    intro zero
    apply continues
    change value.tdiv _ = 0
    rw [Int.natAbs_eq_zero.mp zero, Int.zero_tdiv]
  rw [Int.natAbs_tdiv]
  exact Nat.div_lt_self (by omega) (by omega)

/-- `modp_itoaX`.  The loop at its end is that of `strreverse`. -/
def modpItoaX (value : Int32) (result : Buffer UInt8) (base : Int32) : Option (Buffer UInt8) :=
  if valid : 2 ≤ base.toInt ∧ base.toInt ≤ 36 then
    (itoaXDigits ⟨base, valid.1, valid.2⟩ value.toInt ⟨0, result⟩).map
      fun (tmpValue, ptr) => terminateReversed (writeSign (tmpValue < 0) ptr)
  else some (result.store 0 0)

/-- One iteration: the table access is in bounds and yields the digit of the
absolute value, so that negation is never needed. -/
theorem itoaXDigits_step (radix : Radix) (value : Int) (ptr : Cursor UInt8) :
    itoaXDigits radix value ptr =
      if value.tdiv radix.number = 0 then
        some (value, ptr.push (digitByte (value.natAbs % radix.number)))
      else
        itoaXDigits radix (value.tdiv radix.number)
          (ptr.push (digitByte (value.natAbs % radix.number))) := by
  have bounds := radix.number_bounds
  have remainder : value - value.tdiv radix.number * radix.number = value.tmod radix.number := by
    rw [Int.tmod_def, Int.mul_comm]
  have digit : (value.tmod radix.number).natAbs = value.natAbs % radix.number := by
    rw [Int.natAbs_tmod, Int.natAbs_natCast]
  have inTable : (value.tmod radix.number).natAbs < 36 := by
    rw [digit]
    exact (Nat.mod_lt _ (by omega)).trans_le bounds.2
  rw [itoaXDigits]
  dsimp only
  rw [radix.toInt_base, remainder, digitTableAt_remainder inTable, digit]

/-- The loop stays within the table and writes the digits of the absolute value.
The last number it divides is the most significant digit, with the sign of the value. -/
theorem itoaXDigits_eq (radix : Radix) (value : Int) (ptr : Cursor UInt8) :
    ∃ tmpValue, (tmpValue < 0 ↔ value < 0) ∧
      itoaXDigits radix value ptr =
        some (tmpValue, ptr.write ((loopDigits radix.number value.natAbs).map digitByte)) := by
  have bounds := radix.number_bounds
  induction measure : value.natAbs using Nat.strong_induction_on generalizing value ptr with
  | _ number inductionHypothesis =>
      have quotient : (value.tdiv radix.number).natAbs = value.natAbs / radix.number := by
        rw [Int.natAbs_tdiv, Int.natAbs_natCast]
        rfl
      rw [← measure, itoaXDigits_step, loopDigits_eq_cons bounds.1]
      by_cases last : value.tdiv radix.number = 0
      · refine ⟨value, Iff.rfl, ?_⟩
        rw [if_pos last, if_pos (by rw [← quotient, last]; rfl), List.map_singleton,
          Cursor.write_cons]
        rfl
      · have continues : value.natAbs / radix.number ≠ 0 := by
          rw [← quotient]
          exact Int.natAbs_ne_zero.mpr last
        have positive : 0 < value.natAbs := by
          apply Nat.pos_of_ne_zero
          intro zero
          rw [zero, Nat.zero_div] at continues
          exact continues rfl
        rcases inductionHypothesis (value.natAbs / radix.number)
          (by rw [← measure]; exact Nat.div_lt_self positive bounds.1)
          (value.tdiv radix.number) (ptr.push (digitByte (value.natAbs % radix.number)))
          quotient with ⟨tmpValue, sign, rest⟩
        refine ⟨tmpValue, ?_, ?_⟩
        · rw [sign, ← Int.sign_neg_iff, sign_tdiv_of_ne_zero last, Int.sign_neg_iff]
        · rw [if_neg last, if_neg continues, rest, List.map_cons, Cursor.write_cons]

/-- What `modp_itoaX` leaves in the buffer, for every value and every valid base. -/
theorem modpItoaX_eq (value : Int32) (result : Buffer UInt8) (radix : Radix) :
    modpItoaX value result radix.base =
      some (result.storeAll 0 (numeral radix.number value.toInt ++ [0])) := by
  rcases itoaXDigits_eq radix value.toInt ⟨0, result⟩ with ⟨tmpValue, sign, digits⟩
  have text : ((loopDigits radix.number value.toInt.natAbs).map digitByte ++
      signText (tmpValue < 0)).reverse = numeral radix.number value.toInt := by
    unfold numeral digitsText signText
    rw [List.reverse_append]
    simp only [decide_eq_true_eq, sign]
    split <;> rfl
  unfold modpItoaX
  rw [dif_pos ⟨radix.least, radix.most⟩, digits, Option.map_some]
  dsimp only
  rw [writeSign_eq, ← Cursor.write_append, terminateReversed_write, text]

/-- The conversion has a result for every value, so every access to the table is in
bounds.  The result is the canonical numeral, and in a fixed base no other value leaves
the same string. -/
theorem modpItoaX_round_trip (radix : Radix) (value : Int32) (result : Buffer UInt8) :
    ∃ final text, modpItoaX value result radix.base = some final ∧ final.Holds 0 text ∧
      Canonical radix.number text value.toInt ∧
      ∀ (other : Int32) (otherResult otherFinal : Buffer UInt8),
        modpItoaX other otherResult radix.base = some otherFinal →
          otherFinal.Holds 0 text → other = value := by
  have bounds := radix.number_bounds
  have canonical := canonical_numeral bounds.1 bounds.2
  have clean := nul_notMem_numeral bounds.1 bounds.2
  refine ⟨_, _, modpItoaX_eq value result radix, result.storeAll_holds [] (clean value.toInt),
    canonical value.toInt, ?_⟩
  intro other otherResult otherFinal converted holds
  rw [modpItoaX_eq] at converted
  cases converted
  have same := holds.unique (otherResult.storeAll_holds [] (clean other.toInt))
  apply Int32.toInt_inj.mp
  apply (canonical other.toInt).value_unique
  rw [← same]
  exact canonical value.toInt

example : digitTable.length = 71 := by decide

/-! ## The number of bytes written -/

/-- A terminated text takes one byte more than its length. -/
theorem extent_storeAll_terminated (cells : Nat → UInt8) (text : List UInt8) :
    ((Buffer.fresh cells).storeAll 0 (text ++ [0])).extent = text.length + 1 := by
  rw [Buffer.extent_storeAll_of_ne_nil _ _ (List.append_ne_nil_of_right_ne_nil _ (by simp)),
    Buffer.extent_fresh, List.length_append, List.length_singleton]
  omega

theorem extent_convert10 (cells : Nat → UInt8) (negative : Bool) (value : Int) :
    (convert10 negative value (Buffer.fresh cells)).extent =
      (loopDigits 10 value.natAbs).length + (if negative then 1 else 0) + 1 := by
  rw [convert10_eq, extent_storeAll_terminated, length_decimalText]

theorem length_numeral (base : Nat) (value : Int) :
    (numeral base value).length =
      (loopDigits base value.natAbs).length + if value < 0 then 1 else 0 := by
  unfold numeral
  rw [List.length_append, length_digitsText, Nat.add_comm]
  split <;> rfl

/-- A bound on the digits bounds what a signed converter writes. -/
theorem extent_convert10_le (cells : Nat → UInt8) (negative : Bool) (value : Int)
    {digits : Nat} (some : 0 < digits) (bounded : value.natAbs < 10 ^ digits) :
    (convert10 negative value (Buffer.fresh cells)).extent ≤ digits + 2 := by
  have count := (length_loopDigits_le_iff (by decide) some value.natAbs).mpr bounded
  rw [extent_convert10]
  split <;> omega

theorem natAbs_toInt32_le (value : Int32) : value.toInt.natAbs ≤ 2 ^ 31 := by
  have least := value.le_toInt
  have most := value.toInt_lt
  omega

theorem natAbs_toInt64_le (value : Int64) : value.toInt.natAbs ≤ 2 ^ 63 := by
  have least := value.le_toInt
  have most := value.toInt_lt
  omega

/-- Sixteen bytes hold the numerals below `10 ^ 15`. -/
theorem modpUltoa10_extent_iff (cells : Nat → UInt8) (value : UInt64) :
    (modpUltoa10 value (Buffer.fresh cells)).extent ≤ 16 ↔ value.toNat < 10 ^ 15 := by
  have count : (loopDigits 10 value.toNat).length ≤ 15 ↔ value.toNat < 10 ^ 15 :=
    length_loopDigits_le_iff (by decide) (by decide) value.toNat
  unfold modpUltoa10
  rw [extent_convert10, ← count, Int.natAbs_natCast]
  simp only [Bool.false_eq_true, ↓reduceIte]
  omega

/-- Thirty-two bytes hold every numeral in base three and above.  In base two the sign
takes the place of the thirty-first digit. -/
theorem modpItoaX_extent_iff (cells : Nat → UInt8) (value : Int32) (radix : Radix) :
    (∃ final, modpItoaX value (Buffer.fresh cells) radix.base = some final ∧
        final.extent ≤ 32) ↔ ¬ (radix.number = 2 ∧ value.toInt ≤ -2 ^ 30) := by
  have bounds := radix.number_bounds
  have magnitude := natAbs_toInt32_le value
  have most := value.toInt_lt
  have thirty := length_loopDigits_le_iff bounds.1 (by decide : 0 < 30) value.toInt.natAbs
  have more := length_loopDigits_le_iff bounds.1 (by decide : 0 < 31) value.toInt.natAbs
  have size : (∃ final, modpItoaX value (Buffer.fresh cells) radix.base = some final ∧
      final.extent ≤ 32) ↔ (numeral radix.number value.toInt).length ≤ 31 := by
    rw [modpItoaX_eq]
    simp only [Option.some.injEq, exists_eq_left', extent_storeAll_terminated]
    omega
  rw [size, length_numeral]
  clear size
  by_cases binary : radix.number = 2
  · rw [binary] at thirty more ⊢
    split <;> omega
  · have power : 3 ^ 30 ≤ radix.number ^ 30 := Nat.pow_le_pow_left (by omega) 30
    split <;> omega

/-- The sizes which the header documents are enough, except for `modp_ultoa10` from
`10 ^ 15` on and for `modp_itoaX` in base two from `-2 ^ 30` down. -/
theorem documented_sizes_iff (cells : Nat → UInt8) :
    (∀ value, (modpItoa10 value (Buffer.fresh cells)).extent ≤ 16) ∧
      (∀ value, (modpUitoa10 value (Buffer.fresh cells)).extent ≤ 16) ∧
      (∀ value, (modpLtoa10 value (Buffer.fresh cells)).extent ≤ 21) ∧
      (∀ value, (modpUltoa10 value (Buffer.fresh cells)).extent ≤ 16 ↔
        value.toNat < 10 ^ 15) ∧
      ∀ value (radix : Radix),
        (∃ final, modpItoaX value (Buffer.fresh cells) radix.base = some final ∧
          final.extent ≤ 32) ↔ ¬ (radix.number = 2 ∧ value.toInt ≤ -2 ^ 30) := by
  refine ⟨?_, ?_, ?_, modpUltoa10_extent_iff cells, modpItoaX_extent_iff cells⟩
  · intro value
    have magnitude := natAbs_toInt32_le (if value < 0 then -value else value)
    have bound := extent_convert10_le cells (value < 0) _ (by decide : 0 < 10)
      (magnitude.trans_lt (by decide))
    exact bound.trans (by decide)
  · intro value
    have bounded : (value.toNat : Int).natAbs < 10 ^ 10 :=
      value.toNat_lt.trans (by decide)
    have bound := extent_convert10_le cells false _ (by decide) bounded
    exact bound.trans (by decide)
  · intro value
    have magnitude := natAbs_toInt64_le (if value < 0 then -value else value)
    exact extent_convert10_le cells (value < 0) _ (by decide : 0 < 19)
      (magnitude.trans_lt (by decide))

/-- A sixteen-digit number does not fit the sixteen bytes of `modp_ultoa10`, nor does
`-2 ^ 30` in base two the thirty-two bytes of `modp_itoaX`. -/
theorem documented_sizes_exceeded :
    ¬ (modpUltoa10 1000000000000000 (Buffer.fresh fun _ => 0)).extent ≤ 16 ∧
      ¬ ∃ final, modpItoaX (-1073741824) (Buffer.fresh fun _ => 0) 2 = some final ∧
        final.extent ≤ 32 := by
  constructor
  · rw [modpUltoa10_extent_iff]
    decide
  · exact fun fits => (modpItoaX_extent_iff _ (-1073741824) ⟨2, by decide, by decide⟩).mp fits
      ⟨by decide, by decide⟩

end Util
end AnalogX

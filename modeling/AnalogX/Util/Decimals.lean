import AnalogX.Util.Numtoa
import Mathlib.Data.List.TakeWhile
import Mathlib.Data.Rat.Floor
import Mathlib.Tactic.Linarith
import Mathlib.Tactic.FieldSimp
import Mathlib.Tactic.Ring

namespace AnalogX
namespace Util

/-!
# The fixed-precision converters of `modp_numtoa.c`

`modp_ftoa` and `modp_dtoa` split their argument into an integer part of type
`int` and a fraction of type `uint32_t`, round the fraction, write both parts
least significant digit first and trim the zeros at the front of what they have
written before it is reversed.  They differ in the floating type and in the
threshold above which they write a fixed marker.

The floating arithmetic is read as exact rational arithmetic.  The integer types
keep their widths, and incrementing them wraps.  A conversion to an integer type
that cannot hold the truncated value is undefined in C; what the target makes of
it is a parameter, and nothing is assumed about it.
-/

open Foundations Foundations.Numerals

/-- What out-of-range conversions from a floating type yield on the target. -/
structure OutOfRange where
  int : ℚ → Int32
  uint32 : ℚ → UInt32

/-- Truncation towards zero. -/
def truncate (value : ℚ) : Int :=
  value.num.tdiv value.den

namespace OutOfRange

/-- `(int) value`. -/
def toInt (undefined : OutOfRange) (value : ℚ) : Int32 :=
  if -2 ^ 31 ≤ truncate value ∧ truncate value < 2 ^ 31 then Int32.ofInt (truncate value)
  else undefined.int value

/-- `(uint32_t) value`. -/
def toUInt32 (undefined : OutOfRange) (value : ℚ) : UInt32 :=
  if 0 ≤ truncate value ∧ truncate value < 2 ^ 32 then UInt32.ofNat (truncate value).toNat
  else undefined.uint32 value

end OutOfRange

/-- `aPow10[prec]`. -/
def aPow10 (prec : Nat) : ℚ :=
  10 ^ prec

/-- The precision is forced into `0..9`. -/
def clampPrecision (prec : Int) : Nat :=
  if prec < 0 then 0 else if 9 < prec then 9 else prec.toNat

/-- The rounding of the fraction.  Only the first branch carries into the integer
part; the branch for ties increments the fraction and leaves it at that. -/
def roundFraction (prec : Nat) (whole : Int32) (frac : UInt32) (diff : ℚ) : Int32 × UInt32 :=
  if 1 / 2 < diff then
    if aPow10 prec ≤ ((frac + 1).toNat : ℚ) then (whole + 1, 0) else (whole, frac + 1)
  else if diff = 1 / 2 ∧ (frac = 0 ∨ frac &&& 1 ≠ 0) then (whole, frac + 1)
  else (whole, frac)

/-- The rounding of the integer part when no fraction is printed. -/
def roundWhole (value : ℚ) (whole : Int32) : Int32 :=
  let diff := value - (whole.toInt : ℚ)
  if 1 / 2 < diff then whole + 1
  else if diff = 1 / 2 ∧ whole &&& 1 ≠ 0 then whole + 1
  else whole

/-- `do { --count; *wstr++ = 48 + (frac % 10); } while (frac /= 10);` -/
def writeFraction (frac : Nat) (count : Int) (wstr : Cursor UInt8) : Int × Cursor UInt8 :=
  let wstr := wstr.push (decimalByte (frac % 10 : Nat))
  if frac / 10 = 0 then (count - 1, wstr) else writeFraction (frac / 10) (count - 1) wstr
termination_by frac
decreasing_by omega

/-- `while (count-- > 0) *wstr++ = '0';` -/
def padZeros : Nat → Cursor UInt8 → Cursor UInt8
  | 0, wstr => wstr
  | count + 1, wstr => padZeros count (wstr.push '0'.toUInt8)

/-- `trimLeadingZeros`, which returns its pointer.  The loop is bounded by `fuel`
iterations and has no result if they do not suffice. -/
def trimLeadingZeros : Nat → Nat → Buffer UInt8 → Option (Nat × Buffer UInt8)
  | 0, _, _ => none
  | fuel + 1, ptr, str =>
      let (byte, str) := str.load ptr
      if byte = '0'.toUInt8 then
        let (next, str) := str.load (ptr + 1)
        if next = point ∨ next = 0 then some (ptr, str)
        else trimLeadingZeros fuel (ptr + 1) (str.store ptr 0)
      else some (ptr, str)

/-- The fraction, its padding and the point. -/
def writeFractionPart (prec : Nat) (frac : UInt32) (wstr : Cursor UInt8) : Cursor UInt8 :=
  let (count, wstr) := writeFraction frac.toNat prec wstr
  (padZeros count.toNat wstr).push point

/-- The second half of the converters: everything from the fraction digits on. -/
def writeDecimal (neg : Bool) (prec : Nat) (whole : Int32) (frac : UInt32)
    (str : Buffer UInt8) : Option (Buffer UInt8) :=
  let wstr : Cursor UInt8 := ⟨0, str⟩
  let wstr := if prec = 0 then wstr else writeFractionPart prec frac wstr
  let wstr := writeSign neg (writeDigits whole.toInt wstr)
  let str := (wstr.push 0).buffer
  let trimmed := if 0 < prec then trimLeadingZeros (wstr.ptr + 1) 0 str else some (0, str)
  trimmed.map fun (_, str) => strreverse 0 (wstr.ptr - 1) str

/-- The text of the overflow marker. -/
def overflowMarker : List UInt8 :=
  "3735928559".toList.map Char.toUInt8

/-- The common body of `modp_ftoa` and `modp_dtoa`. -/
def convertDecimal (undefined : OutOfRange) (thresMax value : ℚ) (str : Buffer UInt8)
    (prec : Int) : Option (Buffer UInt8) :=
  let prec := clampPrecision prec
  let neg := decide (value < 0)
  let value := if value < 0 then -value else value
  let whole := undefined.toInt value
  let tmp := (value - (whole.toInt : ℚ)) * aPow10 prec
  let frac := undefined.toUInt32 tmp
  let diff := tmp - (frac.toNat : ℚ)
  let (whole, frac) := roundFraction prec whole frac diff
  if thresMax < value then some (str.storeAll 0 (overflowMarker ++ [0]))
  else
    writeDecimal neg prec (if prec = 0 then roundWhole value whole else whole) frac str

/-- `modp_ftoa`. -/
def modpFtoa (undefined : OutOfRange) (value : ℚ) (str : Buffer UInt8) (prec : Int) :
    Option (Buffer UInt8) :=
  convertDecimal undefined 0x7FFFFFFF value str prec

/-- `modp_dtoa`. -/
def modpDtoa (undefined : OutOfRange) (value : ℚ) (str : Buffer UInt8) (prec : Int) :
    Option (Buffer UInt8) :=
  convertDecimal undefined 0x7FFFFFFFFFFFFFFF value str prec

/-! ## What the loops write -/

theorem writeFraction_eq (frac : Nat) (count : Int) (wstr : Cursor UInt8) :
    writeFraction frac count wstr =
      (count - (loopDigits 10 frac).length, wstr.write ((loopDigits 10 frac).map digitByte)) := by
  fun_induction writeFraction frac count wstr with
  | case1 frac count wstr written last =>
      rw [loopDigits_eq_cons (by decide), if_pos last, List.map_singleton, Cursor.write_cons,
        ← decimalByte_digit (Nat.mod_lt frac (by decide))]
      rfl
  | case2 frac count wstr written continues inductionHypothesis =>
      rw [inductionHypothesis, loopDigits_eq_cons (by decide) frac, if_neg continues,
        List.length_cons, List.map_cons, Cursor.write_cons,
        ← decimalByte_digit (Nat.mod_lt frac (by decide))]
      congr 1
      omega

theorem padZeros_eq (count : Nat) (wstr : Cursor UInt8) :
    padZeros count wstr = wstr.write ((List.replicate count 0).map digitByte) := by
  induction count generalizing wstr with
  | zero => rfl
  | succ count inductionHypothesis =>
      rw [padZeros, inductionHypothesis, List.replicate_succ, List.map_cons, Cursor.write_cons]
      rfl

/-- The fraction digits with their padding, least significant first. -/
def fractionDigits (prec frac : Nat) : List Nat :=
  loopDigits 10 frac ++ List.replicate (prec - (loopDigits 10 frac).length) 0

theorem fractionDigits_ne_nil (prec frac : Nat) : fractionDigits prec frac ≠ [] :=
  List.append_ne_nil_of_left_ne_nil (loopDigits_ne_nil 10 frac) _

theorem fractionDigits_lt {prec frac digit : Nat} (member : digit ∈ fractionDigits prec frac) :
    digit < 10 := by
  rcases List.mem_append.mp member with written | padded
  · exact loopDigits_lt_base (by decide) written
  · rw [List.eq_of_mem_replicate padded]
    decide

theorem ofDigits_fractionDigits (prec frac : Nat) :
    Nat.ofDigits 10 (fractionDigits prec frac) = frac := by
  unfold fractionDigits
  rw [Nat.ofDigits_append_replicate_zero, ofDigits_loopDigits]

theorem length_fractionDigits (prec frac : Nat) :
    (fractionDigits prec frac).length = max prec (loopDigits 10 frac).length := by
  unfold fractionDigits
  rw [List.length_append, List.length_replicate]
  omega

/-! ## Trimming -/

section TrimSteps

variable (str : Buffer UInt8) (ptr fuel : Nat) (rest : List UInt8)

theorem load_first (byte : UInt8) :
    (str.storeAll ptr (byte :: rest)).load ptr = (byte, str.storeAll ptr (byte :: rest)) :=
  str.load_storeAll ptr (List.getElem?_cons_zero ..)

theorem load_second (byte next : UInt8) :
    (str.storeAll ptr (byte :: next :: rest)).load (ptr + 1) =
      (next, str.storeAll ptr (byte :: next :: rest)) :=
  str.load_storeAll ptr (List.getElem?_cons_succ ..)

/-- The loop ends at a character other than `0`. -/
theorem trimLeadingZeros_stop {byte : UInt8} (other : byte ≠ '0'.toUInt8) :
    trimLeadingZeros (fuel + 1) ptr (str.storeAll ptr (byte :: rest)) =
      some (ptr, str.storeAll ptr (byte :: rest)) := by
  rw [trimLeadingZeros, load_first]
  exact if_neg other

/-- The zero before the point stays. -/
theorem trimLeadingZeros_point :
    trimLeadingZeros (fuel + 1) ptr (str.storeAll ptr ('0'.toUInt8 :: point :: rest)) =
      some (ptr, str.storeAll ptr ('0'.toUInt8 :: point :: rest)) := by
  rw [trimLeadingZeros, load_first]
  dsimp only
  rw [if_pos rfl, load_second]
  exact if_pos (Or.inl rfl)

/-- Any other zero becomes a NUL. -/
theorem trimLeadingZeros_step {next : UInt8} (inside : ¬ (next = point ∨ next = 0)) :
    trimLeadingZeros (fuel + 1) ptr (str.storeAll ptr ('0'.toUInt8 :: next :: rest)) =
      trimLeadingZeros fuel (ptr + 1) ((str.store ptr 0).storeAll (ptr + 1) (next :: rest)) := by
  rw [trimLeadingZeros, load_first]
  dsimp only
  rw [if_pos rfl, load_second]
  dsimp only
  rw [if_neg inside, Buffer.store_storeAll_head, Buffer.storeAll_cons]

end TrimSteps

/-- On digits that end at a point, the loop replaces the zeros at the front by NULs
and stops at the first other digit, or at the digit before the point. -/
theorem trimLeadingZeros_eq {digits : List Nat} (nonempty : digits ≠ [])
    (decimal : ∀ digit ∈ digits, digit < 10) (rest : List UInt8) (str : Buffer UInt8)
    {fuel : Nat} (enough : digits.length ≤ fuel) (ptr : Nat) :
    ∃ final zeros, zeros + (trimDigits digits).length = digits.length ∧
      trimLeadingZeros fuel ptr (str.storeAll ptr (digits.map digitByte ++ point :: rest)) =
        some (final, str.storeAll ptr (List.replicate zeros 0 ++
          ((trimDigits digits).map digitByte ++ point :: rest))) := by
  induction digits generalizing str fuel ptr with
  | nil => exact absurd rfl nonempty
  | cons digit later inductionHypothesis =>
      have first := decimal digit List.mem_cons_self
      obtain ⟨fuel, rfl⟩ : ∃ less, fuel = less + 1 := by
        rw [List.length_cons] at enough
        exact ⟨fuel - 1, by omega⟩
      by_cases zero : digit = 0
      · rw [zero]
        cases later with
        | nil => exact ⟨ptr, 0, rfl, trimLeadingZeros_point str ptr fuel rest⟩
        | cons next later =>
            have small := decimal next (List.mem_cons_of_mem _ List.mem_cons_self)
            have inside : ¬ (digitByte next = point ∨ digitByte next = 0) := by
              rintro (separator | terminator)
              · exact digitByte_ne_point (by omega) separator
              · exact digitByte_ne_nul (by omega) terminator
            rcases inductionHypothesis (List.cons_ne_nil _ _)
              (fun other member => decimal other (List.mem_cons_of_mem _ member))
              (str.store ptr 0) (Nat.le_of_succ_le_succ enough) (ptr + 1) with
              ⟨final, zeros, size, trimmed⟩
            refine ⟨final, zeros + 1, ?_, ?_⟩
            · rw [trimDigits_cons_zero, List.length_cons, ← size]
              omega
            rw [trimDigits_cons_zero, List.replicate_succ, List.cons_append,
              Buffer.storeAll_cons, ← trimmed]
            exact trimLeadingZeros_step str ptr fuel _ inside
      · have other : digitByte digit ≠ '0'.toUInt8 :=
          fun same => zero ((digitByte_eq_zero_iff (by omega)).mp same)
        rw [trimDigits_cons_ne_zero zero]
        exact ⟨ptr, 0, Nat.zero_add _, trimLeadingZeros_stop str ptr fuel _ other⟩

/-- Trimming before the reversal: the digits after the point lose their trailing
zeros, which end up behind the terminator. -/
theorem strreverse_trimmed {digits : List Nat} (nonempty : digits ≠ [])
    (decimal : ∀ digit ∈ digits, digit < 10) (back : List UInt8) (str : Buffer UInt8) :
    let front := digits.map digitByte ++ point :: back
    ∃ zeros, (trimLeadingZeros (front.length + 1) 0 (str.storeAll 0 (front ++ [0]))).map
        (fun (_, str) => strreverse 0 (front.length - 1) str) =
      some (str.storeAll 0 (back.reverse ++ point :: digitsText (trimDigits digits) ++
        0 :: List.replicate zeros 0)) := by
  intro front
  have size : front.length = digits.length + 1 + back.length := by
    rw [List.length_append, List.length_map, List.length_cons, Nat.add_assoc, Nat.add_comm 1]
  have enough : digits.length ≤ front.length + 1 := by
    omega
  rcases trimLeadingZeros_eq nonempty decimal (back ++ [0]) str enough 0 with
    ⟨final, zeros, count, trimmed⟩
  have same : (List.replicate zeros 0 ++
      ((trimDigits digits).map digitByte ++ point :: back)).length = front.length := by
    rw [List.length_append, List.length_append, List.length_replicate, List.length_map,
      List.length_cons, size, ← count]
    omega
  have reversed := strreverse_terminated str
    (List.replicate zeros 0 ++ ((trimDigits digits).map digitByte ++ point :: back))
  have terminated : front ++ [0] = digits.map digitByte ++ point :: (back ++ [0]) := by
    rw [List.append_assoc, List.cons_append]
  refine ⟨zeros, ?_⟩
  rw [terminated, trimmed, Option.map_some, ← List.cons_append, ← List.append_assoc,
    ← List.append_assoc, List.append_assoc (List.replicate zeros 0), ← same]
  dsimp only
  rw [reversed, List.reverse_append, List.reverse_append, List.reverse_cons,
    List.reverse_replicate, List.append_assoc _ (List.replicate zeros 0),
    ← List.replicate_succ', List.replicate_succ, digitsText]
  simp only [List.append_assoc, List.cons_append, List.nil_append]

/-! ## The text of a converted number -/

/-- The text before the terminator, for any integer part and any fraction. -/
def convertedText (neg : Bool) (prec : Nat) (whole : Int) (frac : Nat) : List UInt8 :=
  decimalText neg whole ++
    if prec = 0 then [] else point :: digitsText (trimDigits (fractionDigits prec frac))

theorem nul_notMem_convertedText (neg : Bool) (prec : Nat) (whole : Int) (frac : Nat) :
    (0 : UInt8) ∉ convertedText neg prec whole frac := by
  intro member
  rcases List.mem_append.mp member with before | after
  · exact nul_notMem_decimalText neg whole before
  · split at after
    · cases after
    · rcases List.mem_cons.mp after with separator | digit
      · exact absurd separator (by decide)
      · exact ne_of_mem_digitsText (by decide)
          (fun _ inside => fractionDigits_lt (mem_of_mem_trimDigits inside))
          (fun _ => digitByte_ne_nul) digit rfl

theorem writeFractionPart_eq (prec : Nat) (frac : UInt32) (wstr : Cursor UInt8) :
    writeFractionPart prec frac wstr =
      wstr.write ((fractionDigits prec frac.toNat).map digitByte ++ [point]) := by
  have padding : ((prec : Int) - (loopDigits 10 frac.toNat).length).toNat =
      prec - (loopDigits 10 frac.toNat).length := by
    omega
  unfold writeFractionPart fractionDigits
  rw [writeFraction_eq]
  dsimp only
  rw [padding, padZeros_eq, ← Cursor.write_append, ← List.map_append, Cursor.write_append,
    Cursor.write_cons]
  rfl

/-- Whatever the integer part and the fraction are, the conversion ends and leaves
the text, terminated at least once. -/
theorem writeDecimal_eq (neg : Bool) (prec : Nat) (whole : Int32) (frac : UInt32)
    (str : Buffer UInt8) :
    ∃ zeros, writeDecimal neg prec whole frac str =
      some (str.storeAll 0 (convertedText neg prec whole.toInt frac.toNat ++
        0 :: List.replicate zeros 0)) := by
  rcases Nat.eq_zero_or_pos prec with rfl | fractional
  · refine ⟨0, ?_⟩
    have text : convertedText neg 0 whole.toInt frac.toNat = decimalText neg whole.toInt :=
      List.append_nil _
    rw [text]
    exact congrArg some (convert10_eq neg whole.toInt str)
  · rcases strreverse_trimmed (fractionDigits_ne_nil prec frac.toNat)
      (fun _ inside => fractionDigits_lt inside) (decimalText neg whole.toInt).reverse str with
      ⟨zeros, trimmed⟩
    refine ⟨zeros, ?_⟩
    rw [List.reverse_reverse] at trimmed
    unfold writeDecimal convertedText
    dsimp only
    rw [if_neg (Nat.ne_of_gt fractional), if_neg (Nat.ne_of_gt fractional), if_pos fractional,
      writeFractionPart_eq, writeSign_writeDigits, ← Cursor.write_append,
      Cursor.buffer_write_push, Cursor.ptr_write, Nat.zero_add, List.append_assoc,
      List.singleton_append]
    exact trimmed

/-- The buffer after a conversion holds exactly the text. -/
theorem writeDecimal_holds_iff (neg : Bool) (prec : Nat) (whole : Int32) (frac : UInt32)
    (str : Buffer UInt8) (text : List UInt8) :
    (∃ final, writeDecimal neg prec whole frac str = some final ∧ final.Holds 0 text) ↔
      text = convertedText neg prec whole.toInt frac.toNat := by
  rcases writeDecimal_eq neg prec whole frac str with ⟨zeros, written⟩
  have holds := str.storeAll_holds (List.replicate zeros 0)
    (nul_notMem_convertedText neg prec whole.toInt frac.toNat)
  constructor
  · rintro ⟨final, result, other⟩
    rw [written] at result
    cases result
    exact other.unique holds
  · rintro rfl
    exact ⟨_, written, holds⟩

/-! ## Rounding -/

theorem truncate_of_nonneg {value : ℚ} (nonnegative : 0 ≤ value) : truncate value = ⌊value⌋ := by
  unfold truncate
  rw [Int.tdiv_eq_ediv_of_nonneg (Rat.num_nonneg.mpr nonnegative), Rat.floor_def']

section InRange

variable (undefined : OutOfRange) {value : ℚ}

theorem toInt_of_lt (nonnegative : 0 ≤ value) (fits : value < 2 ^ 31) :
    (undefined.toInt value).toInt = ⌊value⌋ := by
  have least : 0 ≤ ⌊value⌋ := Int.floor_nonneg.mpr nonnegative
  have most : ⌊value⌋ < 2 ^ 31 := Int.floor_lt.mpr (by exact_mod_cast fits)
  unfold OutOfRange.toInt
  rw [truncate_of_nonneg nonnegative, if_pos ⟨by omega, most⟩,
    Int32.toInt_ofInt_of_le (by omega) most]

theorem toUInt32_of_lt (nonnegative : 0 ≤ value) (fits : value < 2 ^ 32) :
    ((undefined.toUInt32 value).toNat : Int) = ⌊value⌋ := by
  have least : 0 ≤ ⌊value⌋ := Int.floor_nonneg.mpr nonnegative
  have most : ⌊value⌋ < 2 ^ 32 := Int.floor_lt.mpr (by exact_mod_cast fits)
  unfold OutOfRange.toUInt32
  rw [truncate_of_nonneg nonnegative, if_pos ⟨least, most⟩, UInt32.toNat_ofNat']
  omega

end InRange

theorem and_one_ne_zero_iff (frac : UInt32) : frac &&& 1 ≠ 0 ↔ frac.toNat % 2 = 1 := by
  have low : (frac &&& 1).toNat = frac.toNat % 2 := by
    rw [UInt32.toNat_and]
    exact Nat.and_one_is_mod _
  have zero : frac &&& 1 = 0 ↔ (frac &&& 1).toNat = 0 := by
    rw [← UInt32.toNat_inj]
    rfl
  rw [Ne, zero, low]
  omega

/-- The parts of a value which neither the conversions nor the rounding can take out
of the range of their types. -/
structure Split (value : ℚ) (prec : Nat) (whole : Int32) (frac : UInt32) (diff : ℚ) : Prop where
  clamped : prec ≤ 9
  nonnegative : 0 ≤ whole.toInt
  room : whole.toInt < 2 ^ 31 - 1
  below : frac.toNat < 10 ^ prec
  least : 0 ≤ diff
  most : diff < 1
  floor : (whole.toInt : ℚ) = value - Int.fract value
  fraction : Int.fract value * 10 ^ prec = (frac.toNat : ℚ) + diff

/-- The conversions split every nonnegative value below the limit. -/
theorem split_of_lt (undefined : OutOfRange) {value : ℚ} {prec : Nat} (clamped : prec ≤ 9)
    (nonnegative : 0 ≤ value) (small : value < 2 ^ 31 - 1) :
    let whole := undefined.toInt value
    let tmp := (value - (whole.toInt : ℚ)) * aPow10 prec
    let frac := undefined.toUInt32 tmp
    Split value prec whole frac (tmp - (frac.toNat : ℚ)) := by
  intro whole tmp frac
  have truncated : whole.toInt = ⌊value⌋ :=
    toInt_of_lt undefined nonnegative (by linarith)
  have scaled : tmp = Int.fract value * 10 ^ prec := by
    unfold tmp aPow10
    rw [truncated, Int.self_sub_floor]
  have power : (0 : ℚ) < 10 ^ prec := by positivity
  have largest : (10 : ℚ) ^ prec ≤ 10 ^ 9 := pow_le_pow_right₀ (by norm_num) clamped
  have least : 0 ≤ tmp := by
    rw [scaled]
    exact mul_nonneg (Int.fract_nonneg value) power.le
  have most : tmp < 10 ^ prec := by
    rw [scaled]
    exact mul_lt_of_lt_one_left power (Int.fract_lt_one value)
  have digits : (frac.toNat : Int) = ⌊tmp⌋ := toUInt32_of_lt undefined least (by linarith)
  have digitsRat : (frac.toNat : ℚ) = (⌊tmp⌋ : ℚ) := by exact_mod_cast digits
  have limit : ⌊value⌋ < 2 ^ 31 - 1 := Int.floor_lt.mpr (by exact_mod_cast small)
  have bound : ⌊tmp⌋ < 10 ^ prec := Int.floor_lt.mpr (by exact_mod_cast most)
  refine ⟨clamped, ?_, ?_, ?_, ?_, ?_, ?_, ?_⟩
  · rw [truncated]
    exact Int.floor_nonneg.mpr nonnegative
  · rw [truncated]
    exact limit
  · rw [← digits] at bound
    exact_mod_cast bound
  · rw [digitsRat]
    linarith [Int.floor_le tmp]
  · rw [digitsRat]
    linarith [Int.lt_floor_add_one tmp]
  · rw [truncated, Int.self_sub_fract]
  · rw [← scaled]
    ring

section Rounding

variable {value : ℚ} {prec : Nat} {whole : Int32} {frac : UInt32} {diff : ℚ}
  {rounded : Int32 × UInt32}

/-- What the rounding does. -/
theorem roundFraction_cases (split : Split value prec whole frac diff)
    (result : roundFraction prec whole frac diff = rounded) :
    (1 / 2 < diff ∧ frac.toNat + 1 = 10 ^ prec ∧
        rounded.1.toInt = whole.toInt + 1 ∧ rounded.2.toNat = 0) ∨
      (1 / 2 < diff ∧ frac.toNat + 1 < 10 ^ prec ∧
        rounded.1.toInt = whole.toInt ∧ rounded.2.toNat = frac.toNat + 1) ∨
      (diff = 1 / 2 ∧ (frac.toNat = 0 ∨ frac.toNat % 2 = 1) ∧
        rounded.1.toInt = whole.toInt ∧ rounded.2.toNat = frac.toNat + 1) ∨
      (diff ≤ 1 / 2 ∧ (diff = 1 / 2 → frac.toNat % 2 = 0) ∧
        rounded.1.toInt = whole.toInt ∧ rounded.2.toNat = frac.toNat) := by
  have power : 10 ^ prec ≤ 10 ^ 9 := Nat.pow_le_pow_right (by decide) split.clamped
  have nonnegative := split.nonnegative
  have room := split.room
  have below := split.below
  have carried : (whole + 1).toInt = whole.toInt + 1 := by
    rw [Int32.toInt_add, Int32.toInt_one, Int.bmod_eq_of_le (by omega) (by omega)]
  have incremented : (frac + 1).toNat = frac.toNat + 1 := by
    rw [UInt32.toNat_add]
    change (frac.toNat + 1) % 2 ^ 32 = _
    omega
  have reached : aPow10 prec ≤ ((frac + 1).toNat : ℚ) ↔ 10 ^ prec ≤ frac.toNat + 1 := by
    rw [incremented]
    unfold aPow10
    exact_mod_cast Iff.rfl
  have none : frac = 0 ↔ frac.toNat = 0 := by
    rw [← UInt32.toNat_inj]
    rfl
  rw [← result]
  unfold roundFraction
  by_cases up : 1 / 2 < diff
  · rw [if_pos up]
    by_cases rollover : aPow10 prec ≤ ((frac + 1).toNat : ℚ)
    · rw [if_pos rollover]
      exact Or.inl ⟨up, by rw [reached] at rollover; omega, carried, rfl⟩
    · rw [if_neg rollover]
      exact Or.inr (Or.inl ⟨up, by rw [reached] at rollover; omega, rfl, incremented⟩)
  · have either : (frac = 0 ∨ frac &&& 1 ≠ 0) ↔ (frac.toNat = 0 ∨ frac.toNat % 2 = 1) :=
      or_congr none (and_one_ne_zero_iff frac)
    rw [if_neg up]
    by_cases tie : diff = 1 / 2 ∧ (frac = 0 ∨ frac &&& 1 ≠ 0)
    · rw [if_pos tie]
      exact Or.inr (Or.inr (Or.inl ⟨tie.1, either.mp tie.2, rfl, incremented⟩))
    · rw [if_neg tie]
      refine Or.inr (Or.inr (Or.inr ⟨not_lt.mp up, ?_, rfl, rfl⟩))
      intro half
      have even : ¬ (frac.toNat = 0 ∨ frac.toNat % 2 = 1) :=
        fun rounds => tie ⟨half, either.mpr rounds⟩
      omega

/-- The rounded parts are within half a unit of the last digit of the value. -/
theorem roundFraction_close (split : Split value prec whole frac diff)
    (result : roundFraction prec whole frac diff = rounded) :
    0 ≤ rounded.1.toInt ∧
      |(rounded.1.toInt : ℚ) + (rounded.2.toNat : ℚ) / 10 ^ prec - value| ≤
        1 / 2 / 10 ^ prec := by
  have power : (0 : ℚ) < 10 ^ prec := by positivity
  have nonnegative := split.nonnegative
  have least := split.least
  have most := split.most
  have exact : value * 10 ^ prec =
      (whole.toInt : ℚ) * 10 ^ prec + (frac.toNat : ℚ) + diff := by
    have fraction := split.fraction
    rw [split.floor]
    linarith
  have scaled : (rounded.1.toInt : ℚ) + (rounded.2.toNat : ℚ) / 10 ^ prec - value =
      ((rounded.1.toInt : ℚ) * 10 ^ prec + (rounded.2.toNat : ℚ) -
        ((whole.toInt : ℚ) * 10 ^ prec + (frac.toNat : ℚ) + diff)) / 10 ^ prec := by
    rw [← exact]
    field_simp
  rw [scaled, abs_div, abs_of_pos power, div_le_div_iff_of_pos_right power, abs_le]
  rcases roundFraction_cases split result with
    ⟨up, rollover, first, second⟩ | ⟨up, _, first, second⟩ | ⟨tie, _, first, second⟩ |
    ⟨down, _, first, second⟩
  · have unit : (frac.toNat : ℚ) + 1 = 10 ^ prec := by exact_mod_cast rollover
    rw [first, second]
    push_cast
    exact ⟨by omega, by linarith, by linarith⟩
  · rw [first, second]
    push_cast
    exact ⟨nonnegative, by linarith, by linarith⟩
  · rw [first, second]
    push_cast
    exact ⟨nonnegative, by linarith, by linarith⟩
  · rw [first, second]
    exact ⟨nonnegative, by linarith, by linarith⟩

/-- The fraction keeps its number of digits, except after a tie above the largest
fraction, where nothing carries. -/
theorem roundFraction_lt_iff (fractional : 0 < prec) (split : Split value prec whole frac diff)
    (result : roundFraction prec whole frac diff = rounded) :
    rounded.2.toNat < 10 ^ prec ↔ ¬ (frac.toNat + 1 = 10 ^ prec ∧ diff = 1 / 2) := by
  have below := split.below
  have even : 10 ^ prec % 2 = 0 := by
    obtain ⟨less, rfl⟩ : ∃ less, prec = less + 1 := ⟨prec - 1, by omega⟩
    rw [pow_succ]
    omega
  rcases roundFraction_cases split result with
    ⟨up, rollover, first, second⟩ | ⟨up, _, first, second⟩ | ⟨tie, _, first, second⟩ |
    ⟨down, parity, first, second⟩
  · rw [second]
    exact iff_of_true (by omega) (fun both => by linarith [both.2])
  · rw [second]
    exact iff_of_true (by omega) (fun both => by linarith [both.2])
  · rw [second]
    simp only [tie, and_true]
    omega
  · rw [second]
    refine iff_of_true (by omega) ?_
    rintro ⟨rollover, tie⟩
    have even := parity tie
    omega

/-- In the exceptional case the fraction becomes a digit longer. -/
theorem roundFraction_tie (split : Split value prec whole frac diff)
    (result : roundFraction prec whole frac diff = rounded)
    (longer : ¬ rounded.2.toNat < 10 ^ prec) :
    rounded.1.toInt = whole.toInt ∧ rounded.2.toNat = 10 ^ prec := by
  have below := split.below
  rcases roundFraction_cases split result with
    ⟨_, _, first, second⟩ | ⟨_, _, first, second⟩ | ⟨_, _, first, second⟩ | ⟨_, _, first, second⟩
  all_goals exact ⟨by omega, by omega⟩

/-- The tie in question, as a condition on the value. -/
theorem tie_iff (split : Split value prec whole frac diff) :
    (frac.toNat + 1 = 10 ^ prec ∧ diff = 1 / 2) ↔
      Int.fract value = 1 - 1 / (2 * 10 ^ prec) := by
  have power : (0 : ℚ) < 10 ^ prec := by positivity
  have units : Int.fract value = 1 - 1 / (2 * 10 ^ prec) ↔
      (frac.toNat : ℚ) + diff = 10 ^ prec - 1 / 2 := by
    rw [← split.fraction]
    constructor
    · intro fraction
      rw [fraction]
      field_simp
    · intro scaled
      field_simp
      linarith
  rw [units]
  constructor
  · rintro ⟨rollover, tie⟩
    have unit : (frac.toNat : ℚ) + 1 = 10 ^ prec := by exact_mod_cast rollover
    linarith
  · intro sum
    have least := split.least
    have most := split.most
    have lower : (10 : ℚ) ^ prec < (frac.toNat : ℚ) + 2 := by linarith
    have upper : (frac.toNat : ℚ) < 10 ^ prec := by linarith
    have lowerNat : 10 ^ prec < frac.toNat + 2 := by exact_mod_cast lower
    have upperNat : frac.toNat < 10 ^ prec := by exact_mod_cast upper
    have rollover : frac.toNat + 1 = 10 ^ prec := by omega
    have unit : (frac.toNat : ℚ) + 1 = 10 ^ prec := by exact_mod_cast rollover
    exact ⟨rollover, by linarith⟩

end Rounding

/-! ## Accuracy -/

/-- For a nonnegative integer part the text is a decimal fraction.  What it denotes
depends on how many digits the fraction has. -/
theorem convertedText_fixedNumeral (neg : Bool) {prec : Nat} (fractional : 0 < prec)
    {whole : Int} (nonnegative : 0 ≤ whole) (frac : Nat) :
    FixedNumeral (convertedText neg prec whole frac)
      ((if neg then -1 else 1) *
        ((whole : ℚ) + (frac : ℚ) / 10 ^ (fractionDigits prec frac).length)) := by
  have text : convertedText neg prec whole frac =
      fixedText neg (loopDigits 10 whole.natAbs) (trimDigits (fractionDigits prec frac)) := by
    unfold convertedText fixedText decimalText digitsText signText
    rw [if_neg (Nat.ne_of_gt fractional), map_decimalByte_of_nonneg nonnegative,
      List.append_assoc]
  have numeral := fixedNumeral_fixedText neg
    (fun _ inside => loopDigits_lt_base (by decide) inside)
    (loopDigits_ne_nil 10 whole.natAbs)
    (fun _ inside => fractionDigits_lt (mem_of_mem_trimDigits inside))
    (trimDigits_ne_nil (fractionDigits_ne_nil prec frac)) head_trimDigits
  have magnitude : ((whole.natAbs : Nat) : ℚ) = (whole : ℚ) := by
    rw [Nat.cast_natAbs, abs_of_nonneg nonnegative]
  rw [ofDigits_trimDigits, ofDigits_fractionDigits, ofDigits_loopDigits, magnitude] at numeral
  rw [text]
  exact numeral

theorem length_fractionDigits_of_lt {prec frac : Nat} (fractional : 0 < prec)
    (fits : frac < 10 ^ prec) : (fractionDigits prec frac).length = prec := by
  have count := (length_loopDigits_le_iff (by decide) fractional frac).mpr fits
  rw [length_fractionDigits]
  exact Nat.max_eq_left count

theorem length_fractionDigits_power {prec : Nat} (fractional : 0 < prec) :
    (fractionDigits prec (10 ^ prec)).length = prec + 1 := by
  have most := (length_loopDigits_le_iff (by decide) (Nat.succ_pos prec) (10 ^ prec)).mpr
    (Nat.pow_lt_pow_right (by decide) (Nat.lt_succ_self prec))
  have least := (length_loopDigits_le_iff (by decide) fractional (10 ^ prec)).not.mpr
    (lt_irrefl _)
  rw [length_fractionDigits]
  omega

/-- The longer fraction denotes one tenth, which is far from the value. -/
theorem tie_not_close {prec : Nat} (fractional : 0 < prec) (value : ℚ) :
    ¬ |value - (1 - 1 / (2 * 10 ^ prec)) + ((10 ^ prec : Nat) : ℚ) / 10 ^ (prec + 1) - value| ≤
      1 / 2 / 10 ^ prec := by
  have power : (10 : ℚ) ≤ 10 ^ prec := by
    calc
      (10 : ℚ) = 10 ^ 1 := (pow_one _).symm
      _ ≤ 10 ^ prec := pow_le_pow_right₀ (by norm_num) fractional
  have positive : (0 : ℚ) < 10 ^ prec := by linarith
  have tenth : ((10 ^ prec : Nat) : ℚ) / 10 ^ (prec + 1) = 1 / 10 := by
    rw [pow_succ]
    push_cast
    field_simp
  have half : (1 : ℚ) / (2 * 10 ^ prec) = 1 / 2 / 10 ^ prec := by
    field_simp
  have small : (1 : ℚ) / 2 / 10 ^ prec ≤ 1 / 20 := by
    rw [div_div, div_le_div_iff₀ (by positivity) (by norm_num)]
    linarith
  rw [tenth, half, abs_le]
  rintro ⟨lower, _⟩
  linarith

/-- The string denotes a decimal fraction within half a unit of its last digit. -/
def Accurate (value : ℚ) (prec : Nat) (result : Option (Buffer UInt8)) : Prop :=
  ∃ final text denoted, result = some final ∧ final.Holds 0 text ∧
    FixedNumeral text denoted ∧ |denoted - value| ≤ 1 / 2 / 10 ^ prec

/-- Accuracy is decided by the number that the converted text denotes. -/
theorem accurate_writeDecimal_iff (neg : Bool) {prec : Nat} (fractional : 0 < prec)
    {whole : Int32} (nonnegative : 0 ≤ whole.toInt) (frac : UInt32) (str : Buffer UInt8)
    (value : ℚ) :
    Accurate ((if neg then -1 else 1) * value) prec (writeDecimal neg prec whole frac str) ↔
      |(whole.toInt : ℚ) + (frac.toNat : ℚ) / 10 ^ (fractionDigits prec frac.toNat).length -
        value| ≤ 1 / 2 / 10 ^ prec := by
  have numeral := convertedText_fixedNumeral neg fractional nonnegative frac.toNat
  have symmetric : ∀ denoted : ℚ,
      |(if neg then -1 else 1) * denoted - (if neg then -1 else 1) * value| = |denoted - value| := by
    intro denoted
    rw [← mul_sub, abs_mul]
    cases neg <;> simp
  constructor
  · rintro ⟨final, text, denoted, result, holds, form, close⟩
    have converted := (writeDecimal_holds_iff neg prec whole frac str text).mp
      ⟨final, result, holds⟩
    rw [converted] at form
    rwa [form.value_unique numeral, symmetric] at close
  · intro close
    rcases (writeDecimal_holds_iff neg prec whole frac str _).mpr rfl with ⟨final, result, holds⟩
    exact ⟨final, _, _, result, holds, numeral, by rwa [symmetric]⟩

theorem clampPrecision_of_le {prec : Nat} (clamped : prec ≤ 9) : clampPrecision prec = prec := by
  unfold clampPrecision
  rw [if_neg (by omega), if_neg (by omega)]
  omega

theorem abs_eq_ite (value : ℚ) : (if value < 0 then -value else value) = |value| := by
  split
  · exact (abs_of_neg ‹_›).symm
  · exact (abs_of_nonneg (not_lt.mp ‹_›)).symm

theorem sign_mul_abs (value : ℚ) :
    (if decide (value < 0) = true then -1 else 1) * |value| = value := by
  by_cases negative : value < 0
  · rw [if_pos (decide_eq_true negative), abs_of_neg negative]
    ring
  · rw [if_neg (by simpa using negative), abs_of_nonneg (not_lt.mp negative), one_mul]

/-- Up to the threshold the converters write what the rounding leaves. -/
theorem convertDecimal_eq (undefined : OutOfRange) {thresMax value : ℚ}
    (admitted : |value| ≤ thresMax) (str : Buffer UInt8) {prec : Nat} (clamped : prec ≤ 9) :
    let whole := undefined.toInt |value|
    let tmp := (|value| - (whole.toInt : ℚ)) * aPow10 prec
    let frac := undefined.toUInt32 tmp
    let rounded := roundFraction prec whole frac (tmp - (frac.toNat : ℚ))
    convertDecimal undefined thresMax value str prec =
      writeDecimal (decide (value < 0)) prec
        (if prec = 0 then roundWhole |value| rounded.1 else rounded.1) rounded.2 str := by
  unfold convertDecimal
  simp only [clampPrecision_of_le clamped, abs_eq_ite]
  rw [if_neg (not_lt.mpr admitted)]

/-- For every value below the limit, every precision and every behaviour of the
undefined conversions, the string is accurate and canonical unless the fraction is
exactly half a unit below the next integer. -/
theorem modpFtoa_accurate_iff (undefined : OutOfRange) (str : Buffer UInt8) (value : ℚ)
    (small : |value| < 2 ^ 31 - 1) (prec : Nat) (fractional : 1 ≤ prec) (clamped : prec ≤ 9) :
    Accurate value prec (modpFtoa undefined value str prec) ↔
      Int.fract |value| ≠ 1 - 1 / (2 * 10 ^ prec) := by
  have split := split_of_lt undefined clamped (abs_nonneg value) small
  have converted := convertDecimal_eq undefined
    (small.le.trans (by norm_num) : |value| ≤ 0x7FFFFFFF) str clamped
  dsimp only at split converted
  generalize result : roundFraction _ _ _ _ = rounded at converted
  have close := roundFraction_close split result
  have decided := accurate_writeDecimal_iff (decide (value < 0)) fractional close.1 rounded.2
    str |value|
  rw [sign_mul_abs] at decided
  unfold modpFtoa
  rw [converted, if_neg (Nat.ne_of_gt fractional), decided, Ne, ← tie_iff split,
    ← roundFraction_lt_iff fractional split result]
  constructor
  · intro accurate
    by_contra longer
    have tie := (tie_iff split).mp (not_not.mp
      ((roundFraction_lt_iff fractional split result).not.mp longer))
    rcases roundFraction_tie split result longer with ⟨first, second⟩
    rw [first, second, length_fractionDigits_power fractional, split.floor, tie] at accurate
    exact tie_not_close fractional |value| accurate
  · intro fits
    rw [length_fractionDigits_of_lt fractional fits]
    exact close.2

/-- What the conversion routines of the target do: they saturate. -/
def saturating : OutOfRange where
  int value := if value < 0 then Int32.minValue else Int32.maxValue
  uint32 value := if value < 0 then 0 else 4294967295

/-- A quarter with one digit after the point. -/
theorem modpFtoa_accurate_quarter :
    |(1 / 4 : ℚ)| < 2 ^ 31 - 1 ∧
      Accurate (1 / 4) 1 (modpFtoa saturating (1 / 4) (Buffer.fresh fun _ => 0) 1) := by
  have small : |(1 / 4 : ℚ)| < 2 ^ 31 - 1 := by
    rw [abs_of_nonneg (by norm_num)]
    norm_num
  refine ⟨small, (modpFtoa_accurate_iff saturating _ _ small 1 le_rfl (by decide)).mpr ?_⟩
  rw [abs_of_nonneg (by norm_num), Int.fract_eq_self.mpr ⟨by norm_num, by norm_num⟩]
  norm_num

/-- With one digit after the point, `0.95` becomes `0.1`. -/
theorem modpFtoa_tie_not_accurate :
    ¬ Accurate (19 / 20) 1 (modpFtoa saturating (19 / 20) (Buffer.fresh fun _ => 0) 1) := by
  have small : |(19 / 20 : ℚ)| < 2 ^ 31 - 1 := by
    rw [abs_of_nonneg (by norm_num)]
    norm_num
  intro accurate
  apply (modpFtoa_accurate_iff saturating _ _ small 1 le_rfl (by decide)).mp accurate
  rw [abs_of_nonneg (by norm_num), Int.fract_eq_self.mpr ⟨by norm_num, by norm_num⟩]
  norm_num

/-! ## Integers -/

/-- The digits before the point, or all of them, denote the integer. -/
def PrintsInteger (value : Int) (result : Option (Buffer UInt8)) : Prop :=
  ∃ final text, result = some final ∧ final.Holds 0 text ∧
    readNumeral 10 (text.takeWhile (· ≠ point)) = some value

theorem printsInteger_writeDecimal_iff (neg : Bool) (prec : Nat) (whole : Int32) (frac : UInt32)
    (str : Buffer UInt8) (value : Int) :
    PrintsInteger value (writeDecimal neg prec whole frac str) ↔
      readNumeral 10 ((decimalText neg whole.toInt).takeWhile (· ≠ point)) = some value := by
  have before : (convertedText neg prec whole.toInt frac.toNat).takeWhile (· ≠ point) =
      (decimalText neg whole.toInt).takeWhile (· ≠ point) := by
    unfold convertedText
    split
    · rw [List.append_nil]
    · rw [List.takeWhile_append]
      split
      · rename_i complete
        rw [List.takeWhile_cons_of_neg (by simp), List.append_nil]
        exact ((List.takeWhile_prefix _).eq_of_length complete).symm
      · rfl
  constructor
  · rintro ⟨final, text, result, holds, reads⟩
    rw [(writeDecimal_holds_iff neg prec whole frac str text).mp ⟨final, result, holds⟩,
      before] at reads
    exact reads
  · intro reads
    rcases (writeDecimal_holds_iff neg prec whole frac str _).mpr rfl with ⟨final, result, holds⟩
    exact ⟨final, _, result, holds, by rw [before]; exact reads⟩

/-- A nonnegative integer part prints its value with the sign. -/
theorem readNumeral_decimalText (neg : Bool) {whole : Int} (nonnegative : 0 ≤ whole) :
    readNumeral 10 ((decimalText neg whole).takeWhile (· ≠ point)) =
      some (if neg then -whole else whole) := by
  have decimal : ∀ digit ∈ loopDigits 10 whole.natAbs, digit < 10 :=
    fun _ inside => loopDigits_lt_base (by decide) inside
  have text : decimalText neg whole = signText neg ++ digitsText (loopDigits 10 whole.natAbs) := by
    unfold decimalText digitsText
    rw [map_decimalByte_of_nonneg nonnegative]
  have noPoint : ∀ byte ∈ decimalText neg whole, byte ≠ point := by
    rw [text]
    intro byte member
    rcases List.mem_append.mp member with signed | digit
    · cases neg with
      | false => cases signed
      | true =>
          rw [List.mem_singleton.mp signed]
          decide
    · exact ne_of_mem_digitsText (by decide) decimal (fun _ => digitByte_ne_point) digit
  have magnitude := readMagnitude_digitsText (by decide) decimal
    (loopDigits_ne_nil 10 whole.natAbs)
  rw [List.takeWhile_eq_self_iff.mpr (fun byte member => decide_eq_true (noPoint byte member)),
    text]
  rw [ofDigits_loopDigits] at magnitude
  unfold readNumeral
  cases neg with
  | false =>
      change (if (digitsText _).head? = some minus then _ else _) = _
      rw [if_neg (head_magnitude_ne_minus (by decide) (by decide) _)]
      change (readMagnitude 10 (digitsText _)).map _ = _
      rw [magnitude]
      simp [abs_of_nonneg nonnegative]
  | true =>
      change (readMagnitude 10 (digitsText _)).map _ = _
      rw [magnitude]
      simp [abs_of_nonneg nonnegative]

/-- The characters of a negative integer part contain no digit but zero. -/
theorem readNumeral_decimalText_of_neg (neg : Bool) {whole value : Int} (negative : whole < 0)
    (reads : readNumeral 10 ((decimalText neg whole).takeWhile (· ≠ point)) = some value) :
    value = 0 := by
  apply readNumeral_of_zeros _ reads
  intro byte member digit read
  rcases List.mem_append.mp ((List.takeWhile_prefix _).subset member) with signed | shown
  · cases neg with
    | false => cases signed
    | true =>
        rw [List.mem_singleton.mp signed] at read
        cases read
  · rw [List.mem_reverse, List.mem_map] at shown
    rcases shown with ⟨remainder, inside, rfl⟩
    have size := natAbs_lt_of_mem_signedDigits (by decide) inside
    have sign := nonpos_of_mem_signedDigits negative inside
    rcases sign.eq_or_lt with zero | below
    · rw [zero] at read
      exact (Option.some.inj read).symm
    · rw [readDigit_decimalByte_neg (by omega) below] at read
      cases read

/-- An integer part of thirty-two bits prints nothing beyond them. -/
theorem printsInteger_bound {neg : Bool} {prec : Nat} {whole : Int32} {frac : UInt32}
    {str : Buffer UInt8} {value : Int}
    (prints : PrintsInteger value (writeDecimal neg prec whole frac str)) :
    |value| ≤ 2 ^ 31 - 1 := by
  have most := whole.toInt_lt
  rw [printsInteger_writeDecimal_iff] at prints
  rcases lt_or_ge whole.toInt 0 with negative | nonnegative
  · rw [readNumeral_decimalText_of_neg neg negative prints]
    decide
  · rw [readNumeral_decimalText neg nonnegative] at prints
    have printed := Option.some.inj prints
    rw [abs_le]
    cases neg with
    | false =>
        rw [if_neg Bool.false_ne_true] at printed
        omega
    | true =>
        rw [if_pos rfl] at printed
        omega

/-- On an integer that fits, the conversions are exact and nothing is rounded. -/
theorem roundFraction_integer (undefined : OutOfRange) (prec : Nat) {number : Int}
    (nonnegative : 0 ≤ number) (fits : number < 2 ^ 31) :
    let whole := undefined.toInt number
    let tmp := ((number : ℚ) - (whole.toInt : ℚ)) * aPow10 prec
    let frac := undefined.toUInt32 tmp
    whole.toInt = number ∧
      roundFraction prec whole frac (tmp - (frac.toNat : ℚ)) = (whole, frac) := by
  intro whole tmp frac
  have exact : whole.toInt = number := by
    have value := toInt_of_lt undefined (Int.cast_nonneg nonnegative) (by exact_mod_cast fits)
    rwa [Int.floor_intCast] at value
  have nothing : tmp = 0 := by
    unfold tmp
    rw [exact, sub_self, zero_mul]
  have digits : (frac.toNat : Int) = 0 := by
    have value := toUInt32_of_lt undefined nothing.ge (by rw [nothing]; norm_num)
    rwa [nothing, Int.floor_zero, ← nothing] at value
  have noDigits : (frac.toNat : ℚ) = 0 := by exact_mod_cast digits
  refine ⟨exact, ?_⟩
  unfold roundFraction
  rw [nothing, noDigits, if_neg (by norm_num), if_neg]
  rintro ⟨half, _⟩
  norm_num at half

theorem roundWhole_integer {number : Int} {whole : Int32} (exact : whole.toInt = number) :
    roundWhole number whole = whole := by
  unfold roundWhole
  dsimp only
  rw [exact, sub_self, if_neg (by norm_num), if_neg]
  rintro ⟨half, _⟩
  norm_num at half

/-- For every integer up to the threshold, every precision and every behaviour of the
undefined conversions, the integer is printed exactly if it fits the type `int`. -/
theorem modpDtoa_exact_iff (undefined : OutOfRange) (str : Buffer UInt8) (value : Int)
    (admitted : |value| ≤ 2 ^ 63 - 1) (prec : Nat) (clamped : prec ≤ 9) :
    PrintsInteger value (modpDtoa undefined value str prec) ↔ |value| ≤ 2 ^ 31 - 1 := by
  have threshold : |(value : ℚ)| ≤ 0x7FFFFFFFFFFFFFFF := by
    exact_mod_cast admitted.trans (by norm_num)
  have converted := convertDecimal_eq undefined threshold str clamped
  unfold modpDtoa
  rw [converted]
  constructor
  · exact printsInteger_bound
  · intro fits
    rcases roundFraction_integer undefined prec (abs_nonneg value) (by omega) with ⟨exact, kept⟩
    rw [← Int.cast_abs, kept]
    dsimp only
    rw [roundWhole_integer exact, ite_self, printsInteger_writeDecimal_iff, exact,
      readNumeral_decimalText _ (abs_nonneg value)]
    simp only [decide_eq_true_eq, Int.cast_lt_zero]
    congr 1
    split
    · rw [abs_of_neg ‹_›, neg_neg]
    · exact abs_of_nonneg (not_lt.mp ‹_›)

/-- The least value that is printed with three digits after the point. -/
theorem modpDtoa_exact_least :
    |(-2147483647 : Int)| ≤ 2 ^ 63 - 1 ∧
      PrintsInteger (-2147483647)
        (modpDtoa saturating ((-2147483647 : Int) : ℚ) (Buffer.fresh fun _ => 0) 3) :=
  ⟨by decide, (modpDtoa_exact_iff saturating _ _ (by decide) 3 (by decide)).mpr (by decide)⟩

/-- The integer `2 ^ 31` is far below the threshold, and its digits are not printed. -/
theorem modpDtoa_exceeds_int :
    |(2147483648 : Int)| ≤ 2 ^ 63 - 1 ∧
      ¬ PrintsInteger 2147483648
        (modpDtoa saturating ((2147483648 : Int) : ℚ) (Buffer.fresh fun _ => 0) 1) :=
  ⟨by decide, (modpDtoa_exact_iff saturating _ _ (by decide) 1 (by decide)).not.mpr (by decide)⟩

end Util
end AnalogX

import Mathlib.Data.Nat.Digits.Lemmas
import Mathlib.Data.UInt
import Mathlib.Data.Rat.Floor
import Mathlib.Tactic.FieldSimp
import Mathlib.Tactic.Linarith

namespace AnalogX
namespace Foundations
namespace Numerals

/-!
# Positional numerals as text

A digit loop that divides before it tests its quotient produces the digits of a
number from the least significant one on, and at least one digit: zero has the
numeral `0`.  Apart from zero these are the digits of `Nat.digits`.

Numerals are read back from ASCII text by the usual fold, with the letters `a` to
`z` as the digits above nine.  A numeral is canonical if it has a sign exactly for
negative values and no leading zero beyond the numeral of zero itself.
-/

/-- The digits of a number in a base, least significant first and never none. -/
def loopDigits (base number : Nat) : List Nat :=
  if number = 0 then [0] else base.digits number

theorem loopDigits_ne_nil (base number : Nat) : loopDigits base number ≠ [] := by
  unfold loopDigits
  split
  · exact List.cons_ne_nil _ _
  · exact Nat.digits_ne_nil_iff_ne_zero.mpr ‹_›

/-- The recursion of the loop: the quotient is tested after the digit is produced. -/
theorem loopDigits_eq_cons {base : Nat} (proper : 1 < base) (number : Nat) :
    loopDigits base number = number % base ::
      (if number / base = 0 then [] else loopDigits base (number / base)) := by
  by_cases zero : number = 0
  · rw [zero, Nat.zero_mod, Nat.zero_div, if_pos rfl]
    rfl
  · unfold loopDigits
    rw [if_neg zero, Nat.digits_eq_cons_digits_div proper zero]
    congr 1
    split
    · rw [‹number / base = 0›, Nat.digits_zero]
    · rfl

theorem loopDigits_lt_base {base number digit : Nat} (proper : 1 < base)
    (member : digit ∈ loopDigits base number) : digit < base := by
  unfold loopDigits at member
  split at member
  · rw [List.mem_singleton.mp member]
    exact Nat.lt_of_succ_lt proper
  · exact Nat.digits_lt_base proper member

theorem ofDigits_loopDigits (base number : Nat) :
    Nat.ofDigits base (loopDigits base number) = number := by
  unfold loopDigits
  split
  · rw [Nat.ofDigits_singleton]
    exact (‹number = 0›).symm
  · exact Nat.ofDigits_digits base number

/-- The most significant digit is zero only for zero. -/
theorem getLast_loopDigits {base number : Nat}
    (leading : (loopDigits base number).getLast? = some 0) : number = 0 := by
  by_contra nonzero
  unfold loopDigits at leading
  rw [if_neg nonzero, List.getLast?_eq_getLast_of_ne_nil
    (Nat.digits_ne_nil_iff_ne_zero.mpr nonzero)] at leading
  exact Nat.getLast_digit_ne_zero base nonzero (Option.some.inj leading)

/-- The number of iterations of the loop. -/
theorem length_loopDigits_le_iff {base count : Nat} (proper : 1 < base) (some : 0 < count)
    (number : Nat) : (loopDigits base number).length ≤ count ↔ number < base ^ count := by
  unfold loopDigits
  split
  · rename_i zero
    rw [zero]
    have power : 0 < base ^ count := Nat.pow_pos (Nat.lt_of_succ_lt proper)
    exact iff_of_true some power
  · exact Nat.digits_length_le_iff proper number

/-! ## Truncating division -/

/-- The remainders of a digit loop with truncating division.  They carry the sign
of the number. -/
def signedDigits (base : Nat) (number : Int) : List Int :=
  (loopDigits base number.natAbs).map fun digit : Nat => number.sign * (digit : Int)

theorem tmod_eq_sign_mul (base : Nat) (number : Int) :
    number.tmod base = number.sign * ((number.natAbs % base : Nat) : Int) := by
  rw [← Int.natAbs_natCast base, ← Int.natAbs_tmod]
  rw [Int.natAbs_natCast]
  rcases lt_trichotomy number 0 with negative | zero | positive
  · have remainder : 0 ≤ (-number).tmod base := Int.tmod_nonneg _ (by omega)
    rw [Int.neg_tmod] at remainder
    rw [Int.sign_eq_neg_one_of_neg negative]
    omega
  · rw [zero, Int.zero_tmod]
    rfl
  · have remainder : 0 ≤ number.tmod base := Int.tmod_nonneg _ positive.le
    rw [Int.sign_eq_one_of_pos positive]
    omega

theorem sign_tdiv_of_ne_zero {base : Nat} {number : Int} (nonzero : number.tdiv base ≠ 0) :
    (number.tdiv base).sign = number.sign := by
  rcases le_total 0 number with positive | negative
  · have quotient : 0 ≤ number.tdiv base := Int.tdiv_nonneg positive (Int.natCast_nonneg base)
    have dividend : number ≠ 0 := by
      intro zero
      exact nonzero (by rw [zero, Int.zero_tdiv])
    rw [Int.sign_eq_one_of_pos (by omega), Int.sign_eq_one_of_pos (by omega)]
  · have quotient : 0 ≤ (-number).tdiv base :=
      Int.tdiv_nonneg (by omega) (Int.natCast_nonneg base)
    rw [Int.neg_tdiv] at quotient
    have dividend : number ≠ 0 := by
      intro zero
      exact nonzero (by rw [zero, Int.zero_tdiv])
    rw [Int.sign_eq_neg_one_of_neg (by omega), Int.sign_eq_neg_one_of_neg (by omega)]

/-- The recursion of the loop on a signed number. -/
theorem signedDigits_eq_cons {base : Nat} (proper : 1 < base) (number : Int) :
    signedDigits base number = number.tmod base ::
      (if number.tdiv base = 0 then [] else signedDigits base (number.tdiv base)) := by
  have quotient : (number.tdiv base).natAbs = number.natAbs / base := by
    rw [Int.natAbs_tdiv, Int.natAbs_natCast]
    rfl
  unfold signedDigits
  rw [loopDigits_eq_cons proper, List.map_cons, tmod_eq_sign_mul]
  congr 1
  by_cases last : number.tdiv base = 0
  · rw [if_pos last, if_pos (by rw [← quotient, last]; rfl)]
    rfl
  · rw [if_neg last, if_neg (by rw [← quotient]; exact Int.natAbs_ne_zero.mpr last), quotient,
      sign_tdiv_of_ne_zero last]

theorem length_signedDigits (base : Nat) (number : Int) :
    (signedDigits base number).length = (loopDigits base number.natAbs).length :=
  List.length_map _

theorem signedDigits_of_nonneg {base : Nat} {number : Int} (nonnegative : 0 ≤ number) :
    signedDigits base number =
      (loopDigits base number.natAbs).map fun digit : Nat => (digit : Int) := by
  unfold signedDigits
  rcases nonnegative.eq_or_lt with zero | positive
  · rw [← zero]
    rfl
  · rw [Int.sign_eq_one_of_pos positive]
    simp only [Int.one_mul]

/-- The remainders lie strictly between the base and its negative. -/
theorem natAbs_lt_of_mem_signedDigits {base : Nat} (proper : 1 < base) {number remainder : Int}
    (member : remainder ∈ signedDigits base number) : remainder.natAbs < base := by
  rcases List.mem_map.mp member with ⟨digit, inside, rfl⟩
  have bound := loopDigits_lt_base proper inside
  rw [Int.natAbs_mul, Int.natAbs_natCast, Int.natAbs_sign]
  split <;> omega

/-- No remainder of a negative number is positive. -/
theorem nonpos_of_mem_signedDigits {base : Nat} {number remainder : Int}
    (negative : number < 0) (member : remainder ∈ signedDigits base number) : remainder ≤ 0 := by
  rcases List.mem_map.mp member with ⟨digit, _, rfl⟩
  rw [Int.sign_eq_neg_one_of_neg negative]
  omega

/-! ## Digits as characters -/

/-- The minus sign. -/
def minus : UInt8 := '-'.toUInt8

/-- The decimal point. -/
def point : UInt8 := '.'.toUInt8

/-- The character of a digit below thirty-six. -/
def digitByte (digit : Nat) : UInt8 :=
  if digit < 10 then UInt8.ofNat ('0'.toNat + digit) else UInt8.ofNat ('a'.toNat + (digit - 10))

/-- The digit of a character, if it is one in the given base. -/
def readDigit (base : Nat) (byte : UInt8) : Option Nat :=
  let digit? :=
    if '0'.toUInt8 ≤ byte ∧ byte ≤ '9'.toUInt8 then some (byte.toNat - '0'.toNat)
    else if 'a'.toUInt8 ≤ byte ∧ byte ≤ 'z'.toUInt8 then some (byte.toNat - 'a'.toNat + 10)
    else none
  digit?.filter (· < base)

/-- The value of a nonempty string of digits. -/
def readMagnitude (base : Nat) (text : List UInt8) : Option Nat :=
  if text = [] then none
  else text.foldlM (fun value byte => (readDigit base byte).map (base * value + ·)) 0

/-- The value of a numeral with an optional sign. -/
def readNumeral (base : Nat) (text : List UInt8) : Option Int :=
  if text.head? = some minus then
    (readMagnitude base text.tail).map fun value : Nat => -(value : Int)
  else (readMagnitude base text).map fun value : Nat => (value : Int)

theorem readDigit_digitByte {base digit : Nat} (inBase : digit < base) (small : base ≤ 36) :
    readDigit base (digitByte digit) = some digit := by
  have every : ∀ digit < 36, readDigit 36 (digitByte digit) = some digit := by decide
  have value := every digit (by omega)
  unfold readDigit at value ⊢
  rw [Option.filter_eq_some_iff] at value ⊢
  exact ⟨value.1, decide_eq_true inBase⟩

theorem digitByte_ne_minus {digit : Nat} (small : digit < 36) : digitByte digit ≠ minus := by
  have every : ∀ digit < 36, digitByte digit ≠ minus := by decide
  exact every digit small

theorem digitByte_ne_point {digit : Nat} (small : digit < 36) : digitByte digit ≠ point := by
  have every : ∀ digit < 36, digitByte digit ≠ point := by decide
  exact every digit small

theorem digitByte_ne_nul {digit : Nat} (small : digit < 36) : digitByte digit ≠ 0 := by
  have every : ∀ digit < 36, digitByte digit ≠ 0 := by decide
  exact every digit small

theorem digitByte_eq_zero_iff {digit : Nat} (small : digit < 36) :
    digitByte digit = digitByte 0 ↔ digit = 0 := by
  have every : ∀ digit < 36, digitByte digit = digitByte 0 → digit = 0 := by decide
  exact ⟨every digit small, fun zero => by rw [zero]⟩

/-! ## Digit strings -/

/-- The digits of a number as text, most significant first. -/
def digitsText (digits : List Nat) : List UInt8 :=
  (digits.map digitByte).reverse

section DigitsText

variable {digits : List Nat}

theorem mem_digitsText {byte : UInt8} (member : byte ∈ digitsText digits) :
    ∃ digit ∈ digits, digitByte digit = byte := by
  rw [digitsText, List.mem_reverse] at member
  exact List.mem_map.mp member

theorem digitsText_cons (digit : Nat) (rest : List Nat) :
    digitsText (digit :: rest) = digitsText rest ++ [digitByte digit] :=
  List.reverse_cons

theorem length_digitsText (digits : List Nat) : (digitsText digits).length = digits.length := by
  rw [digitsText, List.length_reverse, List.length_map]

theorem digitsText_ne_nil (nonempty : digits ≠ []) : digitsText digits ≠ [] := by
  intro empty
  exact nonempty (List.map_eq_nil_iff.mp (List.reverse_eq_nil_iff.mp empty))

theorem readDigit_of_mem_digitsText {base : Nat} (small : base ≤ 36)
    (inBase : ∀ digit ∈ digits, digit < base) {byte : UInt8}
    (member : byte ∈ digitsText digits) : (readDigit base byte).isSome := by
  rcases mem_digitsText member with ⟨digit, inside, rfl⟩
  rw [readDigit_digitByte (inBase digit inside) small]
  rfl

theorem ne_of_mem_digitsText {base : Nat} (small : base ≤ 36)
    (inBase : ∀ digit ∈ digits, digit < base) {byte other : UInt8}
    (different : ∀ digit < 36, digitByte digit ≠ other) (member : byte ∈ digitsText digits) :
    byte ≠ other := by
  rcases mem_digitsText member with ⟨digit, inside, rfl⟩
  have bound := inBase digit inside
  exact different digit (by omega)

/-- The first point of a text after digits is where the digits end. -/
theorem takeWhile_point (decimal : ∀ digit ∈ digits, digit < 10) (rest : List UInt8) :
    (digitsText digits ++ point :: rest).takeWhile (· ≠ point) = digitsText digits := by
  rw [List.takeWhile_append_of_pos, List.takeWhile_cons_of_neg (by simp), List.append_nil]
  intro byte member
  exact decide_eq_true (ne_of_mem_digitsText (by decide) decimal (fun _ => digitByte_ne_point) member)

theorem dropWhile_point (decimal : ∀ digit ∈ digits, digit < 10) (rest : List UInt8) :
    (digitsText digits ++ point :: rest).dropWhile (· ≠ point) = point :: rest := by
  rw [List.dropWhile_append_of_pos, List.dropWhile_cons_of_neg (by simp)]
  intro byte member
  exact decide_eq_true (ne_of_mem_digitsText (by decide) decimal (fun _ => digitByte_ne_point) member)

end DigitsText

/-! ## Reading numerals -/

/-- Reading a string of digits, most significant first, gives their value. -/
theorem readMagnitude_digitsText {base : Nat} {digits : List Nat} (small : base ≤ 36)
    (inBase : ∀ digit ∈ digits, digit < base) (nonempty : digits ≠ []) :
    readMagnitude base (digitsText digits) = some (Nat.ofDigits base digits) := by
  have fold : (digitsText digits).foldlM
      (fun value byte => (readDigit base byte).map (base * value + ·)) 0 =
        some (Nat.ofDigits base digits) := by
    clear nonempty
    induction digits with
    | nil => rfl
    | cons digit rest inductionHypothesis =>
        have first := inBase digit List.mem_cons_self
        have others := fun other member => inBase other (List.mem_cons_of_mem digit member)
        rw [digitsText_cons, List.foldlM_append, inductionHypothesis others,
          Nat.ofDigits_cons, Nat.add_comm]
        simp only [Option.bind_eq_bind, Option.bind_some, List.foldlM_cons, List.foldlM_nil,
          readDigit_digitByte first small, Option.map_some]
        rfl
  unfold readMagnitude
  rw [if_neg (digitsText_ne_nil nonempty), fold]

/-- A text whose only digits are zeros denotes nothing but zero. -/
theorem readMagnitude_of_zeros {base : Nat} {text : List UInt8}
    (zeros : ∀ byte ∈ text, ∀ digit, readDigit base byte = some digit → digit = 0)
    {value : Nat} (reads : readMagnitude base text = some value) : value = 0 := by
  have fold : ∀ text : List UInt8,
      (∀ byte ∈ text, ∀ digit, readDigit base byte = some digit → digit = 0) →
      text.foldlM (fun value byte => (readDigit base byte).map (base * value + ·)) 0 =
        some value → value = 0 := by
    intro text
    induction text with
    | nil =>
        intro _ result
        exact (Option.some.inj result).symm
    | cons byte rest inductionHypothesis =>
        intro zeros result
        rw [List.foldlM_cons] at result
        rcases Option.bind_eq_some_iff.mp result with ⟨next, first, later⟩
        rcases Option.map_eq_some_iff.mp first with ⟨digit, read, sum⟩
        rw [zeros byte List.mem_cons_self digit read, Nat.mul_zero] at sum
        rw [← sum] at later
        exact inductionHypothesis
          (fun other member => zeros other (List.mem_cons_of_mem byte member)) later
  unfold readMagnitude at reads
  split at reads
  · cases reads
  · exact fold text zeros reads

theorem readNumeral_of_zeros {base : Nat} {text : List UInt8}
    (zeros : ∀ byte ∈ text, ∀ digit, readDigit base byte = some digit → digit = 0)
    {value : Int} (reads : readNumeral base text = some value) : value = 0 := by
  unfold readNumeral at reads
  split at reads
  · rcases Option.map_eq_some_iff.mp reads with ⟨magnitude, read, sign⟩
    rw [← sign, readMagnitude_of_zeros
      (fun byte member => zeros byte (List.mem_of_mem_tail member)) read]
    rfl
  · rcases Option.map_eq_some_iff.mp reads with ⟨magnitude, read, sign⟩
    rw [← sign, readMagnitude_of_zeros zeros read]
    rfl

/-- The digits of a text, without its sign. -/
def unsigned (text : List UInt8) : List UInt8 :=
  if text.head? = some minus then text.tail else text

/-- The canonical numeral of a value: a sign exactly for negative values, digits of
the base only, no leading zero except for zero itself, and the value can be read back. -/
structure Canonical (base : Nat) (text : List UInt8) (value : Int) : Prop where
  sign : text.head? = some minus ↔ value < 0
  digits : ∀ byte ∈ unsigned text, (readDigit base byte).isSome
  nonempty : unsigned text ≠ []
  leading : (unsigned text).head? = some (digitByte 0) → unsigned text = [digitByte 0] ∧ value = 0
  reads : readNumeral base text = some value

/-- A canonical numeral determines its value. -/
theorem Canonical.value_unique {base : Nat} {text : List UInt8} {first second : Int}
    (one : Canonical base text first) (other : Canonical base text second) : first = second :=
  Option.some.inj (one.reads.symm.trans other.reads)

/-- The numeral as the digit loop and the reversal leave it. -/
def numeral (base : Nat) (value : Int) : List UInt8 :=
  (if value < 0 then [minus] else []) ++ digitsText (loopDigits base value.natAbs)

section Numeral

variable {base : Nat}

/-- The text of a magnitude does not begin with a sign. -/
theorem head_magnitude_ne_minus (proper : 1 < base) (small : base ≤ 36) (number : Nat) :
    (digitsText (loopDigits base number)).head? ≠ some minus := by
  intro signed
  exact ne_of_mem_digitsText small (fun _ inside => loopDigits_lt_base proper inside)
    (fun _ => digitByte_ne_minus) (List.mem_of_head? signed) rfl

theorem head_numeral_iff (proper : 1 < base) (small : base ≤ 36) (value : Int) :
    (numeral base value).head? = some minus ↔ value < 0 := by
  unfold numeral
  by_cases negative : value < 0
  · rw [if_pos negative]
    exact iff_of_true rfl negative
  · rw [if_neg negative]
    exact iff_of_false (head_magnitude_ne_minus proper small _) negative

theorem unsigned_numeral (proper : 1 < base) (small : base ≤ 36) (value : Int) :
    unsigned (numeral base value) = digitsText (loopDigits base value.natAbs) := by
  unfold unsigned
  simp only [head_numeral_iff proper small]
  unfold numeral
  split <;> rfl

/-- Reading the numeral gives the value back. -/
theorem readNumeral_numeral (proper : 1 < base) (small : base ≤ 36) (value : Int) :
    readNumeral base (numeral base value) = some value := by
  have magnitude := readMagnitude_digitsText small
    (fun _ inside => loopDigits_lt_base proper inside) (loopDigits_ne_nil base value.natAbs)
  rw [ofDigits_loopDigits] at magnitude
  unfold readNumeral
  simp only [head_numeral_iff proper small]
  unfold numeral
  by_cases negative : value < 0
  · rw [if_pos negative, if_pos negative, List.singleton_append, List.tail_cons, magnitude,
      Option.map_some]
    congr 1
    omega
  · rw [if_neg negative, if_neg negative, List.nil_append, magnitude, Option.map_some]
    congr 1
    omega

theorem canonical_numeral (proper : 1 < base) (small : base ≤ 36) (value : Int) :
    Canonical base (numeral base value) value where
  sign := head_numeral_iff proper small value
  digits := by
    rw [unsigned_numeral proper small]
    intro byte member
    exact readDigit_of_mem_digitsText small (fun _ inside => loopDigits_lt_base proper inside)
      member
  nonempty := by
    rw [unsigned_numeral proper small]
    exact digitsText_ne_nil (loopDigits_ne_nil base value.natAbs)
  leading := by
    rw [unsigned_numeral proper small, digitsText, List.head?_reverse, List.getLast?_map]
    intro zero
    rcases Option.map_eq_some_iff.mp zero with ⟨digit, last, byte⟩
    have bound := loopDigits_lt_base proper (List.mem_of_getLast? last)
    rw [digitByte_eq_zero_iff (by omega)] at byte
    rw [byte] at last
    have nothing := getLast_loopDigits last
    rw [nothing]
    exact ⟨rfl, Int.natAbs_eq_zero.mp nothing⟩
  reads := readNumeral_numeral proper small value

/-- A character that is neither a digit nor the sign does not occur in a numeral. -/
theorem notMem_numeral (proper : 1 < base) (small : base ≤ 36) (value : Int) {other : UInt8}
    (noDigit : ∀ digit < 36, digitByte digit ≠ other) (noSign : other ≠ minus) :
    other ∉ numeral base value := by
  unfold numeral
  intro member
  rcases List.mem_append.mp member with signed | digit
  · split at signed
    · exact noSign (List.mem_singleton.mp signed)
    · cases signed
  · exact ne_of_mem_digitsText small (fun _ inside => loopDigits_lt_base proper inside)
      noDigit digit rfl

theorem nul_notMem_numeral (proper : 1 < base) (small : base ≤ 36) (value : Int) :
    (0 : UInt8) ∉ numeral base value :=
  notMem_numeral proper small value (fun _ => digitByte_ne_nul) (by decide)

end Numeral

/-! ## Decimal fractions -/

/-- The value of a decimal fraction: the digits before the point, and those after
it divided by the power of ten of their number. -/
def readFixed (text : List UInt8) : Option ℚ :=
  let whole := (unsigned text).takeWhile (· ≠ point)
  let fraction := ((unsigned text).dropWhile (· ≠ point)).tail
  (readMagnitude 10 whole).bind fun (first : Nat) =>
    (readMagnitude 10 fraction).map fun (second : Nat) =>
      (if text.head? = some minus then -1 else 1) *
        ((first : ℚ) + (second : ℚ) / 10 ^ fraction.length)

/-- A decimal fraction with digits on both sides of its point and no trailing zero
beyond the first digit after it. -/
structure FixedNumeral (text : List UInt8) (value : ℚ) : Prop where
  form : ∃ whole fraction, unsigned text = whole ++ point :: fraction ∧
    whole ≠ [] ∧ fraction ≠ [] ∧
    (∀ byte ∈ whole, (readDigit 10 byte).isSome) ∧
    (∀ byte ∈ fraction, (readDigit 10 byte).isSome) ∧
    (fraction.getLast? = some (digitByte 0) → fraction = [digitByte 0])
  reads : readFixed text = some value

theorem FixedNumeral.value_unique {text : List UInt8} {first second : ℚ}
    (one : FixedNumeral text first) (other : FixedNumeral text second) : first = second :=
  Option.some.inj (one.reads.symm.trans other.reads)

/-- Drop the zeros at the head of a digit list, but never its last digit. -/
def trimDigits : List Nat → List Nat
  | digit :: next :: rest => if digit = 0 then trimDigits (next :: rest) else digit :: next :: rest
  | short => short

theorem trimDigits_cons_zero (next : Nat) (rest : List Nat) :
    trimDigits (0 :: next :: rest) = trimDigits (next :: rest) := by
  rw [trimDigits, if_pos rfl]

theorem trimDigits_cons_ne_zero {digit : Nat} (nonzero : digit ≠ 0) (rest : List Nat) :
    trimDigits (digit :: rest) = digit :: rest := by
  cases rest with
  | nil => rfl
  | cons next rest => rw [trimDigits, if_neg nonzero]

theorem trimDigits_ne_nil {digits : List Nat} (nonempty : digits ≠ []) :
    trimDigits digits ≠ [] := by
  fun_induction trimDigits digits with
  | case1 next rest inductionHypothesis => exact inductionHypothesis (List.cons_ne_nil _ _)
  | case2 digit next rest nonzero => exact List.cons_ne_nil _ _
  | case3 digits short => exact nonempty

theorem mem_of_mem_trimDigits {digit : Nat} {digits : List Nat}
    (member : digit ∈ trimDigits digits) : digit ∈ digits := by
  fun_induction trimDigits digits with
  | case1 next rest inductionHypothesis => exact List.mem_cons_of_mem _ (inductionHypothesis member)
  | case2 => exact member
  | case3 => exact member

/-- A trimmed list begins with a zero only if that is all it has. -/
theorem head_trimDigits {digits : List Nat} (zero : (trimDigits digits).head? = some 0) :
    trimDigits digits = [0] := by
  fun_induction trimDigits digits with
  | case1 next rest inductionHypothesis => exact inductionHypothesis zero
  | case2 digit next rest nonzero =>
      exact absurd (Option.some.inj zero) nonzero
  | case3 digits short =>
      match digits, short with
      | [], _ => cases zero
      | [digit], _ => rw [Option.some.inj zero]
      | digit :: next :: rest, short => exact absurd rfl (short digit next rest)

/-- Trimming does not change the value of the digits after a point. -/
theorem ofDigits_trimDigits (digits : List Nat) :
    ((Nat.ofDigits 10 (trimDigits digits) : Nat) : ℚ) / 10 ^ (trimDigits digits).length =
      ((Nat.ofDigits 10 digits : Nat) : ℚ) / 10 ^ digits.length := by
  fun_induction trimDigits digits with
  | case1 next rest inductionHypothesis =>
      have shifted : Nat.ofDigits 10 (0 :: next :: rest) = Nat.ofDigits 10 (next :: rest) * 10 := by
        rw [Nat.ofDigits_cons, Nat.zero_add, Nat.mul_comm]
      have power : (10 : ℚ) ^ (0 :: next :: rest).length = 10 ^ (next :: rest).length * 10 :=
        pow_succ _ _
      rw [inductionHypothesis, shifted, power, Nat.cast_mul, Nat.cast_ofNat]
      exact (mul_div_mul_right _ _ (by norm_num)).symm
  | case2 => rfl
  | case3 => rfl

/-- A sign, digits, a point and digits. -/
def fixedText (negative : Bool) (whole fraction : List Nat) : List UInt8 :=
  (if negative then [minus] else []) ++ (digitsText whole ++ point :: digitsText fraction)

section FixedText

variable {whole fraction : List Nat}

theorem head_fixedText_iff (wholeDecimal : ∀ digit ∈ whole, digit < 10) (nonempty : whole ≠ [])
    (negative : Bool) :
    (fixedText negative whole fraction).head? = some minus ↔ negative = true := by
  cases negative with
  | true => exact iff_of_true rfl rfl
  | false =>
      apply iff_of_false _ Bool.false_ne_true
      change (digitsText whole ++ point :: digitsText fraction).head? ≠ some minus
      rw [List.head?_append_of_ne_nil _ (digitsText_ne_nil nonempty)]
      intro signed
      exact ne_of_mem_digitsText (by decide) wholeDecimal (fun _ => digitByte_ne_minus)
        (List.mem_of_head? signed) rfl

theorem unsigned_fixedText (wholeDecimal : ∀ digit ∈ whole, digit < 10) (nonempty : whole ≠ [])
    (negative : Bool) :
    unsigned (fixedText negative whole fraction) =
      digitsText whole ++ point :: digitsText fraction := by
  unfold unsigned
  simp only [head_fixedText_iff wholeDecimal nonempty]
  cases negative <;> rfl

/-- Such a text is a decimal fraction as soon as its last digits are trimmed. -/
theorem fixedNumeral_fixedText (negative : Bool)
    (wholeDecimal : ∀ digit ∈ whole, digit < 10) (wholeNonempty : whole ≠ [])
    (fractionDecimal : ∀ digit ∈ fraction, digit < 10) (fractionNonempty : fraction ≠ [])
    (trimmed : fraction.head? = some 0 → fraction = [0]) :
    FixedNumeral (fixedText negative whole fraction)
      ((if negative then -1 else 1) * (((Nat.ofDigits 10 whole : Nat) : ℚ) +
        ((Nat.ofDigits 10 fraction : Nat) : ℚ) / 10 ^ fraction.length)) where
  form := by
    refine ⟨digitsText whole, digitsText fraction,
      unsigned_fixedText wholeDecimal wholeNonempty negative,
      digitsText_ne_nil wholeNonempty, digitsText_ne_nil fractionNonempty,
      fun _ => readDigit_of_mem_digitsText (by decide) wholeDecimal,
      fun _ => readDigit_of_mem_digitsText (by decide) fractionDecimal, ?_⟩
    rw [digitsText, List.getLast?_reverse, List.head?_map]
    intro zero
    rcases Option.map_eq_some_iff.mp zero with ⟨digit, first, byte⟩
    have bound := fractionDecimal digit (List.mem_of_head? first)
    rw [digitByte_eq_zero_iff (by omega)] at byte
    rw [byte] at first
    rw [trimmed first]
    rfl
  reads := by
    have first := readMagnitude_digitsText (by decide) wholeDecimal wholeNonempty
    have second := readMagnitude_digitsText (by decide) fractionDecimal fractionNonempty
    unfold readFixed
    simp only [unsigned_fixedText wholeDecimal wholeNonempty, takeWhile_point wholeDecimal,
      dropWhile_point wholeDecimal, List.tail_cons, first, second, length_digitsText, Option.bind_some,
      Option.map_some, head_fixedText_iff wholeDecimal wholeNonempty]

end FixedText

end Numerals
end Foundations
end AnalogX

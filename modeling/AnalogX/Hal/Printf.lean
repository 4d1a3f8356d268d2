import AnalogX.Firmware.Timestamps
import AnalogX.Foundations.Buffers

namespace AnalogX
namespace Hal

open Foundations Foundations.Numerals

/-!
# Formatted output

`chvprintf` prints every line of the console.  It interprets its format one character
at a time: plain characters are passed on, and a directive
`%[-][0][width][.precision][l]command` is decoded, converted in a small buffer on the
stack, and laid out in a field of the given width.

The format is the text before its terminator.  Four things can go wrong in C without
being noticed: a read past that terminator, an argument which is missing or of another
kind, an overflow of a signed number, and a digit stored below the start of the buffer.
Each of them ends the call here.  The buffer records how far the conversions reached
into it.

Words are 32 bits, so that a `long` argument is read like an `int`, and characters are
unsigned.
-/

/-- `MAX_FILLER`. -/
def maxFiller : Nat := 11

/-- An argument of the call: a word, or a pointer to a string, which may be null. -/
inductive VaArg where
  | word (value : UInt32)
  | pointer (text : Option (List UInt8))

/-- The undefined behaviours of a call. -/
inductive PrintFault where
  | pastFormat
  | badArgument
  | overflow
  | belowTmpbuf
  deriving DecidableEq

/-- The radix of a numeric conversion. -/
inductive PrintRadix where
  | octal
  | decimal
  | hexadecimal
  deriving DecidableEq

def PrintRadix.value : PrintRadix → Nat
  | .octal => 8
  | .decimal => 10
  | .hexadecimal => 16

theorem PrintRadix.one_lt_value (radix : PrintRadix) : 1 < radix.value := by
  cases radix <;> decide

theorem PrintRadix.value_le (radix : PrintRadix) : radix.value ≤ 16 := by
  cases radix <;> decide

/-! ## Numbers in the buffer -/

/-- The character of a digit, in capitals above nine. -/
def digitCharacter (digit : Nat) : UInt8 :=
  let i := digit + '0'.toNat
  UInt8.ofNat (if '9'.toNat < i then i + ('A'.toNat - '0'.toNat - 10) else i)

/-- The first loop of `long_to_string_with_divisor`, which stores the digits downwards
from `q`.  There is nothing to store to below the start of the buffer. -/
def storeDigits (radix : PrintRadix) (l : Nat) (tmpbuf : Cursor UInt8) :
    Except PrintFault (Cursor UInt8) :=
  match tmpbuf.ptr with
  | 0 => .error .belowTmpbuf
  | q + 1 =>
      let stored : Cursor UInt8 :=
        { ptr := q
          buffer := tmpbuf.buffer.store q (digitCharacter (l % radix.value)) }
      if l / radix.value = 0 then .ok stored else storeDigits radix (l / radix.value) stored
termination_by l
decreasing_by
  rename_i continues
  refine Nat.div_lt_self (Nat.pos_of_ne_zero fun zero => continues ?_) radix.one_lt_value
  rw [zero, Nat.zero_div]

/-- The second loop of `long_to_string_with_divisor`, which moves `i` characters from `q`
down to `p`. -/
def moveDown : Nat → Nat → Cursor UInt8 → Cursor UInt8
  | 0, _, tmpbuf => tmpbuf
  | i + 1, q, tmpbuf =>
      let (c, loaded) := tmpbuf.buffer.load q
      moveDown i (q + 1) (Cursor.push { tmpbuf with buffer := loaded } c)

/-- `ch_ltoa`. -/
def chLtoa (tmpbuf : Cursor UInt8) (num : UInt32) (radix : PrintRadix) :
    Except PrintFault (Cursor UInt8) :=
  (storeDigits radix num.toNat { tmpbuf with ptr := tmpbuf.ptr + maxFiller }).map fun stored =>
    moveDown (tmpbuf.ptr + maxFiller - stored.ptr) stored.ptr { stored with ptr := tmpbuf.ptr }

/-! ## Decoding a directive -/

/-- A width or a precision, the character that ended it, what follows this character in
the format unless it was the terminator, and the arguments that are left. -/
structure Count where
  count : Nat
  stop : UInt8
  fmt : Option (List UInt8)
  ap : List VaArg

/-- `width = width * 10 + c`. -/
def accumulate (count : Nat) (c : UInt8) : Except PrintFault Nat :=
  if count * 10 + c.toNat < 2 ^ 31 then .ok (count * 10 + c.toNat) else .error .overflow

/-- `va_arg(ap, int)`. -/
def vaArgInt : List VaArg → Except PrintFault (UInt32 × List VaArg)
  | .word value :: ap => .ok (value, ap)
  | _ => .error .badArgument

/-- The loop which reads a width or a precision. -/
def readCount : Nat → List UInt8 → List VaArg → Except PrintFault Count
  | count, [], ap => .ok ⟨count, 0, none, ap⟩
  | count, c :: fmt, ap =>
      if '0'.toUInt8 ≤ c ∧ c ≤ '9'.toUInt8 then
        (accumulate count (c - '0'.toUInt8)).bind fun count => readCount count fmt ap
      else if c = '*'.toUInt8 then
        (vaArgInt ap).bind fun (value, ap) =>
          (accumulate count value.toUInt8).bind fun count => readCount count fmt ap
      else
        .ok ⟨count, c, if c = 0 then none else some fmt, ap⟩

/-- The precision after a width. -/
def readPrecision (width : Count) : Except PrintFault Count :=
  if width.stop = point then
    match width.fmt with
    | some fmt => readCount 0 fmt width.ap
    | none => .error .pastFormat
  else
    .ok { width with count := 0 }

/-- The long modifier is skipped, unless the format ends with it. -/
def skipLong (c : UInt8) (fmt : Option (List UInt8)) : UInt8 × Option (List UInt8) :=
  if c = 'l'.toUInt8 ∨ c = 'L'.toUInt8 then
    match fmt with
    | some (command :: rest) => if command = 0 then (c, fmt) else (command, some rest)
    | _ => (c, fmt)
  else
    (c, fmt)

/-- A decoded directive. -/
structure Directive where
  leftAlign : Bool
  filler : UInt8
  width : Nat
  precision : Nat
  command : UInt8

/-- Skip a flag character. -/
def skipFlag (flag : UInt8) (fmt : List UInt8) : Bool × List UInt8 :=
  if fmt.head? = some flag then (true, fmt.tail) else (false, fmt)

/-- A directive with the format behind it and the arguments that are left. -/
structure Decoded where
  directive : Directive
  fmt : Option (List UInt8)
  ap : List VaArg

/-- The part of `chvprintf` from a percent sign to the command. -/
def decodeDirective (fmt : List UInt8) (ap : List VaArg) : Except PrintFault Decoded :=
  let (leftAlign, fmt) := skipFlag minus fmt
  let (zeroFill, fmt) := skipFlag '0'.toUInt8 fmt
  (readCount 0 fmt ap).bind fun width =>
    (readPrecision width).bind fun precision =>
      let (command, fmt) := skipLong precision.stop precision.fmt
      .ok
        { directive :=
            { leftAlign := leftAlign
              filler := if zeroFill then '0'.toUInt8 else ' '.toUInt8
              width := width.count
              precision := precision.count
              command := command }
          fmt := fmt
          ap := precision.ap }

/-! ## Converting and laying out -/

/-- The branches of the command switch. -/
inductive Command where
  | character
  | string
  | signed
  | unsigned (radix : PrintRadix)
  | other (c : UInt8)
  deriving DecidableEq

def commandOf (c : UInt8) : Command :=
  if c = 'c'.toUInt8 then .character
  else if c = 's'.toUInt8 then .string
  else if c = 'D'.toUInt8 ∨ c = 'd'.toUInt8 ∨ c = 'I'.toUInt8 ∨ c = 'i'.toUInt8 then .signed
  else if c = 'X'.toUInt8 ∨ c = 'x'.toUInt8 then .unsigned .hexadecimal
  else if c = 'U'.toUInt8 ∨ c = 'u'.toUInt8 then .unsigned .decimal
  else if c = 'O'.toUInt8 ∨ c = 'o'.toUInt8 then .unsigned .octal
  else .other c

/-- The characters from `s` to `p`, with the filler, the arguments that are left, and the
buffer. -/
structure Converted where
  text : List UInt8
  filler : UInt8
  ap : List VaArg
  tmpbuf : Buffer UInt8

/-- What stands in the buffer below a cursor. -/
def textBelow (tmpbuf : Cursor UInt8) : List UInt8 :=
  (List.range tmpbuf.ptr).map tmpbuf.buffer.cells

/-- The loop of the string command, which moves `p` up to the terminator or until the
precision is used up.  These are the characters it passes. -/
def passString : List UInt8 → Nat → List UInt8
  | [], _ => []
  | c :: s, precision =>
      if c ≠ 0 ∧ 0 < precision then c :: passString s (precision - 1) else []

/-- The string command, with its texts for a null pointer and its default precision. -/
def convertString (text : Option (List UInt8)) (precision : Nat) : List UInt8 :=
  let s := text.getD ("(null)".toList.map Char.toUInt8)
  passString s (if precision = 0 then 32767 else precision)

/-- `l = -l`.  The least number has no negative. -/
def negate (l : Int32) : Except PrintFault Int32 :=
  if l = Int32.minValue then .error .overflow else .ok (-l)

/-- The signed commands: a sign and the digits of the magnitude. -/
def convertSigned (l : Int32) (tmpbuf : Buffer UInt8) : Except PrintFault (Cursor UInt8) :=
  if l < 0 then
    (negate l).bind fun l => chLtoa (Cursor.push ⟨0, tmpbuf⟩ minus) l.toUInt32 .decimal
  else chLtoa ⟨0, tmpbuf⟩ l.toUInt32 .decimal

/-- The command switch of `chvprintf`. -/
def convert (directive : Directive) (ap : List VaArg) (tmpbuf : Buffer UInt8) :
    Except PrintFault Converted :=
  match commandOf directive.command, ap with
  | .character, .word value :: ap =>
      let p := Cursor.push ⟨0, tmpbuf⟩ value.toUInt8
      .ok ⟨textBelow p, ' '.toUInt8, ap, p.buffer⟩
  | .string, .pointer text :: ap =>
      .ok ⟨convertString text directive.precision, ' '.toUInt8, ap, tmpbuf⟩
  | .signed, .word value :: ap =>
      (convertSigned value.toInt32 tmpbuf).map fun p =>
        ⟨textBelow p, directive.filler, ap, p.buffer⟩
  | .unsigned radix, .word value :: ap =>
      (chLtoa ⟨0, tmpbuf⟩ value radix).map fun p =>
        ⟨textBelow p, directive.filler, ap, p.buffer⟩
  | .other c, ap =>
      let p := Cursor.push ⟨0, tmpbuf⟩ c
      .ok ⟨textBelow p, directive.filler, ap, p.buffer⟩
  | _, _ => .error .badArgument

/-- The field of a directive.  Zeros go between a sign and its digits. -/
def layOut (leftAlign : Bool) (filler : UInt8) (width : Nat) (text : List UInt8) :
    List UInt8 :=
  let padding := List.replicate (width - text.length) filler
  if leftAlign then text ++ padding
  else if padding ≠ [] ∧ text.head? = some minus ∧ filler = '0'.toUInt8 then
    minus :: (padding ++ text.tail)
  else padding ++ text

/-- The outcome of a call: what was put to the stream, the buffer, and the fault that ended
the call, if any. -/
structure Printed where
  output : List UInt8
  tmpbuf : Buffer UInt8
  fault : Option PrintFault

/-- The outcome with more output before it. -/
def Printed.after (output : List UInt8) (printed : Printed) : Printed :=
  { printed with output := output ++ printed.output }

/-! ### The parts of a decoding -/

section Parts

variable {Value Result : Type} {first : Except PrintFault Value}
  {next : Value → Except PrintFault Result}

theorem bind_eq_ok {result : Result} (done : first.bind next = .ok result) :
    ∃ value, first = .ok value ∧ next value = .ok result := by
  cases first with
  | error fault => cases done
  | ok value => exact ⟨value, rfl, done⟩

theorem bind_eq_error {fault : PrintFault} (fails : first.bind next = .error fault) :
    first = .error fault ∨ ∃ value, first = .ok value ∧ next value = .error fault := by
  cases first with
  | error other =>
      cases fails
      exact Or.inl rfl
  | ok value => exact Or.inr ⟨value, rfl, fails⟩

end Parts

/-- A digit and a star go on with the count, and any other character ends it. -/
theorem readCount_cons {count : Nat} {c : UInt8} {fmt : List UInt8} {ap : List VaArg}
    {read : Count} (reads : readCount count (c :: fmt) ap = .ok read) :
    ((('0'.toUInt8 ≤ c ∧ c ≤ '9'.toUInt8) ∨ c = '*'.toUInt8) ∧
        ∃ sum left, readCount sum fmt left = .ok read) ∨
      read = ⟨count, c, if c = 0 then none else some fmt, ap⟩ := by
  unfold readCount at reads
  split at reads
  case isTrue digit =>
    rcases bind_eq_ok reads with ⟨sum, _, later⟩
    exact Or.inl ⟨Or.inl digit, sum, ap, later⟩
  case isFalse =>
    split at reads
    case isTrue star =>
      rcases bind_eq_ok reads with ⟨argument, _, added⟩
      rcases bind_eq_ok added with ⟨sum, _, later⟩
      exact Or.inl ⟨Or.inr star, sum, argument.2, later⟩
    case isFalse =>
      cases reads
      exact Or.inr rfl

/-- What follows the flags of a directive. -/
def behindFlags (fmt : List UInt8) : List UInt8 :=
  (skipFlag '0'.toUInt8 (skipFlag minus fmt).2).2

/-- A decoded directive has its flags, its width, its precision and its command. -/
theorem decodeDirective_eq_ok {fmt : List UInt8} {ap : List VaArg} {decoded : Decoded}
    (decodes : decodeDirective fmt ap = .ok decoded) :
    ∃ width precision, readCount 0 (behindFlags fmt) ap = .ok width ∧
      readPrecision width = .ok precision ∧
      decoded =
        { directive :=
            { leftAlign := (skipFlag minus fmt).1
              filler := if (skipFlag '0'.toUInt8 (skipFlag minus fmt).2).1 then '0'.toUInt8
                else ' '.toUInt8
              width := width.count
              precision := precision.count
              command := (skipLong precision.stop precision.fmt).1 }
          fmt := (skipLong precision.stop precision.fmt).2
          ap := precision.ap } := by
  rcases bind_eq_ok decodes with ⟨width, counted, rest⟩
  rcases bind_eq_ok rest with ⟨precision, precise, built⟩
  exact ⟨width, precision, counted, precise, (Except.ok.inj built).symm⟩

/-- A decoding fails in its width or in its precision. -/
theorem decodeDirective_eq_error {fmt : List UInt8} {ap : List VaArg} {fault : PrintFault}
    (fails : decodeDirective fmt ap = .error fault) :
    readCount 0 (behindFlags fmt) ap = .error fault ∨
      ∃ width, readCount 0 (behindFlags fmt) ap = .ok width ∧
        readPrecision width = .error fault := by
  rcases bind_eq_error fails with early | ⟨width, counted, late⟩
  · exact Or.inl early
  · rcases bind_eq_error late with precise | ⟨precision, _, built⟩
    · exact Or.inr ⟨width, counted, precise⟩
    · cases built

/-! ### The format is used up -/

theorem length_skipFlag (flag : UInt8) (fmt : List UInt8) :
    (skipFlag flag fmt).2.length ≤ fmt.length := by
  unfold skipFlag
  split
  · rw [List.length_tail]
    exact Nat.sub_le _ _
  · exact le_rfl

/-- A width ends before the end of what it was read from. -/
theorem length_readCount {count : Nat} {fmt : List UInt8} {ap : List VaArg} {read : Count}
    (reads : readCount count fmt ap = .ok read) :
    ∀ rest ∈ read.fmt, rest.length < fmt.length := by
  induction fmt generalizing count ap with
  | nil =>
      cases reads
      intro rest member
      cases member
  | cons c fmt inductionHypothesis =>
      intro rest member
      rcases readCount_cons reads with ⟨_, sum, left, later⟩ | ended
      · exact Nat.lt_succ_of_lt (inductionHypothesis later rest member)
      · rw [ended] at member
        dsimp only at member
        split at member
        · cases member
        · cases member
          exact Nat.lt_succ_self _

theorem length_readPrecision {width precision : Count} {length : Nat}
    (shorter : ∀ rest ∈ width.fmt, rest.length < length)
    (reads : readPrecision width = .ok precision) :
    ∀ rest ∈ precision.fmt, rest.length < length := by
  unfold readPrecision at reads
  split at reads
  · split at reads
    case h_1 fmt present =>
      intro rest member
      exact (length_readCount reads rest member).trans (shorter fmt present)
    case h_2 => cases reads
  · cases reads
    exact shorter

theorem length_skipLong (c : UInt8) {fmt : Option (List UInt8)} {length : Nat}
    (shorter : ∀ rest ∈ fmt, rest.length < length) :
    ∀ rest ∈ (skipLong c fmt).2, rest.length < length := by
  unfold skipLong
  split
  · split
    case h_1 command behind =>
      split
      · exact shorter
      · intro rest member
        cases member
        exact (Nat.lt_succ_self _).trans (shorter _ rfl)
    case h_2 => exact shorter
  · exact shorter

/-- A directive ends before the end of the format. -/
theorem length_decodeDirective {fmt : List UInt8} {ap : List VaArg} {decoded : Decoded}
    (decodes : decodeDirective fmt ap = .ok decoded) :
    ∀ rest ∈ decoded.fmt, rest.length < fmt.length := by
  rcases decodeDirective_eq_ok decodes with ⟨width, precision, counted, precise, rfl⟩
  have bound : (behindFlags fmt).length ≤ fmt.length :=
    (length_skipFlag _ _).trans (length_skipFlag _ _)
  have shorter := length_skipLong precision.stop
    (length_readPrecision (length_readCount counted) precise)
  intro rest member
  exact (shorter rest member).trans_le bound

/-! ### The main loop -/

/-- `chvprintf`.  The number it returns is the length of the output. -/
def chvprintf (fmt : List UInt8) (ap : List VaArg) (tmpbuf : Buffer UInt8) : Printed :=
  match fmt with
  | [] => ⟨[], tmpbuf, none⟩
  | c :: fmt =>
      if c = 0 then ⟨[], tmpbuf, none⟩
      else if c ≠ '%'.toUInt8 then (chvprintf fmt ap tmpbuf).after [c]
      else
        match decodes : decodeDirective fmt ap with
        | .error fault => ⟨[], tmpbuf, some fault⟩
        | .ok decoded =>
            match convert decoded.directive decoded.ap tmpbuf with
            | .error fault => ⟨[], tmpbuf, some fault⟩
            | .ok converted =>
                let field := layOut decoded.directive.leftAlign converted.filler
                  decoded.directive.width converted.text
                match behind : decoded.fmt with
                | none => ⟨field, converted.tmpbuf, some .pastFormat⟩
                | some rest =>
                    have := length_decodeDirective decodes rest behind
                    (chvprintf rest converted.ap converted.tmpbuf).after field
termination_by fmt.length
decreasing_by
  · exact Nat.lt_succ_self _
  · exact Nat.lt_succ_of_lt this

/-! ## The buffer of the conversions -/

/-- The digits of a number as the loop stores them, most significant first. -/
def digitCharacters (radix : PrintRadix) (number : Nat) : List UInt8 :=
  ((loopDigits radix.value number).map digitCharacter).reverse

theorem digitCharacters_eq (radix : PrintRadix) (number : Nat) :
    digitCharacters radix number =
      (if number / radix.value = 0 then [] else digitCharacters radix (number / radix.value)) ++
        [digitCharacter (number % radix.value)] := by
  unfold digitCharacters
  rw [loopDigits_eq_cons radix.one_lt_value, List.map_cons, List.reverse_cons]
  split <;> rfl

/-- No word has more digits than the filler has room for. -/
theorem length_digitCharacters_le (radix : PrintRadix) (num : UInt32) :
    (digitCharacters radix num.toNat).length ≤ maxFiller := by
  have bound : num.toNat < radix.value ^ maxFiller := by
    have word := num.toNat_lt
    have room : 2 ^ 32 ≤ radix.value ^ maxFiller := by cases radix <;> decide
    exact word.trans_le room
  unfold digitCharacters
  rw [List.length_reverse, List.length_map]
  exact (length_loopDigits_le_iff radix.one_lt_value (by decide) _).mpr bound

/-- With room for them, the digits stand in front of the place where the loop started. -/
theorem storeDigits_eq (radix : PrintRadix) (number : Nat) (tmpbuf : Cursor UInt8)
    (room : (digitCharacters radix number).length ≤ tmpbuf.ptr) :
    storeDigits radix number tmpbuf = .ok
      { ptr := tmpbuf.ptr - (digitCharacters radix number).length
        buffer := tmpbuf.buffer.storeAll (tmpbuf.ptr - (digitCharacters radix number).length)
          (digitCharacters radix number) } := by
  fun_induction storeDigits radix number tmpbuf with
  | case1 number tmpbuf start =>
      rw [start, digitCharacters_eq, List.length_append, List.length_singleton] at room
      exact absurd room (Nat.not_succ_le_zero _)
  | case2 number tmpbuf q above stored last =>
      rw [digitCharacters_eq, if_pos last, above]
      rfl
  | case3 number tmpbuf q above stored continues inductionHypothesis =>
      have digits := digitCharacters_eq radix number
      rw [if_neg continues] at digits
      have length : (digitCharacters radix number).length =
          (digitCharacters radix (number / radix.value)).length + 1 := by
        rw [digits, List.length_append, List.length_singleton]
      have start : q - (digitCharacters radix (number / radix.value)).length =
          tmpbuf.ptr - (digitCharacters radix number).length := by omega
      have last : tmpbuf.ptr - (digitCharacters radix number).length +
          (digitCharacters radix (number / radix.value)).length = q := by omega
      have rest := inductionHypothesis (by dsimp only [stored]; omega)
      dsimp only [stored] at rest
      rw [rest, start]
      congr 2
      rw [digits, Buffer.storeAll_concat, ← digits, last, Buffer.store_storeAll_comm]
      exact Or.inr last.le

/-- What a conversion leaves behind: a text at the cursor, which moved past it, and the
characters before the text.  Beyond its extent nothing was touched. -/
structure Appended (before after : Cursor UInt8) (text : List UInt8) (extent : Nat) : Prop where
  ptr : after.ptr = before.ptr + text.length
  shown : ∀ index c, text[index]? = some c → after.buffer.cells (before.ptr + index) = c
  kept : ∀ index < before.ptr, after.buffer.cells index = before.buffer.cells index
  reach : after.buffer.extent ≤ max before.buffer.extent extent

theorem Appended.textBelow_eq {before after : Cursor UInt8} {text : List UInt8} {extent : Nat}
    (appended : Appended before after text extent) :
    textBelow after = textBelow before ++ text := by
  apply List.ext_getElem?
  intro index
  unfold textBelow
  rw [appended.ptr]
  rcases Nat.lt_or_ge index before.ptr with old | new
  · rw [List.getElem?_append_left (by simpa using old)]
    simp [old, Nat.lt_add_right text.length old, appended.kept index old]
  · obtain ⟨offset, rfl⟩ := Nat.exists_eq_add_of_le new
    rw [List.getElem?_append_right (by simp)]
    cases found : text[offset]? with
    | none =>
        have outside := List.getElem?_eq_none_iff.mp found
        simp [outside]
    | some c =>
        obtain ⟨inside, value⟩ := List.getElem?_eq_some_iff.mp found
        simp [inside, value, appended.shown offset c found]

theorem push_appended (tmpbuf : Cursor UInt8) (c : UInt8) :
    Appended tmpbuf (tmpbuf.push c) [c] (tmpbuf.ptr + 1) where
  ptr := rfl
  shown := by
    intro index other found
    cases index with
    | zero =>
        cases found
        exact Buffer.cells_store_self _ _ _
    | succ index => cases found
  kept := by
    intro index below
    exact Buffer.cells_store_of_ne _ _ below.ne
  reach := le_rfl

theorem Appended.mono {before after : Cursor UInt8} {text : List UInt8} {extent larger : Nat}
    (appended : Appended before after text extent) (grows : extent ≤ larger) :
    Appended before after text larger where
  ptr := appended.ptr
  shown := appended.shown
  kept := appended.kept
  reach := appended.reach.trans (max_le_max le_rfl grows)

/-- One conversion after another. -/
theorem Appended.trans {first second third : Cursor UInt8} {text other : List UInt8}
    {extent reached : Nat} (one : Appended first second text extent)
    (two : Appended second third other reached) :
    Appended first third (text ++ other) (max extent reached) where
  ptr := by rw [two.ptr, one.ptr, List.length_append, Nat.add_assoc]
  shown := by
    intro index c found
    rcases Nat.lt_or_ge index text.length with early | late
    · rw [List.getElem?_append_left early] at found
      rw [two.kept _ (by rw [one.ptr]; omega)]
      exact one.shown index c found
    · rw [List.getElem?_append_right late] at found
      have shown := two.shown _ c found
      rw [one.ptr, Nat.add_assoc, Nat.add_sub_cancel' late] at shown
      exact shown
  kept := by
    intro index below
    rw [two.kept index (by rw [one.ptr]; omega), one.kept index below]
  reach := by
    have first := one.reach
    have second := two.reach
    omega

/-- Moving a text down to the cursor. -/
theorem moveDown_appended {text : List UInt8} {q : Nat} {tmpbuf : Cursor UInt8}
    (shown : ∀ index c, text[index]? = some c → tmpbuf.buffer.cells (q + index) = c)
    (below : tmpbuf.ptr ≤ q) :
    Appended tmpbuf (moveDown text.length q tmpbuf) text (q + text.length) := by
  induction text generalizing q tmpbuf with
  | nil =>
      refine ⟨rfl, ?_, fun _ _ => rfl, le_max_left _ _⟩
      intro index c found
      cases found
  | cons head rest inductionHypothesis =>
      have first : tmpbuf.buffer.cells q = head := shown 0 head rfl
      let pushed : Cursor UInt8 := Cursor.push { tmpbuf with buffer := tmpbuf.buffer.touch q } head
      have step : moveDown (head :: rest).length q tmpbuf =
          moveDown rest.length (q + 1) pushed := by
        rw [List.length_cons, moveDown, Buffer.load]
        dsimp only
        rw [first]
      have later : ∀ index c, rest[index]? = some c → pushed.buffer.cells (q + 1 + index) = c := by
        intro index c found
        have kept := Buffer.cells_store_of_ne (tmpbuf.buffer.touch q) head
          (show q + 1 + index ≠ tmpbuf.ptr by omega)
        rw [Nat.add_assoc, Nat.add_comm 1] at kept ⊢
        exact kept.trans (shown (index + 1) c found)
      have moved := inductionHypothesis later (Nat.succ_le_succ below)
      have one := push_appended { tmpbuf with buffer := tmpbuf.buffer.touch q } head
      have both := one.trans moved
      rw [step]
      refine ⟨both.ptr, both.shown, both.kept, ?_⟩
      have reach := both.reach
      dsimp only [Buffer.touch] at reach
      rw [List.length_cons]
      omega

/-- `ch_ltoa` appends the digits of its argument. -/
theorem chLtoa_appended (tmpbuf : Cursor UInt8) (num : UInt32) (radix : PrintRadix) :
    ∃ after, chLtoa tmpbuf num radix = .ok after ∧
      Appended tmpbuf after (digitCharacters radix num.toNat) (tmpbuf.ptr + maxFiller) := by
  have room := length_digitCharacters_le radix num
  have nonempty : digitCharacters radix num.toNat ≠ [] := by
    rw [digitCharacters_eq]
    exact List.append_ne_nil_of_right_ne_nil _ (List.cons_ne_nil _ _)
  unfold chLtoa
  rw [storeDigits_eq radix num.toNat _ (room.trans (Nat.le_add_left _ _)), Except.map]
  refine ⟨_, rfl, ?_⟩
  dsimp only
  generalize digitCharacters radix num.toNat = text at room nonempty
  let start := tmpbuf.ptr + maxFiller - text.length
  let stored := tmpbuf.buffer.storeAll start text
  have count : tmpbuf.ptr + maxFiller - start = text.length := by omega
  have shown : ∀ index c, text[index]? = some c → stored.cells (start + index) = c :=
    fun _ _ found => Buffer.cells_storeAll_inside _ _ found
  have above : tmpbuf.ptr ≤ start := by omega
  have moved : Appended ⟨tmpbuf.ptr, stored⟩ (moveDown text.length start ⟨tmpbuf.ptr, stored⟩) text
      (start + text.length) := moveDown_appended shown above
  have reach : stored.extent = max tmpbuf.buffer.extent (start + text.length) :=
    Buffer.extent_storeAll_of_ne_nil _ _ nonempty
  rw [count]
  refine ⟨moved.ptr, moved.shown, ?_, ?_⟩
  · intro index below
    rw [moved.kept index below]
    exact Buffer.cells_storeAll_outside _ (Or.inl (below.trans_le above))
  · have bound : start + text.length = tmpbuf.ptr + maxFiller := by omega
    calc
      (moveDown text.length start ⟨tmpbuf.ptr, stored⟩).buffer.extent
          ≤ max stored.extent (start + text.length) := moved.reach
      _ = max tmpbuf.buffer.extent (tmpbuf.ptr + maxFiller) := by
        rw [reach, bound, max_assoc, max_self]

/-- The decimal digits are the ones the time stamps are made of. -/
theorem digitCharacters_decimal (number : Nat) :
    digitCharacters .decimal number = Firmware.chLtoa number [] := by
  have every : ∀ digit < 10, digitCharacter digit = digitByte digit := by decide
  rw [Firmware.chLtoa_eq, List.append_nil]
  unfold digitCharacters digitsText
  congr 1
  apply List.map_congr_left
  intro digit member
  exact every digit (loopDigits_lt_base (by decide) member)

/-- The signed commands print any number but the least, as the time stamps are printed. -/
theorem convertSigned_appended {l : Int32} (negatable : l ≠ Int32.minValue)
    (tmpbuf : Buffer UInt8) :
    ∃ after, convertSigned l tmpbuf = .ok after ∧
      Appended ⟨0, tmpbuf⟩ after (Firmware.formatI l) (maxFiller + 1) := by
  unfold convertSigned Firmware.formatI
  by_cases negative : l < 0
  · obtain ⟨after, converts, appended⟩ :=
      chLtoa_appended (Cursor.push ⟨0, tmpbuf⟩ minus) (-l).toUInt32 .decimal
    rw [digitCharacters_decimal] at appended
    have both := (push_appended ⟨0, tmpbuf⟩ minus).trans appended
    rw [if_pos negative, if_pos negative, negate, if_neg negatable]
    exact ⟨after, converts, both⟩
  · obtain ⟨after, converts, appended⟩ := chLtoa_appended ⟨0, tmpbuf⟩ l.toUInt32 .decimal
    rw [digitCharacters_decimal] at appended
    rw [if_neg negative, if_neg negative]
    exact ⟨after, converts, appended.mono (Nat.zero_add maxFiller ▸ Nat.le_succ maxFiller)⟩

/-- The least number is the only one they do not print. -/
theorem convertSigned_minValue (tmpbuf : Buffer UInt8) :
    convertSigned Int32.minValue tmpbuf = .error .overflow := by
  unfold convertSigned
  rw [if_pos (by decide), negate, if_pos rfl]
  rfl

/-- A conversion does not reach beyond the buffer.  It fails for its argument only. -/
theorem convert_within (directive : Directive) (ap : List VaArg) (tmpbuf : Buffer UInt8) :
    match convert directive ap tmpbuf with
    | .ok converted => converted.tmpbuf.extent ≤ max tmpbuf.extent (maxFiller + 1)
    | .error fault => fault = .badArgument ∨ fault = .overflow := by
  have pushed : ∀ c, (Cursor.push ⟨0, tmpbuf⟩ c).buffer.extent ≤
      max tmpbuf.extent (maxFiller + 1) := by
    intro c
    exact ((push_appended ⟨0, tmpbuf⟩ c).mono (Nat.succ_le_succ (Nat.zero_le maxFiller))).reach
  unfold convert
  cases commandOf directive.command with
  | character =>
      rcases ap with _ | ⟨value | text, left⟩
      · exact Or.inl rfl
      · exact pushed value.toUInt8
      · exact Or.inl rfl
  | string =>
      rcases ap with _ | ⟨value | text, left⟩
      · exact Or.inl rfl
      · exact Or.inl rfl
      · exact le_max_left _ _
  | signed =>
      rcases ap with _ | ⟨value | text, left⟩
      · exact Or.inl rfl
      · by_cases least : value.toInt32 = Int32.minValue
        · dsimp only
          rw [least, convertSigned_minValue]
          exact Or.inr rfl
        · obtain ⟨after, converts, appended⟩ := convertSigned_appended least tmpbuf
          dsimp only
          rw [converts]
          exact appended.reach
      · exact Or.inl rfl
  | unsigned radix =>
      rcases ap with _ | ⟨value | text, left⟩
      · exact Or.inl rfl
      · obtain ⟨after, converts, appended⟩ := chLtoa_appended ⟨0, tmpbuf⟩ value radix
        dsimp only
        rw [converts]
        exact (appended.mono (Nat.zero_add maxFiller ▸ Nat.le_succ maxFiller)).reach
      · exact Or.inl rfl
  | other c => exact pushed c

/-- A width is not read for its argument or its size only. -/
theorem readCount_fault {count : Nat} {fmt : List UInt8} {ap : List VaArg} {fault : PrintFault}
    (fails : readCount count fmt ap = .error fault) :
    fault = .badArgument ∨ fault = .overflow := by
  induction fmt generalizing count ap with
  | nil => cases fails
  | cons c fmt inductionHypothesis =>
      have continues : ∀ (digit : UInt8) (left : List VaArg),
          ((accumulate count digit).bind fun count => readCount count fmt left) = .error fault →
            fault = .badArgument ∨ fault = .overflow := by
        intro digit left fails
        rcases bind_eq_error fails with large | ⟨sum, _, later⟩
        · unfold accumulate at large
          split at large <;> cases large
          exact Or.inr rfl
        · exact inductionHypothesis later
      unfold readCount at fails
      split at fails
      · exact continues _ ap fails
      · split at fails
        · rcases bind_eq_error fails with missing | ⟨argument, _, added⟩
          · unfold vaArgInt at missing
            split at missing <;> cases missing
            exact Or.inl rfl
          · exact continues _ _ added
        · cases fails

/-- Decoding stores nothing. -/
theorem decodeDirective_ne_belowTmpbuf (fmt : List UInt8) (ap : List VaArg) :
    decodeDirective fmt ap ≠ .error .belowTmpbuf := by
  have counted : ∀ (counts : List UInt8) (left : List VaArg),
      readCount 0 counts left ≠ .error .belowTmpbuf := by
    intro counts left fails
    rcases readCount_fault fails with same | same <;> cases same
  intro below
  rcases decodeDirective_eq_error below with early | ⟨width, _, late⟩
  · exact counted _ _ early
  · unfold readPrecision at late
    split at late
    · split at late
      · exact counted _ _ late
      · cases late
    · cases late

/-- Whatever the format and the arguments are, and however the call ends, the
conversions stay within the `MAX_FILLER + 1` characters of `tmpbuf`: they reach neither
beyond its end nor below its start. -/
theorem chvprintf_within_tmpbuf (fmt : List UInt8) (ap : List VaArg) (cells : Nat → UInt8) :
    (chvprintf fmt ap (Buffer.fresh cells)).tmpbuf.extent ≤ maxFiller + 1 ∧
      (chvprintf fmt ap (Buffer.fresh cells)).fault ≠ some .belowTmpbuf := by
  have within : ∀ (fmt : List UInt8) (ap : List VaArg) (tmpbuf : Buffer UInt8),
      tmpbuf.extent ≤ maxFiller + 1 →
        (chvprintf fmt ap tmpbuf).tmpbuf.extent ≤ maxFiller + 1 ∧
          (chvprintf fmt ap tmpbuf).fault ≠ some .belowTmpbuf := by
    intro fmt ap tmpbuf bounded
    fun_induction chvprintf fmt ap tmpbuf with
    | case1 => exact ⟨bounded, nofun⟩
    | case2 => exact ⟨bounded, nofun⟩
    | case3 ap tmpbuf c fmt nonzero plain inductionHypothesis => exact inductionHypothesis bounded
    | case4 ap tmpbuf c fmt nonzero percent fault decodes =>
        refine ⟨bounded, fun below => ?_⟩
        rw [Option.some.inj below] at decodes
        exact decodeDirective_ne_belowTmpbuf fmt ap decodes
    | case5 ap tmpbuf c fmt nonzero percent decoded decodes fault converts =>
        have conversion := convert_within decoded.directive decoded.ap tmpbuf
        rw [converts] at conversion
        refine ⟨bounded, fun below => ?_⟩
        rw [Option.some.inj below] at conversion
        rcases conversion with same | same <;> cases same
    | case6 ap tmpbuf c fmt nonzero percent decoded decodes converted converts =>
        have conversion := convert_within decoded.directive decoded.ap tmpbuf
        rw [converts] at conversion
        exact ⟨conversion.trans (max_le bounded le_rfl), nofun⟩
    | case7 ap tmpbuf c fmt nonzero percent decoded decodes converted converts field rest behind
        _ inductionHypothesis =>
        have conversion := convert_within decoded.directive decoded.ap tmpbuf
        rw [converts] at conversion
        exact inductionHypothesis (conversion.trans (max_le bounded le_rfl))
  exact within fmt ap (Buffer.fresh cells) (Nat.zero_le _)

/-! ## The end of the format -/

/-- The characters of a directive before its command. -/
def IsLayout (c : UInt8) : Prop :=
  c = minus ∨ ('0'.toUInt8 ≤ c ∧ c ≤ '9'.toUInt8) ∨ c = '*'.toUInt8 ∨ c = point

instance (c : UInt8) : Decidable (IsLayout c) :=
  inferInstanceAs (Decidable (_ ∨ _ ∨ _ ∨ _))

/-- A flag is a layout character, and what follows it is the rest of the format. -/
theorem skipFlag_split {flag : UInt8} (layout : IsLayout flag) (fmt : List UInt8) :
    ∃ skipped, fmt = skipped ++ (skipFlag flag fmt).2 ∧ ∀ c ∈ skipped, IsLayout c := by
  unfold skipFlag
  cases fmt with
  | nil => exact ⟨[], rfl, by simp⟩
  | cons c rest =>
      by_cases same : c = flag
      · refine ⟨[c], ?_, ?_⟩
        · rw [List.head?_cons, same, if_pos rfl]
          rfl
        · intro other member
          rw [List.mem_singleton.mp member, same]
          exact layout
      · refine ⟨[], ?_, by simp⟩
        rw [List.head?_cons, if_neg fun equal => same (Option.some.inj equal)]
        rfl

theorem mem_of_mem_skipFlag {flag c : UInt8} {fmt : List UInt8}
    (member : c ∈ (skipFlag flag fmt).2) : c ∈ fmt := by
  unfold skipFlag at member
  split at member
  · exact List.mem_of_mem_tail member
  · exact member

/-- A count consists of layout characters up to the character that ends it. -/
theorem readCount_split {count : Nat} {fmt : List UInt8} {ap : List VaArg} {read : Count}
    (clean : 0 ∉ fmt) (reads : readCount count fmt ap = .ok read) :
    ∃ counted, (∀ c ∈ counted, IsLayout c) ∧
      match read.fmt with
      | none => fmt = counted ∧ read.stop = 0
      | some rest => fmt = counted ++ read.stop :: rest := by
  induction fmt generalizing count ap with
  | nil =>
      cases reads
      exact ⟨[], by simp, rfl, rfl⟩
  | cons c fmt inductionHypothesis =>
      have cleanRest : 0 ∉ fmt := fun member => clean (List.mem_cons_of_mem c member)
      rcases readCount_cons reads with ⟨counts, sum, left, later⟩ | ended
      · have layout : IsLayout c := by
          rcases counts with digit | star
          · exact Or.inr (Or.inl digit)
          · exact Or.inr (Or.inr (Or.inl star))
        obtain ⟨counted, characters, split⟩ := inductionHypothesis cleanRest later
        refine ⟨c :: counted, List.forall_mem_cons.mpr ⟨layout, characters⟩, ?_⟩
        cases behind : read.fmt with
        | none =>
            rw [behind] at split
            exact ⟨congrArg (c :: ·) split.1, split.2⟩
        | some rest =>
            rw [behind] at split
            exact congrArg (c :: ·) split
      · have nonzero : c ≠ 0 := fun zero => clean (zero ▸ List.mem_cons_self)
        refine ⟨[], by simp, ?_⟩
        rw [ended]
        dsimp only
        rw [if_neg nonzero]
        rfl

theorem readPrecision_split {width precision : Count} {fmt : List UInt8} (clean : 0 ∉ fmt)
    (read : ∃ counted, (∀ c ∈ counted, IsLayout c) ∧
      match width.fmt with
      | none => fmt = counted ∧ width.stop = 0
      | some rest => fmt = counted ++ width.stop :: rest)
    (reads : readPrecision width = .ok precision) :
    ∃ counted, (∀ c ∈ counted, IsLayout c) ∧
      match precision.fmt with
      | none => fmt = counted ∧ precision.stop = 0
      | some rest => fmt = counted ++ precision.stop :: rest := by
  unfold readPrecision at reads
  split at reads
  case isTrue dot =>
    split at reads
    case h_1 rest behind =>
      obtain ⟨counted, characters, split⟩ := read
      rw [behind, dot] at split
      dsimp only at split
      have cleanRest : 0 ∉ rest := by
        intro member
        rw [split] at clean
        exact clean (List.mem_append_right _ (List.mem_cons_of_mem _ member))
      obtain ⟨more, others, later⟩ := readCount_split cleanRest reads
      refine ⟨counted ++ point :: more, ?_, ?_⟩
      · intro c member
        rcases List.mem_append.mp member with early | late
        · exact characters c early
        · rcases List.mem_cons.mp late with same | last
          · exact Or.inr (Or.inr (Or.inr same))
          · exact others c last
      · cases ended : precision.fmt with
        | none =>
            rw [ended] at later
            refine ⟨?_, later.2⟩
            rw [split, later.1]
        | some last =>
            rw [ended] at later
            dsimp only at later ⊢
            rw [split, later, List.append_assoc, List.cons_append]
    case h_2 => cases reads
  case isFalse =>
    cases reads
    exact read

theorem skipLong_split (c : UInt8) (rest : List UInt8) :
    ∃ skipped behind, (skipLong c (some rest)).2 = some behind ∧ rest = skipped ++ behind := by
  unfold skipLong
  split
  · split
    case h_1 command last present =>
      cases present
      split
      · exact ⟨[], _, rfl, rfl⟩
      · exact ⟨[command], last, rfl, rfl⟩
    case h_2 => exact ⟨[], rest, rfl, rfl⟩
  · exact ⟨[], rest, rfl, rfl⟩

/-- Either a directive ends within the format, or the format has no command for it. -/
theorem decodeDirective_split {fmt : List UInt8} {ap : List VaArg} {decoded : Decoded}
    (clean : 0 ∉ fmt) (decodes : decodeDirective fmt ap = .ok decoded) :
    match decoded.fmt with
    | none => ∀ c ∈ fmt, IsLayout c
    | some rest => ∃ directive, fmt = directive ++ rest := by
  obtain ⟨sign, signed, signCharacters⟩ := skipFlag_split (show IsLayout minus by decide) fmt
  obtain ⟨zero, filled, zeroCharacters⟩ := skipFlag_split (show IsLayout '0'.toUInt8 by decide)
    (skipFlag minus fmt).2
  have cleanCounts : 0 ∉ behindFlags fmt := fun member =>
    clean (mem_of_mem_skipFlag (mem_of_mem_skipFlag member))
  rcases decodeDirective_eq_ok decodes with ⟨width, precision, counts, precise, rfl⟩
  change _ = zero ++ behindFlags fmt at filled
  rw [filled] at signed
  obtain ⟨counted, characters, split⟩ :=
    readPrecision_split cleanCounts (readCount_split cleanCounts counts) precise
  dsimp only
  cases ended : precision.fmt with
  | none =>
      rw [ended] at split
      obtain ⟨all, stopped⟩ := split
      have same : skipLong precision.stop none = (precision.stop, none) := by
        rw [stopped]
        rfl
      rw [same]
      intro c member
      rw [signed, all] at member
      rcases List.mem_append.mp member with early | late
      · exact signCharacters c early
      · rcases List.mem_append.mp late with middle | last
        · exact zeroCharacters c middle
        · exact characters c last
  | some rest =>
      rw [ended] at split
      obtain ⟨skipped, behind, skips, rest_eq⟩ := skipLong_split precision.stop rest
      rw [skips]
      refine ⟨sign ++ (zero ++ (counted ++ precision.stop :: skipped)), ?_⟩
      rw [signed, split, rest_eq]
      simp only [List.append_assoc, List.cons_append]

theorem readCount_ne_pastFormat (count : Nat) (fmt : List UInt8) (ap : List VaArg) :
    readCount count fmt ap ≠ .error .pastFormat := by
  intro fails
  rcases readCount_fault fails with same | same <;> cases same

/-- Decoding itself does not read past the format. -/
theorem decodeDirective_ne_pastFormat {fmt : List UInt8} {ap : List VaArg} (clean : 0 ∉ fmt) :
    decodeDirective fmt ap ≠ .error .pastFormat := by
  have cleanCounts : 0 ∉ behindFlags fmt := fun member =>
    clean (mem_of_mem_skipFlag (mem_of_mem_skipFlag member))
  intro past
  rcases decodeDirective_eq_error past with early | ⟨width, counts, late⟩
  · exact readCount_ne_pastFormat _ _ _ early
  · unfold readPrecision at late
    split at late
    case isTrue dot =>
      split at late
      case h_1 => exact readCount_ne_pastFormat _ _ _ late
      case h_2 missing =>
        obtain ⟨counted, characters, split⟩ := readCount_split cleanCounts counts
        rw [missing] at split
        exact absurd (dot.symm.trans split.2) (by decide)
    case isFalse => cases late

theorem convert_ne_pastFormat (directive : Directive) (ap : List VaArg) (tmpbuf : Buffer UInt8) :
    convert directive ap tmpbuf ≠ .error .pastFormat := by
  intro fails
  have conversion := convert_within directive ap tmpbuf
  rw [fails] at conversion
  rcases conversion with same | same <;> cases same

/-- A call reads past its format only if this ends with a directive that has no command. -/
theorem chvprintf_past_format {fmt : List UInt8} {ap : List VaArg} {tmpbuf : Buffer UInt8}
    (clean : 0 ∉ fmt) (past : (chvprintf fmt ap tmpbuf).fault = some .pastFormat) :
    ∃ before layout, fmt = before ++ '%'.toUInt8 :: layout ∧ ∀ c ∈ layout, IsLayout c := by
  fun_induction chvprintf fmt ap tmpbuf with
  | case1 => cases past
  | case2 => cases past
  | case3 ap tmpbuf c fmt nonzero plain inductionHypothesis =>
      have cleanRest : 0 ∉ fmt := fun member => clean (List.mem_cons_of_mem c member)
      obtain ⟨before, layout, split, characters⟩ := inductionHypothesis cleanRest past
      exact ⟨c :: before, layout, congrArg (c :: ·) split, characters⟩
  | case4 ap tmpbuf c fmt nonzero percent fault decodes =>
      cases past
      exact absurd decodes
        (decodeDirective_ne_pastFormat fun member => clean (List.mem_cons_of_mem c member))
  | case5 ap tmpbuf c fmt nonzero percent decoded decodes fault converts =>
      cases past
      exact absurd converts (convert_ne_pastFormat _ _ _)
  | case6 ap tmpbuf c fmt nonzero percent decoded decodes converted converts field behind =>
      have cleanRest : 0 ∉ fmt := fun member => clean (List.mem_cons_of_mem c member)
      have split := decodeDirective_split cleanRest decodes
      rw [behind] at split
      exact ⟨[], fmt, by rw [not_not.mp percent]; rfl, split⟩
  | case7 ap tmpbuf c fmt nonzero percent decoded decodes converted converts field rest behind
      _ inductionHypothesis =>
      have cleanRest : 0 ∉ fmt := fun member => clean (List.mem_cons_of_mem c member)
      have split := decodeDirective_split cleanRest decodes
      rw [behind] at split
      obtain ⟨directive, rfl⟩ := split
      have cleanLast : 0 ∉ rest := fun member => cleanRest (List.mem_append_right _ member)
      obtain ⟨before, layout, rfl, characters⟩ := inductionHypothesis cleanLast past
      refine ⟨c :: (directive ++ before), layout, ?_, characters⟩
      rw [List.cons_append, List.append_assoc]

/-- The format `"a%5"` ends after a width. -/
theorem chvprintf_past_format_width :
    let fmt : List UInt8 := "a%5".toList.map Char.toUInt8
    (chvprintf fmt [] (Buffer.fresh fun _ => 0)).fault = some .pastFormat ∧
      ∃ before layout, fmt = before ++ '%'.toUInt8 :: layout ∧ ∀ c ∈ layout, IsLayout c := by
  intro fmt
  have decodes : decodeDirective ("5".toList.map Char.toUInt8) [] =
      .ok ⟨⟨false, ' '.toUInt8, 5, 0, 0⟩, none, []⟩ := rfl
  have past : (chvprintf fmt [] (Buffer.fresh fun _ => 0)).fault = some .pastFormat := by
    change (chvprintf ('a'.toUInt8 :: '%'.toUInt8 :: "5".toList.map Char.toUInt8) [] _).fault = _
    rw [chvprintf, if_neg (by decide), if_pos (by decide), chvprintf, if_neg (by decide),
      if_neg (by decide)]
    split
    case h_1 fault fails =>
      rw [decodes] at fails
      cases fails
    case h_2 decoded found =>
      cases decodes.symm.trans found
      rfl
  exact ⟨past, chvprintf_past_format (by decide) past⟩

end Hal
end AnalogX

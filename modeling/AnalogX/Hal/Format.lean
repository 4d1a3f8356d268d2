import AnalogX.Hal.Printf
import AnalogX.Util.Numtoa

namespace AnalogX
namespace Hal

open Foundations Foundations.Numerals

/-!
# What a format prints

A format is a list of pieces, each a plain character or a complete directive with its
arguments.  The pieces determine the text of the format, the arguments of the call, and
the text that should appear: numbers as Lean prints them, in capitals, and fields padded as
lists are padded.  Interpreting the format and the arguments from left to right,
`chvprintf` recovers every piece, and prints exactly this text.
-/

/-! ## Pieces -/

/-- A character of a width or a precision: a digit, or a star with its argument. -/
inductive CountItem where
  | digit (value : Fin 10)
  | star (value : UInt32)

namespace CountItem

/-- The character in the format. -/
def text : CountItem → UInt8
  | .digit value => digitByte value.val
  | .star _ => '*'.toUInt8

def arguments : CountItem → List VaArg
  | .digit _ => []
  | .star value => [.word value]

/-- What the item adds to ten times the count before it.  Of the argument of a star only
the lowest byte is used. -/
def value : CountItem → Nat
  | .digit value => value.val
  | .star value => value.toUInt8.toNat

end CountItem

/-- The number which the items denote behind a count. -/
def countFrom (count : Nat) (items : List CountItem) : Nat :=
  items.foldl (fun count item => count * 10 + item.value) count

/-- The number which the items denote. -/
def countOf (items : List CountItem) : Nat :=
  countFrom 0 items

/-- The characters of a directive before its command.  A width cannot begin with a zero,
unless the zero before it was the flag. -/
structure Layout where
  leftAlign : Bool
  zeroFill : Bool
  width : List CountItem
  precision : Option (List CountItem)
  modifier : Option UInt8
  widthFits : countOf width < 2 ^ 31
  precisionFits : ∀ items ∈ precision, countOf items < 2 ^ 31
  unambiguous : zeroFill = true ∨ ∀ item ∈ width.head?, item.text ≠ '0'.toUInt8
  long : ∀ c ∈ modifier, c = 'l'.toUInt8 ∨ c = 'L'.toUInt8

namespace Layout

/-- The precision and the modifier, with what follows them. -/
def tailText (layout : Layout) (rest : List UInt8) : List UInt8 :=
  (layout.precision.elim [] fun items => point :: items.map CountItem.text) ++
    (layout.modifier.toList ++ rest)

/-- The layout as it is written in a format, with what follows it. -/
def text (layout : Layout) (rest : List UInt8) : List UInt8 :=
  (if layout.leftAlign then [minus] else []) ++
    ((if layout.zeroFill then ['0'.toUInt8] else []) ++
      (layout.width.map CountItem.text ++ layout.tailText rest))

/-- The arguments of the stars. -/
def arguments (layout : Layout) : List VaArg :=
  layout.width.flatMap CountItem.arguments ++
    (layout.precision.getD []).flatMap CountItem.arguments

/-- The precision; none is zero. -/
def precisionCount (layout : Layout) : Nat :=
  countOf (layout.precision.getD [])

end Layout

/-- A conversion with its argument.  The least number cannot be negated. -/
inductive Conversion where
  | character (value : UInt32)
  | string (text : Option (List UInt8))
  | signed (value : Int32) (negatable : value ≠ Int32.minValue)
  | unsigned (radix : PrintRadix) (value : UInt32)
  | other (c : UInt8)

/-- The digits of a number, as Lean prints them, in capitals. -/
def capitalDigits (radix number : Nat) : List UInt8 :=
  (Nat.toDigits radix number).map fun digit => digit.toUpper.toUInt8

namespace Conversion

/-- The branch of the switch. -/
def command : Conversion → Command
  | .character _ => .character
  | .string _ => .string
  | .signed _ _ => .signed
  | .unsigned radix _ => .unsigned radix
  | .other c => .other c

/-- What the caller passes. -/
def arguments : Conversion → List VaArg
  | .character value => [.word value]
  | .string text => [.pointer text]
  | .signed value _ => [.word value.toUInt32]
  | .unsigned _ value => [.word value]
  | .other _ => []

/-- The sign of a negative number. -/
def sign : Conversion → List UInt8
  | .signed value _ => if value.toInt < 0 then [minus] else []
  | .character _ | .string _ | .unsigned _ _ | .other _ => []

/-- The text behind the sign.  A string ends at its terminator.  It is cut to the precision,
where none stands for 32767. -/
def body (precision : Nat) : Conversion → List UInt8
  | .character value => [value.toUInt8]
  | .string text =>
      ((text.getD ("(null)".toList.map Char.toUInt8)).takeWhile (· ≠ 0)).take
        (if precision = 0 then 32767 else precision)
  | .signed value _ => capitalDigits 10 value.toInt.natAbs
  | .unsigned radix value => capitalDigits radix.value value.toNat
  | .other c => [c]

/-- Characters and strings are never filled with zeros. -/
def takesZeros : Conversion → Bool
  | .character _ | .string _ => false
  | .signed _ _ | .unsigned _ _ | .other _ => true

end Conversion

/-- A field of at least the given width.  Blanks stand before or behind the whole text.
Zeros on the left stand behind the sign. -/
def paddedField (leftAlign zeros : Bool) (width : Nat) (sign body : List UInt8) : List UInt8 :=
  match leftAlign, zeros with
  | true, true => (sign ++ body).rightpad width '0'.toUInt8
  | true, false => (sign ++ body).rightpad width ' '.toUInt8
  | false, true => sign ++ body.leftpad (width - sign.length) '0'.toUInt8
  | false, false => (sign ++ body).leftpad width ' '.toUInt8

/-- A letter which ends a directive is none of the characters before a command. -/
def EndsDirective (letter : UInt8) : Prop :=
  ¬ IsLayout letter ∧ letter ≠ 0 ∧ letter ≠ 'l'.toUInt8 ∧ letter ≠ 'L'.toUInt8

instance (letter : UInt8) : Decidable (EndsDirective letter) :=
  inferInstanceAs (Decidable (_ ∧ _ ∧ _ ∧ _))

/-- A plain character, or a directive with one of the letters of its command. -/
inductive Piece where
  | literal (c : UInt8) (plain : c ≠ 0 ∧ c ≠ '%'.toUInt8)
  | directive (layout : Layout) (conversion : Conversion) (letter : UInt8)
      (names : commandOf letter = conversion.command)
      (final : EndsDirective letter)

namespace Piece

/-- The piece in a format, with what follows it. -/
def text : Piece → List UInt8 → List UInt8
  | .literal c _, rest => c :: rest
  | .directive layout _ letter _ _, rest => '%'.toUInt8 :: layout.text (letter :: rest)

def arguments : Piece → List VaArg
  | .literal _ _ => []
  | .directive layout conversion _ _ _ => layout.arguments ++ conversion.arguments

/-- What the piece prints. -/
def output : Piece → List UInt8
  | .literal c _ => [c]
  | .directive layout conversion _ _ _ =>
      paddedField layout.leftAlign (layout.zeroFill && conversion.takesZeros)
        (countOf layout.width) conversion.sign (conversion.body layout.precisionCount)

end Piece

/-- The text of a format. -/
def formatText (pieces : List Piece) : List UInt8 :=
  pieces.foldr Piece.text []

/-! ## Reading a layout back -/

theorem le_countFrom (count : Nat) (items : List CountItem) : count ≤ countFrom count items := by
  induction items generalizing count with
  | nil => exact le_rfl
  | cons item items inductionHypothesis =>
      have later := inductionHypothesis (count * 10 + item.value)
      exact (show count ≤ count * 10 + item.value by omega).trans later

/-- An item is read as its value. -/
theorem readCount_item (item : CountItem) {count : Nat} (small : count * 10 + item.value < 2 ^ 31)
    (rest : List UInt8) (ap : List VaArg) :
    readCount count (item.text :: rest) (item.arguments ++ ap) =
      readCount (count * 10 + item.value) rest ap := by
  cases item with
  | digit value =>
      have every : ∀ digit < 10, ('0'.toUInt8 ≤ digitByte digit ∧ digitByte digit ≤ '9'.toUInt8) ∧
          (digitByte digit - '0'.toUInt8).toNat = digit := by decide
      have range := every value.val value.isLt
      have sum : accumulate count (digitByte value.val - '0'.toUInt8) =
          .ok (count * 10 + value.val) := by
        unfold accumulate
        rw [range.2]
        exact if_pos small
      rw [CountItem.text, readCount, if_pos range.1, sum]
      rfl
  | star value =>
      have sum : accumulate count value.toUInt8 = .ok (count * 10 + value.toUInt8.toNat) :=
        if_pos small
      rw [CountItem.text, readCount, if_neg (by decide), if_pos rfl]
      change ((accumulate count value.toUInt8).bind fun count => readCount count rest ap) = _
      rw [sum]
      rfl

/-- The items of a count are read as the number they denote. -/
theorem readCount_items (items : List CountItem) {count : Nat}
    (small : countFrom count items < 2 ^ 31) (rest : List UInt8) (ap : List VaArg) :
    readCount count (items.map CountItem.text ++ rest)
        (items.flatMap CountItem.arguments ++ ap) =
      readCount (countFrom count items) rest ap := by
  induction items generalizing count with
  | nil => rfl
  | cons item items inductionHypothesis =>
      have first := (le_countFrom (count * 10 + item.value) items).trans_lt small
      rw [List.map_cons, List.cons_append, List.flatMap_cons, List.append_assoc,
        readCount_item item first, inductionHypothesis small]
      rfl

/-- A character outside of a layout ends a count. -/
theorem readCount_stop (count : Nat) {c : UInt8} (outside : ¬ IsLayout c ∨ c = point)
    (nonzero : c ≠ 0) (fmt : List UInt8) (ap : List VaArg) :
    readCount count (c :: fmt) ap = .ok ⟨count, c, some fmt, ap⟩ := by
  have noDigit : ¬ ('0'.toUInt8 ≤ c ∧ c ≤ '9'.toUInt8) := by
    rcases outside with outside | rfl
    · exact fun digit => outside (Or.inr (Or.inl digit))
    · decide
  have noStar : c ≠ '*'.toUInt8 := by
    rcases outside with outside | rfl
    · exact fun star => outside (Or.inr (Or.inr (Or.inl star)))
    · decide
  rw [readCount, if_neg noDigit, if_neg noStar, if_neg nonzero]

theorem text_ne_minus (item : CountItem) : item.text ≠ minus := by
  cases item with
  | digit value => exact digitByte_ne_minus (value.isLt.trans (by decide))
  | star value => exact (by decide : '*'.toUInt8 ≠ minus)

/-- A flag is skipped if it is there, and nothing else is taken for it. -/
theorem skipFlag_optional {flag : UInt8} {present : Bool} {rest : List UInt8}
    (absent : present = true ∨ rest.head? ≠ some flag) :
    skipFlag flag ((if present then [flag] else []) ++ rest) = (present, rest) := by
  cases present with
  | true => exact if_pos rfl
  | false =>
      exact if_neg (absent.resolve_left Bool.false_ne_true)

section Decoding

variable (layout : Layout) {letter : UInt8} (final : EndsDirective letter)
variable (rest : List UInt8) (ap : List VaArg)

include final

/-- After the precision the modifier is skipped. -/
theorem skipLong_letter :
    ∃ stop behind, layout.modifier.toList ++ letter :: rest = stop :: behind ∧
      (¬ IsLayout stop ∧ stop ≠ 0) ∧ skipLong stop (some behind) = (letter, some rest) := by
  obtain ⟨outside, nonzero, notLower, notUpper⟩ := final
  cases modifier : layout.modifier with
  | some c =>
      have long := layout.long c modifier
      refine ⟨c, letter :: rest, rfl, ?_, ?_⟩
      · rcases long with rfl | rfl <;> decide
      · unfold skipLong
        rw [if_pos long]
        exact if_neg nonzero
  | none =>
      refine ⟨letter, rest, rfl, ⟨outside, nonzero⟩, ?_⟩
      unfold skipLong
      exact if_neg (not_or.mpr ⟨notLower, notUpper⟩)

/-- The width ends at the precision, at the modifier or at the letter. -/
theorem readPrecision_tailText (count : Nat) :
    ∃ width precision,
      readCount count (layout.tailText (letter :: rest))
        ((layout.precision.getD []).flatMap CountItem.arguments ++ ap) = .ok width ∧
      width.count = count ∧ readPrecision width = .ok precision ∧
      precision.count = layout.precisionCount ∧ precision.ap = ap ∧
      skipLong precision.stop precision.fmt = (letter, some rest) := by
  obtain ⟨stop, behind, text, ⟨outside, nonzero⟩, skips⟩ := skipLong_letter layout final rest
  unfold Layout.tailText Layout.precisionCount
  rw [text]
  cases precise : layout.precision with
  | none =>
      have noPoint : stop ≠ point := fun same => outside (Or.inr (Or.inr (Or.inr same)))
      refine ⟨⟨count, stop, some behind, ap⟩, ⟨0, stop, some behind, ap⟩,
        readCount_stop count (Or.inl outside) nonzero _ _, rfl, if_neg noPoint, rfl, rfl, skips⟩
  | some items =>
      have reads : readCount 0 (items.map CountItem.text ++ stop :: behind)
          (items.flatMap CountItem.arguments ++ ap) =
            .ok ⟨countOf items, stop, some behind, ap⟩ := by
        rw [readCount_items items (layout.precisionFits items precise),
          readCount_stop _ (Or.inl outside) nonzero]
        rfl
      refine ⟨_, ⟨countOf items, stop, some behind, ap⟩,
        readCount_stop count (Or.inr rfl) (by decide) _ _, rfl, ?_, rfl, rfl, skips⟩
      rw [readPrecision, if_pos rfl]
      exact reads

theorem head_tailText :
    (layout.tailText (letter :: rest)).head? ≠ some minus ∧
      (layout.tailText (letter :: rest)).head? ≠ some '0'.toUInt8 := by
  obtain ⟨stop, behind, text, ⟨outside, nonzero⟩, skips⟩ := skipLong_letter layout final rest
  unfold Layout.tailText
  rw [text]
  cases layout.precision with
  | none =>
      constructor
      · rintro ⟨⟩
        exact outside (by decide)
      · rintro ⟨⟩
        exact outside (by decide)
  | some items =>
      constructor
      · exact fun same => absurd (Option.some.inj same) (by decide)
      · exact fun same => absurd (Option.some.inj same) (by decide)

/-- The directive is decoded as it was written. -/
theorem decodeDirective_text :
    decodeDirective (layout.text (letter :: rest)) (layout.arguments ++ ap) =
      .ok
        { directive :=
            { leftAlign := layout.leftAlign
              filler := if layout.zeroFill then '0'.toUInt8 else ' '.toUInt8
              width := countOf layout.width
              precision := layout.precisionCount
              command := letter }
          fmt := some rest
          ap := ap } := by
  have tail := head_tailText layout final rest
  have afterSign : ((if layout.zeroFill then ['0'.toUInt8] else []) ++
      (layout.width.map CountItem.text ++ layout.tailText (letter :: rest))).head? ≠
        some minus := by
    cases layout.zeroFill with
    | true => exact fun same => absurd (Option.some.inj same) (by decide)
    | false =>
        cases layout.width with
        | nil => exact tail.1
        | cons item items => exact fun same => text_ne_minus item (Option.some.inj same)
  have afterZero : layout.zeroFill = true ∨
      (layout.width.map CountItem.text ++ layout.tailText (letter :: rest)).head? ≠
        some '0'.toUInt8 := by
    refine layout.unambiguous.imp id fun first => ?_
    cases width : layout.width with
    | nil => exact tail.2
    | cons item items =>
        rw [width] at first
        exact fun same => first item rfl (Option.some.inj same)
  obtain ⟨width, precision, reads, count, precise, value, left, skips⟩ :=
    readPrecision_tailText layout final rest ap (countOf layout.width)
  unfold decodeDirective Layout.text Layout.arguments
  rw [skipFlag_optional (Or.inr afterSign)]
  dsimp only
  rw [skipFlag_optional afterZero]
  dsimp only
  rw [List.append_assoc, readCount_items _ layout.widthFits]
  change (readCount (countOf layout.width) _ _).bind _ = _
  rw [reads, Except.bind, precise, Except.bind, skips, count, value, left]

end Decoding

/-! ## Printing the pieces -/

theorem textBelow_start {after : Cursor UInt8} {tmpbuf : Buffer UInt8} {text : List UInt8}
    {extent : Nat} (appended : Appended ⟨0, tmpbuf⟩ after text extent) :
    textBelow after = text := by
  rw [appended.textBelow_eq]
  rfl

/-- The characters of the digit loop are the digits in capitals. -/
theorem digitCharacters_eq_capitalDigits (radix : PrintRadix) (number : Nat) :
    digitCharacters radix number = capitalDigits radix.value number := by
  have every : ∀ digit < 16, digitCharacter digit = digit.digitChar.toUpper.toUInt8 := by decide
  have digit : ∀ number, digitCharacter (number % radix.value) =
      (number % radix.value).digitChar.toUpper.toUInt8 := fun number =>
    every _ ((Nat.mod_lt _ (Nat.zero_lt_of_lt radix.one_lt_value)).trans_le radix.value_le)
  unfold capitalDigits
  induction number using Nat.strong_induction_on with
  | _ number inductionHypothesis =>
      rw [digitCharacters_eq, Nat.toDigits_eq_if radix.one_lt_value, digit]
      by_cases last : number < radix.value
      · rw [if_pos (Nat.div_eq_of_lt last), if_pos last, Nat.mod_eq_of_lt last]
        rfl
      · have large := not_lt.mp last
        have continues : number / radix.value ≠ 0 :=
          (Nat.div_pos large (Nat.zero_lt_of_lt radix.one_lt_value)).ne'
        have smaller : number / radix.value < number :=
          Nat.div_lt_self ((Nat.zero_lt_of_lt radix.one_lt_value).trans_le large)
            radix.one_lt_value
        rw [if_neg continues, if_neg last, inductionHypothesis _ smaller, List.map_append]
        rfl

/-- The stamps of the console are printed with a sign and digits, too. -/
theorem formatI_eq_sign_append (value : Int32) :
    Firmware.formatI value =
      (if value.toInt < 0 then [minus] else []) ++ capitalDigits 10 value.toInt.natAbs := by
  have digits := digitCharacters_eq_capitalDigits .decimal value.toInt.natAbs
  rw [digitCharacters_decimal, Firmware.chLtoa_eq, List.append_nil] at digits
  rw [Firmware.formatI_eq, numeral, digits]
  rfl

/-- The loop of the string command stops at the terminator or at the precision. -/
theorem passString_eq (s : List UInt8) (precision : Nat) :
    passString s precision = (s.takeWhile (· ≠ 0)).take precision := by
  induction s generalizing precision with
  | nil => rw [passString, List.takeWhile_nil, List.take_nil]
  | cons c s inductionHypothesis =>
      rw [passString]
      by_cases terminator : c = 0
      · rw [if_neg fun continues => continues.1 terminator,
          List.takeWhile_cons_of_neg (by simp [terminator]), List.take_nil]
      · rw [List.takeWhile_cons_of_pos (by simp [terminator])]
        cases precision with
        | zero => rw [if_neg fun continues => Nat.lt_irrefl 0 continues.2, List.take_zero]
        | succ precision =>
            rw [if_pos ⟨terminator, Nat.succ_pos precision⟩, List.take_succ_cons,
              Nat.add_sub_cancel, inductionHypothesis]

/-- The switch converts the argument of its command. -/
theorem convert_eq (directive : Directive) {conversion : Conversion}
    (names : commandOf directive.command = conversion.command) (ap : List VaArg)
    (tmpbuf : Buffer UInt8) :
    ∃ converted, convert directive (conversion.arguments ++ ap) tmpbuf = .ok converted ∧
      converted.text = conversion.sign ++ conversion.body directive.precision ∧
      converted.filler = (if conversion.takesZeros then directive.filler else ' '.toUInt8) ∧
      converted.ap = ap := by
  unfold convert
  rw [names]
  cases conversion with
  | character value => exact ⟨_, rfl, textBelow_start (push_appended ⟨0, tmpbuf⟩ _), rfl, rfl⟩
  | string text => exact ⟨_, rfl, passString_eq _ _, rfl, rfl⟩
  | signed value negatable =>
      obtain ⟨after, converts, appended⟩ := convertSigned_appended negatable tmpbuf
      have shown := textBelow_start appended
      rw [formatI_eq_sign_append] at shown
      refine ⟨⟨textBelow after, directive.filler, ap, after.buffer⟩, ?_, shown, rfl, rfl⟩
      change (convertSigned value tmpbuf).map _ = _
      rw [converts]
      rfl
  | unsigned radix value =>
      obtain ⟨after, converts, appended⟩ := chLtoa_appended ⟨0, tmpbuf⟩ value radix
      have shown := textBelow_start appended
      rw [digitCharacters_eq_capitalDigits] at shown
      refine ⟨⟨textBelow after, directive.filler, ap, after.buffer⟩, ?_, shown, rfl, rfl⟩
      change (chLtoa ⟨0, tmpbuf⟩ value radix).map _ = _
      rw [converts]
      rfl
  | other c => exact ⟨_, rfl, textBelow_start (push_appended ⟨0, tmpbuf⟩ _), rfl, rfl⟩

theorem minus_notMem_capitalDigits (radix : PrintRadix) (number : Nat) :
    minus ∉ capitalDigits radix.value number := by
  have every : ∀ digit < 16, digitCharacter digit ≠ minus := by decide
  rw [← digitCharacters_eq_capitalDigits]
  intro member
  obtain ⟨digit, inside, same⟩ := List.mem_map.mp (List.mem_reverse.mp member)
  exact every digit ((loopDigits_lt_base radix.one_lt_value inside).trans_le radix.value_le) same

/-- The sign is the only minus in front of a text that is filled with zeros. -/
theorem head_body_ne_minus (precision : Nat) {conversion : Conversion} {letter : UInt8}
    (names : commandOf letter = conversion.command) (outside : ¬ IsLayout letter)
    (zeros : conversion.takesZeros = true) :
    (conversion.body precision).head? ≠ some minus := by
  cases conversion with
  | character value => cases zeros
  | string text => cases zeros
  | signed value negatable =>
      exact fun first => minus_notMem_capitalDigits .decimal _ (List.mem_of_head? first)
  | unsigned radix value =>
      exact fun first => minus_notMem_capitalDigits radix _ (List.mem_of_head? first)
  | other c =>
      intro first
      have same : c = minus := Option.some.inj first
      unfold commandOf at names
      repeat' split at names
      all_goals cases names
      exact outside (Or.inl same)

/-- The field of the source is the text with its padding. -/
theorem layOut_eq (leftAlign zeros : Bool) (width : Nat) {sign body : List UInt8}
    (signs : sign = [] ∨ sign = [minus])
    (plain : zeros = true → body.head? ≠ some minus) :
    layOut leftAlign (if zeros then '0'.toUInt8 else ' '.toUInt8) width (sign ++ body) =
      paddedField leftAlign zeros width sign body := by
  unfold layOut
  cases leftAlign with
  | true => cases zeros <;> rfl
  | false =>
      cases zeros with
      | false =>
          have blanks : ¬ (List.replicate (width - (sign ++ body).length) ' '.toUInt8 ≠ [] ∧
              (sign ++ body).head? = some minus ∧ ' '.toUInt8 = '0'.toUInt8) :=
            fun condition => absurd condition.2.2 (by decide)
          exact if_neg blanks
      | true =>
          rcases signs with rfl | rfl
          · have unsigned : ¬ (List.replicate (width - ([] ++ body).length) '0'.toUInt8 ≠ [] ∧
                ([] ++ body).head? = some minus ∧ '0'.toUInt8 = '0'.toUInt8) :=
              fun condition => plain rfl condition.2.1
            exact if_neg unsigned
          · have length : width - ([minus] ++ body).length = width - 1 - body.length := by
              rw [List.length_append, List.length_singleton, Nat.sub_add_eq]
            dsimp only
            rw [if_neg Bool.false_ne_true, if_pos rfl, length]
            change _ = minus :: (List.replicate (width - 1 - body.length) '0'.toUInt8 ++ body)
            by_cases full : List.replicate (width - 1 - body.length) '0'.toUInt8 = []
            · rw [if_neg fun condition => condition.1 full, full]
              rfl
            · rw [if_pos ⟨full, rfl, rfl⟩]
              rfl

/-- A directive whose parts are known. -/
theorem chvprintf_directive {fmt rest : List UInt8} {ap left : List VaArg}
    {directive : Directive} {converted : Converted} {tmpbuf : Buffer UInt8}
    (decodes : decodeDirective fmt ap = .ok ⟨directive, some rest, left⟩)
    (converts : convert directive left tmpbuf = .ok converted) :
    chvprintf ('%'.toUInt8 :: fmt) ap tmpbuf =
      (chvprintf rest converted.ap converted.tmpbuf).after
        (layOut directive.leftAlign converted.filler directive.width converted.text) := by
  rw [chvprintf, if_neg (by decide), if_neg (by decide)]
  split
  case h_1 fault fails =>
    rw [decodes] at fails
    cases fails
  case h_2 decoded found =>
    cases decodes.symm.trans found
    rw [converts]

/-- A piece prints its output, and the rest of the format is left. -/
theorem chvprintf_piece (piece : Piece) (rest : List UInt8) (ap : List VaArg)
    (tmpbuf : Buffer UInt8) :
    ∃ left : Buffer UInt8,
      chvprintf (piece.text rest) (piece.arguments ++ ap) tmpbuf =
        (chvprintf rest ap left).after piece.output := by
  cases piece with
  | literal c plain =>
      refine ⟨tmpbuf, ?_⟩
      rw [Piece.text, chvprintf, if_neg plain.1, if_pos plain.2]
      rfl
  | directive layout conversion letter names final =>
      have decodes := decodeDirective_text layout final rest (conversion.arguments ++ ap)
      obtain ⟨converted, converts, text, filler, left⟩ := convert_eq
        ⟨layout.leftAlign, if layout.zeroFill then '0'.toUInt8 else ' '.toUInt8,
          countOf layout.width, layout.precisionCount, letter⟩ names ap tmpbuf
      have zeros : converted.filler =
          if layout.zeroFill && conversion.takesZeros then '0'.toUInt8 else ' '.toUInt8 := by
        rw [filler]
        cases conversion.takesZeros <;> cases layout.zeroFill <;> rfl
      have signs : conversion.sign = [] ∨ conversion.sign = [minus] := by
        unfold Conversion.sign
        split
        · split
          · exact Or.inr rfl
          · exact Or.inl rfl
        all_goals exact Or.inl rfl
      have plain : (layout.zeroFill && conversion.takesZeros) = true →
          (conversion.body layout.precisionCount).head? ≠ some minus := fun both =>
        head_body_ne_minus _ names final.1 (Bool.and_eq_true_iff.mp both).2
      refine ⟨converted.tmpbuf, ?_⟩
      rw [Piece.text, Piece.arguments, List.append_assoc, chvprintf_directive decodes converts,
        text, zeros, left, layOut_eq _ _ _ signs plain]
      rfl

/-- Pieces print their outputs, one after the other. -/
theorem chvprintf_pieces (pieces : List Piece) (rest : List UInt8) (ap : List VaArg)
    (tmpbuf : Buffer UInt8) :
    ∃ left : Buffer UInt8,
      chvprintf (pieces.foldr Piece.text rest) (pieces.flatMap Piece.arguments ++ ap) tmpbuf =
        (chvprintf rest ap left).after (pieces.flatMap Piece.output) := by
  induction pieces generalizing tmpbuf with
  | nil => exact ⟨tmpbuf, rfl⟩
  | cons piece others inductionHypothesis =>
      obtain ⟨between, first⟩ := chvprintf_piece piece (others.foldr Piece.text rest)
        (others.flatMap Piece.arguments ++ ap) tmpbuf
      obtain ⟨left, later⟩ := inductionHypothesis between
      refine ⟨left, ?_⟩
      rw [List.foldr_cons, List.flatMap_cons, List.flatMap_cons, List.append_assoc, first, later]
      unfold Printed.after
      rw [List.append_assoc]

/-- The base of `modp_itoaX`. -/
def PrintRadix.base : PrintRadix → Int32
  | .octal => 8
  | .decimal => 10
  | .hexadecimal => 16

/-- The radix as one of the bases which `modp_itoaX` accepts. -/
def PrintRadix.toRadix (radix : PrintRadix) : Util.Radix where
  base := radix.base
  least := by cases radix <;> decide
  most := by cases radix <;> decide

theorem PrintRadix.number_toRadix (radix : PrintRadix) : radix.toRadix.number = radix.value := by
  cases radix <;> decide

/-- A letter in capitals. -/
def capital (c : UInt8) : UInt8 :=
  if 'a'.toUInt8 ≤ c ∧ c ≤ 'z'.toUInt8 then c - 'a'.toUInt8 + 'A'.toUInt8 else c

/-- What `modp_itoaX` writes for a number without a sign is what an unsigned directive
prints. -/
theorem modpItoaX_in_capitals (radix : PrintRadix) {value : Int32} (positive : 0 ≤ value.toInt)
    (result : Buffer UInt8) :
    ∃ final text, Util.modpItoaX value result radix.base = some final ∧ final.Holds 0 text ∧
      text.map capital = capitalDigits radix.value value.toInt.natAbs := by
  have every : ∀ digit < 16, capital (digitByte digit) = digitCharacter digit := by decide
  have bounds := radix.toRadix.number_bounds
  have writes := Util.modpItoaX_eq value result radix.toRadix
  refine ⟨_, _, writes, result.storeAll_holds [] (nul_notMem_numeral bounds.1 bounds.2 _), ?_⟩
  rw [radix.number_toRadix, ← digitCharacters_eq_capitalDigits]
  unfold numeral digitsText digitCharacters
  rw [if_neg (not_lt.mpr positive), List.nil_append, List.map_reverse, List.map_map]
  congr 1
  apply List.map_congr_left
  intro digit member
  exact every digit ((loopDigits_lt_base radix.one_lt_value member).trans_le radix.value_le)

/-! ## Checking a format

The directives of a format can be read without its arguments, as long as no width or
precision is passed as an argument.  A call whose arguments suit the directives comes to
its end.
-/

/-- The commands of the directives of a format, if it can be read without arguments. -/
def commandsOf : Nat → List UInt8 → Option (List Command)
  | _, [] => some []
  | 0, _ :: _ => none
  | fuel + 1, c :: fmt =>
      if c = 0 then some []
      else if c ≠ '%'.toUInt8 then commandsOf fuel fmt
      else
        match decodeDirective fmt [] with
        | .error _ => none
        | .ok decoded =>
            decoded.fmt.bind fun rest =>
              (commandsOf fuel rest).map (commandOf decoded.directive.command :: ·)

/-- Arguments of the right kinds, in the right order, and none left over.  The least number
has no sign and digits. -/
def Suit : List Command → List VaArg → Prop
  | [], [] => True
  | .other _ :: commands, ap => Suit commands ap
  | .string :: commands, .pointer _ :: ap => Suit commands ap
  | .character :: commands, .word _ :: ap => Suit commands ap
  | .signed :: commands, .word value :: ap =>
      value.toInt32 ≠ Int32.minValue ∧ Suit commands ap
  | .unsigned _ :: commands, .word _ :: ap => Suit commands ap
  | _, _ => False

/-- A width which is read without arguments does not depend on them. -/
theorem readCount_frame {count : Nat} {fmt : List UInt8} {read : Count}
    (reads : readCount count fmt [] = .ok read) (ap : List VaArg) :
    read.ap = [] ∧ readCount count fmt ap = .ok { read with ap := ap } := by
  induction fmt generalizing count with
  | nil =>
      cases reads
      exact ⟨rfl, rfl⟩
  | cons c fmt inductionHypothesis =>
      rw [readCount] at reads ⊢
      split at reads
      · rename_i digit
        rw [if_pos digit]
        cases sum : accumulate count (c - '0'.toUInt8) with
        | error fault =>
            rw [sum] at reads
            cases reads
        | ok count =>
            rw [sum] at reads
            exact inductionHypothesis reads
      · rename_i other
        rw [if_neg other]
        split at reads
        · cases reads
        · rename_i noStar
          rw [if_neg noStar]
          cases reads
          exact ⟨rfl, rfl⟩

theorem readPrecision_frame {width precision : Count} (unused : width.ap = [])
    (reads : readPrecision width = .ok precision) (ap : List VaArg) :
    readPrecision { width with ap := ap } = .ok { precision with ap := ap } := by
  unfold readPrecision at reads ⊢
  dsimp only
  split at reads
  · rename_i dotted
    rw [if_pos dotted]
    cases behind : width.fmt with
    | none =>
        rw [behind] at reads
        cases reads
    | some fmt =>
        rw [behind, unused] at reads
        exact (readCount_frame reads ap).2
  · rename_i plain
    rw [if_neg plain]
    cases reads
    rfl

/-- A directive which is read without arguments does not depend on them. -/
theorem decodeDirective_frame {fmt : List UInt8} {decoded : Decoded}
    (decodes : decodeDirective fmt [] = .ok decoded) (ap : List VaArg) :
    decodeDirective fmt ap = .ok { decoded with ap := ap } := by
  rcases decodeDirective_eq_ok decodes with ⟨width, precision, counts, precise, rfl⟩
  rcases readCount_frame counts ap with ⟨unused, reads⟩
  unfold decodeDirective
  dsimp only
  change (readCount 0 (behindFlags fmt) ap).bind _ = _
  rw [reads, Except.bind, readPrecision_frame unused precise ap]
  rfl

/-- A suitable argument is converted. -/
theorem convert_suited {directive : Directive} {commands : List Command} {ap : List VaArg}
    (suit : Suit (commandOf directive.command :: commands) ap) (tmpbuf : Buffer UInt8) :
    ∃ converted, convert directive ap tmpbuf = .ok converted ∧ Suit commands converted.ap := by
  unfold convert
  cases command : commandOf directive.command with
  | other c =>
      rw [command] at suit
      refine ⟨_, rfl, ?_⟩
      cases ap <;> exact suit
  | character =>
      rw [command] at suit
      rcases ap with _ | ⟨_ | _, ap⟩
      · cases suit
      · exact ⟨_, rfl, suit⟩
      · cases suit
  | signed =>
      rw [command] at suit
      rcases ap with _ | ⟨value | _, ap⟩
      · cases suit
      · obtain ⟨after, converts, -⟩ := convertSigned_appended suit.1 tmpbuf
        dsimp only
        rw [converts]
        exact ⟨_, rfl, suit.2⟩
      · cases suit
  | unsigned radix =>
      rw [command] at suit
      rcases ap with _ | ⟨value | _, ap⟩
      · cases suit
      · obtain ⟨after, converts, -⟩ := chLtoa_appended ⟨0, tmpbuf⟩ value radix
        dsimp only
        rw [converts]
        exact ⟨_, rfl, suit⟩
      · cases suit
  | string =>
      rw [command] at suit
      rcases ap with _ | ⟨_ | _, ap⟩
      · cases suit
      · cases suit
      · exact ⟨_, rfl, suit⟩

/-- A call whose arguments suit the directives of its format comes to its end. -/
theorem chvprintf_completes {fuel : Nat} {fmt : List UInt8} {commands : List Command}
    (reads : commandsOf fuel fmt = some commands) {ap : List VaArg} (suit : Suit commands ap)
    (tmpbuf : Buffer UInt8) : (chvprintf fmt ap tmpbuf).fault = none := by
  induction fuel generalizing fmt commands ap tmpbuf with
  | zero =>
      cases fmt with
      | nil => rw [chvprintf]
      | cons c fmt => cases reads
  | succ fuel inductionHypothesis =>
      cases fmt with
      | nil => rw [chvprintf]
      | cons c fmt =>
          rw [commandsOf] at reads
          split at reads
          · rename_i terminator
            rw [chvprintf, if_pos terminator]
          · rename_i inside
            split at reads
            · rename_i plain
              rw [chvprintf, if_neg inside, if_pos plain]
              exact inductionHypothesis reads suit tmpbuf
            · rename_i percent
              split at reads
              · cases reads
              · rename_i decoded decodes
                rcases Option.bind_eq_some_iff.mp reads with ⟨rest, behind, reads⟩
                rcases Option.map_eq_some_iff.mp reads with ⟨others, remaining, rfl⟩
                rcases convert_suited suit tmpbuf with ⟨converted, converts, suit⟩
                have sign : c = '%'.toUInt8 := not_not.mp percent
                have whole := decodeDirective_frame decodes ap
                rw [behind] at whole
                rw [sign, chvprintf_directive whole converts]
                exact inductionHypothesis remaining suit converted.tmpbuf

end Hal
end AnalogX

import AnalogX.Firmware.Logging
import AnalogX.Hal.Format

namespace AnalogX
namespace Firmware

open Can Kernel Hal Foundations Foundations.Numerals

/-!
# The console

The logging macros print their lines with `chprintf`, and this is what a terminal at the
serial port shows.  The dump of a received frame is written for a reader: from its text
the time, the identifier and the payload of the frame can be recovered.
-/

/-! ## Lines -/

/-- The characters of a string literal. -/
def bytesOf (literal : String) : List UInt8 :=
  literal.toList.map Char.toUInt8

/-- The words passed for the arguments of a line.  An argument that was read outside of the
payload is a stray word. -/
def vaList (stray : UInt32) (arguments : List (Option Nat)) : List VaArg :=
  arguments.map fun argument => .word ((argument.map UInt32.ofNat).getD stray)

/-- What an effect puts to the console.  `tmpbuf` is uninitialised in every call. -/
def consoleText (now : Systime) (stray : UInt32) (tmpbuf : Buffer UInt8) :
    Effect → List UInt8
  | .log stamped format arguments =>
      (if stamped then (chvprintf (bytesOf "%i ") [.word (st2ms now)] tmpbuf).output else []) ++
        (chvprintf (bytesOf format) (vaList stray arguments) tmpbuf).output
  | _ => []

/-- What a list of effects puts to the console. -/
def console (now : Systime) (stray : UInt32) (tmpbuf : Buffer UInt8) (effects : List Effect) :
    List UInt8 :=
  effects.flatMap (consoleText now stray tmpbuf)

/-- Text without a percent sign. -/
def Plain (text : List UInt8) : Prop :=
  ∀ c ∈ text, c ≠ 0 ∧ c ≠ '%'.toUInt8

instance (text : List UInt8) : Decidable (Plain text) :=
  List.decidableBAll _ _

/-- Plain text is printed as it is. -/
theorem chvprintf_plain {text : List UInt8} (plain : Plain text) (rest : List UInt8)
    (ap : List VaArg) (tmpbuf : Buffer UInt8) :
    chvprintf (text ++ rest) ap tmpbuf = (chvprintf rest ap tmpbuf).after text := by
  induction text with
  | nil => rfl
  | cons c text inductionHypothesis =>
      have first := plain c List.mem_cons_self
      have later := inductionHypothesis fun other member => plain other (List.mem_cons_of_mem _ member)
      rw [List.cons_append, chvprintf, if_neg first.1, if_pos first.2, later]
      rfl

theorem zero_lt_count : 0 < 2 ^ 31 := by decide

theorem two_lt_count : 2 < 2 ^ 31 := by decide

theorem two_lt_ten : 2 < 10 := by decide

theorem names_i : commandOf 'i'.toUInt8 = .signed ∧ EndsDirective 'i'.toUInt8 := by decide

theorem names_X :
    commandOf 'X'.toUInt8 = .unsigned .hexadecimal ∧ EndsDirective 'X'.toUInt8 := by decide

/-- A layout without precision and modifier, which is aligned to the right. -/
def rightLayout (zeroFill : Bool) (width : List CountItem) (fits : countOf width < 2 ^ 31)
    (unambiguous : zeroFill = true ∨ ∀ item ∈ width.head?, item.text ≠ '0'.toUInt8) :
    Layout where
  leftAlign := false
  zeroFill := zeroFill
  width := width
  precision := none
  modifier := none
  widthFits := fits
  precisionFits := fun _ member => absurd member (Option.not_mem_none _)
  unambiguous := unambiguous
  long := fun _ member => absurd member (Option.not_mem_none _)

/-- The directive `%i`. -/
def signedPiece (value : Int32) (negatable : value ≠ Int32.minValue) : Piece :=
  .directive (rightLayout false [] zero_lt_count (Or.inr fun _ member => nomatch member))
    (.signed value negatable) 'i'.toUInt8 names_i.1 names_i.2

/-- The directive `%02X`. -/
def bytePiece (value : UInt32) : Piece :=
  .directive (rightLayout true [.digit ⟨2, two_lt_ten⟩] two_lt_count (Or.inl rfl))
    (.unsigned .hexadecimal value) 'X'.toUInt8 names_X.1 names_X.2

theorem output_signedPiece (value : Int32) (negatable : value ≠ Int32.minValue) :
    (signedPiece value negatable).output = formatI value := by
  rw [formatI_eq_sign_append]
  change List.replicate (0 - _) _ ++ _ = _
  rw [Nat.zero_sub]
  rfl

/-- A directive between plain texts. -/
theorem output_between (before : List UInt8) (piece : Piece) (after : List UInt8)
    (plainBefore : Plain before) (plainAfter : Plain after) (tmpbuf : Buffer UInt8) :
    (chvprintf (before ++ piece.text after) piece.arguments tmpbuf).output =
      before ++ (piece.output ++ after) := by
  obtain ⟨left, prints⟩ := chvprintf_piece piece after [] tmpbuf
  have last := chvprintf_plain plainAfter [] [] left
  rw [List.append_nil] at prints last
  rw [chvprintf_plain plainBefore, prints, last, chvprintf]
  unfold Printed.after
  rw [List.append_nil]

theorem text_signedPiece (value : Int32) (negatable : value ≠ Int32.minValue)
    (rest : List UInt8) : (signedPiece value negatable).text rest = bytesOf "%i" ++ rest := rfl

theorem text_bytePiece (value : UInt32) (rest : List UInt8) :
    (bytePiece value).text rest = bytesOf "%02X" ++ rest := rfl

/-- A number below the sign bit can be negated. -/
theorem negatable_of_toNat_lt {value : UInt32} (small : value.toNat < 2 ^ 31) :
    value.toInt32 ≠ Int32.minValue := by
  intro least
  have word : value = Int32.minValue.toUInt32 := by rw [← least, UInt32.toUInt32_toInt32]
  rw [word] at small
  exact absurd small (by decide)

theorem negatable_ofNat {number : Nat} (small : number < 2 ^ 31) :
    (UInt32.ofNat number).toInt32 ≠ Int32.minValue := by
  have word : (UInt32.ofNat number).toNat = number :=
    UInt32.toNat_ofNat_of_lt' (small.trans (by decide))
  exact negatable_of_toNat_lt (word.symm ▸ small)

/-- A stamp is printed to its end at any time. -/
theorem stamp_completes (now : Systime) (tmpbuf : Buffer UInt8) :
    (chvprintf (bytesOf "%i ") [.word (st2ms now)] tmpbuf).fault = none := by
  have reads : commandsOf 3 (bytesOf "%i ") = some [.signed] := rfl
  have suit : Suit [.signed] [.word (st2ms now)] :=
    ⟨negatable_of_toNat_lt (st2ms_lt now), trivial⟩
  exact chvprintf_completes reads suit tmpbuf

/-- The stamp of a line is the one of its prefix. -/
theorem consoleText_log (now : Systime) (stray : UInt32) (tmpbuf : Buffer UInt8) (stamped : Bool)
    (format : String) (arguments : List (Option Nat)) :
    consoleText now stray tmpbuf (.log stamped format arguments) =
      linePrefix now (.log stamped format arguments) ++
        (chvprintf (bytesOf format) (vaList stray arguments) tmpbuf).output := by
  cases stamped with
  | false => rfl
  | true =>
      have stamp := output_between [] (signedPiece _ (negatable_of_toNat_lt (st2ms_lt now))) [blank]
        (by decide) (by decide) tmpbuf
      rw [List.nil_append, text_signedPiece, output_signedPiece] at stamp
      exact congrArg (· ++ _) stamp

/-! ## Reading a dump -/

/-- The value of a hexadecimal digit in capitals. -/
def readCapital (c : UInt8) : Option Nat :=
  if '0'.toUInt8 ≤ c ∧ c ≤ '9'.toUInt8 then some (c.toNat - '0'.toNat)
  else if 'A'.toUInt8 ≤ c ∧ c ≤ 'F'.toUInt8 then some (c.toNat - 'A'.toNat + 10)
  else none

/-- Bytes of two digits with a blank after each. -/
def readBytes : List UInt8 → Option (List UInt8)
  | [] => some []
  | high :: low :: _ :: rest =>
      (readCapital high).bind fun first =>
        (readCapital low).bind fun second =>
          (readBytes rest).map (UInt8.ofNat (16 * first + second) :: ·)
  | _ => none

/-- What the dump of a frame tells. -/
structure DumpedFrame where
  stamp : Int
  identifier : Int
  payload : List UInt8
  deriving DecidableEq

/-- The closing bracket of the identifier. -/
def bracket : UInt8 := ')'.toUInt8

/-- Read a dump with a prefix of the given length. -/
def readDump (prefixLength : Nat) (text : List UInt8) : Option DumpedFrame :=
  let line := (text.dropWhile (· ≠ blank)).drop (1 + prefixLength + (bytesOf "CAN Rx ID(").length)
  (stampOf text).bind fun stamp =>
    (readNumeral 10 (line.takeWhile (· ≠ bracket))).bind fun identifier =>
      (readBytes ((line.dropWhile (· ≠ bracket)).drop 2)).map fun payload =>
        ⟨stamp, identifier, payload⟩

/-- The identifier that a frame has on the bus. -/
def identifier (frame : CanRxFrame) : Nat :=
  if frame.ide = 1 then frame.eid.toNat else frame.sid.toNat

/-- The bytes of a frame up to its data length. -/
def payload (frame : CanRxFrame) : List UInt8 :=
  (List.ofFn frame.data8).take frame.dlc.toNat

theorem readCapital_digitCharacter {digit : Nat} (small : digit < 16) :
    readCapital (digitCharacter digit) = some digit := by
  have every : ∀ digit < 16, readCapital (digitCharacter digit) = some digit := by decide
  exact every digit small

/-- A byte is dumped as its two digits. -/
theorem output_bytePiece (byte : UInt8) :
    (bytePiece (UInt32.ofNat byte.toNat)).output =
      [digitCharacter (byte.toNat / 16), digitCharacter (byte.toNat % 16)] := by
  have bound := byte.toNat_lt
  have value : (UInt32.ofNat byte.toNat).toNat = byte.toNat :=
    UInt32.toNat_ofNat_of_lt' (bound.trans (by decide))
  have high : byte.toNat / 16 / 16 = 0 := by omega
  have low : byte.toNat % 16 < 16 := Nat.mod_lt _ (by decide)
  have output : (bytePiece (UInt32.ofNat byte.toNat)).output =
      (capitalDigits 16 (UInt32.ofNat byte.toNat).toNat).leftpad 2 '0'.toUInt8 := rfl
  have digits : digitCharacters .hexadecimal byte.toNat = capitalDigits 16 byte.toNat :=
    digitCharacters_eq_capitalDigits .hexadecimal byte.toNat
  rw [output, value, ← digits, digitCharacters_eq]
  change List.leftpad 2 '0'.toUInt8 ((if byte.toNat / 16 = 0 then [] else _) ++
    [digitCharacter (byte.toNat % 16)]) = _
  by_cases single : byte.toNat / 16 = 0
  · rw [if_pos single, single]
    rfl
  · rw [if_neg single, digitCharacters_eq]
    change List.leftpad 2 '0'.toUInt8 (((if byte.toNat / 16 / 16 = 0 then [] else _) ++
      [digitCharacter (byte.toNat / 16 % 16)]) ++ [digitCharacter (byte.toNat % 16)]) = _
    rw [if_pos high, Nat.mod_eq_of_lt (show byte.toNat / 16 < 16 by omega)]
    rfl

/-- The bytes of a dump can be read back. -/
theorem readBytes_dump (bytes : List UInt8) :
    readBytes (bytes.flatMap fun byte =>
      (bytePiece (UInt32.ofNat byte.toNat)).output ++ [blank]) = some bytes := by
  induction bytes with
  | nil => rfl
  | cons byte rest inductionHypothesis =>
      have bound := byte.toNat_lt
      have value : UInt8.ofNat (16 * (byte.toNat / 16) + byte.toNat % 16) = byte := by
        rw [Nat.div_add_mod, UInt8.ofNat_toNat]
      rw [List.flatMap_cons, output_bytePiece]
      change (readCapital _).bind _ = _
      rw [readCapital_digitCharacter (show byte.toNat / 16 < 16 by omega), Option.bind_some,
        readCapital_digitCharacter (Nat.mod_lt _ (by decide)), Option.bind_some]
      change (readBytes (List.flatMap _ rest)).map _ = _
      rw [inductionHypothesis, Option.map_some, value]

/-! ## The text of a dump -/

variable (now : Systime) (stray : UInt32) (tmpbuf : Buffer UInt8)

theorem console_append (first second : List Effect) :
    console now stray tmpbuf (first ++ second) =
      console now stray tmpbuf first ++ console now stray tmpbuf second :=
  List.flatMap_append

/-- The line of one dumped byte. -/
theorem consoleText_byte (byte : UInt8) :
    consoleText now stray tmpbuf (.log false "%02X " [some byte.toNat]) =
      (bytePiece (UInt32.ofNat byte.toNat)).output ++ [blank] := by
  have line := output_between [] (bytePiece (UInt32.ofNat byte.toNat)) [blank] (by decide)
    (by decide) tmpbuf
  rw [text_bytePiece] at line
  exact line

/-- The bytes up to the data length, as the loop of the dump reads them. -/
theorem payload_eq {frame : CanRxFrame} (short : frame.dlc.toNat ≤ 8) :
    (List.range' 0 frame.dlc.toNat).map (dataBytes frame) = (payload frame).map some := by
  apply List.ext_getElem
  · simp [payload, short]
  · intro index inDump inPayload
    have inside : index < 8 := by
      rw [List.length_map, List.length_range'] at inDump
      omega
    simp only [payload, List.getElem_map, List.getElem_range', List.getElem_take, List.getElem_ofFn,
      Nat.zero_add, Nat.one_mul, dataBytes, inside, dif_pos]

theorem console_byteDump {frame : CanRxFrame} (short : frame.dlc.toNat ≤ 8) :
    console now stray tmpbuf (byteDump frame 0 frame.dlc.toNat) =
      (payload frame).flatMap fun byte =>
        (bytePiece (UInt32.ofNat byte.toNat)).output ++ [blank] := by
  have lines : console now stray tmpbuf (byteDump frame 0 frame.dlc.toNat) =
      ((List.range' 0 frame.dlc.toNat).map (dataBytes frame)).flatMap fun byte =>
        consoleText now stray tmpbuf (.log false "%02X " [byte.map UInt8.toNat]) := by
    unfold console byteDump
    rw [List.flatMap_assoc, List.flatMap_map]
    apply List.flatMap_congr
    intro index _
    exact List.append_nil _
  rw [lines, payload_eq short, List.flatMap_map]
  apply List.flatMap_congr
  intro byte _
  exact consoleText_byte now stray tmpbuf byte

/-- The word of the identifier. -/
theorem toNat_identifier (frame : CanRxFrame) :
    (if frame.ide = 1 then frame.eid.setWidth 32
      else frame.sid.setWidth 32 : BitVec 32).toNat = identifier frame := by
  unfold identifier
  split
  · exact BitVec.toNat_setWidth_of_le (by decide)
  · exact BitVec.toNat_setWidth_of_le (by decide)

/-- The identifier is below the sign of the format. -/
theorem identifier_lt (frame : CanRxFrame) : identifier frame < 2 ^ 31 := by
  have eid := frame.eid.isLt
  have sid := frame.sid.isLt
  unfold identifier
  split
  · exact eid.trans (by decide)
  · exact sid.trans (by decide)

/-- The line with the identifier. -/
theorem consoleText_identifier (frame : CanRxFrame) :
    consoleText now stray tmpbuf (.log false " ID(%i) "
        [some (if frame.ide = 1 then frame.eid.setWidth 32
          else frame.sid.setWidth 32 : BitVec 32).toNat]) =
      bytesOf " ID(" ++ (numeral 10 (identifier frame : Int) ++ [bracket, blank]) := by
  have small := identifier_lt frame
  have word : (UInt32.ofNat (identifier frame)).toNat = identifier frame :=
    UInt32.toNat_ofNat_of_lt' (small.trans (by decide))
  have value : (UInt32.ofNat (identifier frame)).toInt32.toInt = (identifier frame : Int) := by
    rw [toInt_eq_toNat, UInt32.toUInt32_toInt32, word, if_pos small]
  have line := output_between (bytesOf " ID(") (signedPiece _ (negatable_ofNat small))
    [bracket, blank] (by decide) (by decide) tmpbuf
  rw [text_signedPiece, output_signedPiece, formatI_eq, value] at line
  rw [toNat_identifier]
  exact line

/-- The whole dump of a frame. -/
theorem console_rxDump {logPfx : String} (plain : Plain (bytesOf logPfx)) {frame : CanRxFrame}
    (short : frame.dlc.toNat ≤ 8) :
    console now stray tmpbuf (rxDump logPfx frame .debug) =
      formatI (st2ms now).toInt32 ++ blank :: (bytesOf logPfx ++ (bytesOf "CAN Rx ID(" ++
        (numeral 10 (identifier frame : Int) ++ bracket :: blank ::
          (payload frame).flatMap fun byte =>
            (bytePiece (UInt32.ofNat byte.toNat)).output ++ [blank]))) := by
  have printed : ∀ text : List UInt8, Plain text → (chvprintf text [] tmpbuf).output = text := by
    intro text plain
    have all := chvprintf_plain plain [] [] tmpbuf
    rw [List.append_nil, chvprintf] at all
    rw [all]
    exact List.append_nil text
  have first := consoleText_log now stray tmpbuf true logPfx []
  have second := consoleText_log now stray tmpbuf false "CAN Rx" []
  have third := consoleText_identifier now stray tmpbuf frame
  have bytes := console_byteDump now stray tmpbuf short
  have name := printed (bytesOf "CAN Rx") (by decide)
  have pfx := printed (bytesOf logPfx) plain
  unfold rxDump
  rw [if_pos le_rfl, console_append, bytes]
  unfold console
  rw [List.flatMap_cons, List.flatMap_cons, List.flatMap_cons, List.flatMap_nil, first, second,
    third]
  change (formatI _ ++ [blank] ++ (chvprintf (bytesOf logPfx) [] tmpbuf).output ++
    ([] ++ (chvprintf (bytesOf "CAN Rx") [] tmpbuf).output ++ _)) ++ _ = _
  rw [pfx, name]
  have opening : bytesOf "CAN Rx ID(" = bytesOf "CAN Rx" ++ bytesOf " ID(" := rfl
  rw [opening]
  simp only [List.append_assoc, List.cons_append, List.nil_append, List.append_nil]

theorem takeWhile_until {stop : UInt8} {text : List UInt8} (absent : stop ∉ text)
    (rest : List UInt8) : (text ++ stop :: rest).takeWhile (· ≠ stop) = text := by
  rw [List.takeWhile_append_of_pos, List.takeWhile_cons_of_neg (by simp), List.append_nil]
  intro c member
  exact decide_eq_true (ne_of_mem_of_not_mem member absent)

theorem dropWhile_until {stop : UInt8} {text : List UInt8} (absent : stop ∉ text)
    (rest : List UInt8) : (text ++ stop :: rest).dropWhile (· ≠ stop) = stop :: rest := by
  rw [List.dropWhile_append_of_pos, List.dropWhile_cons_of_neg (by simp)]
  intro c member
  exact decide_eq_true (ne_of_mem_of_not_mem member absent)

/-- From the text of a dump its reader gets the time, the identifier and the payload. -/
theorem dump_read_back {logPfx : String} (plain : Plain (bytesOf logPfx)) {frame : CanRxFrame}
    (short : frame.dlc.toNat ≤ 8) {fw : State} (debug : fw.loggingLevel = .debug) :
    ∃ effects, (logCanRxMessage logPfx frame fw).trace = fw.trace ++ effects ∧
      readDump (bytesOf logPfx).length (console now stray tmpbuf effects) =
        some ⟨(st2ms now).toNat, identifier frame, payload frame⟩ := by
  refine ⟨rxDump logPfx frame .debug, ?_, ?_⟩
  · rw [logCanRxMessage_eq_emit, State.emit_trace, debug]
  · have proper : 1 < 10 := by decide
    have noBlank : blank ∉ formatI (st2ms now).toInt32 := by
      rw [formatI_eq]
      exact notMem_numeral proper (by decide) _ (by decide) (by decide)
    have noBracket : bracket ∉ numeral 10 (identifier frame : Int) :=
      notMem_numeral proper (by decide) _ (by decide) (by decide)
    have stamp := stampOf_linePrefix now "" []
    unfold stampOf linePrefix at stamp
    rw [takeWhile_until noBlank] at stamp
    rw [console_rxDump now stray tmpbuf plain short]
    unfold readDump stampOf
    dsimp only
    rw [takeWhile_until noBlank, stamp, dropWhile_until noBlank, Option.bind_some]
    have line : ∀ rest : List UInt8,
        (blank :: (bytesOf logPfx ++ (bytesOf "CAN Rx ID(" ++ rest))).drop
          (1 + (bytesOf logPfx).length + (bytesOf "CAN Rx ID(").length) = rest := by
      intro rest
      rw [Nat.add_assoc, Nat.add_comm 1, List.drop_succ_cons, ← List.append_assoc,
        ← List.length_append, List.drop_left]
    rw [line, takeWhile_until noBracket, dropWhile_until noBracket,
      readNumeral_numeral proper (by decide), Option.bind_some]
    change (readBytes ((payload frame).flatMap _)).map _ = _
    rw [readBytes_dump, Option.map_some]

/-- The dump of a configuration frame, as `can_worker` prints it. -/
theorem dump_read_back_configuration :
    let frame : CanRxFrame := ⟨0, 0, 1, 0, 1, 0xE3601, fun _ => 0x32⟩
    let fw : State := { State.reset with loggingLevel := .debug }
    payload frame = [0x32] ∧ identifier frame = 0xE3601 ∧
      ∃ effects, (logCanRxMessage "SYS_CAN:     " frame fw).trace = fw.trace ++ effects ∧
        readDump (bytesOf "SYS_CAN:     ").length
            (console 25000 0 (Buffer.fresh fun _ => 0) effects) =
          some ⟨(st2ms 25000).toNat, identifier frame, payload frame⟩ := by
  intro frame fw
  refine ⟨by decide, by decide, ?_⟩
  exact dump_read_back 25000 0 (Buffer.fresh fun _ => 0) (by decide) (by decide) rfl

end Firmware
end AnalogX

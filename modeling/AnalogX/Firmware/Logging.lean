import AnalogX.Firmware.State

namespace AnalogX
namespace Firmware

/-!
# The receive dump

`log_CAN_rx_message` prints every received frame at the debug level.  Its loop is
driven by the DLC field of the frame, not by the length of the payload array, and
it does not look at the RTR bit.  The whole dump changes no variable: it is a
single list of effects, which depends only on the frame and the logging level.
-/

open Can Kernel

/-- Reading `data_bytes[index]`: past the eight bytes there is no payload. -/
def dataBytes (frame : CanRxFrame) (index : Nat) : Option UInt8 :=
  if inside : index < 8 then some (frame.data8 ⟨index, inside⟩) else none

/-- The loop of `_log_debug_can_frame`, from `index` on for `count` more bytes. -/
def logDebugBytes (frame : CanRxFrame) : Nat → Nat → State → State
  | _, 0, fw => fw
  | index, count + 1, fw =>
      logDebugBytes frame (index + 1) count
        (fw.logAt .debug [.payloadRead index,
          .log false "%02X " [(dataBytes frame index).map UInt8.toNat]])

/-- `_log_debug_can_frame`, applied to a received frame. -/
def logDebugCanFrame (frame : CanRxFrame) (fw : State) : State :=
  let canId : BitVec 32 := if frame.ide = 1 then frame.eid.setWidth 32 else frame.sid.setWidth 32
  logDebugBytes frame 0 frame.dlc.toNat (fw.logDebugB " ID(%i) " [some canId.toNat])

/-- `log_CAN_rx_message`. -/
def logCanRxMessage (logPfx : String) (frame : CanRxFrame) (fw : State) : State :=
  if fw.loggingLevel.code < LoggingLevel.debug.code then fw
  else
    logDebugCanFrame frame ((fw.logDebug logPfx []).logDebugB "CAN Rx" [])

/-! ## The dump as one list of effects -/

/-- What the loop emits for the bytes `index`, `index + 1`, ... of the payload. -/
def byteDump (frame : CanRxFrame) (index count : Nat) : List Effect :=
  (List.range' index count).flatMap fun byte =>
    [.payloadRead byte, .log false "%02X " [(dataBytes frame byte).map UInt8.toNat]]

theorem logDebugBytes_eq_emit (frame : CanRxFrame) (index count : Nat) (fw : State) :
    logDebugBytes frame index count fw =
      fw.emit (if LoggingLevel.debug.code ≤ fw.loggingLevel.code
        then byteDump frame index count else []) := by
  induction count generalizing index fw with
  | zero =>
      unfold logDebugBytes byteDump
      rw [List.range'_zero, List.flatMap_nil, ite_self, State.emit_nil]
  | succ count inductionHypothesis =>
      rw [logDebugBytes, inductionHypothesis, State.logAt, State.emit_loggingLevel,
        State.emit_emit]
      congr 1
      split
      · rw [byteDump, byteDump, List.range'_succ, List.flatMap_cons]
      · rfl

/-- All effects of dumping a received frame at a logging level. -/
def rxDump (logPfx : String) (frame : CanRxFrame) (level : LoggingLevel) : List Effect :=
  if LoggingLevel.debug.code ≤ level.code then
    [.log true logPfx [], .log false "CAN Rx" [],
      .log false " ID(%i) "
        [some (if frame.ide = 1 then frame.eid.setWidth 32
          else frame.sid.setWidth 32 : BitVec 32).toNat]] ++
      byteDump frame 0 frame.dlc.toNat
  else []

theorem logCanRxMessage_eq_emit (logPfx : String) (frame : CanRxFrame) (fw : State) :
    logCanRxMessage logPfx frame fw = fw.emit (rxDump logPfx frame fw.loggingLevel) := by
  unfold logCanRxMessage rxDump
  by_cases debug : LoggingLevel.debug.code ≤ fw.loggingLevel.code
  · rw [if_neg (Nat.not_lt.mpr debug), if_pos debug, logDebugCanFrame, logDebugBytes_eq_emit]
    simp only [State.logDebugB, State.logDebug, State.logAt, State.emit_loggingLevel,
      State.emit_emit, if_pos debug, List.cons_append, List.nil_append]
  · rw [if_pos (Nat.not_le.mp debug), if_neg debug, State.emit_nil]

@[simp] theorem transmissions_rxDump (logPfx : String) (frame : CanRxFrame)
    (level : LoggingLevel) : transmissions (rxDump logPfx frame level) = [] := by
  unfold rxDump transmissions byteDump
  split
  · simp [List.filterMap_flatMap]
  · rfl

/-- The dump reads exactly the indices below the DLC field. -/
theorem payloadReads_rxDump (logPfx : String) (frame : CanRxFrame) (level : LoggingLevel) :
    payloadReads (rxDump logPfx frame level) =
      if LoggingLevel.debug.code ≤ level.code then List.range frame.dlc.toNat else [] := by
  unfold rxDump payloadReads byteDump
  split
  · simp [List.filterMap_flatMap, List.range_eq_range']
  · rfl

end Firmware
end AnalogX

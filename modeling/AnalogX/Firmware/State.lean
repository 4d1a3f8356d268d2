import AnalogX.Can.Frame
import AnalogX.Kernel.SystemTime

namespace AnalogX
namespace Firmware

/-!
# The firmware's global variables and what it does to the outside

The static variables of `analogx_api.c`, `system_CAN.c` and `logging.c` form one
record, with the values their initialisers give them at reset.  What the code
does beyond writing these variables is recorded as a trace of effects in program
order: bytes read from a received payload, lines printed on the serial port, and
frames handed to `canTransmit`.

A console line is kept as its format string and its arguments.  An argument is
`none` where the C program reads a value it never wrote, such as a byte past the
end of the payload array.  Lines printed by `log_info` and `log_debug` are
preceded by a time stamp; those of the brief variants are not.

The trace records the calls of `canTransmit`.  No caller looks at the result, so a
call which gives up after its timeout goes on like one which found a free mailbox;
which of the frames reach the bus is a matter of the driver in `Hal.CanTransmit`.
-/

open Can Kernel

/-- `enum logging_levels`. -/
inductive LoggingLevel where
  | none
  | info
  | debug
  deriving DecidableEq

namespace LoggingLevel

/-- The numerical value of the C enumerator, by which levels are compared. -/
def code : LoggingLevel → Nat
  | none => 0
  | info => 1
  | debug => 2

end LoggingLevel

/-- The two static driver configurations of `system_CAN.c`. -/
inductive CanConfig where
  | cancfg500K
  | cancfg1MB
  deriving DecidableEq

/-- An observable effect of the firmware. -/
inductive Effect where
  | payloadRead (index : Nat)
  | log (stamped : Bool) (format : String) (arguments : List (Option Nat))
  | canTransmit (frame : CanTxFrame) (timeout : Systime)
  deriving DecidableEq

/-- `ANALOGX_CAN_BASE_ID`. -/
def analogxCanBaseId : UInt32 := 0xE4600

/-- `ANALOGX_CAN_API_RANGE`. -/
def analogxCanApiRange : UInt32 := 256

/-- `DEFAULT_SAMPLE_RATE`. -/
def defaultSampleRate : UInt8 := 50

/-- `CAN_TRANSMIT_TIMEOUT` in milliseconds. -/
def canTransmitTimeout : UInt32 := 100

/-- The global variables, together with the effects so far. -/
structure State where
  canBaseAddress : UInt32
  selectedCanConfig : Option CanConfig
  updateRateHz : UInt8
  provisioned : Bool
  loggingLevel : LoggingLevel
  trace : List Effect
  deriving DecidableEq

namespace State

/-- The static initialisers. -/
def reset : State where
  canBaseAddress := analogxCanBaseId
  selectedCanConfig := none
  updateRateHz := defaultSampleRate
  provisioned := false
  loggingLevel := .info
  trace := []

/-- Append effects to the trace; no variable changes. -/
def emit (fw : State) (effects : List Effect) : State :=
  { fw with trace := fw.trace ++ effects }

@[simp] theorem emit_nil (fw : State) : fw.emit [] = fw := by
  unfold emit
  rw [List.append_nil]

@[simp] theorem emit_emit (fw : State) (first second : List Effect) :
    (fw.emit first).emit second = fw.emit (first ++ second) := by
  unfold emit
  rw [List.append_assoc]

@[simp] theorem emit_canBaseAddress (fw : State) (effects : List Effect) :
    (fw.emit effects).canBaseAddress = fw.canBaseAddress := rfl

@[simp] theorem emit_selectedCanConfig (fw : State) (effects : List Effect) :
    (fw.emit effects).selectedCanConfig = fw.selectedCanConfig := rfl

@[simp] theorem emit_updateRateHz (fw : State) (effects : List Effect) :
    (fw.emit effects).updateRateHz = fw.updateRateHz := rfl

@[simp] theorem emit_provisioned (fw : State) (effects : List Effect) :
    (fw.emit effects).provisioned = fw.provisioned := rfl

@[simp] theorem emit_loggingLevel (fw : State) (effects : List Effect) :
    (fw.emit effects).loggingLevel = fw.loggingLevel := rfl

@[simp] theorem emit_trace (fw : State) (effects : List Effect) :
    (fw.emit effects).trace = fw.trace ++ effects := rfl

/-- The common body of the logging macros: the arguments are evaluated, and the
line printed, only at or above the threshold of the macro. -/
def logAt (fw : State) (threshold : LoggingLevel) (effects : List Effect) : State :=
  fw.emit (if threshold.code ≤ fw.loggingLevel.code then effects else [])

/-- `log_info`. -/
def logInfo (fw : State) (format : String) (arguments : List (Option Nat)) : State :=
  fw.logAt .info [.log true format arguments]

/-- `log_debug`. -/
def logDebug (fw : State) (format : String) (arguments : List (Option Nat)) : State :=
  fw.logAt .debug [.log true format arguments]

/-- `log_debug_b`, without a time stamp. -/
def logDebugB (fw : State) (format : String) (arguments : List (Option Nat)) : State :=
  fw.logAt .debug [.log false format arguments]

/-- A call of `canTransmit` on any mailbox, with the timeout all callers use. -/
def canTransmit (fw : State) (frame : CanTxFrame) : State :=
  fw.emit [.canTransmit frame (ms2st canTransmitTimeout)]

/-- `set_logging_level`: a code above the last enumerator is ignored. -/
def setLoggingLevel (fw : State) (level : Nat) : State :=
  match level with
  | 0 => { fw with loggingLevel := .none }
  | 1 => { fw with loggingLevel := .info }
  | 2 => { fw with loggingLevel := .debug }
  | _ => fw

theorem setLoggingLevel_canBaseAddress (fw : State) (level : Nat) :
    (fw.setLoggingLevel level).canBaseAddress = fw.canBaseAddress := by
  unfold setLoggingLevel
  split <;> rfl

end State

/-! ## Projections of a trace -/

/-- The frames handed to `canTransmit`, in order. -/
def transmissions (trace : List Effect) : List CanTxFrame :=
  trace.filterMap fun effect =>
    match effect with
    | .canTransmit frame _ => some frame
    | _ => none

/-- The payload indices read, in order. -/
def payloadReads (trace : List Effect) : List Nat :=
  trace.filterMap fun effect =>
    match effect with
    | .payloadRead index => some index
    | _ => none

@[simp] theorem transmissions_append (first second : List Effect) :
    transmissions (first ++ second) = transmissions first ++ transmissions second := by
  unfold transmissions
  rw [List.filterMap_append]

@[simp] theorem transmissions_logInfo (fw : State) (format : String)
    (arguments : List (Option Nat)) :
    transmissions (fw.logInfo format arguments).trace = transmissions fw.trace := by
  unfold State.logInfo State.logAt
  rw [State.emit_trace, transmissions_append]
  split <;> exact List.append_nil _

@[simp] theorem transmissions_logDebug (fw : State) (format : String)
    (arguments : List (Option Nat)) :
    transmissions (fw.logDebug format arguments).trace = transmissions fw.trace := by
  unfold State.logDebug State.logAt
  rw [State.emit_trace, transmissions_append]
  split <;> exact List.append_nil _

@[simp] theorem transmissions_canTransmit (fw : State) (frame : CanTxFrame) :
    transmissions (fw.canTransmit frame).trace = transmissions fw.trace ++ [frame] := by
  unfold State.canTransmit
  rw [State.emit_trace, transmissions_append]
  rfl

@[simp] theorem payloadReads_append (first second : List Effect) :
    payloadReads (first ++ second) = payloadReads first ++ payloadReads second := by
  unfold payloadReads
  rw [List.filterMap_append]

end Firmware
end AnalogX

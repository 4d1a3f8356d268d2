import AnalogX.Can.PayloadReads
import AnalogX.Device.Model
import AnalogX.Firmware.Console

namespace AnalogX

/-!
# The lines of a device

Every line of the firmware is a format and some arguments, and nothing in C makes them agree.
Here they are checked: whatever a device receives, samples and prints in a run, at any
logging level, the directives of a line find arguments of their kind, and `chvprintf` comes
to the end of the format.
-/

open Kernel Can Firmware Adc Hal Foundations

namespace Firmware

/-- A line is printed to its end, whatever stands in the words which were read outside of a
payload and in the buffer of the conversions. -/
def Effect.Completes : Effect → Prop
  | .log _ format arguments =>
      ∀ stray tmpbuf, (chvprintf (bytesOf format) (vaList stray arguments) tmpbuf).fault = none
  | _ => True

/-- A line whose arguments suit the directives of its format. -/
theorem completes_log {stamped : Bool} {format : String} {arguments : List (Option Nat)}
    {commands : List Command}
    (reads : commandsOf format.length (bytesOf format) = some commands)
    (suit : ∀ stray, Suit commands (vaList stray arguments)) :
    (Effect.log stamped format arguments).Completes := by
  intro stray tmpbuf
  exact chvprintf_completes reads (suit stray) tmpbuf

/-- All lines so far were printed to their ends. -/
def LinesComplete (fw : State) : Prop :=
  ∀ effect ∈ fw.trace, effect.Completes

namespace LinesComplete

variable {fw : State}

theorem emit (complete : LinesComplete fw) {effects : List Effect}
    (more : ∀ effect ∈ effects, effect.Completes) : LinesComplete (fw.emit effects) := by
  intro effect member
  rcases List.mem_append.mp member with earlier | new
  · exact complete effect earlier
  · exact more effect new

theorem logInfo (complete : LinesComplete fw) {format : String}
    {arguments : List (Option Nat)} (line : (Effect.log true format arguments).Completes) :
    LinesComplete (fw.logInfo format arguments) := by
  apply complete.emit
  split
  · intro effect member
    rwa [List.mem_singleton.mp member]
  · intro effect member
    cases member

theorem logDebug (complete : LinesComplete fw) {format : String}
    {arguments : List (Option Nat)} (line : (Effect.log true format arguments).Completes) :
    LinesComplete (fw.logDebug format arguments) := by
  apply complete.emit
  split
  · intro effect member
    rwa [List.mem_singleton.mp member]
  · intro effect member
    cases member

theorem canTransmit (complete : LinesComplete fw) (frame : CanTxFrame) :
    LinesComplete (fw.canTransmit frame) := by
  apply complete.emit
  intro effect member
  rw [List.mem_singleton.mp member]
  exact trivial

theorem apiSendAnnouncement (complete : LinesComplete fw) :
    LinesComplete (apiSendAnnouncement fw) :=
  (complete.canTransmit _).logInfo (completes_log rfl fun _ => trivial)

theorem broadcastStats (complete : LinesComplete fw) : LinesComplete (broadcastStats fw) :=
  (complete.canTransmit _).logInfo (completes_log rfl fun _ => trivial)

/-- The samples are printed by signed directives, and none of them reaches the sign. -/
theorem broadcastSensors (complete : LinesComplete fw) (rawSamples : Fin 4 → UInt16) :
    LinesComplete (broadcastSensors rawSamples fw) := by
  have reads : commandsOf "Sample ADC %d, %d, %d, %d\r\n".length
      (bytesOf "Sample ADC %d, %d, %d, %d\r\n") = some [.signed, .signed, .signed, .signed] := rfl
  have negatable : ∀ channel, (UInt32.ofNat (scale0To5Volts (rawSamples channel)).toNat).toInt32 ≠
      Int32.minValue := fun channel =>
    negatable_ofNat ((scale0To5Volts (rawSamples channel)).toNat_lt.trans (by decide))
  apply (complete.canTransmit _).logDebug
  apply completes_log reads
  intro stray
  exact ⟨negatable _, negatable _, negatable _, negatable _, trivial⟩

theorem canWorkerStartup (complete : LinesComplete fw) : LinesComplete (canWorkerStartup fw) := by
  have addressed : LinesComplete (fw.logInfo "SYS_CAN:     CAN base address: %u\r\n"
      [some fw.canBaseAddress.toNat]) := complete.logInfo (completes_log rfl fun _ => trivial)
  unfold Can.canWorkerStartup
  apply apiSendAnnouncement
  split
  all_goals exact addressed.logInfo (completes_log rfl fun _ => trivial)

/-- The dump of a frame, whatever its length says. -/
theorem rxDump_completes (frame : CanRxFrame) (level : LoggingLevel) :
    ∀ effect ∈ rxDump "SYS_CAN:     " frame level, effect.Completes := by
  intro effect member
  unfold rxDump at member
  split at member
  · rcases List.mem_append.mp member with header | byte
    · simp only [List.mem_cons, List.not_mem_nil, or_false] at header
      rcases header with rfl | rfl | rfl
      · exact completes_log rfl fun _ => trivial
      · exact completes_log rfl fun _ => trivial
      · have reads : commandsOf " ID(%i) ".length (bytesOf " ID(%i) ") = some [.signed] := rfl
        apply completes_log reads
        intro stray
        rw [toNat_identifier]
        exact ⟨negatable_ofNat (identifier_lt frame), trivial⟩
    · rcases List.mem_flatMap.mp byte with ⟨index, _, printed⟩
      simp only [List.mem_cons, List.not_mem_nil, or_false] at printed
      rcases printed with rfl | rfl
      · exact trivial
      · exact completes_log rfl fun _ => trivial
  · cases member

theorem apiSetConfigGroup1 (complete : LinesComplete fw) (rxMsg : CanRxFrame) :
    LinesComplete (apiSetConfigGroup1 rxMsg fw) := by
  unfold Firmware.apiSetConfigGroup1
  split
  · exact complete.logInfo (completes_log rfl fun _ => trivial)
  · have read : LinesComplete (fw.emit [.payloadRead 0]) := by
      apply complete.emit
      intro effect member
      rw [List.mem_singleton.mp member]
      exact trivial
    exact read

theorem processFrame (complete : LinesComplete fw) (rxMsg : CanRxFrame) :
    LinesComplete (processFrame rxMsg fw) := by
  have dumped : LinesComplete (logCanRxMessage "SYS_CAN:     " rxMsg fw) := by
    rw [logCanRxMessage_eq_emit]
    exact complete.emit (rxDump_completes rxMsg _)
  unfold Firmware.processFrame dispatchCanRx
  split
  · exact dumped.apiSetConfigGroup1 rxMsg
  · exact dumped

end LinesComplete

end Firmware

namespace Device

/-- A step of the receive path. -/
theorem effect_linesComplete (pins : Pins) (path : ReceivePath) (action : ReceiveAction)
    {fw : State} (complete : LinesComplete fw) : LinesComplete (path.effect pins action fw) := by
  cases action with
  | mainStep =>
      rw [ReceivePath.effect]
      split
      · exact complete
      · exact complete.logInfo (completes_log rfl fun _ => trivial)
      · exact complete
  | workerStep =>
      rw [ReceivePath.effect]
      split
      · exact complete.canWorkerStartup
      · rw [canWorkerWake]
        split
        · exact complete.apiSendAnnouncement
        · exact complete
      · exact complete.processFrame _
      · exact complete
  | _ => exact complete

theorem receiveStep_linesComplete {pins : Pins} {device next : Device} {action : ReceiveAction}
    (complete : LinesComplete device.firmware)
    (taken : device.receiveStep pins action = some next) : LinesComplete next.firmware := by
  rcases Option.map_eq_some_iff.mp taken with ⟨receive, _, result⟩
  subst result
  exact effect_linesComplete pins device.receive action complete

theorem adcStep_linesComplete {device next : Device} {action : AdcAction}
    (complete : LinesComplete device.firmware) (taken : device.adcStep action = some next) :
    LinesComplete next.firmware := by
  rcases Option.map_eq_some_iff.mp taken with ⟨sampler, _, result⟩
  subst result
  change LinesComplete (device.sampler.effect action device.firmware)
  unfold Sampler.effect
  split
  · split
    · exact complete.broadcastSensors _
    · exact complete
  · exact complete

theorem step_linesComplete {pins : Pins} {device next : Device} {action : DeviceAction}
    (complete : LinesComplete device.firmware) (taken : device.step pins action = some next) :
    LinesComplete next.firmware := by
  rcases step_cases taken with ⟨part, _, _, moved⟩ | ⟨middle, _, _, moved, _, create⟩ |
    ⟨_, loop, result⟩ | ⟨value, _, moved⟩ | ⟨_, moved⟩ | ⟨ticks, _, result⟩
  · exact receiveStep_linesComplete complete moved
  · exact adcStep_linesComplete (receiveStep_linesComplete complete moved) create
  · rw [result, mainLoop]
    split
    · exact complete.broadcastStats
    · exact complete
  · exact adcStep_linesComplete complete moved
  · exact adcStep_linesComplete complete moved
  · rw [result]
    exact complete

/-- A device at reset, with a logging level set before the threads start. -/
def resetAt (level : LoggingLevel) : Device :=
  { reset with firmware := { State.reset with loggingLevel := level } }

/-- The formats of the firmware and their arguments agree.  In every run of a device, at every
logging level and with any frames on the bus, each line is printed to its end, and so is the
stamp before it at any time: no directive misses its argument or finds one of another kind, no
width and no number overflows, and the format is not read past its terminator. -/
theorem lines_complete (level : LoggingLevel) {pins : Pins} {actions : List DeviceAction}
    {device : Device} (run : runFrom (step pins) (resetAt level) actions = some device)
    {stamped : Bool} {format : String} {arguments : List (Option Nat)}
    (printed : .log stamped format arguments ∈ device.firmware.trace) (stray : UInt32)
    (tmpbuf : Buffer UInt8) :
    (chvprintf (bytesOf format) (vaList stray arguments) tmpbuf).fault = none ∧
      ∀ now, (chvprintf (bytesOf "%i ") [.word (st2ms now)] tmpbuf).fault = none := by
  have initially : LinesComplete (resetAt level).firmware :=
    fun effect member => absurd member List.not_mem_nil
  have complete : LinesComplete device.firmware :=
    runFrom_invariant (fun _ _ _ complete taken => step_linesComplete complete taken) run
      initially
  exact ⟨complete _ printed stray tmpbuf, fun now => stamp_completes now tmpbuf⟩

/-- A device at the debug level receives a frame whose length field says more than eight. -/
def dumpedOverlongFrame : List DeviceAction :=
  List.replicate 5 (.receive .mainStep) ++ List.replicate 4 (.receive .workerStep) ++
    .receive (.frameArrives overlongFrame) :: List.replicate 3 (.receive .workerStep)

/-- The bytes of the dump which are not in the payload are printed as well. -/
theorem lines_complete_overlong :
    ∃ device, runFrom (step ⟨false, false, false⟩) (resetAt .debug) dumpedOverlongFrame =
        some device ∧
      .log false "%02X " [none] ∈ device.firmware.trace ∧
      (chvprintf (bytesOf "%02X ") (vaList 0xFFFFFFFF [none]) ⟨fun _ => 0, 0⟩).fault = none := by
  have reached : ∃ device, runFrom (step ⟨false, false, false⟩) (resetAt .debug)
      dumpedOverlongFrame = some device ∧
      .log false "%02X " [none] ∈ device.firmware.trace := ⟨_, rfl, by decide⟩
  rcases reached with ⟨device, run, printed⟩
  exact ⟨device, run, printed, (lines_complete .debug run printed _ _).1⟩

end Device
end AnalogX

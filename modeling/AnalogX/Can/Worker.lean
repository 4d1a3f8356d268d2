import AnalogX.Firmware.Dispatch
import AnalogX.Foundations.Registers

namespace AnalogX
namespace Can

/-!
# The receiving thread

`can_worker` announces the device once, then waits for receive events with a
timeout of one second.  A timeout repeats the announcement as long as the device
is not provisioned; an event drains the receive FIFO and processes every frame.
A run of the worker is therefore a finite list of wake-ups, each a timeout or an
event with the batch of frames found in the FIFO.

The abstract machine below keeps no variable of the firmware.  It remembers the
frames dispatched so far and counts announcements; rate and provisioning are
read off that history.  The worker refines it wake-up by wake-up, and what a
whole run does follows from what its history contains.
-/

open Kernel Firmware Foundations

/-- `MS2ST(1000)`, the longest wait of the main loop. -/
def waitTicks : Nat := (ms2st 1000).toNat

/-- How one call of `chEvtWaitAnyTimeout` ended.  An event ends the wait early,
after a number of ticks below the timeout. -/
inductive Wakeup where
  | timeout
  | event (waited : Fin waitTicks) (batch : List CanRxFrame)

namespace Wakeup

/-- The frames processed after the wake-up. -/
def batch : Wakeup → List CanRxFrame
  | timeout => []
  | event _ frames => frames

/-- The time spent in the wait, in ticks. -/
def waited : Wakeup → Nat
  | timeout => waitTicks
  | event ticks _ => ticks.val

end Wakeup

/-- The frames dispatched by a run, in order. -/
def dispatchedFrames (wakeups : List Wakeup) : List CanRxFrame :=
  wakeups.flatMap Wakeup.batch

/-! ## The worker -/

/-- `can_worker` up to its first announcement. -/
def canWorkerStartup (fw : State) : State :=
  let fw := fw.logInfo "SYS_CAN:     CAN base address: %u\r\n" [some fw.canBaseAddress.toNat]
  let fw :=
    match fw.selectedCanConfig with
    | some .cancfg500K => fw.logInfo "SYS_CAN:     CAN baud: 500K\r\n" []
    | some .cancfg1MB => fw.logInfo "SYS_CAN:     CAN baud: 1MB\r\n" []
    | none => fw.logInfo "SYS_CAN:     CAN baud: unknown / invalid\r\n" []
  apiSendAnnouncement fw

/-- One iteration of the main loop of `can_worker`. -/
def canWorkerWake (fw : State) : Wakeup → State
  | .timeout => if !apiIsProvisoned fw then apiSendAnnouncement fw else fw
  | .event _ batch => batch.foldl (fun fw rxMsg => processFrame rxMsg fw) fw

/-- The worker of a freshly booted device, after a finite run. -/
def canWorker (pins : Pins) (wakeups : List Wakeup) : State :=
  wakeups.foldl canWorkerWake (canWorkerStartup (boot pins))

theorem canWorker_append (pins : Pins) (first second : List Wakeup) :
    canWorker pins (first ++ second) = second.foldl canWorkerWake (canWorker pins first) := by
  unfold canWorker
  rw [List.foldl_append]

/-! ## The abstract machine -/

/-- What the worker is for: a history of frames and a number of announcements. -/
structure Provisioning where
  dispatched : List CanRxFrame
  announcements : Nat

namespace Provisioning

/-- The rate of a history: the last accepted one wins. -/
def rate (range : AddressRange) (machine : Provisioning) : UInt8 :=
  lastWrite range.writtenRate defaultSampleRate machine.dispatched

/-- Any configuration frame of the range provisions the device, for good. -/
def provisioned (range : AddressRange) (machine : Provisioning) : Bool :=
  machine.dispatched.any fun frame => decide (range.Configures frame)

/-- After start-up: nothing dispatched, one announcement sent. -/
def start : Provisioning where
  dispatched := []
  announcements := 1

/-- One wake-up of the abstract machine. -/
def wake (range : AddressRange) (machine : Provisioning) : Wakeup → Provisioning
  | .timeout =>
      if machine.provisioned range then machine
      else { machine with announcements := machine.announcements + 1 }
  | .event _ batch => { machine with dispatched := machine.dispatched ++ batch }

end Provisioning

/-- The announcement of the device with a given address range. -/
def announcement (range : AddressRange) : CanTxFrame :=
  announcementFrame { State.reset with canBaseAddress := range.base }

/-- The firmware state represents the abstract machine. -/
structure Represents (range : AddressRange) (fw : State) (machine : Provisioning) : Prop where
  canBaseAddress : fw.canBaseAddress = range.base
  updateRateHz : fw.updateRateHz = machine.rate range
  provisioned : fw.provisioned = machine.provisioned range
  transmissions :
    transmissions fw.trace = List.replicate machine.announcements (announcement range)

/-- Sending an announcement adds exactly that frame and changes no variable. -/
theorem apiSendAnnouncement_represents {range : AddressRange} {fw : State}
    {machine : Provisioning} (represents : Represents range fw machine) :
    Represents range (apiSendAnnouncement fw)
      { machine with announcements := machine.announcements + 1 } := by
  have frame : announcementFrame fw = announcement range := by
    unfold announcementFrame announcement getCanBaseId
    rw [represents.canBaseAddress]
    rfl
  constructor
  · exact represents.canBaseAddress
  · exact represents.updateRateHz
  · exact represents.provisioned
  · rw [transmissions_apiSendAnnouncement, frame, represents.transmissions,
      List.replicate_succ']

/-- Processing one frame appends it to the history. -/
theorem processFrame_represents {range : AddressRange} {fw : State} {machine : Provisioning}
    (represents : Represents range fw machine) (frame : CanRxFrame) :
    Represents range (processFrame frame fw)
      { machine with dispatched := machine.dispatched ++ [frame] } := by
  have processed := processFrame_dispatched frame represents.canBaseAddress
  constructor
  · rw [processed.canBaseAddress, represents.canBaseAddress]
  · rw [processed.updateRateHz, represents.updateRateHz, Provisioning.rate, Provisioning.rate,
      lastWrite_append, lastWrite_cons, lastWrite_nil]
  · rw [processed.provisioned, represents.provisioned, Provisioning.provisioned,
      Provisioning.provisioned, List.any_append, List.any_cons, List.any_nil, Bool.or_false]
  · rw [processed.transmissions, represents.transmissions]

theorem processBatch_represents {range : AddressRange} {fw : State} {machine : Provisioning}
    (represents : Represents range fw machine) (batch : List CanRxFrame) :
    Represents range (batch.foldl (fun fw rxMsg => processFrame rxMsg fw) fw)
      { machine with dispatched := machine.dispatched ++ batch } := by
  induction batch generalizing fw machine with
  | nil =>
      rw [List.append_nil]
      exact represents
  | cons frame rest inductionHypothesis =>
      have remaining := inductionHypothesis (processFrame_represents represents frame)
      rw [List.append_assoc, List.singleton_append] at remaining
      exact remaining

/-- The simulation step: one wake-up of the worker is one of the machine. -/
theorem canWorkerWake_represents {range : AddressRange} {fw : State} {machine : Provisioning}
    (represents : Represents range fw machine) (wakeup : Wakeup) :
    Represents range (canWorkerWake fw wakeup) (machine.wake range wakeup) := by
  cases wakeup with
  | timeout =>
      rw [canWorkerWake, Provisioning.wake, apiIsProvisoned, represents.provisioned]
      cases machine.provisioned range
      · exact apiSendAnnouncement_represents represents
      · exact represents
  | event waited batch => exact processBatch_represents represents batch

theorem canWorkerStartup_represents (pins : Pins) :
    Represents pins.range (canWorkerStartup (boot pins)) Provisioning.start := by
  have quiet : Represents pins.range
      ((boot pins).emit [.log true "SYS_CAN:     CAN base address: %u\r\n"
          [some (boot pins).canBaseAddress.toNat],
        .log true (if pins.baud then "SYS_CAN:     CAN baud: 1MB\r\n"
          else "SYS_CAN:     CAN baud: 500K\r\n") []])
      { dispatched := [], announcements := 0 } := ⟨rfl, rfl, rfl, rfl⟩
  have announced := apiSendAnnouncement_represents quiet
  rcases pins with ⟨adr1, adr2, _ | _⟩
  · exact announced
  · exact announced

/-- The worker refines the abstract machine over every run. -/
theorem canWorker_represents (pins : Pins) (wakeups : List Wakeup) :
    Represents pins.range (canWorker pins wakeups)
      (wakeups.foldl (Provisioning.wake pins.range) Provisioning.start) := by
  apply List.foldl_rel (canWorkerStartup_represents pins)
  intro wakeup _ fw machine represents
  exact canWorkerWake_represents represents wakeup

end Can
end AnalogX

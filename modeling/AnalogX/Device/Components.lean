import AnalogX.Device.Invariant

namespace AnalogX
namespace Device

/-!
# The parts of a device keep their laws

The receive path and the sampling subsystem were studied on their own.  Inside a
device they are interleaved with each other, with the main loop and with the
clock.  A run of the device is on each part a run of that part, so that their
laws carry over: frames that arrive to a listener are never stranded, and samples
are fresh if every copy waits for its conversion.
-/

open Kernel Can Firmware Adc Foundations

/-! ## The receive path of a device -/

/-- The step of the receive path in a step of the device. -/
def receiveLabel (_ : Device) : DeviceAction → List ReceiveAction
  | .receive action => [action]
  | _ => []

theorem receiveStep_receive {pins : Pins} {device next : Device} {action : ReceiveAction}
    (taken : device.receiveStep pins action = some next) :
    device.receive.step action = some next.receive := by
  rcases Option.map_eq_some_iff.mp taken with ⟨receive, moved, result⟩
  subst result
  exact moved

theorem adcStep_receive {device next : Device} {action : AdcAction}
    (taken : device.adcStep action = some next) : next.receive = device.receive := by
  rcases Option.map_eq_some_iff.mp taken with ⟨sampler, _, result⟩
  subst result
  rfl

theorem mainLoop_receive (device : Device) : device.mainLoop.receive = device.receive := by
  unfold mainLoop
  dsimp only
  split <;> rfl

/-- What a step of the receive path does to the variables and to the history. -/
theorem receiveStep_effect {pins : Pins} {device next : Device} {action : ReceiveAction}
    (taken : device.receiveStep pins action = some next) :
    next.firmware = device.receive.effect pins action device.firmware ∧
      next.dispatched = device.dispatched ++ dispatching device.receive action := by
  rcases Option.map_eq_some_iff.mp taken with ⟨receive, _, result⟩
  subst result
  exact ⟨rfl, rfl⟩

theorem adcStep_dispatched {device next : Device} {action : AdcAction}
    (taken : device.adcStep action = some next) : next.dispatched = device.dispatched := by
  rcases Option.map_eq_some_iff.mp taken with ⟨sampler, _, result⟩
  subst result
  rfl

theorem mainLoop_dispatched (device : Device) :
    device.mainLoop.dispatched = device.dispatched := by
  unfold mainLoop
  dsimp only
  split <;> rfl

theorem step_receive (pins : Pins) (device : Device) (action : DeviceAction) (next : Device)
    (taken : device.step pins action = some next) :
    runFrom ReceivePath.step device.receive (receiveLabel device action) =
      some next.receive := by
  rcases step_cases taken with ⟨part, label, _, moved⟩ | ⟨middle, label, _, moved, _, create⟩ |
    ⟨label, loop, result⟩ | ⟨value, label, moved⟩ | ⟨label, moved⟩ | ⟨ticks, label, result⟩
  · rw [label, receiveLabel]
    exact runFrom_cons_eq_some.mpr ⟨_, receiveStep_receive moved, rfl⟩
  · rw [label, receiveLabel, adcStep_receive create]
    exact runFrom_cons_eq_some.mpr ⟨_, receiveStep_receive moved, rfl⟩
  · rw [label, receiveLabel, result, mainLoop_receive]
    refine runFrom_cons_eq_some.mpr ⟨device.receive, ?_, rfl⟩
    rw [ReceivePath.step, ReceivePath.mainStep, loop]
  · rw [label, adcStep_receive moved]
    rfl
  · rw [label, adcStep_receive moved]
    rfl
  · rw [label, result]
    rfl

/-! ## Where the dispatched frames come from -/

/-- All frames a device holds or has dispatched satisfy a property. -/
structure AllFrames (property : CanRxFrame → Prop) (device : Device) : Prop where
  stored : ∀ frame ∈ device.receive.fifo, property frame
  current : ∀ frame, device.receive.worker = .processing frame → property frame
  dispatched : ∀ frame ∈ device.dispatched, property frame

theorem mem_storeFrame {fifo : List CanRxFrame} {frame other : CanRxFrame}
    (member : other ∈ ReceivePath.storeFrame fifo frame) : other ∈ fifo ∨ other = frame := by
  unfold ReceivePath.storeFrame at member
  split at member
  · exact (List.mem_append.mp member).imp_right List.mem_singleton.mp
  · exact (List.mem_append.mp member).imp List.mem_of_mem_dropLast List.mem_singleton.mp

theorem storedFrames {property : CanRxFrame → Prop} {fifo : List CanRxFrame}
    {arriving : CanRxFrame} (stored : ∀ frame ∈ fifo, property frame)
    (new : property arriving) :
    ∀ frame ∈ ReceivePath.storeFrame fifo arriving, property frame := by
  intro frame member
  rcases mem_storeFrame member with old | same
  · exact stored frame old
  · rw [same]
    exact new

/-- The broadcast of the handler leaves the frame alone which the worker processes. -/
theorem broadcast_current {property : CanRxFrame → Prop} {path : ReceivePath}
    (current : ∀ frame, path.worker = .processing frame → property frame) :
    ∀ frame, path.broadcastRxfull.worker = .processing frame → property frame := by
  intro frame pc
  rcases path.worker_broadcastRxfull with same | ⟨_, woken⟩
  · exact current frame (same.symm.trans pc)
  · rw [woken] at pc
    cases pc

/-- The receive path passes frames on and makes none of its own. -/
theorem step_frames {property : CanRxFrame → Prop} {path next : ReceivePath}
    {action : ReceiveAction} (stored : ∀ frame ∈ path.fifo, property frame)
    (current : ∀ frame, path.worker = .processing frame → property frame)
    (arriving : ∀ frame, action = .frameArrives frame → property frame)
    (moved : path.step action = some next) :
    (∀ frame ∈ next.fifo, property frame) ∧
      ∀ frame, next.worker = .processing frame → property frame := by
  cases action with
  | mainStep =>
      cases moved
      unfold ReceivePath.mainStep
      split
      case h_5 => exact ⟨stored, fun frame pc => by cases pc⟩
      all_goals exact ⟨stored, current⟩
  | frameArrives frame =>
      have filled := storedFrames stored (arriving frame rfl)
      rcases ReceivePath.frameArrives_cases moved with ⟨_, ⟨_, _, rfl⟩ | ⟨_, rfl⟩⟩
      · exact ⟨filled, current⟩
      · exact ⟨filled, broadcast_current current⟩
  | canInterrupt =>
      rcases ReceivePath.canInterrupt_cases moved with ⟨_, ⟨_, rfl⟩ | ⟨_, rfl⟩⟩
      · exact ⟨stored, current⟩
      · exact ⟨stored, broadcast_current current⟩
  | waitExpires =>
      rcases ReceivePath.waitExpires_cases moved with ⟨_, rfl⟩
      exact ⟨stored, fun frame pc => by cases pc⟩
  | workerStep =>
      rcases ReceivePath.workerStep_cases moved with ⟨_, rfl⟩ | ⟨_, _, rfl⟩ |
        ⟨first, rest, _, filled, rfl⟩ | ⟨target, moves, rfl⟩
      · exact ⟨stored, fun frame pc => by cases pc⟩
      · exact ⟨stored, fun frame pc => by cases pc⟩
      · rw [filled] at stored
        refine ⟨fun frame member => stored frame (List.mem_cons_of_mem first member), ?_⟩
        intro frame pc
        cases pc
        exact stored _ List.mem_cons_self
      · refine ⟨stored, ?_⟩
        intro frame pc
        cases moves <;> cases pc

theorem AllFrames.transfer {property : CanRxFrame → Prop} {device next : Device}
    (holds : device.AllFrames property) (receive : next.receive = device.receive)
    (dispatched : next.dispatched = device.dispatched) : next.AllFrames property := by
  constructor
  · rw [receive]
    exact holds.stored
  · rw [receive]
    exact holds.current
  · rw [dispatched]
    exact holds.dispatched

theorem receiveStep_allFrames {property : CanRxFrame → Prop} {pins : Pins}
    {device next : Device} {action : ReceiveAction} (holds : device.AllFrames property)
    (arriving : ∀ frame, action = .frameArrives frame → property frame)
    (taken : device.receiveStep pins action = some next) : next.AllFrames property := by
  rcases step_frames holds.stored holds.current arriving (receiveStep_receive taken) with
    ⟨stored, current⟩
  refine ⟨stored, current, ?_⟩
  intro frame member
  rw [(receiveStep_effect taken).2] at member
  rcases List.mem_append.mp member with earlier | new
  · exact holds.dispatched frame earlier
  · unfold dispatching at new
    split at new
    · split at new
      · rename_i rxMsg pc
        rw [List.mem_singleton.mp new]
        exact holds.current rxMsg pc
      · exact absurd new List.not_mem_nil
    · exact absurd new List.not_mem_nil

/-- If every frame that arrives satisfies a property, so does every frame that is
ever dispatched. -/
theorem step_allFrames {property : CanRxFrame → Prop} {pins : Pins} {device next : Device}
    {action : DeviceAction} (holds : device.AllFrames property)
    (arriving : ∀ frame, action = .receive (.frameArrives frame) → property frame)
    (taken : device.step pins action = some next) : next.AllFrames property := by
  rcases step_cases taken with ⟨part, label, _, moved⟩ | ⟨middle, _, _, moved, _, create⟩ |
    ⟨_, _, result⟩ | ⟨value, _, moved⟩ | ⟨_, moved⟩ | ⟨ticks, _, result⟩
  · refine receiveStep_allFrames holds ?_ moved
    intro frame arrives
    exact arriving frame (label.trans (congrArg DeviceAction.receive arrives))
  · have middleHolds : middle.AllFrames property :=
      receiveStep_allFrames holds (fun frame arrives => by cases arrives) moved
    exact middleHolds.transfer (adcStep_receive create) (adcStep_dispatched create)
  · rw [result]
    exact holds.transfer (mainLoop_receive device) (mainLoop_dispatched device)
  · exact holds.transfer (adcStep_receive moved) (adcStep_dispatched moved)
  · exact holds.transfer (adcStep_receive moved) (adcStep_dispatched moved)
  · rw [result]
    exact holds.transfer rfl rfl

/-! ## The sampling subsystem of a device -/

/-- The step of the sampling subsystem in a step of the device.  The worker reads
the clock and the rate of the device. -/
def adcLabel (device : Device) : DeviceAction → List AdcAction
  | .receive .mainStep => if device.receive.main = .createAdcWorker then [.create] else []
  | .converter value => [.converterStep value]
  | .adcWorker => [.workerStep device.now (getSampleRate device.firmware)]
  | _ => []

theorem adcStep_sampler {device next : Device} {action : AdcAction}
    (taken : device.adcStep action = some next) :
    device.sampler.step action = some next.sampler := by
  rcases Option.map_eq_some_iff.mp taken with ⟨sampler, moved, result⟩
  subst result
  exact moved

theorem receiveStep_sampler {pins : Pins} {device next : Device} {action : ReceiveAction}
    (taken : device.receiveStep pins action = some next) : next.sampler = device.sampler := by
  rcases Option.map_eq_some_iff.mp taken with ⟨receive, _, result⟩
  subst result
  rfl

theorem mainLoop_sampler (device : Device) : device.mainLoop.sampler = device.sampler := by
  unfold mainLoop
  dsimp only
  split <;> rfl

theorem step_sampler (pins : Pins) (device : Device) (action : DeviceAction) (next : Device)
    (taken : device.step pins action = some next) :
    runFrom Sampler.step device.sampler (adcLabel device action) = some next.sampler := by
  rcases step_cases taken with ⟨part, label, other, moved⟩ |
    ⟨middle, label, creating, moved, _, create⟩ | ⟨label, loop, result⟩ |
    ⟨value, label, moved⟩ | ⟨label, moved⟩ | ⟨ticks, label, result⟩
  · rw [label, receiveStep_sampler moved]
    cases part with
    | mainStep =>
        rw [adcLabel, if_neg (other rfl)]
        rfl
    | _ => rfl
  · rw [label, adcLabel, if_pos creating, ← receiveStep_sampler moved]
    exact runFrom_cons_eq_some.mpr ⟨_, adcStep_sampler create, rfl⟩
  · rw [label, adcLabel, loop, result, mainLoop_sampler]
    rfl
  · rw [label]
    exact runFrom_cons_eq_some.mpr ⟨_, adcStep_sampler moved, rfl⟩
  · rw [label]
    exact runFrom_cons_eq_some.mpr ⟨_, adcStep_sampler moved, rfl⟩
  · rw [label, result]
    rfl

/-- Every cycle of the device begins to copy after its conversion was written. -/
def CopiesAfterConversion (device : Device) (action : DeviceAction) : Prop :=
  action = .adcWorker → device.sampler.BeginsCopy →
    ∀ channel, device.sampler.converter ≠ .converting channel

theorem sampler_fresh {pins : Pins} {actions : List DeviceAction} {device : Device}
    (guarded : Guarded (step pins) CopiesAfterConversion reset actions)
    (run : runFrom (step pins) reset actions = some device) : device.sampler.Fresh := by
  have respected : ∀ (device : Device) action, device.CopiesAfterConversion action →
      Guarded Sampler.step Sampler.CopiesAfterConversion device.sampler
        (adcLabel device action) := by
    intro device action allowed
    unfold adcLabel
    split
    · split
      · refine ⟨?_, fun _ _ => trivial⟩
        intro now sampleRate isWorker
        cases isWorker
      · exact trivial
    · refine ⟨?_, fun _ _ => trivial⟩
      intro now sampleRate isWorker
      cases isWorker
    · refine ⟨?_, fun _ _ => trivial⟩
      intro now sampleRate _
      exact allowed rfl
    · exact trivial
  rcases guarded.project Device.sampler adcLabel (step_sampler pins) respected run with
    ⟨labels, reached, kept⟩
  exact Sampler.fresh_of_guarded kept reached

end Device
end AnalogX

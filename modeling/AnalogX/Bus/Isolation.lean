import AnalogX.Device.Transmissions

namespace AnalogX
namespace Bus

/-!
# Devices on one bus

Any number of devices share a bus, each with its own pins; two of them may have
the same jumper setting.  A frame that some device has transmitted may be
delivered to any device at any later time.  Frames of other nodes arrive as an
ordinary step of the receiving device.

Three laws hold in every reachable state.  A device transmits only in its own
range of identifiers; no transmission of a device configures any device; and a
frame that configures one device does nothing to a device with other jumpers.
All of them rest on the alignment of the ranges and on the offsets of the three
broadcasts, none of which is the offset of a configuration message.
-/

open Kernel Can Firmware Adc Foundations

variable {Node : Type*}

/-- A step of one device, or the delivery of a transmitted frame. -/
inductive BusAction (Node : Type*) where
  | advance (node : Node) (action : DeviceAction)
  | deliver (sender receiver : Node) (frame : CanTxFrame) (fmi : UInt8) (time : UInt16)
      (stale : BitVec 29)

/-- All devices at reset. -/
def reset : Node → Device :=
  fun _ => Device.reset

/-- Every device of the bus keeps its own invariant. -/
def Invariant (pins : Node → Pins) (bus : Node → Device) : Prop :=
  ∀ node, Device.Invariant (pins node) (bus node)

section Steps

variable [DecidableEq Node]

/-- One device takes a step and the others stay as they are. -/
def advance (pins : Node → Pins) (node : Node) (action : DeviceAction) (bus : Node → Device) :
    Option (Node → Device) :=
  ((bus node).step (pins node) action).map (Function.update bus node)

/-- One step of the bus. -/
def step (pins : Node → Pins) (bus : Node → Device) : BusAction Node → Option (Node → Device)
  | .advance node action => advance pins node action bus
  | .deliver sender receiver frame fmi time stale =>
      if frame ∈ transmissions (bus sender).firmware.trace then
        advance pins receiver (.receive (.frameArrives (frame.received fmi time stale))) bus
      else none

/-- A frame that was transmitted by a device of the bus, as a receiver stores it. -/
def Transmitted (bus : Node → Device) (frame : CanRxFrame) : Prop :=
  ∃ sender, ∃ sent ∈ transmissions (bus sender).firmware.trace,
    ∃ fmi time stale, frame = sent.received fmi time stale

/-- Every step of the bus is a step of one device.  A frame that arrives in it was
transmitted by a device, or comes from outside. -/
theorem step_advances {pins : Node → Pins} {bus next : Node → Device} {action : BusAction Node}
    (taken : step pins bus action = some next) :
    ∃ node part device, (bus node).step (pins node) part = some device ∧
      next = Function.update bus node device ∧
      (action = .advance node part ∨
        ∀ frame, part = .receive (.frameArrives frame) → Transmitted bus frame) := by
  cases action with
  | advance node part =>
      rcases Option.map_eq_some_iff.mp taken with ⟨device, moved, result⟩
      exact ⟨node, part, device, moved, result.symm, Or.inl rfl⟩
  | deliver sender receiver frame fmi time stale =>
      rw [step] at taken
      split at taken
      · rename_i sent
        rcases Option.map_eq_some_iff.mp taken with ⟨device, moved, result⟩
        refine ⟨receiver, _, device, moved, result.symm, Or.inr ?_⟩
        intro arriving same
        cases same
        exact ⟨sender, frame, sent, fmi, time, stale, rfl⟩
      · cases taken

/-- A property of single devices which the step taken preserves. -/
theorem update_holds {property : Node → Device → Prop} {bus : Node → Device} {moving : Node}
    {device : Device} (holds : ∀ node, property node (bus node))
    (moved : property moving device) :
    ∀ node, property node (Function.update bus moving device node) := by
  intro node
  by_cases same : node = moving
  · subst same
    rw [Function.update_self]
    exact moved
  · rw [Function.update_of_ne same]
    exact holds node

theorem step_invariant {pins : Node → Pins} {bus next : Node → Device} {action : BusAction Node}
    (holds : Invariant pins bus) (taken : step pins bus action = some next) :
    Invariant pins next := by
  rcases step_advances taken with ⟨moving, part, device, moved, result, _⟩
  rw [result]
  exact update_holds holds (Device.step_invariant (holds moving) moved)

theorem run_invariant {pins : Node → Pins} {actions : List (BusAction Node)}
    {bus : Node → Device} (run : runFrom (step pins) reset actions = some bus) :
    Invariant pins bus :=
  runFrom_invariant (fun _ _ _ holds taken => step_invariant holds taken) run
    fun node => Device.reset_invariant (pins node)

end Steps

/-! ## Frames and ranges -/

/-- An extended data frame within the 256 identifiers of the range. -/
def Own (range : AddressRange) (frame : CanTxFrame) : Prop :=
  frame.ide = 1 ∧ frame.rtr = canRtrData ∧ range.base.toNat ≤ frame.eid.toNat ∧
    frame.eid.toNat < range.base.toNat + 256

theorem own_of_broadcasts {range : AddressRange} {frame : CanTxFrame}
    (broadcast : range.Broadcasts frame) : Own range frame := by
  have stats : apiStatsOffset.toNat = 2 := rfl
  have sensors : apiBroadcastSensorsOffset.toNat = 20 := rfl
  refine ⟨broadcast.extended, broadcast.data, ?_⟩
  rcases broadcast.identifier with identifier | identifier | identifier <;> omega

/-- No broadcast is a configuration frame, of the same range or of another: the
ranges are aligned, and the offsets differ. -/
theorem not_configures_of_broadcasts {range other : AddressRange} {frame : CanTxFrame}
    (broadcast : range.Broadcasts frame) (fmi : UInt8) (time : UInt16) (stale : BitVec 29) :
    ¬ other.Configures (frame.received fmi time stale) := by
  intro configures
  have identifier : (frame.received fmi time stale).eid.toNat = frame.eid.toNat := by
    unfold CanTxFrame.received CanRxFrame.eid
    dsimp only
    rw [if_pos (by rw [broadcast.extended]; decide)]
  have target := configures.2
  rw [identifier] at target
  have stats : apiStatsOffset.toNat = 2 := rfl
  have sensors : apiBroadcastSensorsOffset.toNat = 20 := rfl
  have aligned := range.aligned
  have otherAligned := other.aligned
  rcases broadcast.identifier with offset | offset | offset <;> omega

/-! ## Isolation -/

/-- `system_can_init` has run, so that the device may come to dispatch frames. -/
def Initialised (device : Device) : Prop :=
  device.receive.main ≠ .systemCanInit

/-- What the devices of a bus can do to each other. -/
structure Isolated (pins : Node → Pins) (bus : Node → Device) : Prop where
  /-- A device transmits in its own range only. -/
  own : ∀ node, ∀ frame ∈ transmissions (bus node).firmware.trace,
    Own (pins node).range frame
  /-- No transmission of a device configures a device. -/
  harmless : ∀ sender, ∀ frame ∈ transmissions (bus sender).firmware.trace,
    ∀ receiver fmi time stale, Initialised (bus receiver) →
      let after := (dispatchCanRx (frame.received fmi time stale) (bus receiver).firmware).1
      after.updateRateHz = (bus receiver).firmware.updateRateHz ∧
        after.provisioned = (bus receiver).firmware.provisioned
  /-- A frame that changes one device does nothing to a device with other jumpers. -/
  separate : ∀ (frame : CanRxFrame) changed other,
    Initialised (bus changed) → Initialised (bus other) →
    (pins changed).jumpers ≠ (pins other).jumpers →
    (dispatchCanRx frame (bus changed).firmware).1 ≠ (bus changed).firmware →
      dispatchCanRx frame (bus other).firmware = ((bus other).firmware, false)

/-- For any population of devices with any jumper settings, and any interleaving of
their steps, their transmissions and the deliveries of frames, the devices are
isolated from each other. -/
theorem bus_isolated [DecidableEq Node] (pins : Node → Pins) {actions : List (BusAction Node)}
    {bus : Node → Device} (run : runFrom (step pins) reset actions = some bus) :
    Isolated pins bus := by
  have holds := run_invariant run
  constructor
  · intro node frame member
    exact own_of_broadcasts ((holds node).transmitted frame member)
  · intro sender frame member receiver fmi time stale initialised
    have broadcast := (holds sender).transmitted frame member
    have address := ((holds receiver).configured initialised).canBaseAddress
    rw [dispatchCanRx_of_not_configures address
      (not_configures_of_broadcasts broadcast fmi time stale)]
    exact ⟨rfl, rfl⟩
  · intro frame changed other changedInitialised otherInitialised jumpers changes
    have changedAddress := ((holds changed).configured changedInitialised).canBaseAddress
    have otherAddress := ((holds other).configured otherInitialised).canBaseAddress
    apply dispatchCanRx_of_not_configures otherAddress
    intro otherConfigures
    have configures : (pins changed).range.Configures frame := by
      by_contra unrelated
      rw [dispatchCanRx_of_not_configures changedAddress unrelated] at changes
      exact changes rfl
    exact jumpers (jumpers_eq_of_base_eq
      (AddressRange.base_eq_of_configures configures otherConfigures))

/-- Two devices with different jumpers; the first one boots, announces itself, and
its announcement is delivered to the second, which has been initialised. -/
def deliveredAnnouncement : List (BusAction Bool) :=
  [.advance true (.receive .mainStep)] ++
    List.replicate 5 (.advance false (.receive .mainStep)) ++
    List.replicate 3 (.advance false (.receive .workerStep)) ++
    [.deliver false true (announcement (Pins.mk false false false).range) 0 0 0]

/-- The laws at the state after that delivery. -/
theorem deliveredAnnouncement_isolated :
    ∃ bus, runFrom (step fun node => ⟨node, false, false⟩) reset deliveredAnnouncement =
        some bus ∧
      (bus true).receive.fifo.length = 1 ∧
      Isolated (fun node => ⟨node, false, false⟩) bus := by
  have reached : ∃ bus, runFrom (step fun node => ⟨node, false, false⟩) reset
      deliveredAnnouncement = some bus ∧ (bus true).receive.fifo.length = 1 := ⟨_, rfl, rfl⟩
  rcases reached with ⟨bus, run, stored⟩
  exact ⟨bus, run, stored, bus_isolated _ run⟩

/-! ## A bus of devices only -/

/-- Frames reach a device only as deliveries of what a device has transmitted. -/
def ClosedBus (_ : Node → Device) (action : BusAction Node) : Prop :=
  ∀ node frame, action ≠ .advance node (.receive (.frameArrives frame))

/-- No device of the bus holds or has dispatched a configuration for itself. -/
def Unconfigured (pins : Node → Pins) (bus : Node → Device) : Prop :=
  ∀ node, (bus node).AllFrames fun frame => ¬ (pins node).range.Configures frame

theorem step_unconfigured [DecidableEq Node] {pins : Node → Pins} {bus next : Node → Device}
    {action : BusAction Node} (holds : Invariant pins bus)
    (unconfigured : Unconfigured pins bus) (closed : ClosedBus bus action)
    (taken : step pins bus action = some next) : Unconfigured pins next := by
  rcases step_advances taken with ⟨moving, part, device, moved, result, origin⟩
  rw [result]
  apply update_holds unconfigured
  apply Device.step_allFrames (unconfigured moving) ?_ moved
  intro frame arrives
  rcases origin with outside | transmitted
  · rw [arrives] at outside
    exact absurd outside (closed moving frame)
  · rcases transmitted frame arrives with ⟨sender, sent, member, fmi, time, stale, same⟩
    rw [same]
    exact not_configures_of_broadcasts ((holds sender).transmitted sent member) fmi time stale

/-- Left to themselves the devices never configure each other: whatever they send
and in whatever order it is delivered, all of them keep the default rate and stay
unprovisioned. -/
theorem closedBus_unprovisioned [DecidableEq Node] {pins : Node → Pins}
    {actions : List (BusAction Node)} {bus : Node → Device}
    (closed : Guarded (step pins) ClosedBus reset actions)
    (run : runFrom (step pins) reset actions = some bus) (node : Node) :
    (bus node).firmware.updateRateHz = defaultSampleRate ∧
      (bus node).firmware.provisioned = false := by
  have preserved : ∀ bus action next,
      Invariant pins bus ∧ Unconfigured pins bus → ClosedBus bus action →
        step pins bus action = some next → Invariant pins next ∧ Unconfigured pins next := by
    intro bus action next holds allowed taken
    exact ⟨step_invariant holds.1 taken, step_unconfigured holds.1 holds.2 allowed taken⟩
  have initial : Unconfigured pins reset := by
    intro node
    constructor <;> simp [reset, Device.reset, ReceivePath.reset]
  rcases closed.invariant preserved run
    ⟨fun node => Device.reset_invariant (pins node), initial⟩ with ⟨holds, unconfigured⟩
  have dispatched := (unconfigured node).dispatched
  rw [(holds node).updateRateHz, (holds node).provisioned]
  constructor
  · rcases lastWrite_cases (pins node).range.writtenRate defaultSampleRate
      (bus node).dispatched with ⟨_, kept⟩ | ⟨frame, member, written⟩
    · exact kept
    · have accepted := (AddressRange.writtenRate_eq_some.mp written).1
      exact absurd accepted.1 (dispatched frame member)
  · rw [List.any_eq_false]
    intro frame member
    rw [decide_eq_true_eq]
    exact dispatched frame member

/-- Both devices after the delivery of an announcement. -/
theorem closedBus_unprovisioned_delivered :
    ∃ bus, runFrom (step fun node => ⟨node, false, false⟩) reset deliveredAnnouncement =
        some bus ∧
      ∀ node, (bus node).firmware.updateRateHz = defaultSampleRate ∧
        (bus node).firmware.provisioned = false := by
  have closed : Guarded (step fun node => ⟨node, false, false⟩) ClosedBus reset
      deliveredAnnouncement := by
    apply Guarded.of_forall
    intro action member _ node frame arrives
    rw [arrives] at member
    simp [deliveredAnnouncement] at member
  exact ⟨_, rfl, closedBus_unprovisioned closed rfl⟩

end Bus
end AnalogX

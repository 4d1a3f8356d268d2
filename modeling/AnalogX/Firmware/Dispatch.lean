import AnalogX.Firmware.Api
import AnalogX.Firmware.Logging

namespace AnalogX
namespace Firmware

/-!
# Address selection and dispatch of received frames

Two jumpers select one of four base addresses, 256 identifiers apart.  A received
frame is a configuration message if its identifier, as an unsigned 32-bit value,
exceeds the base address by `API_SET_CONFIG_GROUP_1`.

The identifier is stored in a signed variable and the subtraction wraps, so the
test is first brought to a statement about identifiers: within an address range
that lies above every standard identifier and below the limit of the extended
ones, exactly one identifier passes, and only as an extended frame.  Every law of
the receive path is then stated for that condition.
-/

open Can Kernel

/-! ## Address ranges -/

/-- The levels of the three configuration pins, `true` for `PAL_HIGH`. -/
structure Pins where
  adr1 : Bool
  adr2 : Bool
  baud : Bool
  deriving DecidableEq

namespace Pins

/-- The offset which `init_can_operating_parameters` builds from the jumpers. -/
def offset (pins : Pins) : UInt32 :=
  (if pins.adr1 then 0x01 else 0x00) ||| (if pins.adr2 then 0x02 else 0x00)

/-- The setting of the two address jumpers. -/
def jumpers (pins : Pins) : Bool × Bool :=
  (pins.adr1, pins.adr2)

end Pins

/-- `_select_can_configuration`. -/
def selectCanConfiguration (pins : Pins) : CanConfig :=
  if pins.baud then .cancfg1MB else .cancfg500K

/-- `init_can_operating_parameters`.  The base address is advanced in place. -/
def initCanOperatingParameters (pins : Pins) (fw : State) : State :=
  { fw with
    canBaseAddress := fw.canBaseAddress + analogxCanApiRange * pins.offset
    selectedCanConfig := some (selectCanConfiguration pins) }

/-- The variables after `system_can_init` has run once on the reset values; the
register writes of `init_can_gpio` touch none of them. -/
def boot (pins : Pins) : State :=
  initCanOperatingParameters pins State.reset

/-- The 256 identifiers of one device.  The proof fields keep the range aligned,
above every standard identifier and within the extended ones. -/
structure AddressRange where
  base : UInt32
  aligned : base.toNat % 256 = 0
  aboveStandard : 2 ^ 11 ≤ base.toNat
  withinExtended : base.toNat + 256 ≤ 2 ^ 29

/-- The selected base address: the jumpers count in units of 256 identifiers. -/
theorem toNat_selectedBase (pins : Pins) :
    (analogxCanBaseId + analogxCanApiRange * pins.offset).toNat =
      0xE4600 + 256 * (pins.adr1.toNat + 2 * pins.adr2.toNat) := by
  rcases pins with ⟨_ | _, _ | _, _ | _⟩ <;> decide

/-- The range selected by the jumpers. -/
def Pins.range (pins : Pins) : AddressRange where
  base := analogxCanBaseId + analogxCanApiRange * pins.offset
  aligned := by
    rw [toNat_selectedBase]
    omega
  aboveStandard := by
    rw [toNat_selectedBase]
    omega
  withinExtended := by
    have first := pins.adr1.toNat_le
    have second := pins.adr2.toNat_le
    rw [toNat_selectedBase]
    omega

/-- Different jumper settings select different base addresses. -/
theorem jumpers_eq_of_base_eq {first second : Pins}
    (same : first.range.base = second.range.base) : first.jumpers = second.jumpers := by
  have values := congrArg UInt32.toNat same
  simp only [Pins.range, toNat_selectedBase] at values
  rcases first with ⟨_ | _, _ | _, _⟩ <;> rcases second with ⟨_ | _, _ | _, _⟩ <;>
    simp [Pins.jumpers] at values ⊢

namespace AddressRange

/-- An extended frame with the configuration identifier of the range. -/
def Configures (range : AddressRange) (frame : CanRxFrame) : Prop :=
  frame.ide = 1 ∧ frame.eid.toNat = range.base.toNat + 3

instance (range : AddressRange) (frame : CanRxFrame) : Decidable (range.Configures frame) :=
  inferInstanceAs (Decidable (_ ∧ _))

/-- A configuration frame which carries the byte the handler stores. -/
def Accepts (range : AddressRange) (frame : CanRxFrame) : Prop :=
  range.Configures frame ∧ 1 ≤ frame.dlc.toNat

instance (range : AddressRange) (frame : CanRxFrame) : Decidable (range.Accepts frame) :=
  inferInstanceAs (Decidable (_ ∧ _))

/-- A configuration frame which the handler turns down as invalid. -/
def Rejects (range : AddressRange) (frame : CanRxFrame) : Prop :=
  range.Configures frame ∧ frame.dlc.toNat < 1

instance (range : AddressRange) (frame : CanRxFrame) : Decidable (range.Rejects frame) :=
  inferInstanceAs (Decidable (_ ∧ _))

/-- The rate a frame writes, if it writes one. -/
def writtenRate (range : AddressRange) (frame : CanRxFrame) : Option UInt8 :=
  if range.Accepts frame then some frame.firstByte else none

theorem writtenRate_eq_some {range : AddressRange} {frame : CanRxFrame} {rate : UInt8} :
    range.writtenRate frame = some rate ↔ range.Accepts frame ∧ frame.firstByte = rate := by
  unfold writtenRate
  rw [Option.ite_none_right_eq_some, Option.some.injEq]

theorem Rejects.not_accepts {range : AddressRange} {frame : CanRxFrame}
    (rejected : range.Rejects frame) : ¬ range.Accepts frame := by
  intro accepted
  exact Nat.not_lt.mpr accepted.2 rejected.2

theorem configures_iff (range : AddressRange) (frame : CanRxFrame) :
    range.Configures frame ↔ range.Accepts frame ∨ range.Rejects frame := by
  unfold Accepts Rejects
  rw [← and_or_left, and_iff_left (Nat.lt_or_ge _ 1).symm]

/-- A configuration identifier belongs to one range only. -/
theorem base_eq_of_configures {first second : AddressRange} {frame : CanRxFrame}
    (left : first.Configures frame) (right : second.Configures frame) :
    first.base = second.base := by
  apply UInt32.toNat_inj.mp
  have leftId := left.2
  have rightId := right.2
  omega

end AddressRange

/-! ## The dispatcher -/

/-- The `can_id` of `dispatch_can_rx`, a signed variable that is assigned one of
the two unsigned identifier fields. -/
def dispatchCanId (rxMsg : CanRxFrame) : Int32 :=
  if rxMsg.ide = 1 then Int32.ofBitVec (rxMsg.eid.setWidth 32)
  else Int32.ofBitVec (rxMsg.sid.setWidth 32)

/-- `dispatch_can_rx`.  Subtracting the unsigned base address converts the signed
identifier to unsigned, so the selector of the switch wraps below the base. -/
def dispatchCanRx (rxMsg : CanRxFrame) (fw : State) : State × Bool :=
  if (dispatchCanId rxMsg).toUInt32 - fw.canBaseAddress = apiSetConfigGroup1Offset then
    let fw := apiSetConfigGroup1 rxMsg fw
    let gotConfigMessage := true
    (if gotConfigMessage then setApiIsProvisioned gotConfigMessage fw else fw, true)
  else
    (fw, false)

/-- One iteration of the inner loop of `can_worker`, after `canReceive` returned
a frame. -/
def processFrame (rxMsg : CanRxFrame) (fw : State) : State :=
  (dispatchCanRx rxMsg (logCanRxMessage "SYS_CAN:     " rxMsg fw)).1

/-- The unsigned value of the identifier, without the signed detour. -/
theorem toNat_dispatchCanId (rxMsg : CanRxFrame) :
    (dispatchCanId rxMsg).toUInt32.toNat =
      if rxMsg.ide = 1 then rxMsg.eid.toNat else rxMsg.sid.toNat := by
  unfold dispatchCanId
  split
  · change (rxMsg.eid.setWidth 32).toNat = rxMsg.eid.toNat
    exact BitVec.toNat_setWidth_of_le (by decide)
  · change (rxMsg.sid.setWidth 32).toNat = rxMsg.sid.toNat
    exact BitVec.toNat_setWidth_of_le (by decide)

/-- The switch selects the configuration case exactly for the configuration
frames of the range.  A standard identifier is too small, and an identifier below
the base wraps to a selector that is too large. -/
theorem selector_eq_iff (range : AddressRange) (rxMsg : CanRxFrame) :
    (dispatchCanId rxMsg).toUInt32 - range.base = apiSetConfigGroup1Offset ↔
      range.Configures rxMsg := by
  have identifier := toNat_dispatchCanId rxMsg
  have above := range.aboveStandard
  have within := range.withinExtended
  have standardBound : rxMsg.sid.toNat < 2 ^ 11 := rxMsg.sid.isLt
  have extendedBound : rxMsg.eid.toNat < 2 ^ 29 := rxMsg.eid.isLt
  rw [← UInt32.toNat_inj, UInt32.toNat_sub, apiSetConfigGroup1Offset, AddressRange.Configures]
  simp only [UInt32.reduceToNat]
  by_cases extended : rxMsg.ide = 1
  · rw [if_pos extended] at identifier
    rw [identifier, and_iff_right extended]
    omega
  · rw [if_neg extended] at identifier
    rw [identifier]
    constructor
    · intro selected
      omega
    · intro configures
      exact absurd configures.1 extended

/-! ## What the receive path does to the variables -/

/-- A frame which is not a configuration frame of the range is not dispatched. -/
theorem dispatchCanRx_of_not_configures {range : AddressRange} {rxMsg : CanRxFrame} {fw : State}
    (address : fw.canBaseAddress = range.base) (other : ¬ range.Configures rxMsg) :
    dispatchCanRx rxMsg fw = (fw, false) := by
  unfold dispatchCanRx
  rw [address, if_neg (mt (selector_eq_iff range rxMsg).mp other)]

/-- An accepted configuration frame stores its first byte. -/
theorem dispatchCanRx_of_accepts {range : AddressRange} {rxMsg : CanRxFrame} {fw : State}
    (address : fw.canBaseAddress = range.base) (accepted : range.Accepts rxMsg) :
    dispatchCanRx rxMsg fw =
      ({ fw.emit [.payloadRead 0] with
          updateRateHz := rxMsg.firstByte, provisioned := true }, true) := by
  have length : ¬ rxMsg.dlc < 1 := Nat.not_lt.mpr accepted.2
  unfold dispatchCanRx apiSetConfigGroup1
  rw [address, if_pos ((selector_eq_iff range rxMsg).mpr accepted.1), if_neg length]
  rfl

/-- A rejected configuration frame leaves the rate alone, but the caller marks
the device as provisioned all the same. -/
theorem dispatchCanRx_of_rejects {range : AddressRange} {rxMsg : CanRxFrame} {fw : State}
    (address : fw.canBaseAddress = range.base) (rejected : range.Rejects rxMsg) :
    dispatchCanRx rxMsg fw =
      ({ fw.logInfo "API:         Invalid params for set config group 1\r\n" [] with
          provisioned := true }, true) := by
  have length : rxMsg.dlc < 1 := rejected.2
  unfold dispatchCanRx apiSetConfigGroup1
  rw [address, if_pos ((selector_eq_iff range rxMsg).mpr rejected.1), if_pos length]
  rfl

/-- The three cases of the dispatcher, on the variables of a device.  The rate is
a register written by accepted frames; the flag is a latch set by every
configuration frame; nothing else changes and nothing is transmitted. -/
structure Dispatched (range : AddressRange) (rxMsg : CanRxFrame) (before after : State) :
    Prop where
  canBaseAddress : after.canBaseAddress = before.canBaseAddress
  updateRateHz : after.updateRateHz = (range.writtenRate rxMsg).getD before.updateRateHz
  provisioned : after.provisioned = (before.provisioned || decide (range.Configures rxMsg))
  loggingLevel : after.loggingLevel = before.loggingLevel
  selectedCanConfig : after.selectedCanConfig = before.selectedCanConfig
  transmissions : transmissions after.trace = transmissions before.trace

theorem dispatchCanRx_dispatched {range : AddressRange} (rxMsg : CanRxFrame) {fw : State}
    (address : fw.canBaseAddress = range.base) :
    Dispatched range rxMsg fw (dispatchCanRx rxMsg fw).1 := by
  by_cases configures : range.Configures rxMsg
  · rcases (range.configures_iff rxMsg).mp configures with accepted | rejected
    · rw [dispatchCanRx_of_accepts address accepted]
      constructor <;> simp [AddressRange.writtenRate, accepted, configures, Firmware.transmissions]
    · have notAccepted := rejected.not_accepts
      rw [dispatchCanRx_of_rejects address rejected]
      constructor <;> simp [AddressRange.writtenRate, notAccepted, configures,
        Firmware.transmissions, State.logInfo, State.logAt]
  · have notAccepted : ¬ range.Accepts rxMsg := fun accepted => configures accepted.1
    rw [dispatchCanRx_of_not_configures address configures]
    constructor <;> simp [AddressRange.writtenRate, notAccepted, configures]

/-- Processing a frame, dump included, has the laws of its dispatch. -/
theorem processFrame_dispatched {range : AddressRange} (rxMsg : CanRxFrame) {fw : State}
    (address : fw.canBaseAddress = range.base) :
    Dispatched range rxMsg fw (processFrame rxMsg fw) := by
  have dumpAddress : (fw.emit (rxDump "SYS_CAN:     " rxMsg fw.loggingLevel)).canBaseAddress =
      range.base := address
  have dispatched := dispatchCanRx_dispatched rxMsg dumpAddress
  unfold processFrame
  rw [logCanRxMessage_eq_emit]
  constructor
  · exact dispatched.canBaseAddress
  · exact dispatched.updateRateHz
  · exact dispatched.provisioned
  · exact dispatched.loggingLevel
  · exact dispatched.selectedCanConfig
  · rw [dispatched.transmissions, State.emit_trace, transmissions_append, transmissions_rxDump,
      List.append_nil]

end Firmware
end AnalogX

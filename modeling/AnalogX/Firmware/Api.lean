import AnalogX.Firmware.State
import Mathlib.Data.Fin.VecNotation

namespace AnalogX
namespace Firmware

/-!
# The application interface of one device

This module embeds `analogx_api.c` and the stats broadcast of `system.c`: the
configuration variables with their accessors, the handler of the configuration
message, and the two periodic frames which describe the device.
-/

open Can Kernel

/-- `API_SET_CONFIG_GROUP_1`. -/
def apiSetConfigGroup1Offset : UInt32 := 3

/-- `API_STATS`. -/
def apiStatsOffset : UInt32 := 2

/-- `API_BROADCAST_SENSORS`. -/
def apiBroadcastSensorsOffset : UInt32 := 20

/-- `SETTINGS_CHANNEL_COUNT`. -/
def settingsChannelCount : UInt8 := 9

/-- `MAJOR_VER`. -/
def majorVer : UInt8 := 1

/-- `MINOR_VER`. -/
def minorVer : UInt8 := 0

/-- `PATCH_VER`. -/
def patchVer : UInt8 := 1

/-- A frame variable on the stack before anything is written to it.  By
`prepareCanTxMessage_ext` none of it reaches the bus. -/
def uninitialisedFrame : CanTxFrame where
  dlc := 0
  rtr := 0
  ide := 0
  ident := 0
  data8 := fun _ => 0

/-- `get_can_base_id`. -/
def getCanBaseId (fw : State) : UInt32 :=
  fw.canBaseAddress

/-! ## Configuration and provisioning -/

/-- `get_sample_rate`. -/
def getSampleRate (fw : State) : UInt8 :=
  fw.updateRateHz

/-- `set_sample_rate`. -/
def setSampleRate (sampleRate : UInt8) (fw : State) : State :=
  { fw with updateRateHz := sampleRate }

/-- `api_is_provisoned`, spelled as in the source. -/
def apiIsProvisoned (fw : State) : Bool :=
  fw.provisioned

/-- `set_api_is_provisioned`. -/
def setApiIsProvisioned (provisioned : Bool) (fw : State) : State :=
  { fw with provisioned := provisioned }

/-- `api_set_config_group_1`.  The handler reports a rejection only on the
console; its caller learns nothing of it. -/
def apiSetConfigGroup1 (rxMsg : CanRxFrame) (fw : State) : State :=
  if rxMsg.dlc < 1 then
    fw.logInfo "API:         Invalid params for set config group 1\r\n" []
  else
    setSampleRate rxMsg.firstByte (fw.emit [.payloadRead 0])

/-! ## Broadcasts -/

/-- The frame built by `api_send_announcement`. -/
def announcementFrame (fw : State) : CanTxFrame :=
  { prepareCanTxMessage uninitialisedFrame canIdeExt (getCanBaseId fw) with
    data8 := ![settingsChannelCount, 0x55, 0x55, 0x55, 0x55, majorVer, minorVer, patchVer]
    dlc := 8 }

/-- `api_send_announcement`. -/
def apiSendAnnouncement (fw : State) : State :=
  (fw.canTransmit (announcementFrame fw)).logInfo "API:         Broadcast announcement\r\n" []

@[simp] theorem transmissions_apiSendAnnouncement (fw : State) :
    transmissions (apiSendAnnouncement fw).trace =
      transmissions fw.trace ++ [announcementFrame fw] := by
  unfold apiSendAnnouncement
  rw [transmissions_logInfo, transmissions_canTransmit]

/-- The frame built by `broadcast_stats`; bytes 1 to 4 keep the filler. -/
def statsFrame (fw : State) : CanTxFrame :=
  { prepareCanTxMessage uninitialisedFrame canIdeExt (getCanBaseId fw + apiStatsOffset) with
    data8 := ![getSampleRate fw, 0x55, 0x55, 0x55, 0x55, majorVer, minorVer, patchVer]
    dlc := 8 }

/-- `broadcast_stats`. -/
def broadcastStats (fw : State) : State :=
  (fw.canTransmit (statsFrame fw)).logInfo "SYS:         Broadcast stats\r\n" []

@[simp] theorem transmissions_broadcastStats (fw : State) :
    transmissions (broadcastStats fw).trace = transmissions fw.trace ++ [statsFrame fw] := by
  unfold broadcastStats
  rw [transmissions_logInfo, transmissions_canTransmit]

end Firmware
end AnalogX

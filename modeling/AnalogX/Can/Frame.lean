import Mathlib.Data.UInt
import Mathlib.Data.Fintype.Pi
import Mathlib.Tactic.FinCases
import Mathlib.Tactic.IntervalCases

namespace AnalogX
namespace Can

/-!
# CAN frames as the STM32 driver stores them

The bit-fields of `CANTxFrame` and `CANRxFrame` keep their widths: four bits of
DLC, so that a received DLC may be any of `0..15`, and one bit each for RTR and
IDE.  The standard and the extended identifier share one union: `SID` is the low
eleven bits of the storage whose low twenty-nine bits are `EID`.  Writing one of
them therefore changes what the other one reads, and receiving a standard frame
leaves the upper bits of the previous identifier in place.

The payload is the eight-byte array `data8`; its 16-bit and 32-bit views are
little-endian, as on the target.
-/

/-- `CAN_IDE_EXT`. -/
def canIdeExt : UInt8 := 1

/-- `CAN_RTR_DATA`. -/
def canRtrData : BitVec 1 := 0

/-- `CANTxFrame`. -/
structure CanTxFrame where
  dlc : BitVec 4
  rtr : BitVec 1
  ide : BitVec 1
  ident : BitVec 29
  data8 : Fin 8 → UInt8
  deriving DecidableEq

/-- `CANRxFrame`. -/
structure CanRxFrame where
  fmi : UInt8
  time : UInt16
  dlc : BitVec 4
  rtr : BitVec 1
  ide : BitVec 1
  ident : BitVec 29
  data8 : Fin 8 → UInt8
  deriving DecidableEq

namespace CanTxFrame

/-- The `EID` member of the identifier union. -/
def eid (frame : CanTxFrame) : BitVec 29 :=
  frame.ident

/-- The `SID` member of the identifier union. -/
def sid (frame : CanTxFrame) : BitVec 11 :=
  frame.ident.setWidth 11

end CanTxFrame

namespace CanRxFrame

/-- The `EID` member of the identifier union. -/
def eid (frame : CanRxFrame) : BitVec 29 :=
  frame.ident

/-- The `SID` member of the identifier union. -/
def sid (frame : CanRxFrame) : BitVec 11 :=
  frame.ident.setWidth 11

/-- `data8[0]`, the one byte a configuration message carries. -/
def firstByte (frame : CanRxFrame) : UInt8 :=
  frame.data8 0

end CanRxFrame

/-- Store a standard identifier in the union, keeping the bits above it. -/
def storeSid (ident : BitVec 29) (sid : BitVec 11) : BitVec 29 :=
  ident.extractLsb' 11 18 ++ sid

/-- Write the little-endian 16-bit word `data16[index]`. -/
def storeData16 (data8 : Fin 8 → UInt8) (index : Fin 4) (word : UInt16) : Fin 8 → UInt8 :=
  fun byte =>
    if byte.val = 2 * index.val then word.toUInt8
    else if byte.val = 2 * index.val + 1 then (word >>> 8).toUInt8
    else data8 byte

/-- Read the little-endian 16-bit word `data16[index]`. -/
def loadData16 (data8 : Fin 8 → UInt8) (index : Fin 4) : UInt16 :=
  UInt16.ofNat ((data8 ⟨2 * index.val, by omega⟩).toNat +
    256 * (data8 ⟨2 * index.val + 1, by omega⟩).toNat)

/-- Reading back the word that was just written. -/
theorem loadData16_storeData16 (data8 : Fin 8 → UInt8) (index : Fin 4) (word : UInt16) :
    loadData16 (storeData16 data8 index word) index = word := by
  have low : storeData16 data8 index word ⟨2 * index.val, by omega⟩ = word.toUInt8 := by
    unfold storeData16
    rw [if_pos rfl]
  have high : storeData16 data8 index word ⟨2 * index.val + 1, by omega⟩ =
      (word >>> 8).toUInt8 := by
    unfold storeData16
    rw [if_neg (Nat.succ_ne_self _), if_pos rfl]
  have bound := word.toNat_lt
  unfold loadData16
  rw [low, high]
  apply UInt16.toNat_inj.mp
  rw [UInt16.toNat_ofNat', UInt16.toNat_toUInt8, UInt16.toNat_toUInt8, UInt16.toNat_shiftRight]
  change (word.toNat % 2 ^ 8 + 256 * (word.toNat >>> 8 % 2 ^ 8)) % 2 ^ 16 = word.toNat
  rw [Nat.shiftRight_eq_div_pow]
  omega

/-- Writing one word leaves the other three alone. -/
theorem loadData16_storeData16_of_ne (data8 : Fin 8 → UInt8) {index other : Fin 4}
    (word : UInt16) (different : other ≠ index) :
    loadData16 (storeData16 data8 index word) other = loadData16 data8 other := by
  have apart : other.val ≠ index.val := Fin.val_ne_of_ne different
  have kept : ∀ byte : Fin 8, byte.val / 2 = other.val →
      storeData16 data8 index word byte = data8 byte := by
    intro byte inside
    unfold storeData16
    rw [if_neg (by omega), if_neg (by omega)]
  unfold loadData16
  rw [kept _ (by dsimp only; omega), kept _ (by dsimp only; omega)]

/-- The word that a byte belongs to. -/
def wordOf (byte : Fin 8) : Fin 4 :=
  ⟨byte.val / 2, by omega⟩

/-- Four words fill the payload: each byte is a half of the word it belongs to. -/
theorem storeData16_all (data8 : Fin 8 → UInt8) (words : Fin 4 → UInt16) (byte : Fin 8) :
    storeData16 (storeData16 (storeData16 (storeData16 data8 0 (words 0)) 1 (words 1))
        2 (words 2)) 3 (words 3) byte =
      if byte.val % 2 = 0 then (words (wordOf byte)).toUInt8
      else (words (wordOf byte) >>> 8).toUInt8 := by
  fin_cases byte <;> rfl

/-- `prepare_can_tx_message`: the frame variable of the caller is overwritten in
place, with `0x55` in every payload byte. -/
def prepareCanTxMessage (txFrame : CanTxFrame) (canIdType : UInt8) (canId : UInt32) :
    CanTxFrame where
  ide := canIdType.toBitVec.setWidth 1
  ident :=
    if canIdType = canIdeExt then canId.toBitVec.setWidth 29
    else storeSid txFrame.ident (canId.toBitVec.setWidth 11)
  rtr := canRtrData
  dlc := 8
  data8 := fun _ => 0x55

/-- For extended frames nothing of the uninitialised variable survives. -/
theorem prepareCanTxMessage_ext (txFrame : CanTxFrame) (canId : UInt32) :
    prepareCanTxMessage txFrame canIdeExt canId =
      { dlc := 8, rtr := canRtrData, ide := 1, ident := canId.toBitVec.setWidth 29,
        data8 := fun _ => 0x55 } :=
  rfl

/-! ## What the driver can deliver -/

/-- The registers of one receive FIFO mailbox. -/
structure FifoMailbox where
  rir : UInt32
  rdtr : UInt32
  rdlr : UInt32
  rdhr : UInt32

/-- Byte `byte` of the two little-endian data registers. -/
def FifoMailbox.dataByte (mailbox : FifoMailbox) (byte : Fin 8) : UInt8 :=
  if byte.val < 4 then (mailbox.rdlr >>> (8 * UInt32.ofNat byte.val)).toUInt8
  else (mailbox.rdhr >>> (8 * UInt32.ofNat (byte.val - 4))).toUInt8

/-- The decoding part of `can_lld_receive`, into a buffer whose previous
identifier stays visible above a standard one. -/
def canLldReceive (mailbox : FifoMailbox) (crfp : CanRxFrame) : CanRxFrame :=
  let ide : BitVec 1 := ((mailbox.rir &&& 0x4) >>> 2).toBitVec.setWidth 1
  { rtr := ((mailbox.rir &&& 0x2) >>> 1).toBitVec.setWidth 1
    ide := ide
    ident :=
      if ide ≠ 0 then (mailbox.rir >>> 3).toBitVec.setWidth 29
      else storeSid crfp.ident ((mailbox.rir >>> 21).toBitVec.setWidth 11)
    dlc := (mailbox.rdtr &&& 0xF).toBitVec.setWidth 4
    fmi := (mailbox.rdtr >>> 8).toUInt8
    time := (mailbox.rdtr >>> 16).toUInt16
    data8 := mailbox.dataByte }

/-- A mailbox holding a given frame. -/
def mailboxOf (frame : CanRxFrame) : FifoMailbox where
  rir :=
    if frame.ide ≠ 0 then UInt32.ofBitVec (frame.ident ++ 1#1 ++ frame.rtr ++ 0#1)
    else UInt32.ofBitVec (frame.sid ++ 0#18 ++ 0#1 ++ frame.rtr ++ 0#1)
  rdtr := UInt32.ofBitVec (frame.time.toBitVec ++ frame.fmi.toBitVec ++ 0#4 ++ frame.dlc)
  rdlr := UInt32.ofBitVec ((frame.data8 3).toBitVec ++ (frame.data8 2).toBitVec ++
    (frame.data8 1).toBitVec ++ (frame.data8 0).toBitVec)
  rdhr := UInt32.ofBitVec ((frame.data8 7).toBitVec ++ (frame.data8 6).toBitVec ++
    (frame.data8 5).toBitVec ++ (frame.data8 4).toBitVec)

private theorem storeSid_self (ident : BitVec 29) :
    storeSid ident (ident.setWidth 11) = ident := by
  unfold storeSid
  ext i inside
  simp only [BitVec.getElem_append]
  grind

private theorem mailboxOf_dataByte (frame : CanRxFrame) :
    (mailboxOf frame).dataByte = frame.data8 := by
  funext byte
  apply UInt8.toBitVec_inj.mp
  fin_cases byte <;> ext i inside <;> simp [FifoMailbox.dataByte, mailboxOf] <;> grind

private theorem mailboxOf_dlc (frame : CanRxFrame) :
    ((mailboxOf frame).rdtr &&& 0xF).toBitVec.setWidth 4 = frame.dlc := by
  ext i inside
  interval_cases i <;> simp [mailboxOf] <;> grind

private theorem mailboxOf_fmi (frame : CanRxFrame) :
    ((mailboxOf frame).rdtr >>> 8).toUInt8 = frame.fmi := by
  apply UInt8.toBitVec_inj.mp
  ext i inside
  simp [mailboxOf]
  grind

private theorem mailboxOf_time (frame : CanRxFrame) :
    ((mailboxOf frame).rdtr >>> 16).toUInt16 = frame.time := by
  apply UInt16.toBitVec_inj.mp
  ext i inside
  simp [mailboxOf]
  grind

private theorem ide_eq_one {frame : CanRxFrame} (extended : frame.ide ≠ 0) : frame.ide = 1 := by
  generalize frame.ide = ide at extended ⊢
  revert ide
  decide

private theorem mailboxOf_ide (frame : CanRxFrame) :
    (((mailboxOf frame).rir &&& 0x4) >>> 2).toBitVec.setWidth 1 = frame.ide := by
  by_cases standard : frame.ide = 0
  · ext i inside
    interval_cases i
    simp [mailboxOf, standard]
    grind
  · ext i inside
    interval_cases i
    simp [mailboxOf, ide_eq_one standard]
    grind

private theorem mailboxOf_rtr (frame : CanRxFrame) :
    (((mailboxOf frame).rir &&& 0x2) >>> 1).toBitVec.setWidth 1 = frame.rtr := by
  ext i inside
  interval_cases i
  by_cases standard : frame.ide = 0 <;> simp [mailboxOf, standard] <;> grind

private theorem mailboxOf_ident (frame : CanRxFrame) :
    (if frame.ide ≠ 0 then ((mailboxOf frame).rir >>> 3).toBitVec.setWidth 29
      else storeSid frame.ident (((mailboxOf frame).rir >>> 21).toBitVec.setWidth 11)) =
      frame.ident := by
  by_cases standard : frame.ide = 0
  · have sid : ((mailboxOf frame).rir >>> 21).toBitVec.setWidth 11 = frame.ident.setWidth 11 := by
      ext i inside
      simp [mailboxOf, standard, CanRxFrame.sid]
      grind
    rw [if_neg (not_not.mpr standard), sid, storeSid_self]
  · rw [if_pos standard]
    ext i inside
    simp [mailboxOf]
    grind

/-- Every frame value is delivered by some mailbox content, so quantifying over
frames is quantifying over what the driver can hand to the worker. -/
theorem canLldReceive_mailboxOf (frame : CanRxFrame) :
    canLldReceive (mailboxOf frame) frame = frame := by
  unfold canLldReceive
  simp only [mailboxOf_rtr, mailboxOf_ide, mailboxOf_dlc, mailboxOf_fmi, mailboxOf_time,
    mailboxOf_dataByte, mailboxOf_ident]

/-- What a receiver stores when a frame sent by another node arrives.  The filter
index, the time stamp and the bits above a standard identifier are its own. -/
def CanTxFrame.received (frame : CanTxFrame) (fmi : UInt8) (time : UInt16)
    (stale : BitVec 29) : CanRxFrame where
  fmi := fmi
  time := time
  dlc := frame.dlc
  rtr := frame.rtr
  ide := frame.ide
  ident := if frame.ide ≠ 0 then frame.eid else storeSid stale frame.sid
  data8 := frame.data8

/-- The little-endian word `data32[0]` of a payload. -/
def CanTxFrame.data32Low (frame : CanTxFrame) : UInt32 :=
  UInt32.ofBitVec ((frame.data8 3).toBitVec ++ (frame.data8 2).toBitVec ++
    (frame.data8 1).toBitVec ++ (frame.data8 0).toBitVec)

/-- The little-endian word `data32[1]` of a payload. -/
def CanTxFrame.data32High (frame : CanTxFrame) : UInt32 :=
  UInt32.ofBitVec ((frame.data8 7).toBitVec ++ (frame.data8 6).toBitVec ++
    (frame.data8 5).toBitVec ++ (frame.data8 4).toBitVec)

end Can
end AnalogX

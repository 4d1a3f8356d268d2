import AnalogX.Can.Frame
import AnalogX.Foundations.Runs
import Mathlib.Data.Nat.Bitwise
import Mathlib.Logic.Function.Basic

namespace AnalogX
namespace Hal

open Foundations Can

/-!
# Transmitting a frame

`canTransmit` looks for a free transmit mailbox, waits in the transmit queue of the
driver while there is none, and otherwise writes its frame to the registers of the
mailbox.  Three threads of the firmware call it, each with a time limit that starts
anew with every look.  The interrupt at the end of a transmission wakes all of them.

The configuration sets `TXFP`, so the controller sends the requested mailboxes in the
order of the requests, and `NART`, so it makes one attempt for each and reports the
request as completed whether or not the attempt succeeded.
-/

/-! ## The registers -/

/-- The registers of one transmit mailbox. -/
structure TxMailbox where
  tir : UInt32
  tdtr : UInt32
  tdlr : UInt32
  tdhr : UInt32
  deriving DecidableEq

/-- `CAN_TI0R_TXRQ`. -/
def canTi0rTxrq : UInt32 := 0x1

/-- `CAN_TI0R_IDE`. -/
def canTi0rIde : UInt32 := 0x4

/-- The registers `can_lld_transmit` writes for a frame. -/
def encodeTx (ctfp : CanTxFrame) : TxMailbox where
  tir :=
    (if ctfp.ide ≠ 0 then
      UInt32.ofBitVec (ctfp.eid.setWidth 32) <<< 3 |||
        UInt32.ofBitVec (ctfp.rtr.setWidth 32) <<< 1 ||| canTi0rIde
    else
      UInt32.ofBitVec (ctfp.sid.setWidth 32) <<< 21 |||
        UInt32.ofBitVec (ctfp.rtr.setWidth 32) <<< 1) ||| canTi0rTxrq
  tdtr := UInt32.ofBitVec (ctfp.dlc.setWidth 32)
  tdlr := ctfp.data32Low
  tdhr := ctfp.data32High

/-- Byte `byte` of the two little-endian data registers. -/
def TxMailbox.dataByte (mailbox : TxMailbox) (byte : Fin 8) : UInt8 :=
  if byte.val < 4 then (mailbox.tdlr >>> (8 * UInt32.ofNat byte.val)).toUInt8
  else (mailbox.tdhr >>> (8 * UInt32.ofNat (byte.val - 4))).toUInt8

/-- What the bus carries from the transmit mailbox of one controller to the receive mailbox of
another.  A frame has its format and its kind and the identifier of its format.  Only a data
frame has a length and data, and of the data only as many bytes as its length says.  All other
bits of the receive mailbox are up to the receiver. -/
structure Carried (sent : TxMailbox) (stored : FifoMailbox) : Prop where
  ide : stored.rir &&& 0x4 = sent.tir &&& 0x4
  rtr : stored.rir &&& 0x2 = sent.tir &&& 0x2
  extended : sent.tir &&& 0x4 ≠ 0 → stored.rir >>> 3 = sent.tir >>> 3
  standard : sent.tir &&& 0x4 = 0 → stored.rir >>> 21 = sent.tir >>> 21
  length : sent.tir &&& 0x2 = 0 → stored.rdtr &&& 0xF = sent.tdtr &&& 0xF
  payload : sent.tir &&& 0x2 = 0 → ∀ byte : Fin 8, byte.val < (sent.tdtr &&& 0xF).toNat →
    stored.dataByte byte = sent.dataByte byte

/-! ### The fields of the written registers -/

section Fields

variable {frame : CanTxFrame}

private theorem getLsbD_ofNat_high {value width : Nat} (small : value < 2 ^ width) (i : Nat) :
    (BitVec.ofNat 32 value).getLsbD (width + i) = false := by
  have below : value < 2 ^ (width + i) := by
    calc
      value < 2 ^ width := small
      _ ≤ 2 ^ (width + i) := Nat.pow_le_pow_right (by decide) (Nat.le_add_right width i)
  rw [BitVec.getLsbD_ofNat, Nat.testBit_lt_two_pow below, Bool.and_false]

theorem tir_extended (extended : frame.ide ≠ 0) :
    (encodeTx frame).tir = UInt32.ofBitVec (frame.eid.setWidth 32) <<< 3 |||
      UInt32.ofBitVec (frame.rtr.setWidth 32) <<< 1 ||| canTi0rIde ||| canTi0rTxrq := by
  rw [encodeTx, if_pos extended]

theorem tir_standard (standard : frame.ide = 0) :
    (encodeTx frame).tir = UInt32.ofBitVec (frame.sid.setWidth 32) <<< 21 |||
      UInt32.ofBitVec (frame.rtr.setWidth 32) <<< 1 ||| canTi0rTxrq := by
  rw [encodeTx, if_neg (not_not.mpr standard)]

theorem bit_eq_one {bit : BitVec 1} (set : bit ≠ 0) : bit = 1 := by
  revert bit
  decide

variable (frame) in
theorem encodeTx_ide :
    (((encodeTx frame).tir &&& 0x4) >>> 2).toBitVec.setWidth 1 = frame.ide := by
  ext i inside
  interval_cases i
  by_cases standard : frame.ide = 0
  · rw [tir_standard standard, standard]
    simp [canTi0rTxrq]
  · rw [tir_extended standard, bit_eq_one standard]
    simp [canTi0rTxrq, canTi0rIde]

variable (frame) in
theorem encodeTx_rtr :
    (((encodeTx frame).tir &&& 0x2) >>> 1).toBitVec.setWidth 1 = frame.rtr := by
  ext i inside
  interval_cases i
  by_cases standard : frame.ide = 0
  · rw [tir_standard standard]
    simp [canTi0rTxrq]
  · rw [tir_extended standard]
    simp [canTi0rTxrq, canTi0rIde]

theorem encodeTx_eid (extended : frame.ide ≠ 0) :
    ((encodeTx frame).tir >>> 3).toBitVec.setWidth 29 = frame.eid := by
  ext i inside
  have ide : (4#32).getLsbD (3 + i) = false := getLsbD_ofNat_high (by decide) i
  rw [tir_extended extended]
  simp [canTi0rTxrq, canTi0rIde, ide]
  grind

theorem encodeTx_sid (standard : frame.ide = 0) :
    ((encodeTx frame).tir >>> 21).toBitVec.setWidth 11 = frame.sid := by
  ext i inside
  rw [tir_standard standard]
  simp [canTi0rTxrq]
  grind

variable (frame) in
theorem encodeTx_dlc : ((encodeTx frame).tdtr &&& 0xF).toBitVec.setWidth 4 = frame.dlc := by
  ext i inside
  interval_cases i <;> simp [encodeTx]

variable (frame) in
theorem encodeTx_dataByte : (encodeTx frame).dataByte = frame.data8 := by
  funext byte
  apply UInt8.toBitVec_inj.mp
  fin_cases byte <;> ext i inside <;>
    simp [TxMailbox.dataByte, encodeTx, CanTxFrame.data32Low, CanTxFrame.data32High] <;> grind

/-- A selected bit which is extracted as zero is clear. -/
private theorem and_two_pow_eq_zero {register mask shift : UInt32} {position : Nat}
    (single : mask.toNat = 2 ^ position) (shifted : shift.toNat = position)
    (small : position < 32) (clear : ((register &&& mask) >>> shift).toBitVec.setWidth 1 = 0) :
    register &&& mask = 0 := by
  have bit := congrArg (fun bits : BitVec 1 => bits.toNat) clear
  apply UInt32.toNat_inj.mp
  simp only [BitVec.toNat_setWidth, UInt32.toNat_toBitVec, UInt32.toNat_shiftRight,
    UInt32.toNat_and, single, shifted, Nat.and_two_pow, Nat.mod_eq_of_lt small] at bit ⊢
  rw [Nat.shiftRight_eq_div_pow, Nat.mul_div_cancel _ (Nat.two_pow_pos position)] at bit
  cases set : register.toNat.testBit position with
  | false => exact Nat.zero_mul _
  | true =>
      rw [set] at bit
      cases bit

private theorem setWidth_storeSid (ident : BitVec 29) (sid : BitVec 11) :
    (storeSid ident sid).setWidth 11 = sid := by
  unfold storeSid
  ext i inside
  simp
  grind

end Fields

/-- Whatever the bus and the receiving controller make of the bits a frame does not have: the
frame which another node takes out of its receive mailbox has the format, the kind and the
identifier of the transmitted one, and if it is a data frame its length and that many bytes of
its data. -/
theorem received_as_transmitted {frame : CanTxFrame} {stored : FifoMailbox}
    (carried : Carried (encodeTx frame) stored) (crfp : CanRxFrame) :
    (canLldReceive stored crfp).ide = frame.ide ∧
      (canLldReceive stored crfp).rtr = frame.rtr ∧
      (frame.ide ≠ 0 → (canLldReceive stored crfp).eid = frame.eid) ∧
      (frame.ide = 0 → (canLldReceive stored crfp).sid = frame.sid) ∧
      (frame.rtr = canRtrData → (canLldReceive stored crfp).dlc = frame.dlc ∧
        ∀ byte : Fin 8, byte.val < frame.dlc.toNat →
          (canLldReceive stored crfp).data8 byte = frame.data8 byte) := by
  have format : (canLldReceive stored crfp).ide = frame.ide := by
    rw [← encodeTx_ide frame, ← carried.ide]
    rfl
  refine ⟨format, ?_, ?_, ?_, ?_⟩
  · rw [← encodeTx_rtr frame, ← carried.rtr]
    rfl
  · intro extended
    have marked : (encodeTx frame).tir &&& 0x4 ≠ 0 := by
      intro clear
      apply extended
      rw [← encodeTx_ide frame, clear]
      rfl
    have identifier : (canLldReceive stored crfp).ident =
        (stored.rir >>> 3).toBitVec.setWidth 29 := by
      rw [← format] at extended
      exact if_pos extended
    rw [CanRxFrame.eid, identifier, carried.extended marked, encodeTx_eid extended]
  · intro standard
    have unmarked : (encodeTx frame).tir &&& 0x4 = 0 :=
      and_two_pow_eq_zero rfl rfl (by decide) ((encodeTx_ide frame).trans standard)
    have identifier : (canLldReceive stored crfp).ident =
        storeSid crfp.ident ((stored.rir >>> 21).toBitVec.setWidth 11) := by
      rw [← format] at standard
      exact if_neg (not_not.mpr standard)
    rw [CanRxFrame.sid, identifier, setWidth_storeSid, carried.standard unmarked,
      encodeTx_sid standard]
  · intro data
    have unmarked : (encodeTx frame).tir &&& 0x2 = 0 :=
      and_two_pow_eq_zero rfl rfl (by decide) ((encodeTx_rtr frame).trans data)
    have length := encodeTx_dlc frame
    constructor
    · rw [← length, ← carried.length unmarked]
      rfl
    · intro byte inside
      have counted : byte.val < ((encodeTx frame).tdtr &&& 0xF).toNat := by
        rw [← length, BitVec.toNat_setWidth, UInt32.toNat_toBitVec] at inside
        exact inside.trans_le (Nat.mod_le _ _)
      rw [← encodeTx_dataByte frame]
      exact carried.payload unmarked byte counted

/-- A frame of two bytes.  The receiver leaves old bytes behind them, and its own filter index
and time stamp. -/
theorem received_as_transmitted_short :
    ∃ stored : FifoMailbox, Carried (encodeTx ⟨2, 0, 1, 0xE4603, fun _ => 0x64⟩) stored ∧
      ∀ crfp, (canLldReceive stored crfp).eid = 0xE4603 ∧ (canLldReceive stored crfp).dlc = 2 ∧
        (canLldReceive stored crfp).data8 1 = 0x64 ∧
        (canLldReceive stored crfp).data8 2 = 0xAA := by
  have carried : Carried (encodeTx ⟨2, 0, 1, 0xE4603, fun _ => 0x64⟩)
      ⟨0x72301C, 0x12340702, 0xAAAA6464, 0xAAAAAAAA⟩ := by
    refine ⟨by decide, by decide, by decide, by decide, by decide, ?_⟩
    intro _ byte inside
    revert byte
    decide
  refine ⟨_, carried, ?_⟩
  intro crfp
  rcases received_as_transmitted carried crfp with ⟨_, _, identifier, _, contents⟩
  rcases contents rfl with ⟨length, payload⟩
  exact ⟨identifier (by decide), length, payload 1 (by decide), rfl⟩

example : (encodeTx ⟨8, 0, 1, 0xE3600, fun _ => 0x55⟩).tir = 0x71B005 := by decide

/-! ## The driver and its callers -/

/-- A call of `canTransmit`: `mailbox` is zero for any mailbox, or one to three. -/
structure TransmitCall (Thread : Type*) where
  thread : Thread
  mailbox : Nat
  frame : CanTxFrame
  deriving DecidableEq

/-- The transmit side of the controller and of its driver.  The pending mailboxes stand in
the order of their requests, and `completed` is set while the interrupt has not seen
the end of a request.  The last four fields are a record: all calls, those which returned
`MSG_OK` and `MSG_TIMEOUT`, and the attempts on the bus with their outcome. -/
structure CanTransmitter (Thread : Type*) where
  mailboxes : Fin 3 → TxMailbox
  requests : List (Fin 3)
  completed : Bool
  txqueue : List (TransmitCall Thread)
  woken : List (TransmitCall Thread)
  called : List (TransmitCall Thread)
  placed : List (TransmitCall Thread)
  expired : List (TransmitCall Thread)
  attempts : List (TxMailbox × Bool)

namespace CanTransmitter

variable {Thread : Type*}

/-- The driver after `canStart`: the mailboxes are empty, whatever their registers
hold. -/
def canStart (mailboxes : Fin 3 → TxMailbox) : CanTransmitter Thread where
  mailboxes := mailboxes
  requests := []
  completed := false
  txqueue := []
  woken := []
  called := []
  placed := []
  expired := []
  attempts := []

/-- The mailbox a transmission uses, given the field `CODE` of the status register. -/
def mailboxFor (code : Fin 3) (mailbox : Nat) : Option (Fin 3) :=
  if mailbox = 0 then some code
  else if inside : mailbox - 1 < 3 then some ⟨mailbox - 1, inside⟩
  else none

/-- `can_lld_is_tx_empty`. -/
def canLldIsTxEmpty (driver : CanTransmitter Thread) (mailbox : Nat) : Prop :=
  if mailbox = 0 then ∃ free, free ∉ driver.requests
  else ∃ inside : mailbox - 1 < 3, ⟨mailbox - 1, inside⟩ ∉ driver.requests

instance (driver : CanTransmitter Thread) (mailbox : Nat) :
    Decidable (driver.canLldIsTxEmpty mailbox) :=
  inferInstanceAs (Decidable (if mailbox = 0 then _ else _))

/-- `can_lld_transmit`. -/
def canLldTransmit (driver : CanTransmitter Thread) (code : Fin 3) (mailbox : Nat)
    (ctfp : CanTxFrame) : CanTransmitter Thread :=
  match mailboxFor code mailbox with
  | none => driver
  | some tmbp =>
      { driver with
        mailboxes := Function.update driver.mailboxes tmbp (encodeTx ctfp)
        requests := driver.requests ++ [tmbp] }

/-- One look of `canTransmit`: the frame is placed, or the call waits. -/
def canTransmit (driver : CanTransmitter Thread) (code : Fin 3) (call : TransmitCall Thread) :
    CanTransmitter Thread :=
  if driver.canLldIsTxEmpty call.mailbox then
    { driver.canLldTransmit code call.mailbox call.frame with
      placed := driver.placed ++ [call] }
  else
    { driver with txqueue := driver.txqueue ++ [call] }

/-- `can_lld_tx_handler`: the ends of requests are acknowledged and every waiting call is
woken. -/
def canLldTxHandler (driver : CanTransmitter Thread) : CanTransmitter Thread :=
  { driver with completed := false, txqueue := [], woken := driver.woken ++ driver.txqueue }

/-- The controller ends its attempt for the oldest request. -/
def completeRequest (driver : CanTransmitter Thread) (success : Bool) :
    Option (CanTransmitter Thread) :=
  match driver.requests with
  | [] => none
  | oldest :: rest =>
      some { driver with
        requests := rest
        completed := true
        attempts := driver.attempts ++ [(driver.mailboxes oldest, success)] }

/-- New calls and woken calls with the mailbox the controller offers, time limits, the
bus, and the interrupt. -/
inductive Action (Thread : Type*) where
  | call (code : Fin 3) (call : TransmitCall Thread)
  | resume (code : Fin 3) (call : TransmitCall Thread)
  | expire (call : TransmitCall Thread)
  | complete (success : Bool)
  | interrupt

/-- The field `CODE` names a free mailbox whenever there is one. -/
def Offers (driver : CanTransmitter Thread) (code : Fin 3) : Prop :=
  (∃ free, free ∉ driver.requests) → code ∉ driver.requests

instance (driver : CanTransmitter Thread) (code : Fin 3) : Decidable (driver.Offers code) :=
  inferInstanceAs (Decidable (_ → _))

def step [DecidableEq Thread] (driver : CanTransmitter Thread) : Action Thread → Option (CanTransmitter Thread)
  | .call code call =>
      if driver.Offers code then
        some (canTransmit { driver with called := driver.called ++ [call] } code call)
      else
        none
  | .resume code call =>
      if driver.Offers code ∧ call ∈ driver.woken then
        some (canTransmit { driver with woken := driver.woken.erase call } code call)
      else
        none
  | .expire call =>
      if call ∈ driver.txqueue then
        some { driver with
          txqueue := driver.txqueue.erase call
          expired := driver.expired ++ [call] }
      else
        none
  | .complete success => driver.completeRequest success
  | .interrupt => some driver.canLldTxHandler

/-! ## Order and wake-ups -/

/-- The placed frames are those attempted, followed by those in the pending mailboxes; and
a call waits only for a mailbox that is pending or whose end the interrupt will report. -/
structure InOrder (driver : CanTransmitter Thread) : Prop where
  distinct : driver.requests.Nodup
  ordered : driver.placed.map (fun call => encodeTx call.frame) =
    driver.attempts.map Prod.fst ++ driver.requests.map driver.mailboxes
  attended : ∀ call ∈ driver.txqueue, driver.canLldIsTxEmpty call.mailbox → driver.completed = true

variable {driver next : CanTransmitter Thread}

theorem inOrder_canStart (mailboxes : Fin 3 → TxMailbox) :
    (canStart mailboxes : CanTransmitter Thread).InOrder where
  distinct := List.nodup_nil
  ordered := rfl
  attended := by
    intro call member
    cases member

/-- The mailbox of a look that found one free is not pending. -/
theorem mailboxFor_free {code : Fin 3} {mailbox : Nat} (offers : driver.Offers code)
    (empty : driver.canLldIsTxEmpty mailbox) :
    ∃ tmbp, mailboxFor code mailbox = some tmbp ∧ tmbp ∉ driver.requests := by
  unfold canLldIsTxEmpty at empty
  unfold mailboxFor
  by_cases any : mailbox = 0
  · rw [if_pos any] at empty ⊢
    exact ⟨code, rfl, offers empty⟩
  · rw [if_neg any] at empty ⊢
    obtain ⟨inside, free⟩ := empty
    rw [dif_pos inside]
    exact ⟨_, rfl, free⟩

/-- More pending mailboxes mean fewer empty ones. -/
theorem canLldIsTxEmpty_anti {mailbox : Nat} (more : ∀ slot ∈ driver.requests, slot ∈ next.requests)
    (empty : next.canLldIsTxEmpty mailbox) : driver.canLldIsTxEmpty mailbox := by
  unfold canLldIsTxEmpty at empty ⊢
  by_cases any : mailbox = 0
  · rw [if_pos any] at empty ⊢
    obtain ⟨free, absent⟩ := empty
    exact ⟨free, fun member => absent (more free member)⟩
  · rw [if_neg any] at empty ⊢
    obtain ⟨inside, absent⟩ := empty
    exact ⟨inside, fun member => absent (more _ member)⟩

theorem canTransmit_inOrder {code : Fin 3} {call : TransmitCall Thread}
    (inOrder : driver.InOrder) (offers : driver.Offers code) :
    (driver.canTransmit code call).InOrder := by
  unfold canTransmit
  by_cases empty : driver.canLldIsTxEmpty call.mailbox
  · obtain ⟨tmbp, chosen, free⟩ := mailboxFor_free offers empty
    have kept : driver.requests.map (Function.update driver.mailboxes tmbp (encodeTx call.frame)) =
        driver.requests.map driver.mailboxes := by
      refine List.map_congr_left ?_
      intro slot member
      have different : slot ≠ tmbp := by
        rintro rfl
        exact free member
      rw [Function.update_of_ne different]
    rw [if_pos empty]
    unfold canLldTransmit
    simp only [chosen]
    refine ⟨?_, ?_, ?_⟩
    · refine List.nodup_append.mpr ⟨inOrder.distinct, List.nodup_singleton tmbp, ?_⟩
      intro slot member other last
      rw [List.mem_singleton] at last
      rw [last]
      rintro rfl
      exact free member
    · show (driver.placed ++ [call]).map (fun call => encodeTx call.frame) =
        driver.attempts.map Prod.fst ++ (driver.requests ++ [tmbp]).map
          (Function.update driver.mailboxes tmbp (encodeTx call.frame))
      rw [List.map_append, List.map_append, inOrder.ordered, kept, List.append_assoc]
      simp only [List.map_cons, List.map_nil, Function.update_self]
    · intro waiting member available
      exact inOrder.attended waiting member (canLldIsTxEmpty_anti
        (fun slot inside => List.mem_append_left _ inside) available)
  · rw [if_neg empty]
    refine ⟨inOrder.distinct, inOrder.ordered, ?_⟩
    intro waiting member available
    rcases List.mem_append.mp member with earlier | last
    · exact inOrder.attended waiting earlier available
    · rw [List.mem_singleton] at last
      rw [last] at available
      exact absurd available empty

theorem completeRequest_inOrder {success : Bool} (inOrder : driver.InOrder)
    (taken : driver.completeRequest success = some next) : next.InOrder := by
  unfold completeRequest at taken
  cases listed : driver.requests with
  | nil =>
      rw [listed] at taken
      cases taken
  | cons oldest rest =>
      rw [listed] at taken
      cases taken
      have distinct := inOrder.distinct
      have ordered := inOrder.ordered
      rw [listed] at distinct ordered
      refine ⟨(List.nodup_cons.mp distinct).2, ?_, fun _ _ _ => rfl⟩
      show driver.placed.map (fun call => encodeTx call.frame) =
        (driver.attempts ++ [(driver.mailboxes oldest, success)]).map Prod.fst ++
          rest.map driver.mailboxes
      rw [ordered, List.map_append, List.append_assoc]
      rfl

variable [DecidableEq Thread]

/-- Every call is in exactly one place. -/
def Accounted (driver : CanTransmitter Thread) : Prop :=
  ∀ call, driver.called.count call = driver.placed.count call + driver.expired.count call +
    driver.txqueue.count call + driver.woken.count call

/-- A look moves one call to the placed or to the waiting ones. -/
theorem count_canTransmit (driver : CanTransmitter Thread) (code : Fin 3)
    (call other : TransmitCall Thread) :
    (driver.canTransmit code call).called = driver.called ∧
      (driver.canTransmit code call).expired = driver.expired ∧
      (driver.canTransmit code call).woken = driver.woken ∧
      (driver.canTransmit code call).placed.count other +
          (driver.canTransmit code call).txqueue.count other =
        driver.placed.count other + driver.txqueue.count other + [call].count other := by
  unfold canTransmit
  split
  · have same : ∃ mailboxes requests, driver.canLldTransmit code call.mailbox call.frame =
        { driver with mailboxes := mailboxes, requests := requests } := by
      unfold canLldTransmit
      split
      · exact ⟨driver.mailboxes, driver.requests, rfl⟩
      · exact ⟨_, _, rfl⟩
    obtain ⟨mailboxes, requests, same⟩ := same
    rw [same]
    refine ⟨rfl, rfl, rfl, ?_⟩
    show (driver.placed ++ [call]).count other + driver.txqueue.count other = _
    rw [List.count_append]
    omega
  · refine ⟨rfl, rfl, rfl, ?_⟩
    show driver.placed.count other + (driver.txqueue ++ [call]).count other = _
    rw [List.count_append]
    omega

theorem count_erase_add {call : TransmitCall Thread} {calls : List (TransmitCall Thread)}
    (member : call ∈ calls) (other : TransmitCall Thread) :
    (calls.erase call).count other + [call].count other = calls.count other := by
  rw [(List.perm_cons_erase member).count_eq other, List.count_singleton, List.count_cons]

theorem step_accounted {action : Action Thread} (accounted : driver.Accounted)
    (taken : driver.step action = some next) : next.Accounted := by
  intro other
  have total := accounted other
  cases action with
  | call code call =>
      simp only [step] at taken
      split at taken <;> cases taken
      obtain ⟨called, expired, woken, moved⟩ := count_canTransmit
        { driver with called := driver.called ++ [call] } code call other
      rw [called, expired, woken, List.count_append]
      dsimp only at moved ⊢
      omega
  | resume code call =>
      simp only [step] at taken
      split at taken
      case isFalse => cases taken
      case isTrue ready =>
        cases taken
        obtain ⟨called, expired, woken, moved⟩ := count_canTransmit
          { driver with woken := driver.woken.erase call } code call other
        have erased := count_erase_add ready.2 other
        rw [called, expired, woken]
        dsimp only at moved ⊢
        omega
  | expire call =>
      simp only [step] at taken
      split at taken
      case isFalse => cases taken
      case isTrue member =>
        cases taken
        have erased := count_erase_add member other
        show driver.called.count other = driver.placed.count other +
          (driver.expired ++ [call]).count other + (driver.txqueue.erase call).count other +
          driver.woken.count other
        rw [List.count_append]
        omega
  | complete success =>
      simp only [step, completeRequest] at taken
      split at taken <;> cases taken
      exact total
  | interrupt =>
      cases taken
      show driver.called.count other = driver.placed.count other +
        driver.expired.count other + 0 + (driver.woken ++ driver.txqueue).count other
      rw [List.count_append]
      omega

theorem step_inOrder {action : Action Thread} (inOrder : driver.InOrder)
    (taken : driver.step action = some next) : next.InOrder := by
  cases action with
  | call code call =>
      simp only [step] at taken
      split at taken
      case isFalse => cases taken
      case isTrue offers =>
        cases taken
        have entered : InOrder { driver with called := driver.called ++ [call] } :=
          ⟨inOrder.distinct, inOrder.ordered, inOrder.attended⟩
        exact canTransmit_inOrder entered offers
  | resume code call =>
      simp only [step] at taken
      split at taken
      case isFalse => cases taken
      case isTrue ready =>
        cases taken
        have resumed : InOrder { driver with woken := driver.woken.erase call } :=
          ⟨inOrder.distinct, inOrder.ordered, inOrder.attended⟩
        exact canTransmit_inOrder resumed ready.1
  | expire call =>
      simp only [step] at taken
      split at taken <;> cases taken
      refine ⟨inOrder.distinct, inOrder.ordered, ?_⟩
      intro waiting member
      exact inOrder.attended waiting (List.mem_of_mem_erase member)
  | complete success => exact completeRequest_inOrder inOrder taken
  | interrupt =>
      cases taken
      refine ⟨inOrder.distinct, inOrder.ordered, ?_⟩
      intro waiting member
      cases member

/-- In every interleaving of calls, time limits, bus events and interrupts, every call has
succeeded once, has failed by its time limit, or is still waiting or woken.  The frames of
the successful calls are attempted on the bus once each and in the order in which the
calls succeeded; those not attempted yet are unchanged in at most three mailboxes.  A
call that waits although its mailbox is free has the interrupt under way to wake it. -/
theorem attempted_in_order {mailboxes : Fin 3 → TxMailbox} {actions : List (Action Thread)}
    (run : runFrom step (canStart mailboxes) actions = some driver) :
    driver.placed.map (fun call => encodeTx call.frame) =
        driver.attempts.map Prod.fst ++ driver.requests.map driver.mailboxes ∧
      driver.requests.Nodup ∧ driver.requests.length ≤ 3 ∧
      driver.called.Perm
        (driver.placed ++ driver.expired ++ driver.txqueue ++ driver.woken) ∧
      ∀ call ∈ driver.txqueue, driver.canLldIsTxEmpty call.mailbox →
        driver.completed = true := by
  have inOrder : driver.InOrder :=
    runFrom_invariant (fun _ _ _ holds taken => step_inOrder holds taken) run
      (inOrder_canStart mailboxes)
  have accounted : driver.Accounted :=
    runFrom_invariant (fun _ _ _ holds taken => step_accounted holds taken) run (fun _ => rfl)
  refine ⟨inOrder.ordered, inOrder.distinct, ?_, ?_, inOrder.attended⟩
  · exact inOrder.distinct.length_le_card.trans_eq (Fintype.card_fin 3)
  · refine List.perm_iff_count.mpr ?_
    intro call
    rw [accounted call, List.count_append, List.count_append, List.count_append]

/-- Four calls at once: the fourth waits, is woken by the end of the first attempt although
that failed, and is sent from the mailbox which became free. -/
theorem attempted_in_order_full :
    let call (number : Nat) (id : BitVec 29) : TransmitCall Nat :=
      ⟨number, 0, ⟨8, 0, 1, id, fun _ => 0⟩⟩
    let actions : List (Action Nat) :=
      [.call 0 (call 0 7), .call 1 (call 1 5), .call 2 (call 2 3), .call 0 (call 3 1),
        .complete false, .interrupt, .resume 0 (call 3 1), .complete true]
    ∃ driver, runFrom step (canStart fun _ => ⟨0, 0, 0, 0⟩) actions = some driver ∧
      driver.attempts.map Prod.snd = [false, true] ∧ driver.txqueue = [] ∧
      driver.placed.map (fun call => encodeTx call.frame) =
        driver.attempts.map Prod.fst ++ driver.requests.map driver.mailboxes := by
  intro call actions
  have completed :
      (runFrom step (canStart fun _ => ⟨0, 0, 0, 0⟩) actions).isSome = true := by decide
  obtain ⟨driver, run⟩ := Option.isSome_iff_exists.mp completed
  have found : ((runFrom step (canStart fun _ => ⟨0, 0, 0, 0⟩) actions).map
      fun driver => (driver.attempts.map Prod.snd, driver.txqueue)) =
        some ([false, true], []) := by decide
  rw [run] at found
  simp only [Option.map_some, Option.some.injEq, Prod.mk.injEq] at found
  exact ⟨driver, run, found.1, found.2, (attempted_in_order run).1⟩

end CanTransmitter

end Hal
end AnalogX

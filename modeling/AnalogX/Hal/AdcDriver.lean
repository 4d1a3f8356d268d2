import AnalogX.Foundations.Runs
import Mathlib.Logic.Function.Basic

namespace AnalogX
namespace Hal

open Foundations

/-!
# The driver of the analog converter

A conversion group is converted channel by channel, and the DMA stream stores every result
in the sample buffer.  The end of the buffer raises the interrupt of the stream; an overrun
of the converter or a result outside of the limits of its analog watchdog raises the
interrupt of the converter.  Both handlers end the conversion and release its group, so
each of them has to expect that the other one came first.

The driver asserts that no conversion is started while one is active, but assertions are
disabled.  A second start leaves the length of the running transfer alone, since the
hardware protects that register while the stream is enabled.

Reading through the released group pointer is recorded as a fault, and nothing is executed
after it.
-/

/-- `adcstate_t`. -/
inductive AdcState where
  | stop
  | ready
  | active
  | complete
  | error
  deriving DecidableEq

/-- `ADCConversionGroup`, without the thresholds and the sampling time. -/
structure AdcConversionGroup where
  circular : Bool
  numChannels : Nat
  endCb : Bool
  errorCb : Bool
  cfgr1 : UInt32
  chselr : UInt32
  deriving DecidableEq

/-- The bit `ADC_CFGR1_CONT`. -/
def AdcConversionGroup.cont (grpp : AdcConversionGroup) : Bool :=
  grpp.cfgr1 &&& 0x2000 != 0

/-- The bit `ADC_CFGR1_AWDEN`. -/
def AdcConversionGroup.awden (grpp : AdcConversionGroup) : Bool :=
  grpp.cfgr1 &&& 0x800000 != 0

/-- `adcgrpcfg1`, the group of the firmware: four channels, converted once.  Twelve-bit
resolution has the value zero, and the channels are those of `CHSEL5`, `CHSEL6`, `CHSEL7`
and `CHSEL9`. -/
def adcgrpcfg1 : AdcConversionGroup where
  circular := false
  numChannels := 4
  endCb := true
  errorCb := true
  cfgr1 := 0
  chselr := 0x20 ||| 0x40 ||| 0x80 ||| 0x200

/-- `adcerror_t`. -/
inductive AdcError where
  | dmaFailure
  | overflow
  | awd
  deriving DecidableEq

/-- A call of one of the callbacks of a group: with a part of the buffer, by its offset and
its number of rows, or with an error. -/
inductive AdcCall where
  | finished (offset rows : Nat)
  | failed (err : AdcError)
  deriving DecidableEq

/-- A stream of the DMA controller.  `remaining` is `CNDTR`, and `size` its value at the
start of the transfer. -/
structure DmaStream where
  enabled : Bool
  interrupts : Bool
  halfInterrupt : Bool
  circular : Bool
  size : Nat
  remaining : Nat
  tcif : Bool
  htif : Bool
  teif : Bool

/-- The registers of the converter, and its position in the sequence of channels. -/
structure AdcRegisters where
  adstart : Bool
  cont : Bool
  awden : Bool
  channels : Nat
  position : Nat
  ovr : Bool
  awd : Bool

/-- `ADCDriver` with its hardware, its sample buffer and the record of the callbacks. -/
structure AdcDriver (Cell : Type*) where
  state : AdcState
  depth : Nat
  grpp : Option AdcConversionGroup
  dma : DmaStream
  adc : AdcRegisters
  samples : Nat → Cell
  calls : List AdcCall
  faulted : Bool

/-- `dmaStreamDisable`. -/
def dmaStreamDisable (dma : DmaStream) : DmaStream :=
  { dma with
    enabled := false, interrupts := false, halfInterrupt := false,
    tcif := false, htif := false, teif := false }

/-- `flags & CCR`, with the flags under `STM32_DMA_ISR_MASK`.  The mask leaves out the global
flag, which has the place of the enable bit. -/
def DmaStream.requests (dma : DmaStream) : Bool :=
  (dma.tcif || dma.teif) && dma.interrupts || dma.htif && dma.halfInterrupt

/-- The stream stores one result. -/
def DmaStream.advance (dma : DmaStream) : DmaStream :=
  let left := dma.remaining - 1
  { dma with
    remaining := if left = 0 && dma.circular then dma.size else left
    htif := dma.htif || left == dma.size / 2
    tcif := dma.tcif || left == 0 }

/-- The converter goes on to the next channel; after the last one it stops, unless it is in
continuous mode. -/
def AdcRegisters.advance (adc : AdcRegisters) : AdcRegisters :=
  if adc.position + 1 < adc.channels then { adc with position := adc.position + 1 }
  else { adc with position := 0, adstart := adc.cont }

theorem AdcRegisters.awden_advance (adc : AdcRegisters) : adc.advance.awden = adc.awden := by
  unfold advance
  split <;> rfl

theorem AdcRegisters.awd_advance (adc : AdcRegisters) : adc.advance.awd = adc.awd := by
  unfold advance
  split <;> rfl

namespace AdcDriver

variable {Cell : Type*}

/-- The driver after `adcStart`. -/
def adcStart (samples : Nat → Cell) : AdcDriver Cell where
  state := .ready
  depth := 0
  grpp := none
  dma := ⟨false, false, false, false, 0, 0, false, false, false⟩
  adc := ⟨false, false, false, 0, 0, false, false⟩
  samples := samples
  calls := []
  faulted := false

/-- `adc_lld_start_conversion`.  Enabled streams and running converters keep what they were
set up for. -/
def adcLldStartConversion (driver : AdcDriver Cell) (grpp : AdcConversionGroup) :
    AdcDriver Cell :=
  let size := if driver.dma.enabled then driver.dma.size else grpp.numChannels * driver.depth
  let remaining := if driver.dma.enabled then driver.dma.remaining else size
  let adc : AdcRegisters :=
    if driver.adc.adstart then driver.adc
    else { driver.adc with
      adstart := true, cont := grpp.cont, awden := grpp.awden
      channels := grpp.numChannels, position := 0 }
  { driver with
    dma := { driver.dma with
      enabled := true, interrupts := true
      halfInterrupt := grpp.circular && decide (1 < driver.depth)
      circular := grpp.circular, size := size, remaining := remaining }
    adc := { adc with ovr := false, awd := false } }

/-- `adcStartConversion`. -/
def adcStartConversion (driver : AdcDriver Cell) (grpp : AdcConversionGroup) (depth : Nat) :
    AdcDriver Cell :=
  adcLldStartConversion { driver with depth := depth, grpp := some grpp, state := .active } grpp

/-- `adc_lld_stop_conversion`. -/
def adcLldStopConversion (driver : AdcDriver Cell) : AdcDriver Cell :=
  { driver with
    dma := dmaStreamDisable driver.dma
    adc := { driver.adc with adstart := false } }

/-- `adccallback`, called with the buffer from an offset on. -/
def adccallback (driver : AdcDriver Cell) (offset rows : Nat) : AdcDriver Cell :=
  { driver with
    samples := Function.update driver.samples 0 (driver.samples offset)
    calls := driver.calls ++ [.finished offset rows] }

/-- Call `end_cb`, if the group has one. -/
def endCallback (driver : AdcDriver Cell) (grpp : AdcConversionGroup) (offset rows : Nat) :
    AdcDriver Cell :=
  if grpp.endCb then driver.adccallback offset rows else driver

/-- `_adc_isr_half_code`. -/
def adcIsrHalfCode (driver : AdcDriver Cell) (grpp : AdcConversionGroup) : AdcDriver Cell :=
  driver.endCallback grpp 0 (driver.depth / 2)

/-- `_adc_isr_full_code`. -/
def adcIsrFullCode (driver : AdcDriver Cell) (grpp : AdcConversionGroup) : AdcDriver Cell :=
  if grpp.circular then
    if 1 < driver.depth then
      driver.endCallback grpp (driver.depth / 2 * grpp.numChannels) (driver.depth / 2)
    else
      driver.endCallback grpp 0 driver.depth
  else
    { (driver.adcLldStopConversion.endCallback grpp 0 driver.depth) with
      state := .ready, grpp := none }

/-- `_adc_isr_error_code`.  The error callback is looked up in the group, whether or not
there still is one. -/
def adcIsrErrorCode (driver : AdcDriver Cell) (err : AdcError) : AdcDriver Cell :=
  match driver.grpp with
  | none => { driver.adcLldStopConversion with faulted := true }
  | some grpp =>
      { driver.adcLldStopConversion with
        calls := if grpp.errorCb then driver.calls ++ [.failed err] else driver.calls
        state := .ready
        grpp := none }

/-- `adc_lld_serve_rx_interrupt` with the flags of the stream. -/
def adcLldServeRxInterrupt (driver : AdcDriver Cell) (tcif htif teif : Bool) : AdcDriver Cell :=
  if teif then driver.adcIsrErrorCode .dmaFailure
  else
    match driver.grpp with
    | none => driver
    | some grpp =>
        if tcif then driver.adcIsrFullCode grpp
        else if htif then driver.adcIsrHalfCode grpp
        else driver

/-- `dmaServeInterrupt`: the flags of a requesting stream are acknowledged and served. -/
def dmaServeInterrupt (driver : AdcDriver Cell) : AdcDriver Cell :=
  let dma := driver.dma
  if dma.requests then
    adcLldServeRxInterrupt
      { driver with dma := { dma with tcif := false, htif := false, teif := false } }
      dma.tcif dma.htif dma.teif
  else driver

/-- An interrupt without a request does nothing. -/
theorem dmaServeInterrupt_of_silent {driver : AdcDriver Cell}
    (silent : driver.dma.requests = false) : driver.dmaServeInterrupt = driver := by
  unfold dmaServeInterrupt
  dsimp only
  rw [silent, if_neg Bool.false_ne_true]

/-- `adc_lld_serve_interrupt`.  The group is looked at once, before the two checks. -/
def adcLldServeInterrupt (driver : AdcDriver Cell) : AdcDriver Cell :=
  let acknowledged := { driver with adc := { driver.adc with ovr := false, awd := false } }
  match driver.grpp with
  | none => acknowledged
  | some _ =>
      let checked :=
        if driver.adc.ovr && decide (0 < driver.dma.remaining) then
          acknowledged.adcIsrErrorCode .overflow
        else acknowledged
      if driver.adc.awd then checked.adcIsrErrorCode .awd else checked

/-! ## Runs -/

/-- Starting a conversion, the events of the hardware, and the two interrupts, which may
come at any time. -/
inductive Action (Cell : Type*) where
  | start
  | transfer (cell : Cell)
  | overrun
  | watchdog
  | busError
  | dmaInterrupt
  | adcInterrupt

/-- One step of the driver and its hardware, for a caller with one group and depth. -/
def step (grpp : AdcConversionGroup) (depth : Nat) (driver : AdcDriver Cell)
    (action : Action Cell) : Option (AdcDriver Cell) :=
  if driver.faulted then none
  else
    match action with
    | .start => some (driver.adcStartConversion grpp depth)
    | .transfer cell =>
        if driver.adc.adstart && driver.dma.enabled && decide (0 < driver.dma.remaining) then
          some { driver with
            samples := Function.update driver.samples (driver.dma.size - driver.dma.remaining) cell
            dma := driver.dma.advance
            adc := driver.adc.advance }
        else none
    | .overrun =>
        if driver.adc.adstart then some { driver with adc := { driver.adc with ovr := true } }
        else none
    | .watchdog =>
        if driver.adc.adstart && driver.adc.awden then
          some { driver with adc := { driver.adc with awd := true } }
        else none
    | .busError =>
        if driver.dma.enabled then
          some { driver with dma := { driver.dma with teif := true, enabled := false } }
        else none
    | .dmaInterrupt => some driver.dmaServeInterrupt
    | .adcInterrupt => some driver.adcLldServeInterrupt

/-! ## No released group is used -/

/-- An enabled interrupt of the stream belongs to a group, and a group without a watchdog
never has its flag. -/
structure Owned (driver : AdcDriver Cell) : Prop where
  sound : driver.faulted = false
  interrupts : driver.dma.interrupts = true → driver.grpp ≠ none
  half : driver.dma.halfInterrupt = true → driver.dma.interrupts = true
  awden : driver.adc.awden = false
  awd : driver.adc.awd = false

theorem owned_adcStart (samples : Nat → Cell) : Owned (adcStart samples) := by
  constructor <;> simp [adcStart]

theorem owned_adcStartConversion {driver : AdcDriver Cell} {grpp : AdcConversionGroup}
    (owned : driver.Owned) (plain : grpp.awden = false) (depth : Nat) :
    (driver.adcStartConversion grpp depth).Owned where
  sound := owned.sound
  interrupts := fun _ => Option.some_ne_none grpp
  half := fun _ => rfl
  awden := by
    unfold adcStartConversion adcLldStartConversion
    dsimp only
    split
    · exact owned.awden
    · exact plain
  awd := rfl

theorem owned_adcLldStopConversion {driver : AdcDriver Cell} (owned : driver.Owned) :
    driver.adcLldStopConversion.Owned where
  sound := owned.sound
  interrupts := nofun
  half := nofun
  awden := owned.awden
  awd := owned.awd

/-- A group may be released once its conversion is stopped. -/
theorem owned_release {driver : AdcDriver Cell} (owned : driver.Owned)
    (stopped : driver.dma.interrupts = false) (state : AdcState) (calls : List AdcCall) :
    Owned { driver with state := state, calls := calls, grpp := none } where
  sound := owned.sound
  interrupts := by
    intro set
    rw [stopped] at set
    cases set
  half := owned.half
  awden := owned.awden
  awd := owned.awd

theorem owned_endCallback {driver : AdcDriver Cell} (owned : driver.Owned)
    (grpp : AdcConversionGroup) (offset rows : Nat) :
    (driver.endCallback grpp offset rows).Owned := by
  unfold endCallback
  split
  · exact ⟨owned.sound, owned.interrupts, owned.half, owned.awden, owned.awd⟩
  · exact owned

theorem interrupts_endCallback (driver : AdcDriver Cell) (grpp : AdcConversionGroup)
    (offset rows : Nat) :
    (driver.endCallback grpp offset rows).dma = driver.dma := by
  unfold endCallback
  split <;> rfl

theorem owned_adcIsrFullCode {driver : AdcDriver Cell} (owned : driver.Owned)
    (grpp : AdcConversionGroup) : (driver.adcIsrFullCode grpp).Owned := by
  unfold adcIsrFullCode
  split
  · split
    · exact owned_endCallback owned grpp _ _
    · exact owned_endCallback owned grpp _ _
  · have stopped := owned_endCallback (owned_adcLldStopConversion owned) grpp 0 driver.depth
    refine owned_release stopped ?_ .ready _
    rw [interrupts_endCallback]
    rfl

theorem owned_adcIsrErrorCode {driver : AdcDriver Cell} (owned : driver.Owned)
    (held : driver.grpp ≠ none) (err : AdcError) : (driver.adcIsrErrorCode err).Owned := by
  unfold adcIsrErrorCode
  split
  case h_1 released => exact absurd released held
  case h_2 grpp _ =>
    exact owned_release (owned_adcLldStopConversion owned) rfl .ready _

/-- The stream asks for service only while its group is held. -/
theorem Owned.held_of_requests {driver : AdcDriver Cell} (owned : driver.Owned)
    (requests : driver.dma.requests = true) : driver.grpp ≠ none := by
  apply owned.interrupts
  unfold DmaStream.requests at requests
  simp only [Bool.or_eq_true, Bool.and_eq_true] at requests
  rcases requests with ⟨-, set⟩ | ⟨-, half⟩
  · exact set
  · exact owned.half half

theorem owned_dmaServeInterrupt {driver : AdcDriver Cell} (owned : driver.Owned) :
    driver.dmaServeInterrupt.Owned := by
  unfold dmaServeInterrupt
  dsimp only
  split
  case isTrue requests =>
    have held := owned.held_of_requests requests
    have acknowledged : Owned
        { driver with dma := { driver.dma with tcif := false, htif := false, teif := false } } :=
      ⟨owned.sound, owned.interrupts, owned.half, owned.awden, owned.awd⟩
    unfold adcLldServeRxInterrupt
    split
    · exact owned_adcIsrErrorCode acknowledged held .dmaFailure
    · split
      · exact acknowledged
      · split
        · exact owned_adcIsrFullCode acknowledged _
        · split
          · exact owned_endCallback acknowledged _ _ _
          · exact acknowledged
  case isFalse => exact owned

theorem owned_adcLldServeInterrupt {driver : AdcDriver Cell} (owned : driver.Owned) :
    driver.adcLldServeInterrupt.Owned := by
  have acknowledged : Owned
      { driver with adc := { driver.adc with ovr := false, awd := false } } :=
    ⟨owned.sound, owned.interrupts, owned.half, owned.awden, rfl⟩
  unfold adcLldServeInterrupt
  dsimp only
  split
  case h_1 => exact acknowledged
  case h_2 grpp held =>
    rw [owned.awd, if_neg Bool.false_ne_true]
    split
    · exact owned_adcIsrErrorCode acknowledged (held ▸ Option.some_ne_none grpp) .overflow
    · exact acknowledged

theorem step_owned {grpp : AdcConversionGroup} {depth : Nat} {driver next : AdcDriver Cell}
    {action : Action Cell} (plain : grpp.awden = false) (owned : driver.Owned)
    (taken : driver.step grpp depth action = some next) : next.Owned := by
  have running : ¬ driver.faulted = true := by
    rw [owned.sound]
    exact Bool.false_ne_true
  unfold step at taken
  rw [if_neg running] at taken
  cases action with
  | start =>
      cases taken
      exact owned_adcStartConversion owned plain depth
  | transfer cell =>
      dsimp only at taken
      split at taken <;> cases taken
      refine ⟨owned.sound, owned.interrupts, owned.half, ?_, ?_⟩
      · exact (AdcRegisters.awden_advance driver.adc).trans owned.awden
      · exact (AdcRegisters.awd_advance driver.adc).trans owned.awd
  | overrun =>
      dsimp only at taken
      split at taken <;> cases taken
      exact ⟨owned.sound, owned.interrupts, owned.half, owned.awden, owned.awd⟩
  | watchdog =>
      dsimp only at taken
      rw [owned.awden, Bool.and_false, if_neg Bool.false_ne_true] at taken
      cases taken
  | busError =>
      dsimp only at taken
      split at taken <;> cases taken
      exact ⟨owned.sound, owned.interrupts, owned.half, owned.awden, owned.awd⟩
  | dmaInterrupt =>
      cases taken
      exact owned_dmaServeInterrupt owned
  | adcInterrupt =>
      cases taken
      exact owned_adcLldServeInterrupt owned

/-- The two errors of the converter at once: the second one is reported through the group
the first one has released. -/
theorem both_errors_fault {grpp : AdcConversionGroup} {depth : Nat}
    (channels : 0 < grpp.numChannels * depth) (watched : grpp.awden = true)
    (samples : Nat → Cell) :
    ∃ final, runFrom (step grpp depth) (adcStart samples)
        [.start, .overrun, .watchdog, .adcInterrupt] = some final ∧ final.faulted = true := by
  let started := (adcStart samples).adcStartConversion grpp depth
  let overrun := { started with adc := { started.adc with ovr := true } }
  let flagged := { overrun with adc := { overrun.adc with awd := true } }
  have watching : overrun.step grpp depth .watchdog = some flagged := by
    have enabled : (overrun.adc.adstart && overrun.adc.awden) = true := watched
    exact if_pos enabled
  refine ⟨flagged.adcLldServeInterrupt, ?_, ?_⟩
  · have first : (adcStart samples).step grpp depth .start = some started := rfl
    have second : started.step grpp depth .overrun = some overrun := rfl
    have last : flagged.step grpp depth .adcInterrupt = some flagged.adcLldServeInterrupt := rfl
    rw [runFrom_cons_eq_some]
    refine ⟨started, first, runFrom_cons_eq_some.mpr ⟨overrun, second, ?_⟩⟩
    exact runFrom_cons_eq_some.mpr ⟨flagged, watching,
      runFrom_cons_eq_some.mpr ⟨_, last, rfl⟩⟩
  · have remaining : (flagged.adc.ovr && decide (0 < flagged.dma.remaining)) = true :=
      decide_eq_true channels
    have held : flagged.grpp = some grpp := rfl
    have reported : flagged.adc.awd = true := rfl
    unfold adcLldServeInterrupt
    dsimp only
    rw [held, remaining, reported]
    rfl

/-- With the hardware in any interleaving with the calls and the interrupts, the driver
never reads through a released group exactly if the group does not use the watchdog. -/
theorem group_held_iff (grpp : AdcConversionGroup) {depth : Nat}
    (channels : 0 < grpp.numChannels * depth) (samples : Nat → Cell) :
    (∀ actions final, runFrom (step grpp depth) (adcStart samples) actions = some final →
      final.faulted = false) ↔ grpp.awden = false := by
  constructor
  · intro sound
    by_contra watched
    obtain ⟨final, run, faulted⟩ :=
      both_errors_fault channels (Bool.not_eq_false _ ▸ watched) samples
    have fine := sound _ final run
    rw [faulted] at fine
    cases fine
  · intro plain actions final run
    have owned : final.Owned := runFrom_invariant
      (fun _ _ _ holds taken => step_owned plain holds taken) run (owned_adcStart samples)
    exact owned.sound

/-- The group of the firmware does not use the watchdog. -/
theorem group_held_firmware :
    0 < adcgrpcfg1.numChannels * 1 ∧
      ∀ actions final, runFrom (step adcgrpcfg1 1) (adcStart fun _ => (0 : UInt16)) actions =
        some final → final.faulted = false :=
  ⟨by decide, (group_held_iff adcgrpcfg1 (by decide) fun _ => 0).mpr rfl⟩

end AdcDriver
end Hal
end AnalogX

import AnalogX.Adc.Sampling
import AnalogX.Hal.AdcDriver

namespace AnalogX
namespace Adc

/-!
# What a sensor frame says

A receiver of the sensor broadcast wants the voltages at the inputs printed on the
device.  Between an input and its word in the frame stand five orders which are
written down in different places: the pin of each named input, the converter
channel of each pin, the order in which the converter scans the selected channels
into its buffer, the reversal of that buffer by `system_adc_sample`, and the
words and bytes of the payload.

The encoder below is stated in terms of the inputs alone.  The worker is then
shown to transmit exactly this encoding of the results in the buffer, whatever
the frame variable on its stack held before, and the truncated scaling turns out
to lose nothing: a decoder recovers every twelve-bit result.
-/

open Kernel Can Firmware Foundations Hal

/-! ## From the named inputs to the buffer -/

/-- The pins with an analog function. -/
inductive AnalogPin where
  | pa5
  | pa6
  | pa7
  | pb1
  deriving DecidableEq

/-- The converter channel which a pin leads to. -/
def AnalogPin.channel : AnalogPin → Nat
  | .pa5 => 5
  | .pa6 => 6
  | .pa7 => 7
  | .pb1 => 9

/-- The inputs analog 1 to analog 4, as `system_adc_init` names their pins. -/
def analogInput : Fin 4 → AnalogPin :=
  ![.pb1, .pa7, .pa6, .pa5]

/-- The channels of a group in the order of the scan.  It goes upwards through the selected
channels unless the `SCANDIR` bit turns it around. -/
def scan (grpp : AdcConversionGroup) : List Nat :=
  let selected := (List.range 19).filter fun channel => grpp.chselr.toNat.testBit channel
  if grpp.cfgr1 &&& 0x4 = 0 then selected else selected.reverse

/-- The reversal of the buffer undoes the order of the scan: element `3 - input`
holds the channel of the input with that number. -/
theorem scan_analogInput (input : Fin 4) :
    (scan adcgrpcfg1)[input.rev.val]? = some (analogInput input).channel := by
  revert input
  decide

/-- A right-aligned conversion result in a 16-bit buffer element. -/
def sampleOf (result : BitVec 12) : UInt16 :=
  UInt16.ofBitVec (result.setWidth 16)

theorem toNat_sampleOf (result : BitVec 12) : (sampleOf result).toNat = result.toNat := by
  have bound := result.isLt
  change (result.setWidth 16).toNat = result.toNat
  rw [BitVec.toNat_setWidth]
  omega

/-! ## The scaling -/

/-- The scaled value of a result, without any bound on its size. -/
def scaledValue (result : BitVec 12) : Nat :=
  result.toNat * 100000 / 80688

/-- A result which is scaled to the given word. -/
def unscale (word : UInt16) : BitVec 12 :=
  BitVec.ofNat 12 ((word.toNat * 80688 + 99999) / 100000)

/-- The largest result, 4095, is scaled to 5075. -/
theorem scaledValue_le (result : BitVec 12) : scaledValue result ≤ 5075 := by
  have bound := result.isLt
  unfold scaledValue
  omega

theorem toNat_scale0To5Volts (result : BitVec 12) :
    (scale0To5Volts (sampleOf result)).toNat = scaledValue result := by
  have bound := scaledValue_le result
  unfold scale0To5Volts
  rw [toNat_sampleOf, UInt16.toNat_ofNat']
  change scaledValue result % 2 ^ 16 = scaledValue result
  omega

/-- A truncated quotient that stretches its argument loses nothing: rounding the
inverse quotient upwards undoes it. -/
theorem ceil_of_floor (value : Nat) {numerator denominator rest : Nat}
    (positive : 0 < denominator) (stretches : denominator ≤ numerator)
    (upwards : rest + 1 = numerator) :
    (value * numerator / denominator * denominator + rest) / numerator = value := by
  have below : value * numerator / denominator * denominator ≤ value * numerator :=
    Nat.div_mul_le_self _ _
  have above : value * numerator < value * numerator / denominator * denominator + denominator :=
    Nat.lt_div_mul_add positive
  apply Nat.div_eq_of_lt_le
  · omega
  · rw [Nat.succ_mul]
    omega

/-- The scaling stretches, by 100000 to 80688. -/
theorem unscale_scale0To5Volts (result : BitVec 12) :
    unscale (scale0To5Volts (sampleOf result)) = result := by
  have inverse : (result.toNat * 100000 / 80688 * 80688 + 99999) / 100000 = result.toNat :=
    ceil_of_floor result.toNat (by decide) (by decide) rfl
  unfold unscale
  rw [toNat_scale0To5Volts, scaledValue, inverse, BitVec.ofNat_toNat, BitVec.setWidth_eq]

/-! ## The payload -/

/-- The payload that announces the results of the four inputs: each byte is the
low or the high half of a scaled value. -/
def sensorPayload (results : AnalogPin → BitVec 12) (byte : Fin 8) : UInt8 :=
  let value := scaledValue (results (analogInput (wordOf byte)))
  UInt8.ofNat (if byte.val % 2 = 0 then value else value / 256)

/-- The result of an input that a payload announces. -/
def decodeSensors (data8 : Fin 8 → UInt8) (input : Fin 4) : BitVec 12 :=
  unscale (loadData16 data8 input)

/-- Every pin is one of the named inputs. -/
theorem analogInput_surjective (pin : AnalogPin) : ∃ input, analogInput input = pin := by
  cases pin with
  | pa5 => exact ⟨3, rfl⟩
  | pa6 => exact ⟨2, rfl⟩
  | pa7 => exact ⟨1, rfl⟩
  | pb1 => exact ⟨0, rfl⟩

/-- Each byte is written by the assignment to the word that contains it. -/
theorem storeSamples_apply (data8 : Fin 8 → UInt8) (rawSamples : Fin 4 → UInt16)
    (byte : Fin 8) :
    storeSamples data8 rawSamples byte =
      let word := scale0To5Volts (rawSamples (wordOf byte))
      if byte.val % 2 = 0 then word.toUInt8 else (word >>> 8).toUInt8 :=
  storeData16_all data8 (fun index => scale0To5Volts (rawSamples index)) byte

/-- Each word is the scaled sample with its index. -/
theorem loadData16_storeSamples (data8 : Fin 8 → UInt8) (rawSamples : Fin 4 → UInt16)
    (index : Fin 4) :
    loadData16 (storeSamples data8 rawSamples) index = scale0To5Volts (rawSamples index) := by
  unfold storeSamples
  by_cases last : index = 3
  · rw [last, loadData16_storeData16]
  rw [loadData16_storeData16_of_ne _ _ last]
  by_cases third : index = 2
  · rw [third, loadData16_storeData16]
  rw [loadData16_storeData16_of_ne _ _ third]
  by_cases second : index = 1
  · rw [second, loadData16_storeData16]
  rw [loadData16_storeData16_of_ne _ _ second]
  have first : index = 0 := by omega
  rw [first, loadData16_storeData16]

/-- The worker stores the encoding of the results, over whatever was there. -/
theorem storeSamples_results (data8 : Fin 8 → UInt8) {rawSamples : Fin 4 → UInt16}
    {results : AnalogPin → BitVec 12}
    (copied : ∀ input, rawSamples input = sampleOf (results (analogInput input))) :
    storeSamples data8 rawSamples = sensorPayload results := by
  funext byte
  rw [storeSamples_apply]
  unfold sensorPayload
  dsimp only
  rw [copied]
  generalize results (analogInput (wordOf byte)) = result
  have value := toNat_scale0To5Volts result
  apply UInt8.toNat_inj.mp
  by_cases low : byte.val % 2 = 0
  · rw [if_pos low, if_pos low, UInt16.toNat_toUInt8, UInt8.toNat_ofNat', value]
  · rw [if_neg low, if_neg low, UInt16.toNat_toUInt8, UInt8.toNat_ofNat',
      UInt16.toNat_shiftRight, value]
    change scaledValue result >>> 8 % 2 ^ 8 = _
    rw [Nat.shiftRight_eq_div_pow]

/-- The encoding of results is read back in full. -/
theorem loadData16_sensorPayload (results : AnalogPin → BitVec 12) (input : Fin 4) :
    loadData16 (sensorPayload results) input =
      scale0To5Volts (sampleOf (results (analogInput input))) := by
  rw [← storeSamples_results (fun _ => 0) (fun _ => rfl), loadData16_storeSamples]

theorem decodeSensors_sensorPayload (results : AnalogPin → BitVec 12) (input : Fin 4) :
    decodeSensors (sensorPayload results) input = results (analogInput input) := by
  unfold decodeSensors
  rw [loadData16_sensorPayload, unscale_scale0To5Volts]

/-- Two different quadruples of results never share a payload. -/
theorem sensorPayload_injective : Function.Injective sensorPayload := by
  intro first second same
  funext pin
  rcases analogInput_surjective pin with ⟨input, named⟩
  rw [← named, ← decodeSensors_sensorPayload first, same, decodeSensors_sensorPayload second]

/-- The frame which the worker builds in a variable that held `previous`. -/
def sensorsFrameOver (previous : CanTxFrame) (fw : State) (rawSamples : Fin 4 → UInt16) :
    CanTxFrame :=
  let analogSample := prepareCanTxMessage previous canIdeExt
    (getCanBaseId fw + apiBroadcastSensorsOffset)
  { analogSample with data8 := storeSamples analogSample.data8 rawSamples }

/-- The previous contents of the variable do not reach the frame. -/
theorem sensorsFrame_eq_over (previous : CanTxFrame) (fw : State)
    (rawSamples : Fin 4 → UInt16) :
    sensorsFrame fw rawSamples = sensorsFrameOver previous fw rawSamples := by
  unfold sensorsFrame sensorsFrameOver
  rw [prepareCanTxMessage_ext, prepareCanTxMessage_ext]

/-! ## The cycle that transmits it -/

namespace Sampler

/-- The buffer holds the results of a complete conversion: element `index` is the
result of the pin behind the channel scanned at this place. -/
def Delivered (sampler : Sampler) (results : AnalogPin → BitVec 12) : Prop :=
  ∀ (index : Fin 4) (pin : AnalogPin), (scan adcgrpcfg1)[index.val]? = some pin.channel →
    (sampler.internalSamples index).value = sampleOf (results pin)

/-- What `system_adc_sample` copies for an input is the result of that input. -/
theorem Delivered.input {sampler : Sampler} {results : AnalogPin → BitVec 12}
    (delivered : sampler.Delivered results) (input : Fin 4) :
    (sampler.internalSamples input.rev).value = sampleOf (results (analogInput input)) :=
  delivered input.rev (analogInput input) (scan_analogInput input)

/-- The worker is on its way from a complete conversion to the broadcast of its
results. -/
structure Carrying (results : AnalogPin → BitVec 12) (sampler : Sampler) : Prop where
  converted : ∀ channel, sampler.converter ≠ .converting channel
  delivered : sampler.Delivered results
  copied : ∀ start channel, sampler.worker = .reading start channel → ∀ input < channel,
    (sampler.rawSamples input).value = sampleOf (results (analogInput input))
  complete : ∀ start, sampler.worker = .broadcasting start → ∀ input,
    (sampler.rawSamples input).value = sampleOf (results (analogInput input))

/-- A worker that neither copies nor broadcasts has nothing to keep. -/
theorem Carrying.resting {results : AnalogPin → BitVec 12} {sampler next : Sampler}
    (carrying : sampler.Carrying results) (converter : next.converter = sampler.converter)
    (buffer : next.internalSamples = sampler.internalSamples)
    (resting : next.inProgress = 0) : next.Carrying results := by
  unfold inProgress at resting
  refine ⟨?_, ?_, ?_, ?_⟩
  · rw [converter]
    exact carrying.converted
  · unfold Delivered
    rw [buffer]
    exact carrying.delivered
  · intro start channel pc
    rw [pc] at resting
    cases resting
  · intro start pc
    rw [pc] at resting
    cases resting

theorem converterStep_carrying {results : AnalogPin → BitVec 12} {sampler next : Sampler}
    {value : UInt16} (carrying : sampler.Carrying results)
    (taken : sampler.converterStep value = some next) : next.Carrying results := by
  unfold converterStep at taken
  split at taken
  · cases taken
  · rename_i channel converting
    exact absurd converting (carrying.converted channel)
  · cases taken
    rw [Function.update_eq_self]
    exact ⟨fun channel => by simp, carrying.delivered, carrying.copied, carrying.complete⟩

/-- Copying one more element. -/
theorem reading_carrying {results : AnalogPin → BitVec 12} {sampler : Sampler}
    {start : Systime} {channel : Fin 4} (carrying : sampler.Carrying results)
    (pc : sampler.worker = .reading start channel) :
    Carrying results { sampler with
      rawSamples := Function.update sampler.rawSamples channel
        (sampler.internalSamples channel.rev)
      worker := .following start channel } := by
  have upTo : ∀ input ≤ channel, (Function.update sampler.rawSamples channel
      (sampler.internalSamples channel.rev) input).value =
        sampleOf (results (analogInput input)) := by
    intro input within
    by_cases same : input = channel
    · rw [same, Function.update_self]
      exact carrying.delivered.input channel
    · rw [Function.update_of_ne same]
      exact carrying.copied start channel pc input (lt_of_le_of_ne within same)
  refine ⟨carrying.converted, carrying.delivered, ?_, ?_⟩
  · intro other following pc input below
    dsimp only [AdcPc.following] at pc
    split at pc
    · cases pc
      exact upTo input (Nat.le_of_lt_succ below)
    · cases pc
  · intro other pc input
    dsimp only [AdcPc.following] at pc
    split at pc
    · cases pc
    · rename_i last
      apply upTo input
      have bound := input.isLt
      change input.val ≤ channel.val
      omega

/-- Until a new conversion is started, the worker keeps carrying the results. -/
theorem workerStep_carrying {results : AnalogPin → BitVec 12} {sampler next : Sampler}
    {now : Systime} {sampleRate : UInt8} (carrying : sampler.Carrying results)
    (taken : sampler.workerStep now sampleRate = some next)
    (same : next.conversions = sampler.conversions) : next.Carrying results := by
  rcases workerStep_cases taken with ⟨start, pc, rfl⟩ | ⟨start, channel, pc, rfl⟩ |
    ⟨start, pc, rfl⟩ | ⟨worker, rfl, _, rested⟩
  · exact absurd same (Nat.succ_ne_self _)
  · exact reading_carrying carrying pc
  · exact carrying.resting rfl rfl rfl
  · exact carrying.resting rfl rfl rested

theorem step_carrying {results : AnalogPin → BitVec 12} {sampler next : Sampler}
    {action : AdcAction} (carrying : sampler.Carrying results)
    (taken : sampler.step action = some next)
    (same : next.conversions = sampler.conversions) : next.Carrying results := by
  cases action with
  | create =>
      simp only [step, createWorker] at taken
      split at taken <;> cases taken
      exact carrying.resting rfl rfl rfl
  | converterStep value => exact converterStep_carrying carrying taken
  | workerStep now sampleRate => exact workerStep_carrying carrying taken same

/-- Conversions are started, and never taken back. -/
theorem conversions_le_of_step {sampler next : Sampler} {action : AdcAction}
    (taken : sampler.step action = some next) : sampler.conversions ≤ next.conversions := by
  cases action with
  | create =>
      simp only [step, createWorker] at taken
      split at taken <;> cases taken
      exact Nat.le_refl _
  | converterStep value =>
      simp only [step, converterStep] at taken
      split at taken <;> cases taken <;> exact Nat.le_refl _
  | workerStep now sampleRate =>
      rcases workerStep_cases taken with ⟨_, _, rfl⟩ | ⟨_, _, _, rfl⟩ | ⟨_, _, rfl⟩ | ⟨_, rfl, _⟩
      · exact Nat.le_succ _
      · exact Nat.le_refl _
      · exact Nat.le_refl _
      · exact Nat.le_refl _

/-- The results of the conversion with the given number are being carried, unless a
later one has been started. -/
def Holding (results : AnalogPin → BitVec 12) (conversion : Nat) (sampler : Sampler) : Prop :=
  conversion < sampler.conversions ∨
    sampler.conversions = conversion ∧ sampler.Carrying results

theorem step_holding {results : AnalogPin → BitVec 12} {conversion : Nat}
    {sampler next : Sampler} {action : AdcAction} (holding : sampler.Holding results conversion)
    (taken : sampler.step action = some next) : next.Holding results conversion := by
  have order := conversions_le_of_step taken
  rcases holding with later | ⟨current, carrying⟩
  · exact Or.inl (Nat.lt_of_lt_of_le later order)
  · rcases Nat.eq_or_lt_of_le order with unchanged | started
    · exact Or.inr ⟨unchanged.symm.trans current, step_carrying carrying taken unchanged.symm⟩
    · rw [current] at started
      exact Or.inl started

/-- The run lemma: however the converter and the worker are interleaved, the
results are carried until the next conversion is started. -/
theorem carrying_of_run {results : AnalogPin → BitVec 12} {sampler middle : Sampler}
    {actions : List AdcAction} (carrying : sampler.Carrying results)
    (run : runFrom step sampler actions = some middle)
    (same : middle.conversions = sampler.conversions) : middle.Carrying results := by
  have holding : middle.Holding results sampler.conversions :=
    runFrom_invariant (fun _ _ _ holds taken => step_holding holds taken) run
      (Or.inr ⟨rfl, carrying⟩)
  rcases holding with later | ⟨_, held⟩
  · exact absurd same (Nat.ne_of_gt later)
  · exact held

/-- One step of the copy. -/
theorem step_reading {sampler : Sampler} {start : Systime} {channel : Fin 4}
    (pc : sampler.worker = .reading start channel) (now : Systime) (sampleRate : UInt8) :
    ∃ next, sampler.step (.workerStep now sampleRate) = some next ∧
      next.conversions = sampler.conversions ∧ next.worker = .following start channel := by
  simp only [step, workerStep, pc]
  exact ⟨_, rfl, rfl, rfl⟩

/-- The worker that begins to copy is four steps away from its broadcast. -/
theorem reaches_broadcast {sampler : Sampler} {start : Systime}
    (begins : sampler.worker = .reading start 0) (now : Systime) (sampleRate : UInt8) :
    ∃ middle, runFrom step sampler (List.replicate 4 (.workerStep now sampleRate)) =
        some middle ∧
      middle.conversions = sampler.conversions ∧ middle.worker = .broadcasting start := by
  rcases step_reading begins now sampleRate with ⟨one, toOne, countOne, atOne⟩
  rcases step_reading atOne now sampleRate with ⟨two, toTwo, countTwo, atTwo⟩
  rcases step_reading atTwo now sampleRate with ⟨three, toThree, countThree, atThree⟩
  rcases step_reading atThree now sampleRate with ⟨four, toFour, countFour, atFour⟩
  refine ⟨four, ?_, ?_, atFour⟩
  · simp only [List.replicate, runFrom_cons, toOne, toTwo, toThree, toFour, Option.bind_some]
    rfl
  · rw [countFour, countThree, countTwo, countOne]

/-- The sensor frame is a faithful and decodable encoding.  Take any twelve-bit
results in the buffer of a complete conversion, at the point where the worker
begins to copy.  The worker reaches its broadcast; and wherever it broadcasts
before the next conversion, the frame has DLC 8, its words are the scaled values
of the inputs analog 1 to analog 4, which fit their 16 bits, its payload depends
neither on the filler nor on the previous contents of the frame variable nor on
the variables of the firmware, and no other results give the same payload. -/
theorem sensor_frame_faithful {results : AnalogPin → BitVec 12} {sampler : Sampler}
    {start : Systime} (begins : sampler.worker = .reading start 0)
    (converted : ∀ channel, sampler.converter ≠ .converting channel)
    (delivered : sampler.Delivered results) :
    (∀ now sampleRate, ∃ middle,
      runFrom step sampler (List.replicate 4 (.workerStep now sampleRate)) = some middle ∧
        middle.conversions = sampler.conversions ∧ middle.worker = .broadcasting start) ∧
    ∀ actions middle sent now sampleRate fw, runFrom step sampler actions = some middle →
      middle.conversions = sampler.conversions → middle.worker = .broadcasting sent →
      ∃ frame,
        transmissions (middle.effect (.workerStep now sampleRate) fw).trace =
          transmissions fw.trace ++ [frame] ∧
        frame.dlc = 8 ∧
        (∀ input, (loadData16 frame.data8 input).toNat =
          scaledValue (results (analogInput input))) ∧
        (∀ input, scaledValue (results (analogInput input)) < 2 ^ 16) ∧
        (∀ previous, frame =
          sensorsFrameOver previous fw fun input => (middle.rawSamples input).value) ∧
        (∀ filler, frame.data8 =
          storeSamples filler fun input => (middle.rawSamples input).value) ∧
        frame.data8 = sensorPayload results ∧
        (∀ input, decodeSensors frame.data8 input = results (analogInput input)) ∧
        ∀ other, sensorPayload other = frame.data8 → other = results := by
  have carrying : sampler.Carrying results := by
    refine ⟨converted, delivered, ?_, ?_⟩
    · intro other channel pc input below
      rw [begins] at pc
      cases pc
      exact absurd below (Fin.not_lt_zero input)
    · intro other pc
      rw [begins] at pc
      cases pc
  refine ⟨reaches_broadcast begins, ?_⟩
  intro actions middle sent now sampleRate fw run same broadcasting
  have copied := (carrying_of_run carrying run same).complete sent broadcasting
  have payload : ∀ filler, storeSamples filler (fun input => (middle.rawSamples input).value) =
      sensorPayload results := fun filler => storeSamples_results filler copied
  let frame := sensorsFrame fw fun input => (middle.rawSamples input).value
  have data : frame.data8 = sensorPayload results := payload fun _ => 0x55
  refine ⟨frame, ?_, rfl, ?_, ?_, ?_, ?_, data, ?_, ?_⟩
  · simp only [effect, broadcasting]
    exact transmissions_broadcastSensors _ fw
  · intro input
    rw [data, loadData16_sensorPayload, toNat_scale0To5Volts]
  · intro input
    exact Nat.lt_of_le_of_lt (scaledValue_le _) (by decide)
  · intro previous
    exact sensorsFrame_eq_over previous fw _
  · intro filler
    rw [data, payload filler]
  · intro input
    rw [data, decodeSensors_sensorPayload]
  · intro other equal
    exact sensorPayload_injective (equal.trans data)

/-- Results for the four channels in the order of the scan. -/
def promptResults : AnalogPin → BitVec 12
  | .pa5 => 1000
  | .pa6 => 2000
  | .pa7 => 3000
  | .pb1 => 4000

/-- The state of that converter and of the worker when the first copy begins. -/
theorem promptConversion_delivered {sampler : Sampler}
    (run : runFrom step reset (promptConversion.take 7) = some sampler) :
    sampler.worker = .reading 0 0 ∧ sampler.converter = .completing ∧
      sampler.Delivered promptResults := by
  cases run
  refine ⟨rfl, rfl, ?_⟩
  intro index pin scanned
  revert scanned
  cases pin <;> fin_cases index <;> decide

/-- The first cycle of a converter that is done before the worker copies. -/
theorem sensor_frame_faithful_prompt :
    ∃ sampler middle frame,
      runFrom step reset (promptConversion.take 7) = some sampler ∧
      runFrom step sampler (List.replicate 4 (.workerStep 0 50)) = some middle ∧
      transmissions (middle.effect (.workerStep 0 50) State.reset).trace =
        transmissions State.reset.trace ++ [frame] ∧
      ∀ input, decodeSensors frame.data8 input = promptResults (analogInput input) := by
  obtain ⟨sampler, started⟩ : ∃ sampler, runFrom step reset (promptConversion.take 7) =
      some sampler := ⟨_, rfl⟩
  rcases promptConversion_delivered started with ⟨begins, completing, delivered⟩
  have converted : ∀ channel, sampler.converter ≠ .converting channel := by
    intro channel converting
    rw [completing] at converting
    cases converting
  have faithful := sensor_frame_faithful begins converted delivered
  rcases faithful.1 0 50 with ⟨middle, run, same, broadcasting⟩
  rcases faithful.2 _ middle 0 0 50 State.reset run same broadcasting with
    ⟨frame, transmitted, _, _, _, _, _, _, decoded, _⟩
  exact ⟨sampler, middle, frame, started, run, transmitted, decoded⟩

end Sampler

end Adc
end AnalogX

import AnalogX.Adc.Timing
import AnalogX.Firmware.Api
import AnalogX.Foundations.Runs
import Mathlib.Data.Fin.Rev

namespace AnalogX
namespace Adc

/-!
# Sampling and broadcasting

A cycle of `system_adc_worker` starts a conversion, copies the four elements of
the conversion buffer, broadcasts them in one frame and goes to sleep.  The
conversion is asynchronous: `adcStartConversion` returns at once, and the
converter then writes its results one element at a time while the worker already
copies.  Nothing in the cycle waits for the completion callback.

Each buffer element carries, beside its value, the number of the conversion that
wrote it.  The number is a ghost: no step depends on it.  It makes the freshness
of a frame a statement about its four elements, whatever values the converter
delivers.
-/

open Kernel Can Firmware Foundations

/-! ## Scaling and the sensor frame -/

/-- `scale_0_to_5_volts`, read as exact arithmetic: the quotient by `0.80688`,
truncated.  For twelve-bit results it agrees with the arithmetic of the source. -/
def scale0To5Volts (rawValue : UInt16) : UInt16 :=
  UInt16.ofNat (rawValue.toNat * 100000 / 80688)

/-- The four assignments to `analog_sample.data16`. -/
def storeSamples (data8 : Fin 8 → UInt8) (rawSamples : Fin 4 → UInt16) : Fin 8 → UInt8 :=
  let data := storeData16 data8 0 (scale0To5Volts (rawSamples 0))
  let data := storeData16 data 1 (scale0To5Volts (rawSamples 1))
  let data := storeData16 data 2 (scale0To5Volts (rawSamples 2))
  storeData16 data 3 (scale0To5Volts (rawSamples 3))

/-- The frame which `system_adc_worker` builds from `raw_samples`. -/
def sensorsFrame (fw : State) (rawSamples : Fin 4 → UInt16) : CanTxFrame :=
  let analogSample := prepareCanTxMessage uninitialisedFrame canIdeExt
    (getCanBaseId fw + apiBroadcastSensorsOffset)
  { analogSample with data8 := storeSamples analogSample.data8 rawSamples }

/-- The broadcast of one cycle, with its debug line. -/
def broadcastSensors (rawSamples : Fin 4 → UInt16) (fw : State) : State :=
  (fw.canTransmit (sensorsFrame fw rawSamples)).logDebug "Sample ADC %d, %d, %d, %d\r\n"
    ((List.finRange 4).map fun channel => some (scale0To5Volts (rawSamples channel)).toNat)

@[simp] theorem transmissions_broadcastSensors (rawSamples : Fin 4 → UInt16) (fw : State) :
    transmissions (broadcastSensors rawSamples fw).trace =
      transmissions fw.trace ++ [sensorsFrame fw rawSamples] := by
  unfold broadcastSensors
  rw [transmissions_logDebug, transmissions_canTransmit]

/-! ## The converter and the worker -/

/-- An element of a sample buffer, with the conversion that wrote it; the static
initialiser belongs to none. -/
structure Sample where
  value : UInt16
  conversion : Option Nat
  deriving DecidableEq

/-- The converter is ready, or about to write the result of a channel, or about to
report the end of the conversion. -/
inductive Converter where
  | ready
  | converting (channel : Fin 4)
  | completing
  deriving DecidableEq

/-- The converter after it has written a channel. -/
def Converter.following (channel : Fin 4) : Converter :=
  if last : channel.val + 1 < 4 then .converting ⟨channel.val + 1, last⟩ else .completing

/-- Where `system_adc_worker` stands.  The time read at the start of the cycle is
its local variable. -/
inductive AdcPc where
  | notCreated
  | cycleStart
  | starting (start : Systime)
  | reading (start : Systime) (channel : Fin 4)
  | broadcasting (start : Systime)
  | computingSleep (start : Systime)
  | sleeping (ticks : Systime)
  | faulted
  deriving DecidableEq

/-- The worker after it has copied a channel. -/
def AdcPc.following (start : Systime) (channel : Fin 4) : AdcPc :=
  if last : channel.val + 1 < 4 then .reading start ⟨channel.val + 1, last⟩
  else .broadcasting start

/-- The worker, the converter and the two buffers between them. -/
structure Sampler where
  worker : AdcPc
  converter : Converter
  /-- `internal_samples`, written by the converter. -/
  internalSamples : Fin 4 → Sample
  /-- `adc_samples.raw_samples`, written by the worker. -/
  rawSamples : Fin 4 → Sample
  /-- The conversions started so far. -/
  conversions : Nat
  /-- What the sensor frames sent so far were built from. -/
  broadcasts : List (Fin 4 → Sample)

/-- A step of the sampling subsystem.  A step of the worker is given the system
time and the sample rate, which it may read. -/
inductive AdcAction where
  | create
  | converterStep (value : UInt16)
  | workerStep (now : Systime) (sampleRate : UInt8)

namespace Sampler

/-- Both buffers start with the zeros of their initialisers. -/
def reset : Sampler where
  worker := .notCreated
  converter := .ready
  internalSamples := fun _ => ⟨0, none⟩
  rawSamples := fun _ => ⟨0, none⟩
  conversions := 0
  broadcasts := []

/-- `adcStartConversion`.  Starting again while a conversion is active, against
the assertion of the driver, abandons that conversion. -/
def adcStartConversion (sampler : Sampler) : Sampler :=
  { sampler with converter := .converting 0, conversions := sampler.conversions + 1 }

/-- The converter writes one result, or reports the end.  `adccallback` assigns
the first element of the buffer to itself. -/
def converterStep (value : UInt16) (sampler : Sampler) : Option Sampler :=
  match sampler.converter with
  | .ready => none
  | .converting channel =>
      some { sampler with
        internalSamples := Function.update sampler.internalSamples channel
          ⟨value, some (sampler.conversions - 1)⟩
        converter := .following channel }
  | .completing =>
      some { sampler with
        internalSamples := Function.update sampler.internalSamples 0 (sampler.internalSamples 0)
        converter := .ready }

/-- One step of `system_adc_worker`, with `system_adc_sample` inlined.  The copy
reverses the channels, so the element written last is read first. -/
def workerStep (now : Systime) (sampleRate : UInt8) (sampler : Sampler) : Option Sampler :=
  match sampler.worker with
  | .notCreated => none
  | .cycleStart => some { sampler with worker := .starting now }
  | .starting start => some { sampler.adcStartConversion with worker := .reading start 0 }
  | .reading start channel =>
      some { sampler with
        rawSamples := Function.update sampler.rawSamples channel
          (sampler.internalSamples channel.rev)
        worker := .following start channel }
  | .broadcasting start =>
      some { sampler with
        broadcasts := sampler.broadcasts ++ [sampler.rawSamples]
        worker := .computingSleep start }
  | .computingSleep start =>
      match sleepArgument sampleRate start now with
      | none => some { sampler with worker := .faulted }
      | some ticks => some { sampler with worker := .sleeping ticks }
  | .sleeping _ => some { sampler with worker := .cycleStart }
  | .faulted => none

/-- `main` creates the thread. -/
def createWorker (sampler : Sampler) : Option Sampler :=
  if sampler.worker = .notCreated then some { sampler with worker := .cycleStart } else none

/-- One step of the sampling subsystem. -/
def step (sampler : Sampler) : AdcAction → Option Sampler
  | .create => sampler.createWorker
  | .converterStep value => sampler.converterStep value
  | .workerStep now sampleRate => sampler.workerStep now sampleRate

/-- What the same step does to the variables of the firmware. -/
def effect (sampler : Sampler) : AdcAction → State → State
  | .workerStep _ _, fw =>
      match sampler.worker with
      | .broadcasting _ => broadcastSensors (fun channel => (sampler.rawSamples channel).value) fw
      | _ => fw
  | _, fw => fw

/-- A thread that takes a step has been created. -/
theorem workerStep_created {sampler next : Sampler} {now : Systime} {sampleRate : UInt8}
    (taken : sampler.workerStep now sampleRate = some next) : sampler.worker ≠ .notCreated := by
  intro absent
  rw [workerStep, absent] at taken
  cases taken

/-- The converter touches nothing that belongs to the worker. -/
theorem converterStep_keeps {sampler next : Sampler} {value : UInt16}
    (taken : sampler.converterStep value = some next) :
    next.worker = sampler.worker ∧ next.rawSamples = sampler.rawSamples ∧
      next.broadcasts = sampler.broadcasts := by
  unfold converterStep at taken
  split at taken
  · cases taken
  · cases taken
    exact ⟨rfl, rfl, rfl⟩
  · cases taken
    exact ⟨rfl, rfl, rfl⟩

/-- What the step hands to the broadcast of a cycle. -/
def sending (sampler : Sampler) : AdcAction → List (Fin 4 → Sample)
  | .workerStep _ _ =>
      match sampler.worker with
      | .broadcasting _ => [sampler.rawSamples]
      | _ => []
  | _ => []

/-- The history of broadcasts grows by what is sent. -/
theorem step_broadcasts {sampler next : Sampler} {action : AdcAction}
    (taken : sampler.step action = some next) :
    next.broadcasts = sampler.broadcasts ++ sampler.sending action := by
  cases action with
  | create =>
      simp only [step, createWorker] at taken
      split at taken <;> cases taken
      exact (List.append_nil _).symm
  | converterStep value =>
      rw [(converterStep_keeps taken).2.2]
      exact (List.append_nil _).symm
  | workerStep now sampleRate =>
      simp only [step, workerStep] at taken
      unfold sending
      split at taken
      case h_6 pc =>
        split at taken <;> cases taken <;> simp [pc]
      all_goals cases taken <;> simp [adcStartConversion, *]

/-! ## Where the elements of the buffer come from -/

/-- The number of conversions whose samples the worker has yet to broadcast. -/
def inProgress (sampler : Sampler) : Nat :=
  match sampler.worker with
  | .reading _ _ | .broadcasting _ => 1
  | _ => 0

/-- A step of the worker starts a conversion, copies an element, broadcasts the copy,
or only moves the worker outside of these. -/
theorem workerStep_cases {sampler next : Sampler} {now : Systime} {sampleRate : UInt8}
    (taken : sampler.workerStep now sampleRate = some next) :
    (∃ start, sampler.worker = .starting start ∧
      next = { sampler.adcStartConversion with worker := .reading start 0 }) ∨
    (∃ start channel, sampler.worker = .reading start channel ∧
      next = { sampler with
        rawSamples := Function.update sampler.rawSamples channel
          (sampler.internalSamples channel.rev)
        worker := .following start channel }) ∨
    (∃ start, sampler.worker = .broadcasting start ∧
      next = { sampler with
        broadcasts := sampler.broadcasts ++ [sampler.rawSamples]
        worker := .computingSleep start }) ∨
    ∃ worker, next = { sampler with worker := worker } ∧
      sampler.inProgress = 0 ∧ next.inProgress = 0 := by
  unfold workerStep at taken
  split at taken
  case h_3 start pc =>
    cases taken
    exact Or.inl ⟨start, pc, rfl⟩
  case h_4 start channel pc =>
    cases taken
    exact Or.inr (Or.inl ⟨start, channel, pc, rfl⟩)
  case h_5 start pc =>
    cases taken
    exact Or.inr (Or.inr (Or.inl ⟨start, pc, rfl⟩))
  case h_6 start pc =>
    split at taken <;> cases taken <;>
      exact Or.inr (Or.inr (Or.inr ⟨_, rfl, by simp [inProgress, pc], rfl⟩))
  all_goals
    cases taken <;> exact Or.inr (Or.inr (Or.inr ⟨_, rfl, by simp [inProgress, *], rfl⟩))

/-- The converter has not yet written the given channel of its conversion. -/
def Awaits (sampler : Sampler) (channel : Fin 4) : Prop :=
  ∃ next, sampler.converter = .converting next ∧ next ≤ channel

/-- The bookkeeping of every reachable state: which conversion the worker is at,
and which elements of the buffer belong to it. -/
structure Tracked (sampler : Sampler) : Prop where
  count : sampler.conversions = sampler.broadcasts.length + sampler.inProgress
  active : ∀ channel, sampler.converter = .converting channel → 0 < sampler.conversions
  past : ∀ channel conversion,
    (sampler.internalSamples channel).conversion = some conversion →
      conversion < sampler.conversions
  awaited : ∀ channel, sampler.Awaits channel →
    (sampler.internalSamples channel).conversion ≠ some (sampler.conversions - 1)
  written : ∀ channel, ¬ sampler.Awaits channel → 0 < sampler.conversions →
    (sampler.internalSamples channel).conversion = some (sampler.conversions - 1)

theorem reset_tracked : Tracked reset := by
  constructor <;> simp [reset, inProgress, Awaits]

/-- After a write the converter awaits the channels above. -/
theorem following_awaits (channel other : Fin 4) :
    (∃ next, Converter.following channel = .converting next ∧ next ≤ other) ↔
      channel < other := by
  unfold Converter.following
  split
  · rename_i last
    constructor
    · rintro ⟨next, same, below⟩
      cases same
      exact Nat.lt_of_succ_le below
    · intro above
      exact ⟨⟨channel.val + 1, last⟩, rfl, Nat.succ_le_of_lt above⟩
  · rename_i last
    constructor
    · rintro ⟨next, same, _⟩
      cases same
    · intro above
      have bound := other.isLt
      have order : channel.val < other.val := above
      omega

/-- Writing the next element of the current conversion. -/
theorem writing_tracked {sampler : Sampler} {channel : Fin 4} (value : UInt16)
    (tracked : sampler.Tracked) (converting : sampler.converter = .converting channel) :
    Tracked { sampler with
      internalSamples := Function.update sampler.internalSamples channel
        ⟨value, some (sampler.conversions - 1)⟩
      converter := .following channel } := by
  have positive := tracked.active channel converting
  constructor
  · exact tracked.count
  · intro _ _
    exact positive
  · intro other conversion origin
    dsimp only at origin
    by_cases same : other = channel
    · rw [same, Function.update_self] at origin
      cases origin
      exact Nat.sub_lt positive Nat.one_pos
    · rw [Function.update_of_ne same] at origin
      exact tracked.past other conversion origin
  · intro other awaits
    have above := (following_awaits channel other).mp awaits
    dsimp only
    rw [Function.update_of_ne (Fin.ne_of_gt above)]
    exact tracked.awaited other ⟨channel, converting, Fin.le_of_lt above⟩
  · intro other idle _
    have notAbove : ¬ channel < other := mt (following_awaits channel other).mpr idle
    dsimp only
    by_cases same : other = channel
    · rw [same, Function.update_self]
    · rw [Function.update_of_ne same]
      apply tracked.written other ?_ positive
      rintro ⟨next, at_, below⟩
      rw [converting] at at_
      cases at_
      exact notAbove (lt_of_le_of_ne below (Ne.symm same))

theorem converterStep_tracked {sampler next : Sampler} {value : UInt16}
    (tracked : sampler.Tracked) (taken : sampler.converterStep value = some next) :
    next.Tracked := by
  unfold converterStep at taken
  split at taken
  · cases taken
  · rename_i channel converting
    cases taken
    exact writing_tracked value tracked converting
  · rename_i completing
    cases taken
    rw [Function.update_eq_self]
    refine ⟨tracked.count, ?_, tracked.past, ?_, ?_⟩
    · intro channel converting
      cases converting
    · rintro channel ⟨next, converting, _⟩
      cases converting
    · intro channel _ positive
      apply tracked.written channel ?_ positive
      rintro ⟨next, converting, _⟩
      rw [completing] at converting
      cases converting

/-- A new conversion awaits every element, and all of them are older. -/
theorem starting_tracked {sampler : Sampler} {start : Systime} (tracked : sampler.Tracked)
    (pc : sampler.worker = .starting start) :
    Tracked { sampler.adcStartConversion with worker := .reading start 0 } := by
  have count := tracked.count
  have past := tracked.past
  unfold inProgress at count
  rw [pc] at count
  unfold adcStartConversion
  constructor
  · exact congrArg (· + 1) count
  · intro _ _
    exact Nat.succ_pos _
  · intro channel conversion origin
    exact Nat.lt_succ_of_lt (past channel conversion origin)
  · intro channel _ origin
    exact absurd (past channel _ origin) (Nat.lt_irrefl _)
  · intro channel idle
    exact absurd ⟨0, rfl, Fin.zero_le channel⟩ idle

/-- A step of the worker that leaves converter and buffer alone only has to keep
the count of its broadcasts. -/
theorem Tracked.transfer {sampler next : Sampler} (tracked : sampler.Tracked)
    (converter : next.converter = sampler.converter)
    (buffer : next.internalSamples = sampler.internalSamples)
    (conversions : next.conversions = sampler.conversions)
    (unsent : next.broadcasts.length + next.inProgress =
      sampler.broadcasts.length + sampler.inProgress) :
    next.Tracked := by
  have awaits : ∀ channel, next.Awaits channel ↔ sampler.Awaits channel := by
    intro channel
    unfold Awaits
    rw [converter]
  constructor
  · rw [conversions, unsent]
    exact tracked.count
  · rw [converter, conversions]
    exact tracked.active
  · rw [buffer, conversions]
    exact tracked.past
  · intro channel awaited
    rw [buffer, conversions]
    exact tracked.awaited channel ((awaits channel).mp awaited)
  · intro channel idle
    rw [buffer, conversions]
    exact tracked.written channel (mt (awaits channel).mpr idle)

theorem workerStep_tracked {sampler next : Sampler} {now : Systime} {sampleRate : UInt8}
    (tracked : sampler.Tracked) (taken : sampler.workerStep now sampleRate = some next) :
    next.Tracked := by
  rcases workerStep_cases taken with ⟨start, pc, rfl⟩ | ⟨start, channel, pc, rfl⟩ |
    ⟨start, pc, rfl⟩ | ⟨worker, rfl, resting, rested⟩
  · exact starting_tracked tracked pc
  · refine tracked.transfer rfl rfl rfl ?_
    unfold inProgress AdcPc.following
    rw [pc]
    by_cases last : channel.val + 1 < 4 <;> simp [last]
  · refine tracked.transfer rfl rfl rfl ?_
    simp [inProgress, pc]
  · refine tracked.transfer rfl rfl rfl ?_
    rw [resting, rested]

theorem createWorker_tracked {sampler next : Sampler} (tracked : sampler.Tracked)
    (taken : sampler.createWorker = some next) : next.Tracked := by
  unfold createWorker at taken
  split at taken
  · rename_i pc
    cases taken
    refine tracked.transfer rfl rfl rfl ?_
    simp [inProgress, pc]
  · cases taken

theorem step_tracked {sampler next : Sampler} {action : AdcAction}
    (tracked : sampler.Tracked) (taken : sampler.step action = some next) : next.Tracked := by
  cases action with
  | create => exact createWorker_tracked tracked taken
  | converterStep value => exact converterStep_tracked tracked taken
  | workerStep now sampleRate => exact workerStep_tracked tracked taken

/-! ## Coherent broadcasts -/

/-- The `n`-th frame was built from results of the `n`-th conversion only. -/
def Coherent (sampler : Sampler) : Prop :=
  ∀ n (samples : Fin 4 → Sample), sampler.broadcasts[n]? = some samples →
    ∀ channel, (samples channel).conversion = some n

/-- The worker is about to copy the first element of a cycle. -/
def BeginsCopy (sampler : Sampler) : Prop :=
  ∃ start, sampler.worker = .reading start 0

/-- The worker begins to copy only after the converter has written everything. -/
def CopiesAfterConversion (sampler : Sampler) (action : AdcAction) : Prop :=
  ∀ now sampleRate, action = .workerStep now sampleRate → sampler.BeginsCopy →
    ∀ channel, sampler.converter ≠ .converting channel

/-- What the worker has copied so far belongs to the conversion of its cycle. -/
structure Fresh (sampler : Sampler) : Prop extends sampler.Tracked where
  copied : ∀ start channel, sampler.worker = .reading start channel →
    ∀ earlier < channel, (∀ next, sampler.converter ≠ .converting next) ∧
      (sampler.rawSamples earlier).conversion = some (sampler.conversions - 1)
  complete : ∀ start, sampler.worker = .broadcasting start →
    ∀ channel, (sampler.rawSamples channel).conversion = some (sampler.conversions - 1)
  coherent : sampler.Coherent

theorem reset_fresh : Fresh reset := by
  refine ⟨reset_tracked, ?_, ?_, ?_⟩ <;> simp [reset, Coherent]

theorem converterStep_fresh {sampler next : Sampler} {value : UInt16} (fresh : sampler.Fresh)
    (taken : sampler.converterStep value = some next) : next.Fresh := by
  have tracked := converterStep_tracked fresh.toTracked taken
  obtain ⟨_, copied, complete, coherent⟩ := fresh
  unfold converterStep at taken
  split at taken
  · cases taken
  · rename_i channel converting
    cases taken
    refine ⟨tracked, ?_, complete, coherent⟩
    intro start reached pc earlier before
    exact absurd converting ((copied start reached pc earlier before).1 channel)
  · cases taken
    refine ⟨tracked, ?_, complete, coherent⟩
    intro start reached pc earlier before
    exact ⟨fun next converting => Converter.noConfusion converting,
      (copied start reached pc earlier before).2⟩

/-- Copying an element, once the conversion of the cycle has been written. -/
theorem reading_fresh {sampler : Sampler} {start : Systime} {channel : Fin 4}
    (fresh : sampler.Fresh) (pc : sampler.worker = .reading start channel)
    (finished : ∀ next, sampler.converter ≠ .converting next) :
    ∀ earlier ≤ channel,
      (Function.update sampler.rawSamples channel (sampler.internalSamples channel.rev)
        earlier).conversion = some (sampler.conversions - 1) := by
  have positive : 0 < sampler.conversions := by
    rw [fresh.count, inProgress, pc]
    exact Nat.succ_pos _
  intro earlier before
  by_cases same : earlier = channel
  · subst same
    rw [Function.update_self]
    apply fresh.written _ _ positive
    rintro ⟨next, converting, _⟩
    exact finished next converting
  · rw [Function.update_of_ne same]
    exact (fresh.copied start channel pc earlier (lt_of_le_of_ne before same)).2

/-- Between two cycles nothing is copied, and only past broadcasts matter. -/
theorem Fresh.of_resting {sampler : Sampler} (tracked : sampler.Tracked)
    (coherent : sampler.Coherent) (resting : sampler.inProgress = 0) : sampler.Fresh := by
  unfold inProgress at resting
  refine ⟨tracked, ?_, ?_, coherent⟩
  · intro start channel pc
    rw [pc] at resting
    cases resting
  · intro start pc
    rw [pc] at resting
    cases resting

/-- A broadcast of elements of the current conversion keeps the history coherent. -/
theorem coherent_append {broadcasts : List (Fin 4 → Sample)} {samples : Fin 4 → Sample}
    (coherent : ∀ n (old : Fin 4 → Sample), broadcasts[n]? = some old →
      ∀ channel, (old channel).conversion = some n)
    (current : ∀ channel, (samples channel).conversion = some broadcasts.length) :
    ∀ n (sent : Fin 4 → Sample), (broadcasts ++ [samples])[n]? = some sent →
      ∀ channel, (sent channel).conversion = some n := by
  intro n sent found
  rcases Nat.lt_trichotomy n broadcasts.length with before | last | beyond
  · rw [List.getElem?_append_left before] at found
    exact coherent n sent found
  · subst last
    rw [List.getElem?_concat_length] at found
    cases found
    exact current
  · rw [List.getElem?_eq_none (by rw [List.length_append, List.length_singleton]; omega)] at found
    cases found

/-- The copy goes on with the next channel, or is complete. -/
theorem following_cases (start : Systime) (channel : Fin 4) :
    (∃ next, AdcPc.following start channel = .reading start next ∧
      next.val = channel.val + 1) ∨
    (AdcPc.following start channel = .broadcasting start ∧ channel.val = 3) := by
  unfold AdcPc.following
  split
  · rename_i last
    exact Or.inl ⟨⟨channel.val + 1, last⟩, rfl, rfl⟩
  · have bound := channel.isLt
    exact Or.inr ⟨rfl, by omega⟩

theorem workerStep_fresh {sampler next : Sampler} {now : Systime} {sampleRate : UInt8}
    (fresh : sampler.Fresh)
    (allowed : sampler.CopiesAfterConversion (.workerStep now sampleRate))
    (taken : sampler.workerStep now sampleRate = some next) : next.Fresh := by
  have tracked := workerStep_tracked fresh.toTracked taken
  have coherent := fresh.coherent
  rcases workerStep_cases taken with ⟨start, pc, rfl⟩ | ⟨start, channel, pc, rfl⟩ |
    ⟨start, pc, rfl⟩ | ⟨worker, rfl, _, rested⟩
  · refine ⟨tracked, ?_, ?_, coherent⟩
    · intro start channel pc earlier before
      cases pc
      exact absurd before (Fin.not_lt_zero earlier)
    · intro start pc
      cases pc
  · have finished : ∀ next, sampler.converter ≠ .converting next := by
      by_cases first : channel = 0
      · subst first
        exact allowed now sampleRate rfl ⟨start, pc⟩
      · exact (fresh.copied start channel pc 0 (Fin.pos_of_ne_zero first)).1
    have current := reading_fresh fresh pc finished
    refine ⟨tracked, ?_, ?_, coherent⟩
    · intro later reached target earlier before
      refine ⟨finished, current earlier ?_⟩
      change AdcPc.following start channel = _ at target
      rcases following_cases start channel with ⟨next, moved, successor⟩ | ⟨moved, _⟩
      · have order : earlier.val < reached.val := before
        rw [moved] at target
        cases target
        exact Fin.le_def.mpr (by omega)
      · rw [moved] at target
        cases target
    · intro later target earlier
      refine current earlier ?_
      change AdcPc.following start channel = _ at target
      rcases following_cases start channel with ⟨next, moved, _⟩ | ⟨_, last⟩
      · rw [moved] at target
        cases target
      · have bound := earlier.isLt
        exact Fin.le_def.mpr (by omega)
  · have complete := fresh.complete start pc
    have count := fresh.count
    rw [inProgress, pc] at count
    rw [count] at complete
    exact .of_resting tracked (coherent_append coherent complete) rfl
  · exact .of_resting tracked coherent rested

theorem step_fresh {sampler next : Sampler} {action : AdcAction} (fresh : sampler.Fresh)
    (allowed : sampler.CopiesAfterConversion action)
    (taken : sampler.step action = some next) : next.Fresh := by
  cases action with
  | create =>
      have tracked := createWorker_tracked fresh.toTracked taken
      have coherent := fresh.coherent
      simp only [step, createWorker] at taken
      split at taken
      · cases taken
        exact .of_resting tracked coherent rfl
      · cases taken
  | converterStep value => exact converterStep_fresh fresh taken
  | workerStep now sampleRate => exact workerStep_fresh fresh allowed taken

/-! ## A copy that came too early -/

/-- The frame in the making, or one already sent, has an element that does not
belong to its conversion. -/
def Stale (sampler : Sampler) : Prop :=
  (sampler.rawSamples 0).conversion ≠ some sampler.broadcasts.length ∧
      ((∃ start channel, sampler.worker = .reading start channel ∧ 0 < channel) ∨
        ∃ start, sampler.worker = .broadcasting start) ∨
    ¬ sampler.Coherent

theorem Coherent.of_extension {sampler next : Sampler} (coherent : next.Coherent)
    (grows : sampler.broadcasts <+: next.broadcasts) : sampler.Coherent := by
  intro n samples found
  rcases grows with ⟨later, whole⟩
  apply coherent n samples
  rw [← whole, List.getElem?_append_left (List.getElem?_eq_some_iff.mp found).1, found]

/-- A stale copy is carried on by the worker into its frame. -/
theorem workerStep_stale {sampler next : Sampler} {now : Systime} {sampleRate : UInt8}
    (wrong : (sampler.rawSamples 0).conversion ≠ some sampler.broadcasts.length)
    (phase : (∃ start channel, sampler.worker = .reading start channel ∧ 0 < channel) ∨
      ∃ start, sampler.worker = .broadcasting start)
    (taken : sampler.workerStep now sampleRate = some next) : next.Stale := by
  rcases phase with ⟨start, channel, pc, later⟩ | ⟨start, pc⟩
  · simp only [workerStep, pc] at taken
    cases taken
    refine Or.inl ⟨?_, ?_⟩
    · change (Function.update sampler.rawSamples channel (sampler.internalSamples channel.rev)
        0).conversion ≠ some sampler.broadcasts.length
      rw [Function.update_of_ne (Fin.ne_of_lt later)]
      exact wrong
    · rcases following_cases start channel with ⟨next, moved, successor⟩ | ⟨moved, _⟩
      · refine Or.inl ⟨start, next, moved, Fin.lt_def.mpr ?_⟩
        rw [successor]
        exact Nat.succ_pos _
      · exact Or.inr ⟨start, moved⟩
  · simp only [workerStep, pc] at taken
    cases taken
    refine Or.inr ?_
    intro coherent
    exact wrong (coherent _ _ List.getElem?_concat_length 0)

theorem step_stale {sampler next : Sampler} {action : AdcAction} (stale : sampler.Stale)
    (taken : sampler.step action = some next) : next.Stale := by
  rcases stale with ⟨wrong, phase⟩ | incoherent
  · cases action with
    | create =>
        simp only [step, createWorker] at taken
        split at taken
        · rename_i absent
          simp [absent] at phase
        · cases taken
    | converterStep value =>
        rcases converterStep_keeps taken with ⟨worker, rawSamples, broadcasts⟩
        refine Or.inl ⟨?_, ?_⟩
        · rw [rawSamples, broadcasts]
          exact wrong
        · rw [worker]
          exact phase
    | workerStep now sampleRate => exact workerStep_stale wrong phase taken
  · have grows : sampler.broadcasts <+: next.broadcasts := ⟨_, (step_broadcasts taken).symm⟩
    exact Or.inr fun coherent => incoherent (coherent.of_extension grows)

/-- Copying the first element while the converter still writes: it is the element
the converter writes last, so it is left from before. -/
theorem stale_of_early {sampler next : Sampler} {now : Systime} {sampleRate : UInt8}
    {start : Systime} {channel : Fin 4} (tracked : sampler.Tracked)
    (pc : sampler.worker = .reading start 0)
    (converting : sampler.converter = .converting channel)
    (taken : sampler.workerStep now sampleRate = some next) : next.Stale := by
  have older := tracked.awaited 3 ⟨channel, converting, Fin.le_last channel⟩
  have count := tracked.count
  rw [inProgress, pc] at count
  rw [count] at older
  simp only [workerStep, pc] at taken
  cases taken
  refine Or.inl ⟨?_, Or.inl ⟨start, 1, rfl, by decide⟩⟩
  change (Function.update sampler.rawSamples 0 (sampler.internalSamples 3) 0).conversion ≠
    some sampler.broadcasts.length
  rw [Function.update_self]
  exact older

/-! ## Freshness over a run -/

/-- The run lemma for cycles that wait for their conversion. -/
theorem fresh_of_guarded {actions : List AdcAction} {sampler : Sampler}
    (guarded : Guarded step CopiesAfterConversion reset actions)
    (run : runFrom step reset actions = some sampler) : sampler.Fresh :=
  guarded.invariant (fun _ _ _ holds allowed taken => step_fresh holds allowed taken) run
    reset_fresh

/-- For every interleaving of the worker with the converter, whatever the system
time, the sample rate and the results: if every cycle begins to copy only after
its conversion has been written, every frame sent so far carries the four results
of its own conversion.  Between cycles the condition is also necessary. -/
theorem broadcasts_coherent_iff {actions : List AdcAction} {sampler : Sampler}
    (run : runFrom step reset actions = some sampler) :
    (Guarded step CopiesAfterConversion reset actions → sampler.Coherent) ∧
      (sampler.inProgress = 0 → sampler.Coherent →
        Guarded step CopiesAfterConversion reset actions) := by
  constructor
  · intro guarded
    exact (fresh_of_guarded guarded run).coherent
  · intro resting coherent
    rcases guarded_or_violation run with guarded | violation
    · exact guarded
    · rcases violation with ⟨before, action, after, middle, next, _, reached, early, taken, rest⟩
      have tracked : middle.Tracked :=
        runFrom_invariant (fun _ _ _ holds taken => step_tracked holds taken) reached
          reset_tracked
      have stale : next.Stale := by
        unfold CopiesAfterConversion at early
        push Not at early
        rcases early with ⟨now, sampleRate, isWorker, ⟨start, pc⟩, channel, converting⟩
        subst isWorker
        exact stale_of_early tracked pc converting taken
      have final : sampler.Stale :=
        runFrom_invariant (fun _ _ _ holds taken => step_stale holds taken) rest stale
      rcases final with ⟨_, phase⟩ | incoherent
      · exfalso
        unfold inProgress at resting
        rcases phase with ⟨start, channel, pc, _⟩ | ⟨start, pc⟩ <;> simp [pc] at resting
      · exact absurd coherent incoherent

/-- The first cycle at the default rate, with a converter that writes its results
only while the worker sleeps. -/
def slowConversion : List AdcAction :=
  [.create, .workerStep 0 50, .workerStep 0 50, .workerStep 0 50, .workerStep 0 50,
    .workerStep 0 50, .workerStep 0 50, .workerStep 0 50, .workerStep 0 50,
    .converterStep 1000, .converterStep 2000, .converterStep 3000, .converterStep 4000,
    .converterStep 0]

/-- The first frame carries the zeros the buffer was initialised with. -/
theorem slowConversion_incoherent :
    ∃ sampler, runFrom step reset slowConversion = some sampler ∧
      sampler.broadcasts = [fun _ => ⟨0, none⟩] ∧ ¬ sampler.Coherent := by
  refine ⟨_, rfl, ?_, ?_⟩
  · decide
  · intro coherent
    exact absurd (coherent 0 _ rfl 0) (by decide)

/-- The same cycle with a converter that is done before the worker copies. -/
def promptConversion : List AdcAction :=
  [.create, .workerStep 0 50, .workerStep 0 50, .converterStep 1000, .converterStep 2000,
    .converterStep 3000, .converterStep 4000, .workerStep 0 50, .workerStep 0 50,
    .workerStep 0 50, .workerStep 0 50, .workerStep 0 50]

/-- What its frame is built from: the four results, in reverse order. -/
def promptSamples : Fin 4 → Sample :=
  ![⟨4000, some 0⟩, ⟨3000, some 0⟩, ⟨2000, some 0⟩, ⟨1000, some 0⟩]

theorem coherent_of_promptSamples {sampler : Sampler}
    (sent : sampler.broadcasts = [promptSamples]) : sampler.Coherent := by
  intro n samples found
  rw [sent, List.getElem?_singleton] at found
  split at found
  · rename_i first
    cases found
    rw [first]
    decide
  · cases found

/-- Both directions at that cycle. -/
theorem promptConversion_coherent :
    ∃ sampler, runFrom step reset promptConversion = some sampler ∧
      sampler.broadcasts = [promptSamples] ∧ sampler.Coherent ∧
      Guarded step CopiesAfterConversion reset promptConversion ∧
      (Guarded step CopiesAfterConversion reset promptConversion → sampler.Coherent) := by
  refine ⟨_, rfl, ?_⟩
  have sent : ∀ sampler, runFrom step reset promptConversion = some sampler →
      sampler.broadcasts = [promptSamples] := by
    intro sampler run
    cases run
    decide
  have coherent := coherent_of_promptSamples (sent _ rfl)
  exact ⟨sent _ rfl, coherent, (broadcasts_coherent_iff rfl).2 rfl coherent,
    (broadcasts_coherent_iff rfl).1⟩

end Sampler

end Adc
end AnalogX

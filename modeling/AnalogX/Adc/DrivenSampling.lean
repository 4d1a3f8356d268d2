import AnalogX.Adc.Sampling
import AnalogX.Hal.AdcDriver

namespace AnalogX
namespace Adc

open Kernel Foundations Hal

/-!
# Sampling on the driver

The sampling subsystem abstracts from the driver: its converter is ready, at a channel, or
about to report the end.  Here the worker runs on the driver itself, with the DMA stream
and both interrupt handlers, and every run of it is a run of the sampling subsystem.

The abstraction rests on what the driver asserts, that a conversion is not started while
one is active, and on a conversion that is not disturbed by an overrun or a bus error.
-/

/-- The worker and the driver. -/
structure DrivenSampler where
  worker : AdcPc
  driver : AdcDriver Sample
  rawSamples : Fin 4 → Sample
  conversions : Nat
  broadcasts : List (Fin 4 → Sample)

/-- A step of the worker, or of the driver and its hardware. -/
inductive DrivenAction where
  | create
  | workerStep (now : Systime) (sampleRate : UInt8)
  | driver (action : AdcDriver.Action UInt16)

namespace DrivenSampler

/-- What the driver does, in terms of the abstract converter. -/
def converterOf (driver : AdcDriver Sample) : Converter :=
  if driver.state = .active then
    if left : driver.dma.size - driver.dma.remaining < 4 then
      .converting ⟨driver.dma.size - driver.dma.remaining, left⟩
    else .completing
  else .ready

/-- The sampling subsystem the driver stands for. -/
def toSampler (driven : DrivenSampler) : Sampler where
  worker := driven.worker
  converter := converterOf driven.driver
  internalSamples := fun channel => driven.driver.samples channel.val
  rawSamples := driven.rawSamples
  conversions := driven.conversions
  broadcasts := driven.broadcasts

/-- At reset the buffers hold the zeros of their initialisers, and `system_adc_init` has
started the driver. -/
def reset : DrivenSampler where
  worker := .notCreated
  driver := AdcDriver.adcStart fun _ => ⟨0, none⟩
  rawSamples := fun _ => ⟨0, none⟩
  conversions := 0
  broadcasts := []

/-- The driver after a step of the worker, which calls it at one place. -/
def afterWorker (driven : DrivenSampler) : AdcDriver Sample :=
  match driven.worker with
  | .starting _ => driven.driver.adcStartConversion adcgrpcfg1 1
  | _ => driven.driver

/-- The variables of the worker after a step. -/
def resume (driver : AdcDriver Sample) (sampler : Sampler) : DrivenSampler where
  worker := sampler.worker
  driver := driver
  rawSamples := sampler.rawSamples
  conversions := sampler.conversions
  broadcasts := sampler.broadcasts

/-- Results carry the number of the conversion that is in progress. -/
def tagged (conversions : Nat) : AdcDriver.Action UInt16 → AdcDriver.Action Sample
  | .start => .start
  | .transfer value => .transfer ⟨value, some (conversions - 1)⟩
  | .overrun => .overrun
  | .watchdog => .watchdog
  | .busError => .busError
  | .dmaInterrupt => .dmaInterrupt
  | .adcInterrupt => .adcInterrupt

/-- One step.  The code of the worker is the one of the sampling subsystem; only the start
of a conversion goes to the driver. -/
def step (driven : DrivenSampler) : DrivenAction → Option DrivenSampler
  | .create => driven.toSampler.createWorker.map (resume driven.driver)
  | .workerStep now sampleRate =>
      (driven.toSampler.workerStep now sampleRate).map (resume driven.afterWorker)
  | .driver .start => none
  | .driver action =>
      (driven.driver.step adcgrpcfg1 1 (tagged driven.conversions action)).map
        fun driver => { driven with driver := driver }

/-- The assertion of the driver, and a conversion without errors. -/
def Undisturbed (driven : DrivenSampler) : DrivenAction → Prop
  | .workerStep _ _ =>
      match driven.worker with
      | .starting _ => driven.driver.state ≠ .active
      | _ => True
  | .driver .overrun => False
  | .driver .busError => False
  | _ => True

instance (driven : DrivenSampler) (action : DrivenAction) :
    Decidable (driven.Undisturbed action) :=
  match action with
  | .create => inferInstanceAs (Decidable True)
  | .workerStep _ _ =>
      match worker : driven.worker with
      | .starting _ =>
          decidable_of_iff (driven.driver.state ≠ .active) (by simp only [Undisturbed, worker])
      | .notCreated | .cycleStart | .reading _ _ | .broadcasting _ | .computingSleep _
      | .sleeping _ | .faulted => isTrue (by simp only [Undisturbed, worker])
  | .driver .overrun => inferInstanceAs (Decidable False)
  | .driver .busError => inferInstanceAs (Decidable False)
  | .driver .start | .driver (.transfer _) | .driver .watchdog | .driver .dmaInterrupt
  | .driver .adcInterrupt => inferInstanceAs (Decidable True)

/-! ## The states of an undisturbed driver -/

/-- The registers while the driver serves a state of the abstract converter. -/
inductive Serves : AdcDriver Sample → Converter → Prop where
  | ready {driver : AdcDriver Sample} (state : driver.state = .ready)
      (grpp : driver.grpp = none) (sound : driver.faulted = false)
      (dma : driver.dma = dmaStreamDisable driver.dma)
      (adc : driver.adc = { driver.adc with
        adstart := false, awden := false, ovr := false, awd := false }) :
      Serves driver .ready
  | converting {driver : AdcDriver Sample} (channel : Fin 4) (half : Bool)
      (state : driver.state = .active) (grpp : driver.grpp = some adcgrpcfg1)
      (sound : driver.faulted = false)
      (dma : driver.dma = ⟨true, true, false, false, 4, 4 - channel.val, false, half, false⟩)
      (adc : driver.adc = ⟨true, false, false, 4, channel.val, false, false⟩) :
      Serves driver (.converting channel)
  | completing {driver : AdcDriver Sample} (half : Bool)
      (state : driver.state = .active) (grpp : driver.grpp = some adcgrpcfg1)
      (sound : driver.faulted = false)
      (dma : driver.dma = ⟨true, true, false, false, 4, 0, true, half, false⟩)
      (adc : driver.adc = ⟨false, false, false, 4, 0, false, false⟩) :
      Serves driver .completing

theorem Serves.converterOf_eq {driver : AdcDriver Sample} {converter : Converter}
    (serves : Serves driver converter) : converterOf driver = converter := by
  unfold converterOf
  cases serves with
  | ready state =>
      rw [if_neg]
      rw [state]
      decide
  | converting channel half state grpp sound dma =>
      have bound := channel.isLt
      have index : driver.dma.size - driver.dma.remaining = channel.val := by
        rw [dma]
        dsimp only
        omega
      rw [if_pos state, dif_pos (index ▸ bound)]
      congr 1
      exact Fin.ext index
  | completing half state grpp sound dma =>
      have index : driver.dma.size - driver.dma.remaining = 4 := by
        rw [dma]
        rfl
      rw [if_pos state, dif_neg (index ▸ Nat.lt_irrefl 4)]

theorem serves_reset : Serves reset.driver .ready :=
  .ready rfl rfl rfl rfl rfl

variable {driver next : AdcDriver Sample} {converter : Converter}

/-- A conversion starts at the first channel. -/
theorem serves_adcStartConversion (serves : Serves driver .ready) :
    Serves (driver.adcStartConversion adcgrpcfg1 1) (.converting 0) := by
  cases serves with
  | ready state grpp sound dma adc =>
      refine .converting 0 false rfl rfl sound ?_ ?_
      · unfold AdcDriver.adcStartConversion AdcDriver.adcLldStartConversion
        dsimp only
        rw [dma]
        rfl
      · unfold AdcDriver.adcStartConversion AdcDriver.adcLldStartConversion
        dsimp only
        rw [adc]
        rfl

/-- A result is stored at its channel. -/
theorem serves_transfer {cell : Sample} (serves : Serves driver converter)
    (taken : driver.step adcgrpcfg1 1 (.transfer cell) = some next) :
    ∃ channel, converter = .converting channel ∧ Serves next (.following channel) ∧
      next.samples = Function.update driver.samples channel.val cell := by
  unfold AdcDriver.step at taken
  cases serves with
  | ready state grpp sound dma adc =>
      have stopped : driver.adc.adstart = false := by rw [adc]
      rw [sound, stopped] at taken
      cases taken
  | completing half state grpp sound dma adc =>
      have stopped : driver.adc.adstart = false := by rw [adc]
      rw [sound, stopped] at taken
      cases taken
  | converting channel half state grpp sound dma adc =>
      have bound := channel.isLt
      have index : driver.dma.size - driver.dma.remaining = channel.val := by
        rw [dma]
        dsimp only
        omega
      have ready : (driver.adc.adstart && driver.dma.enabled &&
          decide (0 < driver.dma.remaining)) = true := by
        rw [adc, dma]
        exact decide_eq_true (Nat.sub_pos_of_lt bound)
      rw [if_neg (by rw [sound]; exact Bool.false_ne_true)] at taken
      dsimp only at taken
      rw [if_pos ready, index] at taken
      cases taken
      refine ⟨channel, rfl, ?_, rfl⟩
      unfold Converter.following
      split
      case isTrue last =>
        refine .converting ⟨channel.val + 1, last⟩ (half || 4 - channel.val - 1 == 4 / 2) state grpp
          sound ?_ ?_
        · have open_ : (4 - channel.val - 1 == 0) = false := by
            rw [beq_eq_false_iff_ne]
            omega
          dsimp only
          rw [dma]
          unfold DmaStream.advance
          simp only [open_, Bool.and_false, Bool.or_false, Bool.false_eq_true, if_false]
          rfl
        · dsimp only
          rw [adc]
          exact if_pos last
      case isFalse last =>
        have final : channel.val = 3 := by omega
        refine .completing (half || 4 - channel.val - 1 == 4 / 2) state grpp sound ?_ ?_
        · dsimp only
          rw [dma, final]
          rfl
        · dsimp only
          rw [adc]
          exact if_neg last

/-- The interrupt of the stream ends a complete conversion, and nothing else. -/
theorem serves_dmaServeInterrupt (serves : Serves driver converter) :
    (Serves driver.dmaServeInterrupt converter ∨
      converter = .completing ∧ Serves driver.dmaServeInterrupt .ready) ∧
      driver.dmaServeInterrupt.samples = driver.samples := by
  cases serves with
  | ready state grpp sound dma adc =>
      have silent : driver.dma.requests = false := by
        rw [dma]
        rfl
      rw [AdcDriver.dmaServeInterrupt_of_silent silent]
      exact ⟨Or.inl (.ready state grpp sound dma adc), rfl⟩
  | converting channel half state grpp sound dma adc =>
      have silent : driver.dma.requests = false := by
        rw [dma]
        exact Bool.and_false half
      rw [AdcDriver.dmaServeInterrupt_of_silent silent]
      exact ⟨Or.inl (.converting channel half state grpp sound dma adc), rfl⟩
  | completing half active held sound enabled running =>
      obtain ⟨state, depth, grpp, dma, adc, samples, calls, faulted⟩ := driver
      cases active
      cases held
      cases sound
      cases enabled
      cases running
      refine ⟨Or.inr ⟨rfl, .ready rfl rfl rfl rfl rfl⟩, ?_⟩
      exact Function.update_eq_self 0 samples

/-- Without an overrun the interrupt of the converter changes nothing. -/
theorem adcLldServeInterrupt_eq (serves : Serves driver converter) :
    driver.adcLldServeInterrupt = driver := by
  obtain ⟨state, depth, grpp, dma, adc, samples, calls, faulted⟩ := driver
  unfold AdcDriver.adcLldServeInterrupt
  cases serves with
  | ready _ released _ _ quiet =>
      cases released
      have ovr : adc.ovr = false := congrArg AdcRegisters.ovr quiet
      have awd : adc.awd = false := congrArg AdcRegisters.awd quiet
      have same : { adc with ovr := false, awd := false } = adc := by
        obtain ⟨adstart, cont, awden, channels, position, overrun, watched⟩ := adc
        cases ovr
        cases awd
        rfl
      dsimp only
      rw [same]
  | converting _ _ _ held _ _ quiet =>
      cases held
      cases quiet
      rfl
  | completing _ _ held _ _ quiet =>
      cases held
      cases quiet
      rfl

/-! ## The simulation -/

/-- The driver serves a converter, and the sampling subsystem is the one it stands for. -/
def Stands (driven : DrivenSampler) (sampler : Sampler) : Prop :=
  sampler = driven.toSampler ∧ Serves driven.driver sampler.converter

variable {driven after : DrivenSampler} {sampler : Sampler}

/-- A step that leaves the driver alone. -/
theorem stands_resume {stepped : Sampler} (stands : Stands driven sampler)
    (converter : stepped.converter = sampler.converter)
    (buffer : stepped.internalSamples = sampler.internalSamples) :
    Stands (resume driven.driver stepped) stepped := by
  obtain ⟨rfl, serves⟩ := stands
  obtain ⟨worker, _, _, raw, conversions, broadcasts⟩ := stepped
  cases converter
  cases buffer
  exact ⟨rfl, serves⟩

theorem stands_create (stands : Stands driven sampler)
    (taken : driven.step .create = some after) :
    ∃ stepped, sampler.step .create = some stepped ∧ Stands after stepped := by
  obtain ⟨stepped, created, rfl⟩ := Option.map_eq_some_iff.mp taken
  have view := stands.1
  refine ⟨stepped, by rw [view]; exact created, ?_⟩
  unfold Sampler.createWorker at created
  split at created <;> cases created
  exact stands_resume stands (congrArg Sampler.converter view).symm
    (congrArg Sampler.internalSamples view).symm

/-- Only the start of a conversion touches the converter. -/
theorem workerStep_keeps {stepped : Sampler} {now : Systime} {sampleRate : UInt8}
    (elsewhere : ∀ start, sampler.worker ≠ .starting start)
    (taken : sampler.workerStep now sampleRate = some stepped) :
    stepped.converter = sampler.converter ∧
      stepped.internalSamples = sampler.internalSamples := by
  unfold Sampler.workerStep at taken
  split at taken
  case h_3 start pc => exact absurd pc (elsewhere start)
  case h_6 => split at taken <;> cases taken <;> exact ⟨rfl, rfl⟩
  all_goals
    cases taken
    try exact ⟨rfl, rfl⟩

theorem stands_workerStep {now : Systime} {sampleRate : UInt8} (stands : Stands driven sampler)
    (undisturbed : driven.Undisturbed (.workerStep now sampleRate))
    (taken : driven.step (.workerStep now sampleRate) = some after) :
    ∃ stepped, sampler.step (.workerStep now sampleRate) = some stepped ∧
      Stands after stepped := by
  obtain ⟨stepped, worked, rfl⟩ := Option.map_eq_some_iff.mp taken
  obtain ⟨view, serves⟩ := stands
  refine ⟨stepped, by rw [view]; exact worked, ?_⟩
  cases pc : driven.worker with
  | starting start =>
      have idle : driven.driver.state ≠ .active := by
        unfold Undisturbed at undisturbed
        rw [pc] at undisturbed
        exact undisturbed
      have ready : sampler.converter = .ready := by
        generalize sampler.converter = converter at serves
        cases serves with
        | ready => rfl
        | converting _ _ active => exact absurd active idle
        | completing _ active => exact absurd active idle
      rw [ready] at serves
      have started := serves_adcStartConversion serves
      have called : driven.afterWorker =
          driven.driver.adcStartConversion adcgrpcfg1 1 := by
        unfold afterWorker
        rw [pc]
      have worker : driven.toSampler.worker = .starting start := pc
      unfold Sampler.workerStep at worked
      rw [worker] at worked
      cases worked
      rw [called]
      refine ⟨?_, started⟩
      unfold toSampler resume
      dsimp only
      rw [started.converterOf_eq]
      rfl
  | _ =>
      have elsewhere : ∀ start, driven.toSampler.worker ≠ .starting start := by
        intro start starting
        cases pc.symm.trans starting
      have untouched : driven.afterWorker = driven.driver := by
        unfold afterWorker
        rw [pc]
      have kept := workerStep_keeps elsewhere worked
      rw [untouched]
      rw [← view] at kept
      exact stands_resume ⟨view, serves⟩ kept.1 kept.2

/-- A step of the hardware changes the converter and its buffer. -/
theorem stands_hardware {samples : Fin 4 → Sample} (serves : Serves next converter)
    (stored : (fun channel : Fin 4 => next.samples channel.val) = samples) :
    Stands { driven with driver := next }
      { driven.toSampler with converter := converter, internalSamples := samples } := by
  refine ⟨?_, serves⟩
  unfold toSampler
  dsimp only
  rw [serves.converterOf_eq, stored]

/-- A step of the driver is a step of the converter, or none. -/
theorem stands_driver {action : AdcDriver.Action UInt16} (stands : Stands driven sampler)
    (undisturbed : driven.Undisturbed (.driver action))
    (taken : driven.step (.driver action) = some after) :
    ∃ labels stepped, runFrom Sampler.step sampler labels = some stepped ∧
      Stands after stepped := by
  obtain ⟨rfl, serves⟩ := stands
  have sound : driven.driver.faulted = false := by
    generalize driven.toSampler.converter = converter at serves
    cases serves <;> assumption
  cases action with
  | start => cases taken
  | overrun => exact absurd undisturbed id
  | busError => exact absurd undisturbed id
  | watchdog =>
      obtain ⟨driver, moved, rfl⟩ := Option.map_eq_some_iff.mp taken
      have unwatched : driven.driver.adc.awden = false := by
        generalize driven.toSampler.converter = converter at serves
        cases serves with
        | ready _ _ _ _ adc => rw [adc]
        | converting _ _ _ _ _ _ adc => rw [adc]
        | completing _ _ _ _ _ adc => rw [adc]
      unfold tagged AdcDriver.step at moved
      dsimp only at moved
      rw [unwatched, Bool.and_false, sound] at moved
      cases moved
  | transfer value =>
      obtain ⟨driver, moved, rfl⟩ := Option.map_eq_some_iff.mp taken
      obtain ⟨channel, converting, following, stored⟩ := serves_transfer serves moved
      have buffer : (fun other : Fin 4 => driver.samples other.val) =
          Function.update driven.toSampler.internalSamples channel
            ⟨value, some (driven.conversions - 1)⟩ := by
        funext other
        rw [stored]
        by_cases same : other = channel
        · rw [same, Function.update_self, Function.update_self]
        · rw [Function.update_of_ne same,
            Function.update_of_ne fun equal => same (Fin.ext equal)]
          rfl
      refine ⟨[.converterStep value], _, ?_, stands_hardware following buffer⟩
      have written : driven.toSampler.converterStep value = some { driven.toSampler with
          converter := .following channel
          internalSamples := Function.update driven.toSampler.internalSamples channel
            ⟨value, some (driven.conversions - 1)⟩ } := by
        unfold Sampler.converterStep
        rw [converting]
        rfl
      exact runFrom_cons_eq_some.mpr ⟨_, written, rfl⟩
  | dmaInterrupt =>
      obtain ⟨driver, moved, rfl⟩ := Option.map_eq_some_iff.mp taken
      have served : driver = driven.driver.dmaServeInterrupt := by
        unfold tagged AdcDriver.step at moved
        rw [sound] at moved
        exact (Option.some.inj moved).symm
      obtain ⟨ends, samples⟩ := serves_dmaServeInterrupt serves
      have buffer : (fun channel : Fin 4 => driver.samples channel.val) =
          driven.toSampler.internalSamples := by
        rw [served, samples]
        rfl
      rw [← served] at ends
      rcases ends with same | ⟨completing, ready⟩
      · exact ⟨[], driven.toSampler, rfl, stands_hardware same buffer⟩
      · refine ⟨[.converterStep 0], _, ?_, stands_hardware ready buffer⟩
        have completed : driven.toSampler.converterStep 0 = some { driven.toSampler with
            converter := .ready
            internalSamples := driven.toSampler.internalSamples } := by
          unfold Sampler.converterStep
          rw [completing]
          dsimp only
          rw [Function.update_eq_self]
        exact runFrom_cons_eq_some.mpr ⟨_, completed, rfl⟩
  | adcInterrupt =>
      obtain ⟨driver, moved, rfl⟩ := Option.map_eq_some_iff.mp taken
      have served : driver = driven.driver := by
        unfold tagged AdcDriver.step at moved
        rw [sound] at moved
        exact (Option.some.inj moved).symm.trans (adcLldServeInterrupt_eq serves)
      rw [served]
      exact ⟨[], driven.toSampler, rfl, rfl, serves⟩

end DrivenSampler
end Adc
end AnalogX

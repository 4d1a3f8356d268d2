import AnalogX.Adc.Sampling
import AnalogX.Foundations.Periodic
import Mathlib.Tactic.Ring

namespace AnalogX
namespace Adc

/-!
# Frames per second

The configuration message calls the sample rate `update_rate_hz`.  The loop turns
it into a period of whole milliseconds, although the timer counts tenths of them,
so the remainder of `1000 / rate` is lost in every cycle.  The frames then come
too fast, and the surplus grows with the time that is observed.

The sampling subsystem is observed here on a clock which does not wrap.  Time
passes while the worker works and while it sleeps; the worker itself only sees
the 32-bit counter.  What the kernel makes of a sleep is a parameter: `slept` is
the number of ticks after which the thread resumes.
-/

open Kernel Foundations

/-! ## The subsystem with a clock -/

/-- The sampling subsystem under observation. -/
structure TimedSampler where
  sampler : Sampler
  /-- The ticks since the observation began. -/
  clock : Nat
  /-- When the current cycle read the system time. -/
  cycleBegin : Nat
  /-- When the sensor frames were sent. -/
  sent : List Nat

/-- A step of the converter, time spent on the work of a cycle, or a step of the
worker. -/
inductive TimedAction where
  | converter (value : UInt16)
  | work (ticks : Nat)
  | worker

/-- The worker is between its two readings of the system time. -/
def AdcPc.working : AdcPc → Bool
  | .starting _ | .reading _ _ | .broadcasting _ | .computingSleep _ => true
  | _ => false

/-- So many seconds are as many periods as the rate promises, and ten ticks for every
millisecond that the quotient leaves over. -/
theorem ConfiguredRate.ticks_of_seconds (rate : ConfiguredRate) (seconds : Nat) :
    10000 * seconds = rate.hz.toNat * seconds * rate.period.toNat +
      10 * (seconds * (1000 % rate.hz.toNat)) := by
  have division := Nat.div_add_mod 1000 rate.hz.toNat
  rw [rate.toNat_period]
  calc
    10000 * seconds = 10 * seconds * 1000 := by ring
    _ = 10 * seconds * (rate.hz.toNat * (1000 / rate.hz.toNat) + 1000 % rate.hz.toNat) := by
      rw [division]
    _ = _ := by ring

namespace TimedSampler

section Steps

variable (slept : Systime → Nat) (sampleRate : UInt8) (t0 : Systime)

/-- Begin to observe, at the system time `t0`. -/
def observe (sampler : Sampler) : TimedSampler where
  sampler := sampler
  clock := 0
  cycleBegin := 0
  sent := []

/-- A step of the worker at the current time.  A sleep takes its time in one step. -/
def workerStep (state : TimedSampler) : Option TimedSampler :=
  (state.sampler.step (.workerStep (after t0 state.clock) sampleRate)).map fun next =>
    match state.sampler.worker with
    | .cycleStart => { state with sampler := next, cycleBegin := state.clock }
    | .broadcasting _ => { state with sampler := next, sent := state.sent ++ [state.clock] }
    | .sleeping ticks => { state with sampler := next, clock := state.clock + slept ticks }
    | _ => { state with sampler := next }

/-- One step under observation. -/
def step (state : TimedSampler) : TimedAction → Option TimedSampler
  | .converter value =>
      (state.sampler.step (.converterStep value)).map fun next => { state with sampler := next }
  | .work ticks =>
      if state.sampler.worker.working then some { state with clock := state.clock + ticks }
      else none
  | .worker => state.workerStep slept sampleRate t0

end Steps

/-- The frames sent in the first `window` ticks. -/
def framesWithin (window : Nat) (state : TimedSampler) : Nat :=
  countWithin window state.sent

/-- The work of every cycle stays below the period by at least two ticks. -/
def InTime (rate : ConfiguredRate) (state : TimedSampler) (action : TimedAction) : Prop :=
  ∀ ticks, action = .work ticks →
    state.clock + ticks + 2 ≤ state.cycleBegin + rate.period.toNat

/-! ## The schedule -/

/-- The cycle with the given number is under way since `start`. -/
structure Underway (rate : ConfiguredRate) (t0 : Systime) (cycle : Nat) (start : Systime)
    (state : TimedSampler) : Prop where
  begun : start = after t0 (cycle * rate.period.toNat)
  cycleBegin : state.cycleBegin = cycle * rate.period.toNat
  started : cycle * rate.period.toNat ≤ state.clock
  room : state.clock + 2 ≤ cycle * rate.period.toNat + rate.period.toNat

/-- Where the worker stands in the cycle with the given number, and how many frames
it has sent. -/
def Phase (rate : ConfiguredRate) (t0 : Systime) (cycle : Nat) (state : TimedSampler) : Prop :=
  match state.sampler.worker with
  | .cycleStart => state.clock = cycle * rate.period.toNat ∧ state.sent.length = cycle
  | .starting start | .reading start _ | .broadcasting start =>
      state.Underway rate t0 cycle start ∧ state.sent.length = cycle
  | .computingSleep start =>
      state.Underway rate t0 cycle start ∧ state.sent.length = cycle + 1
  | .sleeping ticks =>
      state.clock + ticks.toNat = cycle * rate.period.toNat + rate.period.toNat ∧
        stTimedelta ≤ ticks ∧ state.sent.length = cycle + 1
  | .notCreated | .faulted => False

/-- The invariant of a run whose cycles are in time: the worker is on schedule, and
every frame was sent within its own period. -/
structure OnSchedule (rate : ConfiguredRate) (t0 : Systime) (state : TimedSampler) : Prop where
  phase : ∃ cycle, state.Phase rate t0 cycle
  periodic : Periodic rate.period.toNat state.sent

theorem observe_onSchedule (rate : ConfiguredRate) (t0 : Systime) {sampler : Sampler}
    (begins : sampler.worker = .cycleStart) : (observe sampler).OnSchedule rate t0 := by
  refine ⟨⟨0, ?_⟩, periodic_nil _⟩
  simp [Phase, observe, begins]

section Schedule

variable {rate : ConfiguredRate} {t0 : Systime} {cycle : Nat} {start : Systime}
variable {state next : TimedSampler}

/-- The system time read at the end of the work, in terms of that at its start. -/
theorem Underway.now (underway : state.Underway rate t0 cycle start) :
    after t0 state.clock = after start (state.clock - cycle * rate.period.toNat) := by
  rw [underway.begun, after_after, Nat.add_sub_cancel' underway.started]

/-- The sleep at the end of the work lasts until the period is over. -/
theorem Underway.sleep (underway : state.Underway rate t0 cycle start) :
    ∃ ticks, sleepArgument rate.hz start (after t0 state.clock) = some ticks ∧
      state.clock + ticks.toNat = cycle * rate.period.toNat + rate.period.toNat ∧
      stTimedelta ≤ ticks := by
  have bounds := rate.period_bounds
  have started := underway.started
  have room := underway.room
  rw [underway.now, rate.sleepArgument_eq]
  have ticks := rate.toNat_sleep (state.clock - cycle * rate.period.toNat)
  refine ⟨_, rfl, ?_, ?_⟩
  · rw [ticks]
    omega
  · apply UInt32.le_iff_toNat_le.mpr
    rw [ticks]
    change 2 ≤ _
    omega

theorem Underway.transfer (underway : state.Underway rate t0 cycle start)
    (clock : next.clock = state.clock) (cycleBegin : next.cycleBegin = state.cycleBegin) :
    next.Underway rate t0 cycle start := by
  refine ⟨underway.begun, cycleBegin.trans underway.cycleBegin, ?_, ?_⟩
  · rw [clock]
    exact underway.started
  · rw [clock]
    exact underway.room

/-- The phase only looks at the worker, the times and the frames. -/
theorem Phase.transfer (phase : state.Phase rate t0 cycle)
    (worker : next.sampler.worker = state.sampler.worker) (clock : next.clock = state.clock)
    (cycleBegin : next.cycleBegin = state.cycleBegin) (sent : next.sent = state.sent) :
    next.Phase rate t0 cycle := by
  unfold Phase at phase ⊢
  rw [worker, clock, sent]
  cases pc : state.sampler.worker <;> simp only [pc] at phase ⊢
  case starting | reading | broadcasting | computingSleep =>
    exact ⟨phase.1.transfer clock cycleBegin, phase.2⟩
  all_goals exact phase

/-- The converter does not delay the worker. -/
theorem converter_onSchedule {slept : Systime → Nat} {value : UInt16}
    (onSchedule : state.OnSchedule rate t0)
    (taken : step slept rate.hz t0 state (.converter value) = some next) :
    next.OnSchedule rate t0 := by
  rcases Option.map_eq_some_iff.mp taken with ⟨sampler, converted, rfl⟩
  have kept := Sampler.converterStep_keeps converted
  rcases onSchedule.phase with ⟨cycle, phase⟩
  exact ⟨⟨cycle, phase.transfer kept.1 rfl rfl rfl⟩, onSchedule.periodic⟩

/-- Work in time leaves room for the sleep. -/
theorem work_onSchedule {slept : Systime → Nat} {ticks : Nat}
    (onSchedule : state.OnSchedule rate t0) (allowed : state.InTime rate (.work ticks))
    (taken : step slept rate.hz t0 state (.work ticks) = some next) :
    next.OnSchedule rate t0 := by
  have limit := allowed ticks rfl
  rcases onSchedule.phase with ⟨cycle, phase⟩
  have underway : ∀ start, state.Underway rate t0 cycle start →
      Underway rate t0 cycle start { state with clock := state.clock + ticks } := by
    rintro start ⟨begun, since, started, room⟩
    rw [since] at limit
    exact ⟨begun, since, Nat.le_add_right_of_le started, limit⟩
  simp only [step] at taken
  split at taken
  · rename_i working
    cases taken
    refine ⟨⟨cycle, ?_⟩, onSchedule.periodic⟩
    unfold Phase at phase ⊢
    dsimp only
    cases pc : state.sampler.worker <;> simp only [pc] at phase working ⊢
    case starting | reading | broadcasting | computingSleep =>
      exact ⟨underway _ phase.1, phase.2⟩
    all_goals exact absurd working Bool.false_ne_true
  · cases taken

/-- A step of the worker keeps to the schedule, if sleeps last as long as asked. -/
theorem worker_onSchedule {slept : Systime → Nat}
    (precise : ∀ ticks, stTimedelta ≤ ticks → slept ticks = ticks.toNat)
    (onSchedule : state.OnSchedule rate t0)
    (taken : step slept rate.hz t0 state .worker = some next) : next.OnSchedule rate t0 := by
  rcases onSchedule.phase with ⟨cycle, phase⟩
  rcases Option.map_eq_some_iff.mp taken with ⟨sampler, moved, rfl⟩
  unfold Phase at phase
  simp only [Sampler.step, Sampler.workerStep] at moved
  cases pc : state.sampler.worker <;> simp only [pc] at phase moved ⊢
  case cycleStart =>
    have bounds := rate.period_bounds
    cases moved
    refine ⟨⟨cycle, ⟨?_, phase.1, ?_, ?_⟩, phase.2⟩, onSchedule.periodic⟩
    · rw [phase.1]
    · exact Nat.le_of_eq phase.1.symm
    · dsimp only
      omega
  case starting begun =>
    cases moved
    exact ⟨⟨cycle, phase.1.transfer rfl rfl, phase.2⟩, onSchedule.periodic⟩
  case reading begun channel =>
    cases moved
    refine ⟨⟨cycle, ?_⟩, onSchedule.periodic⟩
    simp only [Phase, AdcPc.following]
    by_cases more : channel.val + 1 < 4
    · rw [dif_pos more]
      exact ⟨phase.1.transfer rfl rfl, phase.2⟩
    · rw [dif_neg more]
      exact ⟨phase.1.transfer rfl rfl, phase.2⟩
  case broadcasting begun =>
    cases moved
    have started := phase.1.started
    have room := phase.1.room
    refine ⟨⟨cycle, phase.1.transfer rfl rfl, ?_⟩, onSchedule.periodic.concat ?_ ?_⟩
    · rw [List.length_append, phase.2]
      rfl
    · rw [phase.2]
      exact started
    · rw [phase.2]
      omega
  case computingSleep begun =>
    rcases phase.1.sleep with ⟨ticks, argument, until_, enough⟩
    rw [argument] at moved
    cases moved
    exact ⟨⟨cycle, until_, enough, phase.2⟩, onSchedule.periodic⟩
  case sleeping ticks =>
    cases moved
    refine ⟨⟨cycle + 1, ?_, phase.2.2⟩, onSchedule.periodic⟩
    dsimp only
    rw [precise ticks phase.2.1, phase.1, Nat.succ_mul]

/-- The step lemma. -/
theorem step_onSchedule {slept : Systime → Nat}
    (precise : ∀ ticks, stTimedelta ≤ ticks → slept ticks = ticks.toNat)
    {action : TimedAction} (onSchedule : state.OnSchedule rate t0)
    (allowed : state.InTime rate action)
    (taken : step slept rate.hz t0 state action = some next) : next.OnSchedule rate t0 := by
  cases action with
  | converter value => exact converter_onSchedule onSchedule taken
  | work ticks => exact work_onSchedule onSchedule allowed taken
  | worker => exact worker_onSchedule precise onSchedule taken

/-- The run lemma: as long as every cycle is in time, the worker is on schedule. -/
theorem onSchedule_of_run {slept : Systime → Nat}
    (precise : ∀ ticks, stTimedelta ≤ ticks → slept ticks = ticks.toNat)
    {sampler : Sampler} {actions : List TimedAction} (begins : sampler.worker = .cycleStart)
    (guarded : Guarded (step slept rate.hz t0) (InTime rate) (observe sampler) actions)
    (run : runFrom (step slept rate.hz t0) (observe sampler) actions = some state) :
    state.OnSchedule rate t0 :=
  guarded.invariant
    (fun _ _ _ holds allowed taken => step_onSchedule precise holds allowed taken) run
    (observe_onSchedule rate t0 begins)

/-- Nobody is more than one cycle ahead of the frames. -/
theorem OnSchedule.clock_lt (onSchedule : state.OnSchedule rate t0) :
    state.clock < (state.sent.length + 1) * rate.period.toNat := by
  have bounds := rate.period_bounds
  rcases onSchedule.phase with ⟨cycle, phase⟩
  have within : state.clock < cycle * rate.period.toNat + rate.period.toNat ∧
      cycle ≤ state.sent.length := by
    unfold Phase at phase
    cases pc : state.sampler.worker <;> simp only [pc] at phase
    case cycleStart => omega
    case starting | reading | broadcasting =>
      have room := phase.1.room
      omega
    case computingSleep =>
      have room := phase.1.room
      omega
    case sleeping ticks =>
      have enough : 2 ≤ ticks.toNat := UInt32.le_iff_toNat_le.mp phase.2.1
      omega
  calc
    state.clock < (cycle + 1) * rate.period.toNat := by
      rw [Nat.succ_mul]
      exact within.1
    _ ≤ (state.sent.length + 1) * rate.period.toNat :=
      Nat.mul_le_mul_right _ (Nat.succ_le_succ within.2)

/-- Every period that ends within the window contributes a frame. -/
theorem OnSchedule.le_framesWithin (onSchedule : state.OnSchedule rate t0)
    {window count : Nat} (elapsed : window ≤ state.clock)
    (periods : count * rate.period.toNat ≤ window) : count ≤ state.framesWithin window := by
  have bounds := rate.period_bounds
  have reached : count * rate.period.toNat < (state.sent.length + 1) * rate.period.toNat :=
    Nat.lt_of_le_of_lt (Nat.le_trans periods elapsed) onSchedule.clock_lt
  have long : count ≤ state.sent.length :=
    Nat.le_of_lt_succ (Nat.lt_of_mul_lt_mul_right reached)
  exact onSchedule.periodic.le_countWithin long periods

end Schedule

/-! ## Frames in a window -/

/-- The configured rate is honoured for so many seconds: in every run from the
start of a cycle, with the work of every cycle in time, the frames sent in these
seconds are as many as the rate promises, give or take one. -/
def HonoursRate (slept : Systime → Nat) (rate : ConfiguredRate) (seconds : Nat) : Prop :=
  ∀ (t0 : Systime) (sampler : Sampler) (actions : List TimedAction) (final : TimedSampler),
    sampler.worker = .cycleStart →
    Guarded (step slept rate.hz t0) (InTime rate) (observe sampler) actions →
    runFrom (step slept rate.hz t0) (observe sampler) actions = some final →
    10000 * seconds ≤ final.clock →
      rate.hz.toNat * seconds ≤ final.framesWithin (10000 * seconds) + 1 ∧
        final.framesWithin (10000 * seconds) ≤ rate.hz.toNat * seconds + 1

section Windows

variable {slept : Systime → Nat}

/-- Seven steps of the worker do the work of a cycle, here without taking time. -/
theorem idle_work (slept : Systime → Nat) (rate : ConfiguredRate) (t0 : Systime)
    {state : TimedSampler} (begins : state.sampler.worker = .cycleStart) :
    ∃ next, runFrom (step slept rate.hz t0) state (List.replicate 7 .worker) = some next ∧
      next.sampler.worker = .computingSleep (after t0 state.clock) ∧
      next.clock = state.clock ∧ next.sent = state.sent ++ [state.clock] := by
  rcases state with ⟨⟨worker, converter, internalSamples, rawSamples, conversions, broadcasts⟩,
    clock, cycleBegin, sent⟩
  cases begins
  exact ⟨_, rfl, rfl, rfl, rfl⟩

/-- Two more steps sleep for the whole period. -/
theorem idle_sleep (precise : ∀ ticks, stTimedelta ≤ ticks → slept ticks = ticks.toNat)
    (rate : ConfiguredRate) (t0 : Systime) {state : TimedSampler}
    (ready : state.sampler.worker = .computingSleep (after t0 state.clock)) :
    ∃ next, runFrom (step slept rate.hz t0) state (List.replicate 2 .worker) = some next ∧
      next.sampler.worker = .cycleStart ∧
      next.clock = state.clock + rate.period.toNat ∧ next.sent = state.sent := by
  have bounds := rate.period_bounds
  have argument : sleepArgument rate.hz (after t0 state.clock) (after t0 state.clock) =
      some rate.period := by
    have value := rate.sleepArgument_eq (after t0 state.clock) 0
    rw [after_zero] at value
    rw [value]
    exact congrArg some (sub_zero rate.period)
  have enough : stTimedelta ≤ rate.period := by
    apply UInt32.le_iff_toNat_le.mpr
    change 2 ≤ _
    omega
  simp only [List.replicate, runFrom_cons, step, workerStep, Sampler.step, Sampler.workerStep,
    ready, argument, Option.map_some, Option.bind_some, precise _ enough]
  exact ⟨_, rfl, rfl, rfl, rfl⟩

/-- So many cycles without work send a frame at the start of every period. -/
theorem idle_cycles (precise : ∀ ticks, stTimedelta ≤ ticks → slept ticks = ticks.toNat)
    (rate : ConfiguredRate) (t0 : Systime) {sampler : Sampler}
    (begins : sampler.worker = .cycleStart) (cycles : Nat) :
    ∃ final, runFrom (step slept rate.hz t0) (observe sampler)
        (List.replicate (cycles * 9) .worker) = some final ∧
      final.sampler.worker = .cycleStart ∧
      final.clock = cycles * rate.period.toNat ∧
      final.sent = (List.range cycles).map (· * rate.period.toNat) := by
  induction cycles with
  | zero =>
      rw [Nat.zero_mul, Nat.zero_mul]
      exact ⟨observe sampler, rfl, begins, rfl, rfl⟩
  | succ cycles inductionHypothesis =>
      rcases inductionHypothesis with ⟨middle, before, again, clock, sent⟩
      rcases idle_work slept rate t0 again with ⟨ready, work, atSleep, workClock, workSent⟩
      have sleeping : ready.sampler.worker = .computingSleep (after t0 ready.clock) := by
        rw [atSleep, workClock]
      rcases idle_sleep precise rate t0 sleeping with ⟨final, sleep, atStart, endClock, endSent⟩
      refine ⟨final, ?_, atStart, ?_, ?_⟩
      · have split : (cycles + 1) * 9 = cycles * 9 + (7 + 2) := Nat.succ_mul cycles 9
        rw [split, List.replicate_add, List.replicate_add]
        exact runFrom_append_eq_some.mpr ⟨middle, before,
          runFrom_append_eq_some.mpr ⟨ready, work, sleep⟩⟩
      · rw [endClock, workClock, clock, Nat.succ_mul]
      · rw [endSent, workSent, sent, clock, List.range_succ, List.map_append]
        rfl

/-- A surplus of less than a period is within the tolerance. -/
theorem honoursRate_of_remainder_le
    (precise : ∀ ticks, stTimedelta ≤ ticks → slept ticks = ticks.toNat)
    {rate : ConfiguredRate} {seconds : Nat}
    (small : seconds * (1000 % rate.hz.toNat) ≤ 1000 / rate.hz.toNat) :
    HonoursRate slept rate seconds := by
  intro t0 sampler actions final begins guarded run elapsed
  have ticks := rate.ticks_of_seconds seconds
  have period := rate.toNat_period
  have onSchedule := onSchedule_of_run precise begins guarded run
  have lower : rate.hz.toNat * seconds * rate.period.toNat ≤ 10000 * seconds := by
    rw [ticks]
    exact Nat.le_add_right _ _
  have upper : 10000 * seconds ≤ (rate.hz.toNat * seconds + 1) * rate.period.toNat := by
    rw [Nat.succ_mul (rate.hz.toNat * seconds)]
    omega
  refine ⟨?_, onSchedule.periodic.countWithin_le upper⟩
  exact Nat.le_succ_of_le (onSchedule.le_framesWithin elapsed lower)

/-- A worker about to start its first cycle. -/
def firstCycle : Sampler :=
  { Sampler.reset with worker := .cycleStart }

/-- The run of a worker that takes no time for its work is always in time. -/
theorem guarded_idle (rate : ConfiguredRate) (t0 : Systime) (sampler : Sampler) (steps : Nat) :
    Guarded (step slept rate.hz t0) (InTime rate) (observe sampler)
      (List.replicate steps .worker) := by
  apply Guarded.of_forall
  intro action member state ticks work
  rw [List.eq_of_mem_replicate member] at work
  cases work

/-- With a larger surplus, the worker that takes no time sends two frames too many. -/
theorem remainder_le_of_honoursRate
    (precise : ∀ ticks, stTimedelta ≤ ticks → slept ticks = ticks.toNat)
    {rate : ConfiguredRate} {seconds : Nat} (honours : HonoursRate slept rate seconds) :
    seconds * (1000 % rate.hz.toNat) ≤ 1000 / rate.hz.toNat := by
  have ticks := rate.ticks_of_seconds seconds
  have period := rate.toNat_period
  have bounds := rate.period_bounds
  by_contra surplus
  have begins : firstCycle.worker = .cycleStart := rfl
  rcases idle_cycles precise rate 0 begins (10000 * seconds + rate.hz.toNat * seconds + 2) with
    ⟨final, run, _, clock, sent⟩
  have elapsed : 10000 * seconds ≤ final.clock := by
    rw [clock]
    calc
      10000 * seconds ≤ (10000 * seconds + rate.hz.toNat * seconds + 2) * 1 := by omega
      _ ≤ _ := Nat.mul_le_mul_left _ (Nat.le_trans (by decide) bounds.1)
  have most := (honours 0 firstCycle _ final begins (guarded_idle rate 0 _ _) run elapsed).2
  have last : (rate.hz.toNat * seconds + 1) * rate.period.toNat < 10000 * seconds := by
    rw [Nat.succ_mul (rate.hz.toNat * seconds)]
    omega
  have enough : rate.hz.toNat * seconds + 1 + 1 ≤
      10000 * seconds + rate.hz.toNat * seconds + 2 := by
    omega
  have frames := le_countWithin_starts enough last
  rw [← sent] at frames
  exact absurd most (Nat.not_le_of_lt frames)

/-- The configured rate is honoured for so many seconds exactly if the milliseconds
which the period loses in these seconds do not add up to more than one period. -/
theorem honoursRate_iff (precise : ∀ ticks, stTimedelta ≤ ticks → slept ticks = ticks.toNat)
    (rate : ConfiguredRate) (seconds : Nat) :
    HonoursRate slept rate seconds ↔
      seconds * (1000 % rate.hz.toNat) ≤ 1000 / rate.hz.toNat :=
  ⟨remainder_le_of_honoursRate precise, honoursRate_of_remainder_le precise⟩

/-- At 3 Hz a millisecond is lost in every second, and the period of 333
milliseconds is used up after 333 of them. -/
theorem honoursRate_three_hz :
    HonoursRate (fun ticks => ticks.toNat) ⟨3, by decide⟩ 333 ∧
      ¬ HonoursRate (fun ticks => ticks.toNat) ⟨3, by decide⟩ 334 :=
  ⟨(honoursRate_iff (fun _ _ => rfl) _ _).mpr (by decide),
    mt (honoursRate_iff (fun _ _ => rfl) _ _).mp (by decide)⟩

/-- At 255 Hz the period is three milliseconds, and a worker that takes no time for
its work sends 334 frames in the first second. -/
theorem rate_exceeded_at_255_hz :
    (¬ HonoursRate (fun ticks => ticks.toNat) ⟨255, by decide⟩ 1) ∧
      ∃ final, runFrom (step (fun ticks => ticks.toNat) 255 0) (observe firstCycle)
          (List.replicate (334 * 9) .worker) = some final ∧
        10000 ≤ final.clock ∧ final.framesWithin 10000 = 334 := by
  have precise : ∀ ticks : Systime, stTimedelta ≤ ticks → ticks.toNat = ticks.toNat :=
    fun _ _ => rfl
  have period : (ConfiguredRate.mk 255 (by decide)).period.toNat = 30 := by decide
  constructor
  · intro honours
    exact absurd (remainder_le_of_honoursRate precise honours) (by decide)
  · have begins : firstCycle.worker = .cycleStart := rfl
    rcases idle_cycles precise ⟨255, by decide⟩ 0 begins 334 with ⟨final, run, _, clock, sent⟩
    have onSchedule := onSchedule_of_run precise begins (guarded_idle _ 0 firstCycle _) run
    rw [period] at clock
    refine ⟨final, run, by omega, Nat.le_antisymm ?_ ?_⟩
    · apply onSchedule.periodic.countWithin_le
      rw [period]
      decide
    · rw [framesWithin, sent, period]
      exact le_countWithin_starts (Nat.le_refl 334) (by decide)

end Windows

end TimedSampler

end Adc
end AnalogX

import AnalogX.Adc.Timing
import AnalogX.Kernel.ServiceTimes
import Mathlib.Data.List.Chain

namespace AnalogX
namespace Adc

open Foundations Kernel

/-!
# The cycles of the sampling loop on the timers of the kernel

The loop of `system_adc_worker` sleeps on a virtual timer, which shares the list and
the alarm with the timers of every other thread.  Here the loop runs on the timer
code itself.  The other threads arm and disarm their timers between any two of its
steps, and the interrupt serves all of them.

The end of a cycle reads the counter twice, once to measure the work and once to arm the
timer, and nothing is locked between the two.  Ticks between them are added to the
period.  Apart from this slack the sleep is exact up to one tick.  The loop is never
faster than its rate, and the error of a cycle is not carried into the length of the
next one, because every cycle measures its own work from its own start.
-/

/-- Where the worker thread stands in its loop.  A measured cycle has the argument of its
sleep and the counter it was computed from. -/
inductive CyclePhase where
  | ready
  | working (start : Systime)
  | measured (time read : Systime)
  | asleep

/-- The worker thread and the timers of the kernel. -/
structure TimedLoop (Timer : Type*) where
  kernel : VirtualTimers Timer
  phase : CyclePhase

/-- A step of the timers on behalf of the others, the start of a cycle, the computation of
its sleep, or the call of `chThdSleep`. -/
inductive LoopAction (Timer : Type*) where
  | kernel (action : VirtualTimers.Action Timer)
  | begin
  | measure
  | sleep

namespace TimedLoop

variable {Timer : Type*} [DecidableEq Timer] (own : Timer) (rate : ConfiguredRate)
  (slack : Systime)

/-- Arming or disarming the timer of the worker thread. -/
def Owned : VirtualTimers.Action Timer → Prop
  | .set timer _ => timer = own
  | .reset timer => timer = own
  | _ => False

instance (action : VirtualTimers.Action Timer) : Decidable (Owned own action) :=
  match action with
  | .set timer _ => inferInstanceAs (Decidable (timer = own))
  | .reset timer => inferInstanceAs (Decidable (timer = own))
  | .elapse | .enter | .serve _ | .callHeader | .leave => inferInstanceAs (Decidable False)

/-- Serving the timer of a sleeping thread makes it ready; this is the callback
`wakeup` of `chSchGoSleepTimeoutS`. -/
def afterKernel (phase : CyclePhase) : VirtualTimers.Action Timer → CyclePhase
  | .serve timer => if timer = own then .ready else phase
  | _ => phase

/-- `chSchGoSleepTimeoutS`, up to the switch to another thread: a sleep of
`TIME_INFINITE` has no timer. -/
def chSchGoSleepTimeoutS (kernel : VirtualTimers Timer) (time : Systime) :
    Option (VirtualTimers Timer) :=
  if time = timeInfinite then some kernel else kernel.step (.set own time)

/-- The loop on the timers of the kernel.  Nobody else has the timer of the worker
thread, which lives on its stack during the sleep. -/
def step (loop : TimedLoop Timer) : LoopAction Timer → Option (TimedLoop Timer)
  | .kernel action =>
      if Owned own action then
        none
      else
        (loop.kernel.step action).map fun kernel =>
          { kernel := kernel, phase := afterKernel own loop.phase action }
  | .begin =>
      match loop.phase with
      | .ready => some { loop with phase := .working loop.kernel.counter }
      | _ => none
  | .measure =>
      match loop.phase with
      | .working start =>
          (sleepArgument rate.hz start loop.kernel.counter).map fun time =>
            { loop with phase := .measured time loop.kernel.counter }
      | _ => none
  | .sleep =>
      match loop.phase with
      | .measured time _ =>
          (chSchGoSleepTimeoutS own loop.kernel time).map fun kernel =>
            { kernel := kernel, phase := .asleep }
      | _ => none

/-- The work of a cycle leaves two ticks for the sleep, the two readings of the counter are
no more than the slack apart, and a thread which is ready starts its cycle before the next
tick. -/
def MayElapse (counter : Systime) : CyclePhase → Prop
  | .ready => False
  | .working start => (counter - start).toNat + 3 ≤ rate.period.toNat
  | .measured _ read => (counter - read).toNat + 1 ≤ slack.toNat
  | .asleep => True

/-- The conditions of the timers, and the one on the passing of time in each phase. -/
def Fits (loop : TimedLoop Timer) : LoopAction Timer → Prop
  | .kernel action =>
      loop.kernel.FitsPromptly action ∧
        (action = .elapse → MayElapse rate slack loop.kernel.counter loop.phase)
  | .begin => True
  | .measure => True
  | .sleep =>
      match loop.phase with
      | .measured time _ => loop.kernel.Fits (.set own time)
      | _ => True

instance (counter : Systime) (phase : CyclePhase) :
    Decidable (MayElapse rate slack counter phase) :=
  match phase with
  | .ready => inferInstanceAs (Decidable False)
  | .working _ => inferInstanceAs (Decidable (_ ≤ _))
  | .measured _ _ => inferInstanceAs (Decidable (_ ≤ _))
  | .asleep => inferInstanceAs (Decidable True)

instance (loop : TimedLoop Timer) (action : LoopAction Timer) :
    Decidable (loop.Fits own rate slack action) :=
  match action, loop with
  | .kernel _, _ => inferInstanceAs (Decidable ((_ ∧ _) ∧ (_ → _)))
  | .begin, _ => inferInstanceAs (Decidable True)
  | .measure, _ => inferInstanceAs (Decidable True)
  | .sleep, ⟨kernel, .measured time _⟩ =>
      inferInstanceAs (Decidable (kernel.Fits (.set own time)))
  | .sleep, ⟨_, .working _⟩ => inferInstanceAs (Decidable True)
  | .sleep, ⟨_, .ready⟩ => inferInstanceAs (Decidable True)
  | .sleep, ⟨_, .asleep⟩ => inferInstanceAs (Decidable True)

/-- The times of the cycle starts, counted in ticks. -/
def beginTimes : Nat → List (LoopAction Timer) → List Nat
  | _, [] => []
  | now, .kernel .elapse :: rest => beginTimes (now + 1) rest
  | now, .begin :: rest => now :: beginTimes now rest
  | now, _ :: rest => beginTimes now rest

/-! ## The cycle in terms of deadlines -/

/-- Two starts are one period apart, with the slack and one tick of the alarm. -/
def Apart (first second : Nat) : Prop :=
  first + rate.period.toNat ≤ second ∧ second ≤ first + rate.period.toNat + slack.toNat + 1

/-- Where a cycle that started at `last` stands on the unbounded clock.  What was measured
and the sleep add up to one period, whatever the work took, so that the deadline is late by
no more than the slack. -/
def PhaseTracks (last : Option Nat) (phase : CyclePhase) (service : TimerService Timer) : Prop :=
  match phase with
  | .ready => service.deadline own = none ∧ ∀ start ∈ last, Apart rate slack start service.now
  | .working counter =>
      service.deadline own = none ∧
        ∃ start, last = some start ∧ counter = UInt32.ofNat start ∧ start ≤ service.now ∧
          service.now + 2 ≤ start + rate.period.toNat
  | .measured time read =>
      service.deadline own = none ∧
        ∃ start now, last = some start ∧ read = UInt32.ofNat now ∧ start ≤ now ∧
          2 ≤ time.toNat ∧ now + time.toNat = start + rate.period.toNat ∧
          now ≤ service.now ∧ service.now ≤ now + slack.toNat
  | .asleep => ∃ start due, last = some start ∧ service.deadline own = some due ∧
      start + rate.period.toNat ≤ due ∧ due ≤ start + rate.period.toNat + slack.toNat

/-- The loop corresponds to the timer service and the last cycle start. -/
def Tracks (last : Option Nat) (loop : TimedLoop Timer) (service : TimerService Timer) : Prop :=
  VirtualTimers.SimulatesTimely loop.kernel service ∧ PhaseTracks own rate slack last loop.phase service

variable {own rate slack} {last : Option Nat} {loop next : TimedLoop Timer}
  {service serviceNext : TimerService Timer}

omit [DecidableEq Timer]

/-- Only the clock and the deadline of its own timer matter for the loop. -/
theorem PhaseTracks.frame {phase : CyclePhase} (tracks : PhaseTracks own rate slack last phase service)
    (same : serviceNext.now = service.now)
    (kept : serviceNext.deadline own = service.deadline own) :
    PhaseTracks own rate slack last phase serviceNext := by
  cases phase <;> simp only [PhaseTracks, same, kept] at tracks ⊢ <;> exact tracks

theorem simulates_counter {kernel : VirtualTimers Timer}
    (simulates : VirtualTimers.SimulatesTimely kernel service) :
    kernel.counter = UInt32.ofNat service.now := by
  obtain ⟨⟨base, represents⟩, -⟩ := simulates
  exact represents.counter

/-- A tick during the work or the sleep of a cycle. -/
theorem PhaseTracks.elapse [DecidableEq Timer] (tracks : Tracks own rate slack last loop service)
    (fits : loop.Fits own rate slack (.kernel .elapse)) :
    PhaseTracks own rate slack last loop.phase { service with now := service.now + 1 } := by
  obtain ⟨simulates, phase⟩ := tracks
  have bounds := rate.period_bounds
  have room := fits.2 rfl
  cases current : loop.phase with
  | ready =>
      rw [current] at room
      exact room.elim
  | working counter =>
      rw [current] at phase room
      obtain ⟨unset, start, began, counted, ordered, short⟩ := phase
      have elapsed : (loop.kernel.counter - counter).toNat = service.now - start := by
        rw [simulates_counter simulates, counted]
        exact VirtualTimers.toNat_ofNat_sub_ofNat ordered (by omega)
      simp only [MayElapse, elapsed] at room
      refine ⟨unset, start, began, counted, ordered.trans (Nat.le_succ _), ?_⟩
      show service.now + 1 + 2 ≤ _
      omega
  | measured time read =>
      rw [current] at phase room
      obtain ⟨unset, start, measured, began, counted, ordered, rest, sum, behind, ahead⟩ := phase
      have small := slack.toNat_lt
      have elapsed : (loop.kernel.counter - read).toNat = service.now - measured := by
        rw [simulates_counter simulates, counted]
        exact VirtualTimers.toNat_ofNat_sub_ofNat behind (by omega)
      simp only [MayElapse, elapsed] at room
      refine ⟨unset, start, measured, began, counted, ordered, rest, sum,
        behind.trans (Nat.le_succ _), ?_⟩
      show service.now + 1 ≤ _
      omega
  | asleep =>
      rw [current] at phase
      exact phase

/-- A step of the timers. -/
theorem tracks_kernel [DecidableEq Timer] {action : VirtualTimers.Action Timer}
    {kernel : VirtualTimers Timer} (tracks : Tracks own rate slack last loop service)
    (foreign : ¬ Owned own action) (fits : loop.Fits own rate slack (.kernel action))
    (taken : loop.kernel.step action = some kernel) :
    ∃ serviceNext, serviceNext.now = service.now + TimerService.ticks [action] ∧
      Tracks own rate slack last { kernel := kernel, phase := afterKernel own loop.phase action }
        serviceNext := by
  obtain ⟨serviceNext, served, simulates⟩ :=
    VirtualTimers.step_simulatesTimely _ _ _ _ tracks.1 fits.1 taken
  refine ⟨serviceNext, TimerService.now_step served, simulates, ?_⟩
  rcases TimerService.step_cases served with
    ⟨rfl, rfl⟩ | ⟨timer, delay, rfl, same, -, -, others⟩ |
      ⟨timer, rfl | ⟨rfl, due⟩, same, gone, others⟩ | ⟨rfl | rfl, rfl⟩
  · have ticked := PhaseTracks.elapse tracks fits
    exact ticked
  · exact tracks.2.frame same (others own (Ne.symm foreign))
  · exact tracks.2.frame same (others own (Ne.symm foreign))
  · by_cases mine : timer = own
    · subst mine
      obtain ⟨deadline, known, come, -⟩ := due
      have late := tracks.1.2 timer deadline known
      have phase := tracks.2
      have woken : afterKernel timer loop.phase (.serve timer) = .ready := if_pos rfl
      rw [woken]
      refine ⟨gone, ?_⟩
      cases current : loop.phase with
      | ready =>
          rw [current] at phase
          rw [phase.1] at known
          cases known
      | working counter =>
          rw [current] at phase
          rw [phase.1] at known
          cases known
      | measured time read =>
          rw [current] at phase
          rw [phase.1] at known
          cases known
      | asleep =>
          rw [current] at phase
          obtain ⟨start, due, began, armed, early, late⟩ := phase
          rw [known] at armed
          cases armed
          intro other member
          rw [began] at member
          cases member
          unfold Apart
          rw [same]
          omega
    · have other : afterKernel own loop.phase (.serve timer) = loop.phase := if_neg mine
      rw [other]
      exact tracks.2.frame same (others own (Ne.symm mine))
  · exact tracks.2
  · exact tracks.2

/-- The start of a cycle. -/
theorem tracks_begin (tracks : Tracks own rate slack last loop service)
    (ready : loop.phase = .ready) :
    (∀ start ∈ last, Apart rate slack start service.now) ∧
    Tracks own rate slack (some service.now) { loop with phase := .working loop.kernel.counter }
      service := by
  obtain ⟨simulates, phase⟩ := tracks
  have bounds := rate.period_bounds
  rw [ready] at phase
  refine ⟨phase.2, simulates, phase.1, service.now, rfl, simulates_counter simulates,
    le_refl _, ?_⟩
  omega

/-- The end of the work: the sleep is what it has left of the period. -/
theorem tracks_measure [DecidableEq Timer] (tracks : Tracks own rate slack last loop service)
    (taken : loop.step own rate .measure = some next) :
    Tracks own rate slack last next service := by
  obtain ⟨simulates, phase⟩ := tracks
  have bounds := rate.period_bounds
  cases current : loop.phase with
  | ready => simp only [step, current, reduceCtorEq] at taken
  | measured time read => simp only [step, current, reduceCtorEq] at taken
  | asleep => simp only [step, current, reduceCtorEq] at taken
  | working counter =>
      rw [current] at phase
      obtain ⟨unset, start, began, counted, ordered, short⟩ := phase
      have elapsed : loop.kernel.counter = after counter (service.now - start) := by
        rw [simulates_counter simulates, counted]
        unfold after
        rw [← UInt32.ofNat_add, Nat.add_sub_cancel' ordered]
      have argument := rate.sleepArgument_eq counter (service.now - start)
      rw [← elapsed] at argument
      have length : (rate.period - UInt32.ofNat (service.now - start)).toNat =
          start + rate.period.toNat - service.now := by
        rw [rate.toNat_sleep]
        omega
      simp only [step, current, argument, Option.map_some] at taken
      cases taken
      refine ⟨simulates, unset, start, service.now, began, simulates_counter simulates, ordered, ?_,
        ?_, le_rfl, Nat.le_add_right _ _⟩
      · rw [length]
        omega
      · rw [length]
        omega

/-- The sleep: the timer is armed from the second reading of the counter on. -/
theorem tracks_sleep [DecidableEq Timer] (tracks : Tracks own rate slack last loop service)
    (fits : loop.Fits own rate slack .sleep) (taken : loop.step own rate .sleep = some next) :
    ∃ serviceNext, serviceNext.now = service.now ∧ Tracks own rate slack last next serviceNext := by
  obtain ⟨simulates, phase⟩ := tracks
  have bounds := rate.period_bounds
  cases current : loop.phase with
  | ready => simp only [step, current, reduceCtorEq] at taken
  | working counter => simp only [step, current, reduceCtorEq] at taken
  | asleep => simp only [step, current, reduceCtorEq] at taken
  | measured time read =>
      rw [current] at phase
      obtain ⟨unset, start, measured, began, counted, ordered, rest, sum, behind, ahead⟩ := phase
      have finite : time ≠ timeInfinite := by
        rintro rfl
        have largest : timeInfinite.toNat = 2 ^ 32 - 1 := rfl
        omega
      simp only [Fits, current] at fits
      simp only [step, current, chSchGoSleepTimeoutS, if_neg finite,
        Option.map_eq_some_iff] at taken
      obtain ⟨kernel, armed, rfl⟩ := taken
      obtain ⟨serviceNext, served, still⟩ :=
        VirtualTimers.step_simulatesTimely _ _ _ _ simulates ⟨fits, trivial⟩ armed
      rcases TimerService.step_cases served with
        ⟨none, -⟩ | ⟨_, _, same, now, -, new, -⟩ | ⟨_, none | ⟨none, -⟩, -⟩ | ⟨none | none, -⟩
      case inr.inl =>
        cases same
        refine ⟨serviceNext, now, still, start, _, began, new, ?_, ?_⟩
        · omega
        · omega
      all_goals cases none

/-- The starts of the cycles from any point of the loop on. -/
theorem isChain_beginTimes [DecidableEq Timer] {actions : List (LoopAction Timer)}
    {final : TimedLoop Timer} (tracks : Tracks own rate slack last loop service)
    (run : runFrom (step own rate) loop actions = some final)
    (fits : Guarded (step own rate) (Fits own rate slack) loop actions) :
    (last.toList ++ beginTimes service.now actions).IsChain (Apart rate slack) := by
  induction actions generalizing loop last service with
  | nil =>
      rw [beginTimes, List.append_nil]
      cases last with
      | none => exact List.IsChain.nil
      | some start => exact List.isChain_singleton start
  | cons action rest inductionHypothesis =>
      rcases runFrom_cons_eq_some.mp run with ⟨next, taken, remaining⟩
      have later := fits.2 next taken
      cases action with
      | kernel action =>
          simp only [step] at taken
          split at taken
          case isTrue => cases taken
          case isFalse foreign =>
            obtain ⟨kernel, stepped, rfl⟩ := Option.map_eq_some_iff.mp taken
            obtain ⟨serviceNext, now, still⟩ := tracks_kernel tracks foreign fits.1 stepped
            have rest := inductionHypothesis still remaining later
            rw [now] at rest
            cases action <;> exact rest
      | begin =>
          cases current : loop.phase with
          | ready =>
              simp only [step, current] at taken
              cases taken
              obtain ⟨spacing, still⟩ := tracks_begin tracks current
              have rest := inductionHypothesis still remaining later
              rw [beginTimes]
              cases last with
              | none => exact rest
              | some start => exact List.isChain_cons_cons.mpr ⟨spacing start rfl, rest⟩
          | working counter => simp only [step, current, reduceCtorEq] at taken
          | measured time read => simp only [step, current, reduceCtorEq] at taken
          | asleep => simp only [step, current, reduceCtorEq] at taken
      | measure =>
          have rest := inductionHypothesis (tracks_measure tracks taken) remaining later
          exact rest
      | sleep =>
          obtain ⟨serviceNext, now, still⟩ := tracks_sleep tracks fits.1 taken
          have rest := inductionHypothesis still remaining later
          rw [now] at rest
          exact rest

/-- In every interleaving with the other timers, two consecutive cycles start one period
apart, with at most the ticks between the two readings of the counter and one tick more. -/
theorem cycle_starts_one_period_apart [DecidableEq Timer] (own : Timer) (rate : ConfiguredRate)
    (slack : Systime) {actions : List (LoopAction Timer)} {final : TimedLoop Timer}
    (run : runFrom (step own rate) ⟨VirtualTimers.vtInit, .ready⟩ actions = some final)
    (fits : Guarded (step own rate) (Fits own rate slack) ⟨VirtualTimers.vtInit, .ready⟩
      actions) :
    (beginTimes 0 actions).IsChain fun first second =>
      first + rate.period.toNat ≤ second ∧
        second ≤ first + rate.period.toNat + slack.toNat + 1 := by
  have initial : Tracks own rate slack none ⟨VirtualTimers.vtInit, .ready⟩
      TimerService.initial := by
    refine ⟨VirtualTimers.simulatesTimely_vtInit, rfl, ?_⟩
    intro start member
    cases member
  have starts := isChain_beginTimes initial run fits
  exact starts

/-- At 255 Hz a tick between the two readings, and the timer of another thread which expires
a tick before the sleep ends, delay the next cycle by two ticks. -/
theorem cycle_starts_behind_other :
    let actions : List (LoopAction Bool) :=
      [.begin, .kernel (.set false 30)] ++ List.replicate 28 (.kernel .elapse) ++
        [.measure, .kernel .elapse, .sleep, .kernel .elapse, .kernel .enter,
          .kernel (.serve false), .kernel .leave, .kernel .elapse, .kernel .elapse,
          .kernel .enter, .kernel (.serve true), .begin]
    beginTimes 0 actions = [0, 32] ∧
      (beginTimes 0 actions).IsChain fun first second =>
        first + (ConfiguredRate.mk 255 (by decide)).period.toNat ≤ second ∧
          second ≤ first + (ConfiguredRate.mk 255 (by decide)).period.toNat +
            (1 : Systime).toNat + 1 := by
  intro actions
  have completed : (runFrom (step true ⟨255, by decide⟩)
      ⟨VirtualTimers.vtInit, .ready⟩ actions).isSome = true := by decide
  obtain ⟨final, run⟩ := Option.isSome_iff_exists.mp completed
  exact ⟨rfl, cycle_starts_one_period_apart true ⟨255, by decide⟩ 1 run (by decide)⟩

end TimedLoop

end Adc
end AnalogX

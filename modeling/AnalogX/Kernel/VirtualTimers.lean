import AnalogX.Foundations.DeltaList
import AnalogX.Foundations.Runs
import AnalogX.Kernel.SystemTime

namespace AnalogX
namespace Kernel

open Foundations

/-!
# Virtual timers

Every sleep and every timeout of the firmware is a virtual timer of the kernel.
The armed timers form a delta list whose base time is the expiration of the last
timer that was served, and one compare register of the free-running counter
raises the interrupt for the first of them.

The kernel is configured without a periodic tick.  The definitions below are the
tick-less halves of `chvt.c` and `chvt.h`, over the registers which `st_lld.h`
writes.  The interrupt handler leaves its critical zone around each callback, so
it is not one step here: entering it, serving one timer and leaving it are
separate steps, with time and other kernel calls in between.
-/

/-- `virtual_timer_t`, as far as the list of armed timers uses it. -/
structure VirtualTimer (Timer : Type*) where
  timer : Timer
  delta : Systime

/-- Where the handler of the alarm interrupt stands.  `runaway` is the one outcome
the list does not define: the header has been called as if it were a timer. -/
inductive AlarmHandler where
  | idle
  | serving
  | runaway
  deriving DecidableEq

/-- The timer list of the kernel and the counter that drives it.  `CNT`, `CCR[0]`,
the interrupt enable bit, the match flag of `SR` and the pending bit of the
interrupt controller are the hardware part. -/
structure VirtualTimers (Timer : Type*) where
  timers : List (VirtualTimer Timer)
  lasttime : Systime
  counter : Systime
  compare : Systime
  enabled : Bool
  matched : Bool
  pending : Bool
  handler : AlarmHandler

namespace VirtualTimers

variable {Timer : Type*}

/-- `_vt_init` and `st_lld_init`. -/
def vtInit : VirtualTimers Timer where
  timers := []
  lasttime := 0
  counter := 0
  compare := 0
  enabled := false
  matched := false
  pending := false
  handler := .idle

/-! ## The alarm -/

/-- `st_lld_start_alarm`: no match from before the call survives it. -/
def stLldStartAlarm (time : Systime) (system : VirtualTimers Timer) : VirtualTimers Timer :=
  { system with compare := time, matched := false, enabled := true }

/-- `st_lld_stop_alarm`. -/
def stLldStopAlarm (system : VirtualTimers Timer) : VirtualTimers Timer :=
  { system with enabled := false }

/-- `st_lld_set_alarm`. -/
def stLldSetAlarm (time : Systime) (system : VirtualTimers Timer) : VirtualTimers Timer :=
  { system with compare := time }

/-- One tick of the counter.  The match flag is set whether or not the interrupt
is enabled; only an enabled one reaches the interrupt controller. -/
def countTick (system : VirtualTimers Timer) : VirtualTimers Timer :=
  let counter := system.counter + 1
  let matched := system.matched || counter == system.compare
  { system with
    counter := counter
    matched := matched
    pending := system.pending || (matched && system.enabled) }

/-! ## Arming and disarming -/

/-- The scan of `chVTDoSetI` from one element of the list on.  The header is the
end of the list: its delta `(systime_t)-1` stops the scan, and it is restored
after the insertion has changed it. -/
def linkTimer (timer : Timer) (delta : Systime) :
    List (VirtualTimer Timer) → List (VirtualTimer Timer)
  | [] => [⟨timer, delta⟩]
  | p :: rest =>
      if p.delta < delta then
        p :: linkTimer timer (delta - p.delta) rest
      else
        ⟨timer, delta⟩ :: { p with delta := p.delta - delta } :: rest

/-- The safe minimum `CH_CFG_ST_TIMEDELTA` of a delay and of an alarm distance. -/
def atLeastTimedelta (ticks : Systime) : Systime :=
  if ticks < stTimedelta then stTimedelta else ticks

/-- `chVTDoSetI`.  A delay whose distance to the base time exceeds the counter
skips the first element, which brings the distance back into range. -/
def chVTDoSetI (system : VirtualTimers Timer) (timer : Timer) (delay : Systime) :
    VirtualTimers Timer :=
  let now := system.counter
  let delay := atLeastTimedelta delay
  match system.timers with
  | [] =>
      stLldStartAlarm (now + delay)
        { system with lasttime := now, timers := [⟨timer, delay⟩] }
  | p :: rest =>
      let delta := now - system.lasttime + delay
      if delta < now - system.lasttime then
        { system with timers := p :: linkTimer timer (delta - p.delta) rest }
      else if delta < p.delta then
        stLldSetAlarm (system.lasttime + delta)
          { system with timers := linkTimer timer delta (p :: rest) }
      else
        { system with timers := linkTimer timer delta (p :: rest) }

/-- The delta of an unlinked element goes to the next one, unless that is the
header. -/
def absorbDelta (delta : Systime) : List (VirtualTimer Timer) → List (VirtualTimer Timer)
  | [] => []
  | p :: rest => { p with delta := p.delta + delta } :: rest

/-- The unlinking of an armed timer. -/
def unlinkTimer [DecidableEq Timer] (timer : Timer) :
    List (VirtualTimer Timer) → List (VirtualTimer Timer)
  | [] => []
  | p :: rest =>
      if p.timer = timer then absorbDelta p.delta rest else p :: unlinkTimer timer rest

/-- The end of `chVTDoResetI`, after the first timer has left the list.  A next timer
whose time has come already is left to the interrupt that is due for it. -/
def alarmNext (system : VirtualTimers Timer) : VirtualTimers Timer :=
  match system.timers with
  | [] => stLldStopAlarm system
  | next :: _ =>
      let nowdelta := system.counter - system.lasttime
      if next.delta ≤ nowdelta then
        system
      else
        stLldSetAlarm (system.lasttime + nowdelta + atLeastTimedelta (next.delta - nowdelta)) system

/-- `chVTDoResetI`.  Only the removal of the first timer moves the alarm. -/
def chVTDoResetI [DecidableEq Timer] (system : VirtualTimers Timer) (timer : Timer) :
    VirtualTimers Timer :=
  let unlinked := { system with timers := unlinkTimer timer system.timers }
  if system.timers.head?.map VirtualTimer.timer = some timer then
    alarmNext unlinked
  else
    unlinked

/-! ## The interrupt handler -/

/-- The head of the interrupt handler of `TIM2`.  An interrupt which stayed latched
after the flag was cleared is ignored. -/
def stHandler (system : VirtualTimers Timer) : VirtualTimers Timer :=
  if system.matched then
    { system with pending := false, matched := false, handler := .serving }
  else
    { system with pending := false }

/-- The delta of the first element of the list, or of the header. -/
def firstDelta (system : VirtualTimers Timer) : Systime :=
  match system.timers with
  | [] => timeInfinite
  | p :: _ => p.delta

/-- The condition of the loop in `chVTDoTickI`. -/
def Expired (system : VirtualTimers Timer) : Prop :=
  system.firstDelta ≤ system.counter - system.lasttime

instance (system : VirtualTimers Timer) : Decidable system.Expired :=
  inferInstanceAs (Decidable (_ ≤ _))

/-- The body of the loop in `chVTDoTickI`, up to the callback. -/
def serveFirst (system : VirtualTimers Timer) : VirtualTimers Timer :=
  match system.timers with
  | [] => { system with handler := .runaway }
  | p :: rest =>
      let served := { system with lasttime := system.lasttime + p.delta, timers := rest }
      match rest with
      | [] => stLldStopAlarm served
      | _ :: _ => served

/-- The end of `chVTDoTickI`: the alarm for the timer which has not expired yet. -/
def finishTick (system : VirtualTimers Timer) : VirtualTimers Timer :=
  let left := { system with handler := .idle }
  match system.timers with
  | [] => left
  | p :: _ =>
      stLldSetAlarm
        (system.counter + atLeastTimedelta (system.lasttime + p.delta - system.counter)) left

/-! ## Steps -/

/-- What can happen between two states of the kernel timer.  The handler serves one
timer at a time and names it; `callHeader` is the call of the list header. -/
inductive Action (Timer : Type*) where
  | elapse
  | set (timer : Timer) (delay : Systime)
  | reset (timer : Timer)
  | enter
  | serve (timer : Timer)
  | callHeader
  | leave
  deriving DecidableEq

/-- The timers which are in the list. -/
def armed (system : VirtualTimers Timer) : List Timer :=
  system.timers.map VirtualTimer.timer

variable [DecidableEq Timer]

/-- The steps in any order the code allows.  A timer is armed only when it is not in
the list and disarmed only when it is. -/
def step (system : VirtualTimers Timer) : Action Timer → Option (VirtualTimers Timer)
  | .elapse => some system.countTick
  | .set timer delay =>
      if timer ∈ system.armed then none else some (system.chVTDoSetI timer delay)
  | .reset timer =>
      if timer ∈ system.armed then some (system.chVTDoResetI timer) else none
  | .enter => if system.pending ∧ system.handler = .idle then some system.stHandler else none
  | .serve timer =>
      if system.handler = .serving ∧ system.Expired ∧ system.armed.head? = some timer then
        some system.serveFirst
      else
        none
  | .callHeader =>
      if system.handler = .serving ∧ system.Expired ∧ system.armed = [] then
        some system.serveFirst
      else
        none
  | .leave =>
      if system.handler = .serving ∧ ¬ system.Expired then some system.finishTick else none

end VirtualTimers

end Kernel
end AnalogX

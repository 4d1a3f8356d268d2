import AnalogX.Kernel.VirtualTimers
import Mathlib.Tactic.Linarith

namespace AnalogX
namespace Kernel

open Foundations

/-!
# What the virtual timers are for

The service which the rest of the kernel relies on has an unbounded clock and at
most one deadline for each timer.  A timer is served when its deadline has come
and no other deadline is earlier, and this is the only way besides disarming in
which a deadline goes away.

The delta list keeps these deadlines in 32-bit distances to a base time that
moves with every served timer.  The simulation below holds as long as no distance
leaves that range, which is a condition on each request and on how long the
interrupt is kept waiting.
-/

/-- The clock and the deadlines of the armed timers. -/
structure TimerService (Timer : Type*) where
  now : Nat
  deadline : Timer → Option Nat

namespace TimerService

variable {Timer : Type*}

def initial : TimerService Timer where
  now := 0
  deadline := fun _ => none

/-- The timer has an elapsed deadline and no other deadline is earlier. -/
def Due (service : TimerService Timer) (timer : Timer) : Prop :=
  ∃ due, service.deadline timer = some due ∧ due ≤ service.now ∧
    ∀ other later, service.deadline other = some later → due ≤ later

open Classical in
/-- The service takes the same actions as the code. -/
noncomputable def step (service : TimerService Timer) :
    VirtualTimers.Action Timer → Option (TimerService Timer)
  | .elapse => some { service with now := service.now + 1 }
  | .set timer delay =>
      if service.deadline timer = none then
        some { service with
          deadline := Function.update service.deadline timer
            (some (service.now + max 2 delay.toNat)) }
      else
        none
  | .reset timer =>
      if service.deadline timer = none then
        none
      else
        some { service with deadline := Function.update service.deadline timer none }
  | .enter => some service
  | .serve timer =>
      if service.Due timer then
        some { service with deadline := Function.update service.deadline timer none }
      else
        none
  | .callHeader => none
  | .leave => some service

end TimerService

namespace VirtualTimers

variable {Timer : Type*}

/-- The distances of the list, read as numbers. -/
def entries (timers : List (VirtualTimer Timer)) : List (Timer × Nat) :=
  timers.map fun p => (p.timer, p.delta.toNat)

theorem entries_cons (p : VirtualTimer Timer) (rest : List (VirtualTimer Timer)) :
    entries (p :: rest) = (p.timer, p.delta.toNat) :: entries rest :=
  rfl

theorem map_fst_entries (timers : List (VirtualTimer Timer)) :
    (entries timers).map Prod.fst = timers.map VirtualTimer.timer := by
  unfold entries
  rw [List.map_map]
  rfl

/-! ## The list operations on numbers -/

theorem toNat_atLeastTimedelta (ticks : Systime) :
    (atLeastTimedelta ticks).toNat = max 2 ticks.toNat := by
  unfold atLeastTimedelta stTimedelta
  split
  case isTrue short =>
    have := UInt32.lt_iff_toNat_lt.mp short
    simp only [UInt32.reduceToNat] at this ⊢
    omega
  case isFalse long =>
    have := UInt32.le_iff_toNat_le.mp (UInt32.not_lt.mp long)
    simp only [UInt32.reduceToNat] at this
    omega

/-- The scan never wraps: it subtracts a distance only after comparing with it. -/
theorem entries_linkTimer (timer : Timer) (delta : Systime)
    (timers : List (VirtualTimer Timer)) :
    entries (linkTimer timer delta timers) = insertDelta timer delta.toNat (entries timers) := by
  induction timers generalizing delta with
  | nil => rfl
  | cons p rest inductionHypothesis =>
      by_cases passed : p.delta < delta
      · have passedNat := UInt32.lt_iff_toNat_lt.mp passed
        have distance : (delta - p.delta).toNat = delta.toNat - p.delta.toNat :=
          UInt32.toNat_sub_of_le _ _ (UInt32.le_iff_toNat_le.mpr passedNat.le)
        rw [linkTimer, if_pos passed, entries_cons, inductionHypothesis, distance,
          entries_cons, insertDelta, if_pos passedNat]
      · have reached := UInt32.not_lt.mp passed
        have reachedNat := UInt32.le_iff_toNat_le.mp reached
        have distance : (p.delta - delta).toNat = p.delta.toNat - delta.toNat :=
          UInt32.toNat_sub_of_le _ _ reached
        rw [linkTimer, if_neg passed, entries_cons, entries_cons, distance, entries_cons,
          insertDelta, if_neg (not_lt.mpr reachedNat)]

variable [DecidableEq Timer]

/-- The distance a removed timer hands on to its successor fits the counter. -/
def MergeFits (timer : Timer) : List (VirtualTimer Timer) → Prop
  | p :: next :: rest =>
      (p.timer = timer → next.delta.toNat + p.delta.toNat < 2 ^ 32) ∧
        MergeFits timer (next :: rest)
  | _ => True

instance (timer : Timer) : ∀ timers, Decidable (MergeFits timer timers)
  | [] => isTrue trivial
  | [_] => isTrue trivial
  | p :: next :: rest =>
      have : Decidable (MergeFits timer (next :: rest)) :=
        instDecidableMergeFits timer (next :: rest)
      inferInstanceAs (Decidable ((p.timer = timer → _ < _) ∧ _))

theorem entries_unlinkTimer {timer : Timer} {timers : List (VirtualTimer Timer)}
    (fits : MergeFits timer timers) :
    entries (unlinkTimer timer timers) = removeDelta timer (entries timers) := by
  induction timers with
  | nil => rfl
  | cons p rest inductionHypothesis =>
      cases rest with
      | nil =>
          by_cases same : p.timer = timer
          · rw [unlinkTimer, if_pos same, entries_cons, removeDelta, if_pos same]
            rfl
          · rw [unlinkTimer, if_neg same, entries_cons, entries_cons, removeDelta, if_neg same]
            rfl
      | cons next rest =>
          by_cases same : p.timer = timer
          · have sum : (next.delta + p.delta).toNat = next.delta.toNat + p.delta.toNat := by
              rw [UInt32.toNat_add]
              exact Nat.mod_eq_of_lt (fits.1 same)
            rw [unlinkTimer, if_pos same, absorbDelta, entries_cons, sum, entries_cons,
              removeDelta, if_pos same, entries_cons, postpone]
          · rw [unlinkTimer, if_neg same, entries_cons, inductionHypothesis fits.2,
              entries_cons p (next :: rest), removeDelta, if_neg same]

/-! ## The representation -/

/-- Someone still depends on the base time: an armed timer, or an interrupt that is
requested or in service. -/
def Attended (system : VirtualTimers Timer) : Prop :=
  system.timers ≠ [] ∨ system.handler = .serving ∨ system.pending = true

/-- The handler is at work or about to be entered. -/
def Signalled (system : VirtualTimers Timer) : Prop :=
  system.handler = .serving ∨ (system.pending = true ∧ system.matched = true)

/-- The deadlines of the armed timers, for a base time on the unbounded clock. -/
def schedule (base : Nat) (system : VirtualTimers Timer) : List (Timer × Nat) :=
  deadlines base (entries system.timers)

/-- The alarm serves a deadline: the interrupt is under way, or the counter will meet
the compare register at most one tick after the deadline. -/
def AlarmFor (now due : Nat) (system : VirtualTimers Timer) : Prop :=
  system.Signalled ∨
    ∃ alarm, now < alarm ∧ alarm ≤ due + 1 ∧ system.compare = UInt32.ofNat alarm

/-- The list, the counter and the alarm stand for a state of the service. -/
structure Represents (base : Nat) (system : VirtualTimers Timer)
    (service : TimerService Timer) : Prop where
  counter : system.counter = UInt32.ofNat service.now
  lasttime : system.lasttime = UInt32.ofNat base
  base_le : base ≤ service.now
  recent : system.Attended → service.now < base + (2 ^ 32 - 1)
  distinct : system.armed.Nodup
  deadline_iff : ∀ timer due,
    service.deadline timer = some due ↔ (timer, due) ∈ system.schedule base
  enabled_iff : system.enabled = true ↔ system.timers ≠ []
  alarm : ∀ first ∈ (system.schedule base).head?, AlarmFor service.now first.2 system

/-- The condition on the requests and on the passing of time.  A new deadline may be
any 32-bit distance after the first armed one, a removed timer may leave any 32-bit
distance to its successor, and the interrupt is not kept waiting for a whole turn of
the counter. -/
def Fits (system : VirtualTimers Timer) : Action Timer → Prop
  | .elapse =>
      system.Attended → (system.counter - system.lasttime).toNat + 1 < 2 ^ 32 - 1
  | .set _ delay =>
      ∀ first ∈ system.timers.head?,
        (system.counter - system.lasttime).toNat + (atLeastTimedelta delay).toNat <
          2 ^ 32 + first.delta.toNat
  | .reset timer => MergeFits timer system.timers
  | _ => True

instance (system : VirtualTimers Timer) (action : Action Timer) :
    Decidable (system.Fits action) :=
  match action with
  | .elapse => inferInstanceAs (Decidable (_ ∨ _ ∨ _ → _ < _))
  | .set _ _ => inferInstanceAs (Decidable (∀ _ ∈ _, _ < _))
  | .reset timer => inferInstanceAs (Decidable (MergeFits timer _))
  | .enter | .serve _ | .callHeader | .leave => inferInstanceAs (Decidable True)

/-! ## One step of the simulation -/

variable {base : Nat} {system next : VirtualTimers Timer} {service : TimerService Timer}

omit [DecidableEq Timer]

theorem toNat_ofNat_sub_ofNat {first second : Nat} (ordered : first ≤ second)
    (near : second < first + 2 ^ 32) :
    (UInt32.ofNat second - UInt32.ofNat first).toNat = second - first := by
  have split : UInt32.ofNat second = UInt32.ofNat first + UInt32.ofNat (second - first) := by
    rw [← UInt32.ofNat_add, Nat.add_sub_cancel' ordered]
  rw [split, add_sub_cancel_left]
  exact UInt32.toNat_ofNat_of_lt' (by unfold UInt32.size; omega)

/-- While the base time is in use, the counter shows the true distance to it. -/
theorem Represents.toNat_elapsed (represents : Represents base system service)
    (attended : system.Attended) :
    (system.counter - system.lasttime).toNat = service.now - base := by
  have recent := represents.recent attended
  rw [represents.counter, represents.lasttime]
  exact toNat_ofNat_sub_ofNat represents.base_le (by omega)

theorem map_fst_schedule (base : Nat) (system : VirtualTimers Timer) :
    (system.schedule base).map Prod.fst = system.armed := by
  unfold schedule armed
  rw [map_fst_deadlines, map_fst_entries]

/-- The service knows the timers of the list and no others. -/
theorem Represents.deadline_eq_none_iff (represents : Represents base system service)
    (timer : Timer) : service.deadline timer = none ↔ timer ∉ system.armed := by
  rw [← map_fst_schedule base, List.mem_map]
  constructor
  · rintro unset ⟨⟨key, due⟩, member, rfl⟩
    rw [(represents.deadline_iff key due).mpr member] at unset
    cases unset
  · intro absent
    cases found : service.deadline timer with
    | none => rfl
    | some due =>
        exact absurd ⟨_, (represents.deadline_iff timer due).mp found, rfl⟩ absent

/-- The alarm of a deadline also serves a later deadline, in every state with the same
interrupt and compare register. -/
theorem AlarmFor.mono {now due later : Nat} (alarm : AlarmFor now due system)
    (ordered : due ≤ later) (compared : next.compare = system.compare)
    (signalled : system.Signalled → next.Signalled) : AlarmFor now later next := by
  rcases alarm with underWay | ⟨time, future, bounded, programmed⟩
  · exact Or.inl (signalled underWay)
  · exact Or.inr ⟨time, future, bounded.trans (Nat.add_le_add_right ordered 1),
      compared.trans programmed⟩

theorem represents_countTick (represents : Represents base system service)
    (fits : system.Attended → (system.counter - system.lasttime).toNat + 1 < 2 ^ 32 - 1) :
    Represents base system.countTick { service with now := service.now + 1 } where
  counter := by
    have advanced : system.countTick.counter = system.counter + 1 := rfl
    rw [advanced, represents.counter, UInt32.ofNat_add]
    rfl
  lasttime := represents.lasttime
  base_le := represents.base_le.trans (Nat.le_succ _)
  recent := by
    intro attended
    have before : system.Attended := by
      rcases attended with listed | serving | pending
      · exact Or.inl listed
      · exact Or.inr (Or.inl serving)
      · rcases Bool.or_eq_true_iff.mp pending with already | raised
        · exact Or.inr (Or.inr already)
        · exact Or.inl (represents.enabled_iff.mp (Bool.and_eq_true_iff.mp raised).2)
    have near := fits before
    rw [represents.toNat_elapsed before] at near
    have ordered := represents.base_le
    show service.now + 1 < base + (2 ^ 32 - 1)
    omega
  distinct := represents.distinct
  deadline_iff := represents.deadline_iff
  enabled_iff := represents.enabled_iff
  alarm := by
    intro first member
    have listed : system.timers ≠ [] := by
      intro empty
      unfold schedule at member
      rw [show system.countTick.timers = system.timers from rfl, empty] at member
      cases member
    have enabled := represents.enabled_iff.mpr listed
    rcases represents.alarm first member with signalled | ⟨time, future, bounded, programmed⟩
    · rcases signalled with serving | ⟨pending, matched⟩
      · exact Or.inl (Or.inl serving)
      · refine Or.inl (Or.inr ⟨?_, ?_⟩)
        · exact Bool.or_eq_true_iff.mpr (Or.inl pending)
        · exact Bool.or_eq_true_iff.mpr (Or.inl matched)
    · by_cases meets : time = service.now + 1
      · have equal : system.counter + 1 = system.compare := by
          rw [represents.counter, programmed, meets, UInt32.ofNat_add]
          rfl
        have matched : system.countTick.matched = true :=
          Bool.or_eq_true_iff.mpr (Or.inr (beq_iff_eq.mpr equal))
        refine Or.inl (Or.inr ⟨?_, matched⟩)
        exact Bool.or_eq_true_iff.mpr (Or.inr (Bool.and_eq_true_iff.mpr ⟨matched, enabled⟩))
      · have later : service.now + 1 < time := by omega
        exact Or.inr ⟨time, later, bounded, programmed⟩

/-! ### Arming a timer -/

/-- The distance sum of `chVTDoSetI` wraps exactly when its test says so, and skipping
the first element then restores the true distance. -/
theorem toNat_overflowing_delta {elapsed delay first : Systime}
    (overflow : elapsed + delay < elapsed)
    (fits : elapsed.toNat + delay.toNat < 2 ^ 32 + first.toNat) :
    (elapsed + delay - first).toNat + first.toNat = elapsed.toNat + delay.toNat ∧
      first.toNat < elapsed.toNat + delay.toNat := by
  have wrapped := UInt32.lt_iff_toNat_lt.mp overflow
  have small := first.toNat_lt
  rw [UInt32.toNat_add] at wrapped
  rw [UInt32.toNat_sub, UInt32.toNat_add]
  omega

theorem toNat_add_of_not_lt {elapsed delay : Systime} (inRange : ¬ elapsed + delay < elapsed) :
    (elapsed + delay).toNat = elapsed.toNat + delay.toNat := by
  have kept := UInt32.le_iff_toNat_le.mp (UInt32.not_lt.mp inRange)
  have small := delay.toNat_lt
  rw [UInt32.toNat_add] at kept ⊢
  omega

/-- Arming inserts one deadline in order, on either side of the overflow test. -/
theorem schedule_chVTDoSetI (represents : Represents base system service) (timer : Timer)
    {delay : Systime} {p : VirtualTimer Timer} {rest : List (VirtualTimer Timer)}
    (listed : system.timers = p :: rest)
    (fits : (system.counter - system.lasttime).toNat + (atLeastTimedelta delay).toNat <
      2 ^ 32 + p.delta.toNat) :
    (system.chVTDoSetI timer delay).schedule base =
      (system.schedule base).orderedInsert DueBefore
        (timer, service.now + max 2 delay.toNat) := by
  have attended : system.Attended := Or.inl (by rw [listed]; exact List.cons_ne_nil p rest)
  have elapsed := represents.toNat_elapsed attended
  have ordered := represents.base_le
  have requested := toNat_atLeastTimedelta delay
  unfold schedule chVTDoSetI
  simp only [listed]
  by_cases overflow :
      system.counter - system.lasttime + atLeastTimedelta delay < system.counter - system.lasttime
  · obtain ⟨restored, beyond⟩ := toNat_overflowing_delta overflow fits
    rw [if_pos overflow, entries_cons, entries_linkTimer, deadlines_cons, deadlines_insertDelta,
      entries_cons, deadlines_cons]
    have due : base + p.delta.toNat +
        (system.counter - system.lasttime + atLeastTimedelta delay - p.delta).toNat =
          service.now + max 2 delay.toNat := by
      omega
    have later : ¬ DueBefore (timer, service.now + max 2 delay.toNat)
        (p.timer, base + p.delta.toNat) := by
      show ¬ service.now + max 2 delay.toNat ≤ base + p.delta.toNat
      omega
    rw [due, List.orderedInsert_of_not_le _ _ later]
  · have sum := toNat_add_of_not_lt overflow
    have due : base + (system.counter - system.lasttime + atLeastTimedelta delay).toNat =
        service.now + max 2 delay.toNat := by
      omega
    rw [if_neg overflow, ← due, ← deadlines_insertDelta, ← entries_linkTimer]
    split <;> rfl

/-- The bookkeeping of a new deadline. -/
theorem update_eq_some_iff {deadline : Timer → Option Nat} {entries : List (Timer × Nat)}
    [DecidableEq Timer] (known : ∀ timer due, deadline timer = some due ↔ (timer, due) ∈ entries)
    {timer : Timer} (unset : deadline timer = none) (new : Nat) (other : Timer) (due : Nat) :
    Function.update deadline timer (some new) other = some due ↔
      (other, due) = (timer, new) ∨ (other, due) ∈ entries := by
  by_cases same : other = timer
  · subst same
    rw [Function.update_self]
    constructor
    · intro equal
      cases equal
      exact Or.inl rfl
    · rintro (equal | member)
      · cases equal
        rfl
      · rw [(known other due).mpr member] at unset
        cases unset
  · rw [Function.update_of_ne same, known]
    constructor
    · exact Or.inr
    · rintro (equal | member)
      · cases equal
        exact absurd rfl same
      · exact member

/-- The first timer of the list gives the first deadline. -/
theorem schedule_of_cons {p : VirtualTimer Timer} {rest : List (VirtualTimer Timer)}
    (listed : system.timers = p :: rest) :
    system.schedule base =
      (p.timer, base + p.delta.toNat) :: deadlines (base + p.delta.toNat) (entries rest) := by
  unfold schedule
  rw [listed, entries_cons, deadlines_cons]

/-- Arming moves the alarm exactly when the new deadline is the first one. -/
theorem alarm_chVTDoSetI (represents : Represents base system service) (timer : Timer)
    {delay : Systime} {p : VirtualTimer Timer} {rest : List (VirtualTimer Timer)}
    (listed : system.timers = p :: rest)
    (fits : (system.counter - system.lasttime).toNat + (atLeastTimedelta delay).toNat <
      2 ^ 32 + p.delta.toNat) :
    ∀ first ∈ ((system.chVTDoSetI timer delay).schedule base).head?,
      AlarmFor service.now first.2 (system.chVTDoSetI timer delay) := by
  intro first member
  have attended : system.Attended := Or.inl (by rw [listed]; exact List.cons_ne_nil p rest)
  have elapsed := represents.toNat_elapsed attended
  have ordered := represents.base_le
  have requested := toNat_atLeastTimedelta delay
  have current := represents.alarm (p.timer, base + p.delta.toNat) (by
    rw [schedule_of_cons listed]
    rfl)
  rw [schedule_chVTDoSetI represents timer listed fits, schedule_of_cons listed,
    List.orderedInsert_cons] at member
  unfold chVTDoSetI
  simp only [listed]
  by_cases overflow :
      system.counter - system.lasttime + atLeastTimedelta delay < system.counter - system.lasttime
  · obtain ⟨-, beyond⟩ := toNat_overflowing_delta overflow fits
    have later : ¬ DueBefore (timer, service.now + max 2 delay.toNat)
        (p.timer, base + p.delta.toNat) := by
      show ¬ service.now + max 2 delay.toNat ≤ base + p.delta.toNat
      omega
    rw [if_neg later] at member
    rw [if_pos overflow]
    cases member
    exact current.mono (le_refl _) rfl id
  · have sum := toNat_add_of_not_lt overflow
    rw [if_neg overflow]
    by_cases sooner :
        system.counter - system.lasttime + atLeastTimedelta delay < p.delta
    · have soonerNat := UInt32.lt_iff_toNat_lt.mp sooner
      have before : DueBefore (timer, service.now + max 2 delay.toNat)
          (p.timer, base + p.delta.toNat) := by
        show service.now + max 2 delay.toNat ≤ base + p.delta.toNat
        omega
      rw [if_pos before] at member
      cases member
      rw [if_pos sooner]
      refine Or.inr ⟨service.now + max 2 delay.toNat, by omega, by omega, ?_⟩
      show system.lasttime + (system.counter - system.lasttime + atLeastTimedelta delay) = _
      rw [← requested, UInt32.ofNat_add, UInt32.ofNat_toNat, ← represents.counter,
        ← add_assoc, add_sub_cancel]
    · have notSooner := UInt32.le_iff_toNat_le.mp (UInt32.not_lt.mp sooner)
      rw [if_neg sooner]
      have bound : base + p.delta.toNat ≤ first.2 := by
        split at member <;> cases member
        · omega
        · exact le_refl _
      exact current.mono bound rfl id

/-- Arming leaves everything but the list, the base time of an empty list and the
alarm as it was. -/
theorem chVTDoSetI_of_cons (timer : Timer) (delay : Systime) {p : VirtualTimer Timer}
    {rest : List (VirtualTimer Timer)} (listed : system.timers = p :: rest) :
    ∃ timers compare, timers ≠ [] ∧
      system.chVTDoSetI timer delay = { system with timers := timers, compare := compare } := by
  have linked (delta : Systime) : linkTimer timer delta (p :: rest) ≠ [] := by
    rw [linkTimer]
    split <;> exact List.cons_ne_nil _ _
  unfold chVTDoSetI
  simp only [listed]
  split
  · exact ⟨_, system.compare, List.cons_ne_nil _ _, rfl⟩
  · split
    · exact ⟨_, _, linked _, rfl⟩
    · exact ⟨_, system.compare, linked _, rfl⟩

theorem represents_chVTDoSetI_of_cons [DecidableEq Timer]
    (represents : Represents base system service)
    {timer : Timer} {delay : Systime} {p : VirtualTimer Timer}
    {rest : List (VirtualTimer Timer)} (listed : system.timers = p :: rest)
    (unset : service.deadline timer = none)
    (fits : (system.counter - system.lasttime).toNat + (atLeastTimedelta delay).toNat <
      2 ^ 32 + p.delta.toNat) :
    Represents base (system.chVTDoSetI timer delay)
      { service with
        deadline := Function.update service.deadline timer
          (some (service.now + max 2 delay.toNat)) } := by
  have inserted := schedule_chVTDoSetI represents timer listed fits
  have alarmed := alarm_chVTDoSetI represents timer listed fits
  have attended : system.Attended := Or.inl (by rw [listed]; exact List.cons_ne_nil p rest)
  have enabled : system.enabled = true :=
    represents.enabled_iff.mpr (by rw [listed]; exact List.cons_ne_nil p rest)
  obtain ⟨timers, compare, nonempty, changed⟩ :=
    chVTDoSetI_of_cons timer delay listed
  refine
    { counter := ?_, lasttime := ?_, base_le := represents.base_le, recent := ?_, distinct := ?_,
      deadline_iff := ?_, enabled_iff := ?_, alarm := alarmed }
  · rw [changed]
    exact represents.counter
  · rw [changed]
    exact represents.lasttime
  · intro _
    exact represents.recent attended
  · have absent := (represents.deadline_eq_none_iff timer).mp unset
    rw [← map_fst_schedule base, inserted,
      ((List.perm_orderedInsert DueBefore _ _).map Prod.fst).nodup_iff, List.map_cons,
      map_fst_schedule]
    exact List.nodup_cons.mpr ⟨absent, represents.distinct⟩
  · intro other due
    rw [inserted, List.mem_orderedInsert]
    exact update_eq_some_iff represents.deadline_iff unset _ other due
  · rw [changed]
    exact iff_of_true enabled nonempty

/-- Arming the only timer takes the present as the new base time. -/
theorem represents_chVTDoSetI_of_nil [DecidableEq Timer]
    (represents : Represents base system service) {timer : Timer} {delay : Systime}
    (empty : system.timers = []) (unset : service.deadline timer = none) :
    Represents service.now (system.chVTDoSetI timer delay)
      { service with
        deadline := Function.update service.deadline timer
          (some (service.now + max 2 delay.toNat)) } := by
  have requested := toNat_atLeastTimedelta delay
  have changed : system.chVTDoSetI timer delay =
      stLldStartAlarm (system.counter + atLeastTimedelta delay)
        { system with lasttime := system.counter, timers := [⟨timer, atLeastTimedelta delay⟩] } := by
    unfold chVTDoSetI
    simp only [empty]
  have scheduled : (system.chVTDoSetI timer delay).schedule service.now =
      [(timer, service.now + max 2 delay.toNat)] := by
    rw [changed, ← requested]
    rfl
  have nothing : ∀ other due, service.deadline other = some due ↔ (other, due) ∈ [] := by
    intro other due
    rw [represents.deadline_iff]
    unfold schedule
    rw [empty]
    rfl
  refine
    { counter := ?_, lasttime := ?_, base_le := le_refl _, recent := ?_, distinct := ?_,
      deadline_iff := ?_, enabled_iff := ?_, alarm := ?_ }
  · rw [changed]
    exact represents.counter
  · rw [changed]
    exact represents.counter
  · intro _
    show service.now < service.now + (2 ^ 32 - 1)
    omega
  · rw [changed]
    exact List.nodup_singleton timer
  · intro other due
    rw [scheduled, update_eq_some_iff nothing unset, List.mem_cons]
  · rw [changed]
    exact iff_of_true rfl (List.cons_ne_nil _ _)
  · intro first member
    rw [scheduled] at member
    cases member
    refine Or.inr ⟨service.now + max 2 delay.toNat, Nat.lt_add_of_pos_right (by omega),
      Nat.le_succ _, ?_⟩
    rw [changed, ← requested, UInt32.ofNat_add, UInt32.ofNat_toNat, ← represents.counter]
    rfl

/-! ### Disarming a timer -/

/-- The alarm after a reset is stopped exactly when no timer is left. -/
theorem alarmNext_eq (system : VirtualTimers Timer) :
    ∃ compare enabled,
      system.alarmNext = { system with compare := compare, enabled := enabled } ∧
      (enabled = true ↔ system.enabled = true ∧ system.timers ≠ []) := by
  unfold alarmNext
  split
  case h_1 list =>
    refine ⟨system.compare, false, rfl, ?_⟩
    rw [list]
    simp
  case h_2 next rest list =>
    have alarm : system.enabled = true ↔ system.enabled = true ∧ system.timers ≠ [] := by
      rw [list]
      exact ⟨fun enabled => ⟨enabled, List.cons_ne_nil _ _⟩, And.left⟩
    simp only
    split
    · exact ⟨system.compare, system.enabled, rfl, alarm⟩
    · exact ⟨_, system.enabled, rfl, alarm⟩

/-- An alarm which is programmed from the distance of a future deadline serves it. -/
theorem alarmFor_distance {now due : Nat} {distance : Systime} (future : now < due)
    (exact : distance.toNat = due - now)
    (programmed : next.compare = UInt32.ofNat now + atLeastTimedelta distance) :
    AlarmFor now due next := by
  have raised := toNat_atLeastTimedelta distance
  refine Or.inr ⟨now + max 2 (due - now), by omega, by omega, ?_⟩
  rw [programmed, UInt32.ofNat_add, ← exact, ← raised, UInt32.ofNat_toNat]

theorem unlinkTimer_of_first [DecidableEq Timer] {timer : Timer} {p : VirtualTimer Timer}
    {rest : List (VirtualTimer Timer)} (same : p.timer = timer) :
    unlinkTimer timer (p :: rest) = absorbDelta p.delta rest := by
  rw [unlinkTimer, if_pos same]

theorem unlinkTimer_of_later [DecidableEq Timer] {timer : Timer} {p : VirtualTimer Timer}
    {rest : List (VirtualTimer Timer)} (different : p.timer ≠ timer) :
    unlinkTimer timer (p :: rest) = p :: unlinkTimer timer rest := by
  rw [unlinkTimer, if_neg different]

/-- Disarming changes the list, and otherwise at most the alarm. -/
theorem chVTDoResetI_eq [DecidableEq Timer] (timer : Timer)
    (enabled_iff : system.enabled = true ↔ system.timers ≠ [])
    (member : timer ∈ system.armed) :
    ∃ compare enabled,
      system.chVTDoResetI timer =
        { system with
          timers := unlinkTimer timer system.timers, compare := compare, enabled := enabled } ∧
      (enabled = true ↔ unlinkTimer timer system.timers ≠ []) := by
  unfold armed at member
  cases list : system.timers with
  | nil =>
      rw [list] at member
      cases member
  | cons p rest =>
      have enabled : system.enabled = true :=
        enabled_iff.mpr (by rw [list]; exact List.cons_ne_nil _ _)
      unfold chVTDoResetI
      simp only [list, List.head?_cons, Option.map_some, Option.some.injEq]
      split
      case isTrue same =>
        obtain ⟨compare, alarm, changed, iff⟩ :=
          alarmNext_eq { system with timers := unlinkTimer timer (p :: rest) }
        refine ⟨compare, alarm, changed, iff.trans ?_⟩
        exact and_iff_right enabled
      case isFalse different =>
        refine ⟨system.compare, system.enabled, rfl, iff_of_true enabled ?_⟩
        rw [unlinkTimer_of_later different]
        exact List.cons_ne_nil _ _

/-- The end of a reset: the alarm that served an earlier deadline is kept for a timer
whose time has come, and moved otherwise. -/
theorem alarmFor_alarmNext (system : VirtualTimers Timer) {now due : Nat} {p : VirtualTimer Timer}
    {rest : List (VirtualTimer Timer)} (listed : system.timers = p :: rest)
    (counted : system.counter = UInt32.ofNat now) (ordered : base ≤ now)
    (elapsed : (system.counter - system.lasttime).toNat = now - base)
    (current : AlarmFor now due system) (earlier : due ≤ base + p.delta.toNat) :
    AlarmFor now (base + p.delta.toNat) system.alarmNext := by
  unfold alarmNext
  simp only [listed]
  by_cases come : p.delta ≤ system.counter - system.lasttime
  · rw [if_pos come]
    exact current.mono earlier rfl id
  · have future := UInt32.lt_iff_toNat_lt.mp (UInt32.not_le.mp come)
    have distance :
        (p.delta - (system.counter - system.lasttime)).toNat =
          base + p.delta.toNat - now := by
      rw [UInt32.toNat_sub_of_le _ _ (UInt32.le_iff_toNat_le.mpr future.le), elapsed]
      omega
    rw [if_neg come]
    refine alarmFor_distance (by omega) distance ?_
    show system.lasttime + (system.counter - system.lasttime) + _ = _
    rw [add_sub_cancel, counted]

theorem schedule_chVTDoResetI [DecidableEq Timer] {timer : Timer}
    (fits : MergeFits timer system.timers)
    (changed : next.timers = unlinkTimer timer system.timers) :
    next.schedule base = (system.schedule base).eraseP (fun entry => entry.1 = timer) := by
  unfold schedule
  rw [changed, entries_unlinkTimer fits, deadlines_removeDelta]

/-- The alarm after a reset serves the timer that is first now. -/
theorem alarm_chVTDoResetI [DecidableEq Timer] (represents : Represents base system service)
    {timer : Timer} (fits : MergeFits timer system.timers) :
    ∀ first ∈ ((system.chVTDoResetI timer).schedule base).head?,
      AlarmFor service.now first.2 (system.chVTDoResetI timer) := by
  intro first member
  cases list : system.timers with
  | nil =>
      have unchanged : (system.chVTDoResetI timer).timers = [] := by
        unfold chVTDoResetI
        simp only [list, List.head?_nil, Option.map_none, reduceCtorEq, if_false]
        rfl
      unfold schedule at member
      rw [unchanged] at member
      cases member
  | cons p rest =>
      have attended : system.Attended := Or.inl (by rw [list]; exact List.cons_ne_nil p rest)
      have elapsed := represents.toNat_elapsed attended
      have ordered := represents.base_le
      have current := represents.alarm (p.timer, base + p.delta.toNat) (by
        rw [schedule_of_cons list]
        rfl)
      unfold chVTDoResetI at member ⊢
      simp only [list, List.head?_cons, Option.map_some, Option.some.injEq] at member ⊢
      by_cases same : p.timer = timer
      · rw [if_pos same] at member ⊢
        rw [unlinkTimer_of_first same] at member ⊢
        cases rest with
        | nil => cases member
        | cons later others =>
            rw [list] at fits
            have sum : (later.delta + p.delta).toNat = later.delta.toNat + p.delta.toNat := by
              rw [UInt32.toNat_add]
              exact Nat.mod_eq_of_lt (fits.1 same)
            obtain ⟨compare, enabled, changed, -⟩ := alarmNext_eq
              { system with timers := absorbDelta p.delta (later :: others) }
            have due : first.2 = base + (later.delta + p.delta).toNat := by
              rw [changed] at member
              cases member
              rfl
            rw [due]
            have kept : AlarmFor service.now (base + p.delta.toNat)
                { system with timers := absorbDelta p.delta (later :: others) } :=
              current.mono (le_refl _) rfl id
            refine alarmFor_alarmNext
              { system with timers := absorbDelta p.delta (later :: others) }
              rfl represents.counter ordered elapsed kept ?_
            show base + p.delta.toNat ≤ base + (later.delta + p.delta).toNat
            omega
      · rw [if_neg same] at member ⊢
        rw [unlinkTimer_of_later same] at member ⊢
        cases member
        exact current.mono (le_refl _) rfl id

/-- The bookkeeping of a deadline which goes away. -/
theorem update_none_eq_some_iff [DecidableEq Timer] {deadline : Timer → Option Nat}
    {entries : List (Timer × Nat)}
    (known : ∀ timer due, deadline timer = some due ↔ (timer, due) ∈ entries)
    (distinct : (entries.map Prod.fst).Nodup) (timer other : Timer) (due : Nat) :
    Function.update deadline timer none other = some due ↔
      (other, due) ∈ entries.eraseP (fun entry => entry.1 = timer) := by
  rw [mem_eraseP_key distinct, ← known]
  by_cases same : other = timer
  · subst same
    simp
  · rw [Function.update_of_ne same]
    exact ⟨fun found => ⟨found, same⟩, And.left⟩

theorem represents_chVTDoResetI [DecidableEq Timer] (represents : Represents base system service)
    {timer : Timer} (member : timer ∈ system.armed) (fits : MergeFits timer system.timers) :
    Represents base (system.chVTDoResetI timer)
      { service with deadline := Function.update service.deadline timer none } := by
  have alarmed := alarm_chVTDoResetI represents fits
  obtain ⟨compare, enabled, changed, enabled_iff⟩ :=
    chVTDoResetI_eq timer represents.enabled_iff member
  have erased : (system.chVTDoResetI timer).schedule base =
      (system.schedule base).eraseP (fun entry => entry.1 = timer) := by
    exact schedule_chVTDoResetI fits (by rw [changed])
  have nodup : ((system.schedule base).map Prod.fst).Nodup := by
    rw [map_fst_schedule]
    exact represents.distinct
  refine
    { counter := ?_, lasttime := ?_, base_le := represents.base_le, recent := ?_, distinct := ?_,
      deadline_iff := ?_, enabled_iff := ?_, alarm := alarmed }
  · rw [changed]
    exact represents.counter
  · rw [changed]
    exact represents.lasttime
  · intro _
    refine represents.recent (Or.inl ?_)
    intro empty
    unfold armed at member
    rw [empty] at member
    cases member
  · rw [← map_fst_schedule base, erased]
    exact nodup.sublist ((List.eraseP_sublist).map Prod.fst)
  · intro other due
    rw [erased]
    exact update_none_eq_some_iff represents.deadline_iff nodup timer other due
  · rw [changed]
    exact enabled_iff

/-! ### The interrupt -/

theorem represents_stHandler (represents : Represents base system service)
    (pending : system.pending = true) (idle : system.handler = .idle) :
    Represents base system.stHandler service := by
  have attended : system.Attended := Or.inr (Or.inr pending)
  have recent := represents.recent attended
  cases flag : system.matched with
  | true =>
      have changed : system.stHandler =
          { system with pending := false, matched := false, handler := .serving } := by
        unfold stHandler
        rw [flag]
        rfl
      rw [changed]
      exact
        { represents with
          recent := fun _ => recent
          alarm := fun _ _ => Or.inl (Or.inl rfl) }
  | false =>
      have changed : system.stHandler = { system with pending := false } := by
        unfold stHandler
        rw [flag]
        rfl
      have unsignalled : ¬ system.Signalled := by
        rintro (serving | ⟨-, matched⟩)
        · rw [idle] at serving
          cases serving
        · rw [flag] at matched
          cases matched
      rw [changed]
      exact
        { represents with
          recent := fun _ => recent
          alarm := fun first member =>
            Or.inr ((represents.alarm first member).resolve_left unsignalled) }

/-- Serving takes the first timer off the list and its deadline as the new base time. -/
theorem serveFirst_eq {p : VirtualTimer Timer} {rest : List (VirtualTimer Timer)}
    (listed : system.timers = p :: rest) (enabled : system.enabled = true) :
    ∃ active,
      system.serveFirst =
        { system with
          lasttime := system.lasttime + p.delta, timers := rest, enabled := active } ∧
      (active = true ↔ rest ≠ []) := by
  unfold serveFirst
  simp only [listed]
  cases rest with
  | nil =>
      refine ⟨false, rfl, ?_⟩
      simp
  | cons next others =>
      exact ⟨system.enabled, rfl, iff_of_true enabled (List.cons_ne_nil _ _)⟩

/-- An expired first timer is due on the unbounded clock. -/
theorem Represents.first_due (represents : Represents base system service)
    {p : VirtualTimer Timer} {rest : List (VirtualTimer Timer)}
    (listed : system.timers = p :: rest) :
    system.Expired ↔ base + p.delta.toNat ≤ service.now := by
  have attended : system.Attended := Or.inl (by rw [listed]; exact List.cons_ne_nil p rest)
  have elapsed := represents.toNat_elapsed attended
  have ordered := represents.base_le
  unfold Expired firstDelta
  simp only [listed]
  rw [UInt32.le_iff_toNat_le, elapsed]
  omega

theorem due_of_expired (represents : Represents base system service)
    {p : VirtualTimer Timer} {rest : List (VirtualTimer Timer)}
    (listed : system.timers = p :: rest) (expired : system.Expired) :
    service.Due p.timer := by
  have scheduled : system.schedule base = _ := schedule_of_cons listed
  refine ⟨base + p.delta.toNat, ?_, (represents.first_due listed).mp expired, ?_⟩
  · rw [represents.deadline_iff, scheduled]
    exact List.mem_cons_self
  · intro other later found
    have member := (represents.deadline_iff other later).mp found
    rw [scheduled] at member
    rcases List.mem_cons.mp member with same | behind
    · cases same
      exact le_refl _
    · exact le_of_mem_deadlines behind

theorem represents_serveFirst [DecidableEq Timer] (represents : Represents base system service)
    {p : VirtualTimer Timer} {rest : List (VirtualTimer Timer)}
    (listed : system.timers = p :: rest) (serving : system.handler = .serving)
    (expired : system.Expired) :
    Represents (base + p.delta.toNat) system.serveFirst
      { service with deadline := Function.update service.deadline p.timer none } := by
  have come := (represents.first_due listed).mp expired
  have recent := represents.recent (Or.inr (Or.inl serving))
  have enabled : system.enabled = true :=
    represents.enabled_iff.mpr (by rw [listed]; exact List.cons_ne_nil p rest)
  obtain ⟨active, changed, active_iff⟩ := serveFirst_eq listed enabled
  have scheduled : system.schedule base = _ := schedule_of_cons listed
  have erased : (system.schedule base).eraseP (fun entry => entry.1 = p.timer) =
      deadlines (base + p.delta.toNat) (entries rest) := by
    rw [scheduled, List.eraseP_cons_of_pos (by simp)]
  have nodup : ((system.schedule base).map Prod.fst).Nodup := by
    rw [map_fst_schedule]
    exact represents.distinct
  have distinct := represents.distinct
  unfold armed at distinct
  rw [listed, List.map_cons, List.nodup_cons] at distinct
  rw [changed]
  exact
    { counter := represents.counter
      lasttime := by
        show system.lasttime + p.delta = _
        rw [represents.lasttime, UInt32.ofNat_add, UInt32.ofNat_toNat]
      base_le := come
      recent := fun _ => by
        show service.now < base + p.delta.toNat + (2 ^ 32 - 1)
        omega
      distinct := distinct.2
      deadline_iff := fun other due => by
        rw [update_none_eq_some_iff represents.deadline_iff nodup, erased]
        rfl
      enabled_iff := active_iff
      alarm := fun _ _ => Or.inl (Or.inl serving) }

/-- The header is never taken for a timer while the interrupt is served in time. -/
theorem Represents.not_expired_of_nil (represents : Represents base system service)
    (serving : system.handler = .serving) (empty : system.timers = []) : ¬ system.Expired := by
  have attended : system.Attended := Or.inr (Or.inl serving)
  have recent := represents.recent attended
  have elapsed := represents.toNat_elapsed attended
  have ordered := represents.base_le
  unfold Expired firstDelta timeInfinite
  simp only [empty]
  rw [UInt32.le_iff_toNat_le, elapsed]
  simp only [UInt32.reduceToNat]
  omega

theorem finishTick_eq (system : VirtualTimers Timer) :
    ∃ compare, system.finishTick = { system with handler := .idle, compare := compare } := by
  unfold finishTick
  split
  · exact ⟨system.compare, rfl⟩
  · exact ⟨_, rfl⟩

theorem represents_finishTick (represents : Represents base system service)
    (serving : system.handler = .serving) (waiting : ¬ system.Expired) :
    Represents base system.finishTick service := by
  have recent := represents.recent (Or.inr (Or.inl serving))
  have ordered := represents.base_le
  have alarmed : ∀ first ∈ (system.finishTick.schedule base).head?,
      AlarmFor service.now first.2 system.finishTick := by
    intro first member
    cases listed : system.timers with
    | nil =>
        obtain ⟨compare, changed⟩ := finishTick_eq system
        unfold schedule at member
        rw [changed, listed] at member
        cases member
    | cons p rest =>
        have future := not_le.mp (mt (represents.first_due listed).mpr waiting)
        have small := p.delta.toNat_lt
        have due : first.2 = base + p.delta.toNat := by
          obtain ⟨compare, changed⟩ := finishTick_eq system
          rw [changed, show schedule base { system with handler := .idle, compare := compare } =
            system.schedule base from rfl, schedule_of_cons listed] at member
          cases member
          rfl
        have distance :
            (system.lasttime + p.delta - system.counter).toNat =
              base + p.delta.toNat - service.now := by
          have sum : system.lasttime + p.delta = UInt32.ofNat (base + p.delta.toNat) := by
            rw [represents.lasttime, UInt32.ofNat_add, UInt32.ofNat_toNat]
          rw [sum, represents.counter]
          exact toNat_ofNat_sub_ofNat future.le (by omega)
        rw [due]
        refine alarmFor_distance future distance ?_
        unfold finishTick
        simp only [listed]
        rw [← represents.counter]
        rfl
  obtain ⟨compare, changed⟩ := finishTick_eq system
  rw [changed] at alarmed ⊢
  exact
    { represents with
      recent := fun _ => recent
      alarm := alarmed }

/-- The alarm for the first timer serves every open deadline. -/
theorem Represents.alarmFor (represents : Represents base system service) {timer : Timer}
    {due : Nat} (found : service.deadline timer = some due) :
    AlarmFor service.now due system := by
  have member := (represents.deadline_iff timer due).mp found
  cases listed : system.timers with
  | nil =>
      unfold schedule at member
      rw [listed] at member
      cases member
  | cons p rest =>
      have scheduled : system.schedule base = _ := schedule_of_cons listed
      have current := represents.alarm (p.timer, base + p.delta.toNat) (by rw [scheduled]; rfl)
      rw [scheduled] at member
      rcases List.mem_cons.mp member with same | behind
      · cases same
        exact current
      · exact current.mono (le_of_mem_deadlines behind) rfl id

/-! ## Whole runs -/

/-- The code and the service are in corresponding states. -/
def Simulates (system : VirtualTimers Timer) (service : TimerService Timer) : Prop :=
  ∃ base, Represents base system service

theorem simulates_vtInit : Simulates (vtInit : VirtualTimers Timer) TimerService.initial :=
  ⟨0,
    { counter := rfl
      lasttime := rfl
      base_le := le_refl 0
      recent := fun _ => by
        show 0 < 0 + (2 ^ 32 - 1)
        omega
      distinct := List.nodup_nil
      deadline_iff := fun timer due => by
        show none = some due ↔ (timer, due) ∈ []
        simp
      enabled_iff := by
        show false = true ↔ ([] : List (VirtualTimer Timer)) ≠ []
        simp
      alarm := fun first member => by cases member }⟩

variable [DecidableEq Timer]

/-- Every step of the code within the range is the step of the service. -/
theorem step_simulates (system : VirtualTimers Timer) (service : TimerService Timer)
    (action : Action Timer) (next : VirtualTimers Timer) (simulates : Simulates system service)
    (fits : system.Fits action) (taken : system.step action = some next) :
    ∃ serviceNext, service.step action = some serviceNext ∧ Simulates next serviceNext := by
  classical
  obtain ⟨base, represents⟩ := simulates
  cases action with
  | elapse =>
      cases taken
      exact ⟨_, rfl, base, represents_countTick represents fits⟩
  | set timer delay =>
      simp only [step] at taken
      split at taken
      case isTrue => cases taken
      case isFalse absent =>
        cases taken
        have unset := (represents.deadline_eq_none_iff timer).mpr absent
        refine ⟨_, if_pos unset, ?_⟩
        cases listed : system.timers with
        | nil =>
            refine ⟨service.now, ?_⟩
            convert represents_chVTDoSetI_of_nil represents listed unset
        | cons p rest =>
            refine ⟨base, ?_⟩
            have near := fits p (by rw [listed]; rfl)
            convert represents_chVTDoSetI_of_cons represents listed unset near
  | reset timer =>
      simp only [step] at taken
      split at taken
      case isFalse => cases taken
      case isTrue member =>
        cases taken
        have known : service.deadline timer ≠ none :=
          fun unset => (represents.deadline_eq_none_iff timer).mp unset member
        refine ⟨_, if_neg known, base, ?_⟩
        convert represents_chVTDoResetI represents member fits
  | enter =>
      simp only [step] at taken
      split at taken
      case isFalse => cases taken
      case isTrue requested =>
        cases taken
        exact ⟨_, rfl, base, represents_stHandler represents requested.1 requested.2⟩
  | serve timer =>
      simp only [step] at taken
      split at taken
      case isFalse => cases taken
      case isTrue ready =>
        cases taken
        obtain ⟨serving, expired, first⟩ := ready
        cases listed : system.timers with
        | nil =>
            unfold armed at first
            rw [listed] at first
            cases first
        | cons p rest =>
            unfold armed at first
            rw [listed] at first
            cases first
            refine ⟨_, if_pos (due_of_expired represents listed expired), ?_, ?_⟩
            · exact base + p.delta.toNat
            · convert represents_serveFirst represents listed serving expired
  | callHeader =>
      simp only [step] at taken
      split at taken
      case isFalse => cases taken
      case isTrue ready =>
        obtain ⟨serving, expired, empty⟩ := ready
        have nothing : system.timers = [] := List.map_eq_nil_iff.mp empty
        exact absurd expired (represents.not_expired_of_nil serving nothing)
  | leave =>
      simp only [step] at taken
      split at taken
      case isFalse => cases taken
      case isTrue ready =>
        cases taken
        exact ⟨_, rfl, base, represents_finishTick represents ready.1 ready.2⟩

/-- The timer list of the kernel refines the service.  In every order of arming, disarming,
time and interrupt steps within the range of the counter, the code serves a timer only
when its deadline has come and no earlier one is open, loses none, and never calls the
list header.  A deadline which has passed by more than a tick has the interrupt
requested or in service. -/
theorem run_refines_service {actions : List (Action Timer)} {system : VirtualTimers Timer}
    (run : runFrom step vtInit actions = some system) (fits : Guarded step Fits vtInit actions) :
    ∃ service, runFrom TimerService.step TimerService.initial actions = some service ∧
      system.counter = UInt32.ofNat service.now ∧
      (∀ timer, timer ∈ system.armed ↔ service.deadline timer ≠ none) ∧
      ∀ timer due, service.deadline timer = some due → due < service.now → system.Signalled := by
  obtain ⟨service, served, base, represents⟩ := fits.simulates step_simulates run simulates_vtInit
  refine ⟨service, served, represents.counter, ?_, ?_⟩
  · intro timer
    rw [Ne, represents.deadline_eq_none_iff, not_not]
  · intro timer due found passed
    rcases represents.alarmFor found with signalled | ⟨alarm, future, bounded, -⟩
    · exact signalled
    · omega

/-- Two timers, the first of which is disarmed while the second one is overdue. -/
theorem run_refines_service_disarmed :
    ∃ service, runFrom TimerService.step TimerService.initial
        [.set true 3, .set false 4, .elapse, .elapse, .elapse, .elapse, .reset true, .enter,
          .serve false] = some service ∧
      ∀ timer : Bool, service.deadline timer = none := by
  obtain ⟨system, run⟩ : ∃ system, runFrom step vtInit
      [.set true 3, .set false 4, .elapse, .elapse, .elapse, .elapse, .reset true, .enter,
        .serve false] = some system ∧ system.armed = [] := by
    decide
  obtain ⟨service, served, -, known, -⟩ := run_refines_service run.1 (by decide)
  refine ⟨service, served, ?_⟩
  intro timer
  by_contra set
  have member := (known timer).mpr set
  rw [run.2] at member
  cases member

end VirtualTimers

end Kernel
end AnalogX

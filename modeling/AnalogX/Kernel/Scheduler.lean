import AnalogX.Foundations.Runs
import Mathlib.Data.List.Perm.Basic
import Mathlib.Logic.Function.Basic

namespace AnalogX
namespace Kernel

open Foundations

/-!
# The scheduler

The kernel runs one thread and keeps the others which could run in the ready list, in
the order of their priorities.  A thread that becomes ready goes behind its equals.  A
thread that is preempted when the kernel reschedules goes ahead of them, so that it does
not lose its turn; but one that wakes a higher thread by `chSchWakeupS` is put in the list
by `chSchReadyI`, and goes behind them.

The worker threads of the firmware share one priority, and there is no time quantum.
What decides which of them runs is therefore the order among equals.  To speak about it
each thread carries the moment at which it was last passed to `chSchReadyI`, or switched to
by `chSchWakeupS`, a number that no function reads.

An interrupt handler, or a thread inside the kernel lock, makes threads ready without
switching; the switch follows when it leaves.
-/

/-- The threads of a system.  `NOPRIO` is the priority of the list header, below that of
every thread, which is where the scans of the ready list end at the latest. -/
structure ThreadSet (Thread : Type*) where
  prio : Thread → Nat
  idle : Thread
  positive : ∀ thread, 0 < prio thread

/-- The running thread, the ready list, the threads which wait for something, and whether
kernel code is between making threads ready and rescheduling. -/
structure Scheduler (Thread : Type*) where
  current : Thread
  ready : List Thread
  sleeping : List Thread
  locked : Bool
  stamp : Thread → Nat
  clock : Nat

namespace Scheduler

variable {Thread : Type*} [DecidableEq Thread] (threads : ThreadSet Thread)

/-- The loop which looks for the place of a thread, and the insertion there. -/
def insertBefore (stop : Thread → Bool) (tp : Thread) : List Thread → List Thread
  | [] => [tp]
  | cp :: rest => if stop cp then tp :: cp :: rest else cp :: insertBefore stop tp rest

/-- The record that a thread is made ready now. -/
def stampThread (scheduler : Scheduler Thread) (tp : Thread) : Scheduler Thread :=
  { scheduler with
    stamp := Function.update scheduler.stamp tp scheduler.clock
    clock := scheduler.clock + 1 }

/-- `chSchReadyI`: behind all threads with higher or equal priority. -/
def chSchReadyI (scheduler : Scheduler Thread) (tp : Thread) : Scheduler Thread :=
  stampThread
    { scheduler with
      ready := insertBefore (fun cp => threads.prio cp < threads.prio tp) tp scheduler.ready }
    tp

/-- `firstprio`, which is `NOPRIO` for an empty list. -/
def firstprio (scheduler : Scheduler Thread) : Nat :=
  match scheduler.ready with
  | [] => 0
  | first :: _ => threads.prio first

/-- `chSchGoSleepS`. -/
def chSchGoSleepS (scheduler : Scheduler Thread) : Option (Scheduler Thread) :=
  match scheduler.ready with
  | [] => none
  | first :: rest =>
      some { scheduler with
        current := first
        ready := rest
        sleeping := scheduler.current :: scheduler.sleeping }

/-- `chSchWakeupS`, for a thread that is no longer among the sleeping ones. -/
def chSchWakeupS (scheduler : Scheduler Thread) (ntp : Thread) : Scheduler Thread :=
  if threads.prio ntp ≤ threads.prio scheduler.current then
    chSchReadyI threads scheduler ntp
  else
    stampThread { chSchReadyI threads scheduler scheduler.current with current := ntp } ntp

/-- `chSchDoRescheduleAhead`. -/
def chSchDoRescheduleAhead (scheduler : Scheduler Thread) : Scheduler Thread :=
  match scheduler.ready with
  | [] => scheduler
  | first :: rest =>
      { scheduler with
        current := first
        ready := insertBefore
          (fun cp => threads.prio cp ≤ threads.prio scheduler.current) scheduler.current rest }

/-- `chSchDoRescheduleBehind`. -/
def chSchDoRescheduleBehind (scheduler : Scheduler Thread) : Scheduler Thread :=
  match scheduler.ready with
  | [] => scheduler
  | first :: rest =>
      chSchReadyI threads { scheduler with current := first, ready := rest } scheduler.current

/-- `chSchRescheduleS` of a thread, and `chSchPreemption` of an interrupt handler. -/
def chSchRescheduleS (scheduler : Scheduler Thread) : Scheduler Thread :=
  if threads.prio scheduler.current < firstprio threads scheduler then
    chSchDoRescheduleAhead threads scheduler
  else
    scheduler

/-- `chSchDoYieldS`. -/
def chSchDoYieldS (scheduler : Scheduler Thread) : Scheduler Thread :=
  if threads.prio scheduler.current ≤ firstprio threads scheduler then
    chSchDoRescheduleBehind threads scheduler
  else
    scheduler

/-- The kernel calls that change who runs. -/
inductive Action (Thread : Type*) where
  | lock
  | ready (thread : Thread)
  | unlock
  | sleep
  | wakeup (thread : Thread)
  | yield

/-- Threads are made ready only inside the lock, and switch only outside.  The idle thread
never sleeps. -/
def step (scheduler : Scheduler Thread) : Action Thread → Option (Scheduler Thread)
  | .lock => if scheduler.locked then none else some { scheduler with locked := true }
  | .ready thread =>
      if scheduler.locked ∧ thread ∈ scheduler.sleeping then
        some (chSchReadyI threads
          { scheduler with sleeping := scheduler.sleeping.erase thread } thread)
      else
        none
  | .unlock =>
      if scheduler.locked then
        some { chSchRescheduleS threads scheduler with locked := false }
      else
        none
  | .sleep =>
      if ¬ scheduler.locked ∧ scheduler.current ≠ threads.idle then scheduler.chSchGoSleepS
      else none
  | .wakeup thread =>
      if ¬ scheduler.locked ∧ thread ∈ scheduler.sleeping then
        some (chSchWakeupS threads
          { scheduler with sleeping := scheduler.sleeping.erase thread } thread)
      else
        none
  | .yield => if scheduler.locked then none else some (chSchDoYieldS threads scheduler)

/-- The state after `chSysInit`: the main thread runs, the idle thread is ready, and the
other threads have not been created. -/
def boot (main : Thread) (others : List Thread) : Scheduler Thread where
  current := main
  ready := [threads.idle]
  sleeping := others
  locked := false
  stamp := fun thread => if thread = main then 0 else 1
  clock := 2

/-! ## The order of the ready list -/

/-- The order in which threads are entitled to run: by priority, and among equals by the
moment at which they were made ready. -/
def Precedes (stamp : Thread → Nat) (first second : Thread) : Prop :=
  threads.prio second < threads.prio first ∨
    (threads.prio first = threads.prio second ∧ stamp first < stamp second)

omit [DecidableEq Thread]

theorem mem_insertBefore {stop : Thread → Bool} {tp thread : Thread} {list : List Thread} :
    thread ∈ insertBefore stop tp list ↔ thread = tp ∨ thread ∈ list := by
  induction list with
  | nil => simp [insertBefore]
  | cons cp rest inductionHypothesis =>
      rw [insertBefore]
      split
      · exact List.mem_cons
      · rw [List.mem_cons, inductionHypothesis, List.mem_cons]
        tauto

theorem perm_insertBefore (stop : Thread → Bool) (tp : Thread) (list : List Thread) :
    (insertBefore stop tp list).Perm (tp :: list) := by
  induction list with
  | nil => exact List.Perm.refl _
  | cons cp rest inductionHypothesis =>
      rw [insertBefore]
      split
      · exact List.Perm.refl _
      · exact (inductionHypothesis.cons cp).trans (List.Perm.swap tp cp rest)

/-- An insertion keeps an order when the scan passes exactly the threads which come
before. -/
theorem pairwise_insertBefore {order : Thread → Thread → Prop} {stop : Thread → Bool}
    {tp : Thread} {list : List Thread} (sorted : list.Pairwise order)
    (passed : ∀ cp ∈ list, stop cp = false → order cp tp)
    (reached : ∀ cp ∈ list, stop cp = true → order tp cp)
    (closed : ∀ first ∈ list, ∀ second ∈ list, order first second → stop first = true →
      stop second = true) :
    (insertBefore stop tp list).Pairwise order := by
  induction list with
  | nil => exact List.pairwise_singleton order tp
  | cons cp rest inductionHypothesis =>
      obtain ⟨first, others⟩ := List.pairwise_cons.mp sorted
      rw [insertBefore]
      split
      case isTrue here =>
        refine List.pairwise_cons.mpr ⟨?_, sorted⟩
        intro later member
        rcases List.mem_cons.mp member with rfl | behind
        · exact reached later List.mem_cons_self here
        · exact reached later member
            (closed cp List.mem_cons_self later member (first later behind) here)
      case isFalse further =>
        refine List.pairwise_cons.mpr ⟨?_, ?_⟩
        · intro later member
          rcases mem_insertBefore.mp member with rfl | behind
          · exact passed cp List.mem_cons_self (Bool.eq_false_iff.mpr further)
          · exact first later behind
        · exact inductionHypothesis others
            (fun cp member => passed cp (List.mem_cons_of_mem _ member))
            (fun cp member => reached cp (List.mem_cons_of_mem _ member))
            (fun one member other another =>
              closed one (List.mem_cons_of_mem _ member) other (List.mem_cons_of_mem _ another))

variable {threads} {scheduler next : Scheduler Thread} {stamp : Thread → Nat}

theorem Precedes.prio_le {first second : Thread} (precedes : Precedes threads stamp first second) :
    threads.prio second ≤ threads.prio first := by
  rcases precedes with lower | ⟨equal, -⟩ <;> omega

/-- A thread with the latest stamp goes behind its equals. -/
theorem sorted_behind {tp : Thread} {list : List Thread}
    (sorted : list.Pairwise (Precedes threads stamp))
    (latest : ∀ cp ∈ list, stamp cp < stamp tp) :
    (insertBefore (fun cp => threads.prio cp < threads.prio tp) tp list).Pairwise
      (Precedes threads stamp) := by
  refine pairwise_insertBefore sorted ?_ ?_ ?_
  · intro cp member further
    have early := latest cp member
    have notLower := of_decide_eq_false further
    unfold Precedes
    omega
  · intro cp _ here
    exact Or.inl (of_decide_eq_true here)
  · intro first _ second _ precedes lower
    have bound := precedes.prio_le
    have below := of_decide_eq_true lower
    exact decide_eq_true (by omega)

/-- A thread with the earliest stamp of its priority goes ahead of its equals. -/
theorem sorted_ahead {tp : Thread} {list : List Thread}
    (sorted : list.Pairwise (Precedes threads stamp))
    (earliest : ∀ cp ∈ list, threads.prio cp = threads.prio tp → stamp tp < stamp cp) :
    (insertBefore (fun cp => threads.prio cp ≤ threads.prio tp) tp list).Pairwise
      (Precedes threads stamp) := by
  refine pairwise_insertBefore sorted ?_ ?_ ?_
  · intro cp _ further
    exact Or.inl (Nat.not_le.mp (of_decide_eq_false further))
  · intro cp member here
    have notHigher := of_decide_eq_true here
    have early := earliest cp member
    unfold Precedes
    omega
  · intro first _ second _ precedes lower
    have bound := precedes.prio_le
    have below := of_decide_eq_true lower
    exact decide_eq_true (by omega)

/-! ## The invariant -/

/-- The ready list is in order, and the running thread comes before its equals. -/
structure Ordered (threads : ThreadSet Thread) (scheduler : Scheduler Thread) : Prop where
  sorted : scheduler.ready.Pairwise (Precedes threads scheduler.stamp)
  ahead : ∀ thread ∈ scheduler.ready, threads.prio thread = threads.prio scheduler.current →
    scheduler.stamp scheduler.current < scheduler.stamp thread
  stamped : ∀ thread, scheduler.stamp thread < scheduler.clock

/-- All threads, wherever they are. -/
def places (scheduler : Scheduler Thread) : List Thread :=
  scheduler.current :: (scheduler.ready ++ scheduler.sleeping)

/-- The first ready thread takes over. -/
theorem Ordered.advance (ordered : Ordered threads scheduler) {first : Thread}
    {rest : List Thread} (listed : scheduler.ready = first :: rest) (sleeping : List Thread) :
    Ordered threads
      { scheduler with current := first, ready := rest, sleeping := sleeping } := by
  have sorted := ordered.sorted
  rw [listed] at sorted
  obtain ⟨before, others⟩ := List.pairwise_cons.mp sorted
  refine ⟨others, ?_, ordered.stamped⟩
  intro thread member equal
  rcases before thread member with lower | ⟨-, earlier⟩
  · have same : threads.prio thread = threads.prio first := equal
    omega
  · exact earlier

/-- Stamping a thread leaves the order of the others alone. -/
theorem pairwise_update [DecidableEq Thread] {tp : Thread} {list : List Thread} {moment : Nat}
    (sorted : list.Pairwise (Precedes threads stamp)) (absent : tp ∉ list) :
    list.Pairwise (Precedes threads (Function.update stamp tp moment)) := by
  refine sorted.imp_of_mem ?_
  intro first second one two precedes
  have firstOther : first ≠ tp := fun same => absent (same ▸ one)
  have secondOther : second ≠ tp := fun same => absent (same ▸ two)
  unfold Precedes
  rw [Function.update_of_ne firstOther, Function.update_of_ne secondOther]
  exact precedes

theorem Ordered.chSchReadyI [DecidableEq Thread] (ordered : Ordered threads scheduler)
    {tp : Thread} (other : tp ≠ scheduler.current) (absent : tp ∉ scheduler.ready) :
    Ordered threads (chSchReadyI threads scheduler tp) := by
  have kept : ∀ thread, thread ≠ tp →
      Function.update scheduler.stamp tp scheduler.clock thread = scheduler.stamp thread :=
    fun thread different => Function.update_of_ne different _ _
  have new : Function.update scheduler.stamp tp scheduler.clock tp = scheduler.clock :=
    Function.update_self _ _ _
  refine ⟨?_, ?_, ?_⟩
  · refine sorted_behind (pairwise_update ordered.sorted absent) ?_
    intro cp member
    show Function.update scheduler.stamp tp scheduler.clock cp <
      Function.update scheduler.stamp tp scheduler.clock tp
    rw [kept cp (fun same => absent (same ▸ member)), new]
    exact ordered.stamped cp
  · intro thread member equal
    show Function.update scheduler.stamp tp scheduler.clock scheduler.current <
      Function.update scheduler.stamp tp scheduler.clock thread
    rw [kept _ (Ne.symm other)]
    rcases mem_insertBefore.mp member with rfl | listed
    · rw [new]
      exact ordered.stamped _
    · rw [kept thread (fun same => absent (same ▸ listed))]
      exact ordered.ahead thread listed equal
  · intro thread
    show Function.update scheduler.stamp tp scheduler.clock thread < scheduler.clock + 1
    by_cases same : thread = tp
    · rw [same, new]
      exact Nat.lt_succ_self _
    · rw [kept thread same]
      exact Nat.lt_succ_of_lt (ordered.stamped thread)

/-- A thread which runs at once because no ready thread is its equal. -/
theorem Ordered.stampCurrent [DecidableEq Thread] (ordered : Ordered threads scheduler)
    (absent : scheduler.current ∉ scheduler.ready)
    (alone : ∀ thread ∈ scheduler.ready,
      threads.prio thread < threads.prio scheduler.current) :
    Ordered threads (stampThread scheduler scheduler.current) := by
  refine ⟨pairwise_update ordered.sorted absent, ?_, ?_⟩
  · intro thread member equal
    have lower := alone thread member
    have same : threads.prio thread = threads.prio scheduler.current := equal
    omega
  · intro thread
    show Function.update scheduler.stamp scheduler.current scheduler.clock thread <
      scheduler.clock + 1
    by_cases same : thread = scheduler.current
    · rw [same, Function.update_self]
      exact Nat.lt_succ_self _
    · rw [Function.update_of_ne same]
      exact Nat.lt_succ_of_lt (ordered.stamped thread)

/-- The preempted thread keeps its turn. -/
theorem Ordered.chSchDoRescheduleAhead (ordered : Ordered threads scheduler) {first : Thread}
    {rest : List Thread} (listed : scheduler.ready = first :: rest)
    (higher : threads.prio scheduler.current < threads.prio first) :
    Ordered threads (chSchDoRescheduleAhead threads scheduler) := by
  have advanced := ordered.advance listed scheduler.sleeping
  have earliest : ∀ cp ∈ rest, threads.prio cp = threads.prio scheduler.current →
      scheduler.stamp scheduler.current < scheduler.stamp cp := by
    intro cp member
    exact ordered.ahead cp (by rw [listed]; exact List.mem_cons_of_mem _ member)
  unfold Scheduler.chSchDoRescheduleAhead
  simp only [listed]
  refine ⟨sorted_ahead advanced.sorted earliest, ?_, ordered.stamped⟩
  intro thread member equal
  rcases mem_insertBefore.mp member with rfl | behind
  · have same : threads.prio scheduler.current = threads.prio first := equal
    omega
  · exact advanced.ahead thread behind equal

/-- The scheduler is in order with a given set of threads, and outside the lock the
running thread has the highest priority. -/
structure Fair (threads : ThreadSet Thread) (everyone : List Thread)
    (scheduler : Scheduler Thread) : Prop where
  ordered : Ordered threads scheduler
  complete : scheduler.places.Perm everyone
  populated : threads.idle ∈ scheduler.current :: scheduler.ready
  top : scheduler.locked = false → ∀ thread ∈ scheduler.ready,
    threads.prio thread ≤ threads.prio scheduler.current

variable {everyone : List Thread}

/-- Nobody is in two places. -/
theorem Fair.nodup_places (fair : Fair threads everyone scheduler) (distinct : everyone.Nodup) :
    scheduler.places.Nodup :=
  fair.complete.nodup_iff.mpr distinct

theorem Fair.not_mem_of_sleeping (fair : Fair threads everyone scheduler)
    (distinct : everyone.Nodup) {thread : Thread} (asleep : thread ∈ scheduler.sleeping) :
    thread ≠ scheduler.current ∧ thread ∉ scheduler.ready := by
  have nodup := fair.nodup_places distinct
  unfold places at nodup
  obtain ⟨notCurrent, lists⟩ := List.nodup_cons.mp nodup
  refine ⟨?_, ?_⟩
  · rintro rfl
    exact notCurrent (List.mem_append_right _ asleep)
  · intro ready
    exact (List.nodup_append.mp lists).2.2 thread ready thread asleep rfl

/-- The places after a sleeping thread has become ready. -/
theorem places_chSchReadyI [DecidableEq Thread] {tp : Thread} (asleep : tp ∈ scheduler.sleeping) :
    (chSchReadyI threads { scheduler with sleeping := scheduler.sleeping.erase tp } tp).places.Perm
      scheduler.places := by
  refine List.Perm.cons scheduler.current ?_
  show (insertBefore (fun cp => threads.prio cp < threads.prio tp) tp scheduler.ready ++
    scheduler.sleeping.erase tp).Perm (scheduler.ready ++ scheduler.sleeping)
  have inserted := perm_insertBefore (fun cp => threads.prio cp < threads.prio tp) tp
    scheduler.ready
  refine (inserted.append_right _).trans ?_
  refine List.perm_middle.symm.trans ?_
  exact (List.perm_cons_erase asleep).symm.append_left scheduler.ready

theorem fair_ready [DecidableEq Thread] (fair : Fair threads everyone scheduler)
    (distinct : everyone.Nodup) (locked : scheduler.locked = true) {tp : Thread}
    (asleep : tp ∈ scheduler.sleeping) :
    Fair threads everyone
      (chSchReadyI threads { scheduler with sleeping := scheduler.sleeping.erase tp } tp) := by
  obtain ⟨other, absent⟩ := fair.not_mem_of_sleeping distinct asleep
  have before : Ordered threads { scheduler with sleeping := scheduler.sleeping.erase tp } :=
    ⟨fair.ordered.sorted, fair.ordered.ahead, fair.ordered.stamped⟩
  refine ⟨before.chSchReadyI other absent, (places_chSchReadyI asleep).trans fair.complete,
    ?_, ?_⟩
  · rcases List.mem_cons.mp fair.populated with running | listed
    · exact List.mem_cons.mpr (Or.inl running)
    · exact List.mem_cons_of_mem _ (mem_insertBefore.mpr (Or.inr listed))
  · intro unlocked
    rw [show (chSchReadyI threads { scheduler with sleeping := scheduler.sleeping.erase tp }
      tp).locked = scheduler.locked from rfl, locked] at unlocked
    cases unlocked

/-- Leaving the lock lets the highest priority run. -/
theorem fair_unlock (fair : Fair threads everyone scheduler) :
    Fair threads everyone { chSchRescheduleS threads scheduler with locked := false } := by
  unfold chSchRescheduleS firstprio
  cases listed : scheduler.ready with
  | nil =>
      rw [if_neg (Nat.not_lt_zero _)]
      refine ⟨⟨fair.ordered.sorted, fair.ordered.ahead, fair.ordered.stamped⟩, fair.complete,
        fair.populated, ?_⟩
      intro _ thread member
      rw [show ({ scheduler with locked := false } : Scheduler Thread).ready = [] from listed]
        at member
      cases member
  | cons first rest =>
      have sorted := fair.ordered.sorted
      rw [listed] at sorted
      obtain ⟨before, -⟩ := List.pairwise_cons.mp sorted
      by_cases higher : threads.prio scheduler.current < threads.prio first
      · rw [if_pos higher]
        have ordered := fair.ordered.chSchDoRescheduleAhead listed higher
        have complete := fair.complete
        have populated := fair.populated
        unfold chSchDoRescheduleAhead at ordered ⊢
        unfold places at complete
        rw [listed] at complete populated
        simp only [listed] at ordered ⊢
        refine ⟨⟨ordered.sorted, ordered.ahead, ordered.stamped⟩, ?_, ?_, ?_⟩
        · refine List.Perm.trans ?_ complete
          refine (List.Perm.cons first ?_).trans (List.Perm.swap scheduler.current first _)
          exact (perm_insertBefore _ scheduler.current rest).append_right scheduler.sleeping
        · rcases List.mem_cons.mp populated with running | waiting
          · exact List.mem_cons_of_mem _ (mem_insertBefore.mpr (Or.inl running))
          · rcases List.mem_cons.mp waiting with head | tail
            · exact List.mem_cons.mpr (Or.inl head)
            · exact List.mem_cons_of_mem _ (mem_insertBefore.mpr (Or.inr tail))
        · intro _ thread member
          rcases mem_insertBefore.mp member with rfl | behind
          · exact Nat.le_of_lt higher
          · exact (before thread behind).prio_le
      · rw [if_neg higher]
        refine ⟨⟨fair.ordered.sorted, fair.ordered.ahead, fair.ordered.stamped⟩, fair.complete,
          fair.populated, ?_⟩
        intro _ thread member
        rw [show ({ scheduler with locked := false } : Scheduler Thread).ready = first :: rest
          from listed] at member
        rcases List.mem_cons.mp member with rfl | behind
        · exact Nat.not_lt.mp higher
        · exact Nat.le_trans (before thread behind).prio_le (Nat.not_lt.mp higher)

/-- A thread other than the idle one gives way to the first ready thread, and there is
one. -/
theorem fair_sleep (fair : Fair threads everyone scheduler)
    (awake : scheduler.current ≠ threads.idle) :
    ∃ next, scheduler.chSchGoSleepS = some next ∧ Fair threads everyone next := by
  have populated := fair.populated
  have complete := fair.complete
  have sorted := fair.ordered.sorted
  unfold chSchGoSleepS
  cases listed : scheduler.ready with
  | nil =>
      rw [listed] at populated
      exact absurd (List.mem_singleton.mp populated).symm awake
  | cons first rest =>
      unfold places at complete
      rw [listed] at populated complete sorted
      obtain ⟨before, -⟩ := List.pairwise_cons.mp sorted
      refine ⟨_, rfl, ?_⟩
      refine ⟨fair.ordered.advance listed (scheduler.current :: scheduler.sleeping), ?_, ?_, ?_⟩
      · exact (List.Perm.cons first List.perm_middle).trans
          ((List.Perm.swap scheduler.current first _).trans complete)
      · rcases List.mem_cons.mp populated with running | waiting
        · exact absurd running.symm awake
        · exact waiting
      · intro _ thread member
        exact (before thread member).prio_le

theorem fair_wakeup [DecidableEq Thread] (fair : Fair threads everyone scheduler)
    (distinct : everyone.Nodup) (unlocked : scheduler.locked = false) {ntp : Thread}
    (asleep : ntp ∈ scheduler.sleeping) :
    Fair threads everyone
      (chSchWakeupS threads { scheduler with sleeping := scheduler.sleeping.erase ntp } ntp) := by
  obtain ⟨other, absent⟩ := fair.not_mem_of_sleeping distinct asleep
  have top := fair.top unlocked
  have before : Ordered threads { scheduler with sleeping := scheduler.sleeping.erase ntp } :=
    ⟨fair.ordered.sorted, fair.ordered.ahead, fair.ordered.stamped⟩
  unfold chSchWakeupS
  by_cases low : threads.prio ntp ≤ threads.prio scheduler.current
  · rw [if_pos low]
    refine ⟨before.chSchReadyI other absent, (places_chSchReadyI asleep).trans fair.complete,
      ?_, ?_⟩
    · rcases List.mem_cons.mp fair.populated with running | listed
      · exact List.mem_cons.mpr (Or.inl running)
      · exact List.mem_cons_of_mem _ (mem_insertBefore.mpr (Or.inr listed))
    · intro _ thread member
      rcases mem_insertBefore.mp member with rfl | listed
      · exact low
      · exact top thread listed
  · have higher := Nat.not_le.mp low
    have nodup := fair.nodup_places distinct
    unfold places at nodup
    obtain ⟨notElsewhere, -⟩ := List.nodup_cons.mp nodup
    have notReady : scheduler.current ∉ scheduler.ready :=
      fun member => notElsewhere (List.mem_append_left _ member)
    have switched : Ordered threads
        { scheduler with sleeping := scheduler.sleeping.erase ntp, current := ntp } := by
      refine ⟨fair.ordered.sorted, ?_, fair.ordered.stamped⟩
      intro thread member equal
      have bound := top thread member
      have same : threads.prio thread = threads.prio ntp := equal
      omega
    have readied := switched.chSchReadyI (Ne.symm other) notReady
    have running := readied.stampCurrent
      (fun member => (mem_insertBefore.mp member).elim other absent)
      (fun thread member => by
        rcases mem_insertBefore.mp member with rfl | listed
        · exact higher
        · exact Nat.lt_of_le_of_lt (top thread listed) higher)
    rw [if_neg low]
    refine ⟨running, ?_, ?_, ?_⟩
    · refine List.Perm.trans ?_ fair.complete
      have inserted := perm_insertBefore
        (fun cp => threads.prio cp < threads.prio scheduler.current) scheduler.current
        scheduler.ready
      refine (List.Perm.cons ntp (inserted.append_right (scheduler.sleeping.erase ntp))).trans ?_
      refine (List.Perm.swap scheduler.current ntp _).trans (List.Perm.cons scheduler.current ?_)
      refine List.perm_middle.symm.trans ?_
      exact (List.perm_cons_erase asleep).symm.append_left scheduler.ready
    · exact List.mem_cons_of_mem _ (mem_insertBefore.mpr (List.mem_cons.mp fair.populated))
    · intro _ thread member
      rcases mem_insertBefore.mp member with rfl | listed
      · exact Nat.le_of_lt higher
      · exact Nat.le_trans (top thread listed) (Nat.le_of_lt higher)

/-- A thread yields only to its equals, and goes behind them. -/
theorem fair_yield [DecidableEq Thread] (fair : Fair threads everyone scheduler)
    (distinct : everyone.Nodup) (unlocked : scheduler.locked = false) :
    Fair threads everyone (chSchDoYieldS threads scheduler) := by
  have positive := threads.positive scheduler.current
  unfold chSchDoYieldS firstprio
  cases listed : scheduler.ready with
  | nil =>
      rw [if_neg (Nat.not_le.mpr positive)]
      exact fair
  | cons first rest =>
      by_cases equal : threads.prio scheduler.current ≤ threads.prio first
      · have top := fair.top unlocked
        have populated := fair.populated
        have complete := fair.complete
        have nodup := fair.nodup_places distinct
        have sorted := fair.ordered.sorted
        unfold places at nodup complete
        rw [listed] at populated complete sorted nodup top
        obtain ⟨before, -⟩ := List.pairwise_cons.mp sorted
        obtain ⟨notElsewhere, -⟩ := List.nodup_cons.mp nodup
        have notReady : scheduler.current ∉ first :: rest :=
          fun member => notElsewhere (List.mem_append_left _ member)
        obtain ⟨notFirst, notRest⟩ := not_or.mp (mt List.mem_cons.mpr notReady)
        have advanced := fair.ordered.advance listed scheduler.sleeping
        have readied := advanced.chSchReadyI notFirst notRest
        rw [if_pos equal]
        unfold chSchDoRescheduleBehind
        simp only [listed]
        refine ⟨readied, ?_, ?_, ?_⟩
        · refine List.Perm.trans ?_ complete
          refine (List.Perm.cons first ?_).trans (List.Perm.swap scheduler.current first _)
          exact (perm_insertBefore _ scheduler.current rest).append_right scheduler.sleeping
        · rcases List.mem_cons.mp populated with running | waiting
          · exact List.mem_cons_of_mem _ (mem_insertBefore.mpr (Or.inl running))
          · rcases List.mem_cons.mp waiting with head | tail
            · exact List.mem_cons.mpr (Or.inl head)
            · exact List.mem_cons_of_mem _ (mem_insertBefore.mpr (Or.inr tail))
        · intro _ thread member
          rcases mem_insertBefore.mp member with rfl | behind
          · exact equal
          · exact (before thread behind).prio_le
      · rw [if_neg equal]
        exact fair

/-! ## Whole runs -/

variable [DecidableEq Thread]

theorem step_fair (distinct : everyone.Nodup) {action : Action Thread}
    (fair : Fair threads everyone scheduler)
    (taken : step threads scheduler action = some next) : Fair threads everyone next := by
  cases action with
  | lock =>
      simp only [step] at taken
      split at taken <;> cases taken
      refine ⟨⟨fair.ordered.sorted, fair.ordered.ahead, fair.ordered.stamped⟩, fair.complete,
        fair.populated, ?_⟩
      intro unlocked
      cases unlocked
  | ready thread =>
      simp only [step] at taken
      split at taken
      case isFalse => cases taken
      case isTrue allowed =>
        cases taken
        exact fair_ready fair distinct allowed.1 allowed.2
  | unlock =>
      simp only [step] at taken
      split at taken <;> cases taken
      exact fair_unlock fair
  | sleep =>
      simp only [step] at taken
      split at taken
      case isFalse => cases taken
      case isTrue allowed =>
        obtain ⟨woken, switched, still⟩ := fair_sleep fair allowed.2
        rw [switched] at taken
        cases taken
        exact still
  | wakeup thread =>
      simp only [step] at taken
      split at taken
      case isFalse => cases taken
      case isTrue allowed =>
        cases taken
        exact fair_wakeup fair distinct (Bool.eq_false_iff.mpr allowed.1) allowed.2
  | yield =>
      simp only [step] at taken
      split at taken
      case isTrue => cases taken
      case isFalse unlocked =>
        cases taken
        exact fair_yield fair distinct (Bool.eq_false_iff.mpr unlocked)

theorem fair_boot (threads : ThreadSet Thread) {main : Thread} {others : List Thread}
    (distinct : (main :: threads.idle :: others).Nodup)
    (lowest : threads.prio threads.idle ≤ threads.prio main) :
    Fair threads (main :: threads.idle :: others) (boot threads main others) := by
  obtain ⟨notIdle, -⟩ := List.nodup_cons.mp distinct
  have different : threads.idle ≠ main := by
    intro same
    exact notIdle (by rw [same]; exact List.mem_cons_self)
  refine ⟨⟨List.pairwise_singleton _ _, ?_, ?_⟩, List.Perm.refl _, ?_, ?_⟩
  · intro thread member _
    rw [List.mem_singleton.mp member]
    simp [boot, different]
  · intro thread
    show (if thread = main then 0 else 1) < 2
    split <;> omega
  · exact List.mem_cons_of_mem _ (List.mem_singleton.mpr rfl)
  · intro _ thread member
    rw [List.mem_singleton.mp member]
    exact lowest

/-- In every run of the kernel calls, whenever the kernel is not locked the running thread
is the one that was made ready first among the threads of the highest priority, where
every pass through `chSchReadyI` counts anew.  Every thread is in exactly one place, and a
thread that is not the idle one can always go to sleep. -/
theorem runs_first_of_highest (threads : ThreadSet Thread) {main : Thread}
    {others : List Thread} {actions : List (Action Thread)}
    (distinct : (main :: threads.idle :: others).Nodup)
    (lowest : threads.prio threads.idle ≤ threads.prio main)
    (run : runFrom (step threads) (boot threads main others) actions = some scheduler) :
    (scheduler.locked = false →
      ∀ thread ∈ scheduler.ready, Precedes threads scheduler.stamp scheduler.current thread) ∧
      scheduler.places.Perm (main :: threads.idle :: others) ∧
      (scheduler.current ≠ threads.idle → scheduler.chSchGoSleepS.isSome = true) := by
  have fair : Fair threads (main :: threads.idle :: others) scheduler :=
    runFrom_invariant (fun _ _ _ holds taken => step_fair distinct holds taken) run
      (fair_boot threads distinct lowest)
  refine ⟨?_, fair.complete, ?_⟩
  · intro unlocked thread member
    rcases Nat.lt_or_eq_of_le (fair.top unlocked thread member) with lower | equal
    · exact Or.inl lower
    · exact Or.inr ⟨equal.symm, fair.ordered.ahead thread member equal⟩
  · intro awake
    obtain ⟨next, switched, -⟩ := fair_sleep fair awake
    rw [switched]
    rfl

end Scheduler

/-- The threads of the firmware: the idle thread of the kernel, the main thread, and the
two workers it creates. -/
inductive FirmwareThread where
  | idle
  | main
  | canRx
  | adcWorker
  deriving DecidableEq

/-- `IDLEPRIO` for the idle thread and `NORMALPRIO` for the others. -/
def firmwareThreads : ThreadSet FirmwareThread where
  prio
    | .idle => 1
    | .main | .canRx | .adcWorker => 64
  idle := .idle
  positive := by
    intro thread
    cases thread <;> decide

/-- An interrupt wakes the main thread and then the receiver while the sampler runs; after
the sampler has gone to sleep the main thread runs first. -/
theorem runs_first_of_highest_workers :
    ∃ scheduler, runFrom (Scheduler.step firmwareThreads)
        (Scheduler.boot firmwareThreads .main [.canRx, .adcWorker])
        [.wakeup .canRx, .wakeup .adcWorker, .sleep, .sleep, .lock, .ready .main, .ready .canRx,
          .unlock, .sleep] = some scheduler ∧
      scheduler.current = .main ∧
      Scheduler.Precedes firmwareThreads scheduler.stamp .main .canRx := by
  have found : ((runFrom (Scheduler.step firmwareThreads)
      (Scheduler.boot firmwareThreads .main [.canRx, .adcWorker])
      [.wakeup .canRx, .wakeup .adcWorker, .sleep, .sleep, .lock, .ready .main, .ready .canRx,
        .unlock, .sleep]).map fun scheduler =>
          (scheduler.current, scheduler.ready, scheduler.locked)) =
      some (.main, [.canRx, .idle], false) := by
    decide
  obtain ⟨scheduler, run, state⟩ := Option.map_eq_some_iff.mp found
  simp only [Prod.mk.injEq] at state
  have first := (Scheduler.runs_first_of_highest firmwareThreads (by decide) (by decide) run).1
    state.2.2 .canRx (by rw [state.2.1]; exact List.mem_cons_self)
  rw [state.1] at first
  exact ⟨scheduler, run, state.1, first⟩

end Kernel
end AnalogX

import AnalogX.Foundations.Ring
import AnalogX.Kernel.SystemTime

namespace AnalogX
namespace Kernel

open Foundations

/-!
# Input and output queues

The queues of `chqueues.c` carry bytes between threads and interrupt handlers.  The
counter of a queue counts what its threads wait for: the filled cells of an input queue,
the free cells of an output queue.  The handler side never waits and is refused
instead.

A thread that has to wait goes to the end of the queue of waiting threads.  The handler
side wakes the first of them, and the loop around the wait lets the thread look again
when it runs, so both the first look and every later one are the same attempt here.
-/

/-- The messages a queue operation can end with. -/
inductive QueueMsg where
  | ok
  | timeout
  | reset
  | full
  | empty
  deriving DecidableEq

/-- `io_queue_t`.  The pointers are offsets in the buffer, and `top` is its size.  The
threads which were made ready with `Q_OK` and have not run yet stand in `woken`; a caller
of an output queue is a thread with the byte it wants to write. -/
structure IoQueue (Caller : Type*) where
  waiting : List Caller
  woken : List Caller
  counter : Nat
  buffer : Nat → UInt8
  top : Nat
  wrptr : Nat
  rdptr : Nat

namespace IoQueue

variable {Caller : Type*}

/-- `chIQObjectInit`. -/
def chIQObjectInit (buffer : Nat → UInt8) (size : Nat) : IoQueue Caller :=
  { waiting := [], woken := [], counter := 0, buffer := buffer, top := size, wrptr := 0,
    rdptr := 0 }

/-- `chOQObjectInit`. -/
def chOQObjectInit (buffer : Nat → UInt8) (size : Nat) : IoQueue Caller :=
  { waiting := [], woken := [], counter := size, buffer := buffer, top := size, wrptr := 0,
    rdptr := 0 }

/-- `chThdDequeueNextI` with the message `Q_OK`. -/
def chThdDequeueNextI (queue : IoQueue Caller) : IoQueue Caller :=
  match queue.waiting with
  | [] => queue
  | first :: rest => { queue with waiting := rest, woken := queue.woken ++ [first] }

/-- `*q_wrptr++ = b`, with the wrap at the top. -/
def store (queue : IoQueue Caller) (b : UInt8) : IoQueue Caller :=
  { queue with
    buffer := Function.update queue.buffer queue.wrptr b
    wrptr := if queue.top ≤ queue.wrptr + 1 then 0 else queue.wrptr + 1 }

/-- `b = *q_rdptr++`, with the wrap at the top. -/
def fetch (queue : IoQueue Caller) : UInt8 × IoQueue Caller :=
  (queue.buffer queue.rdptr,
    { queue with rdptr := if queue.top ≤ queue.rdptr + 1 then 0 else queue.rdptr + 1 })

/-! ## The handler side -/

/-- `chIQIsFullI`. -/
def chIQIsFullI (queue : IoQueue Caller) : Bool :=
  queue.wrptr == queue.rdptr && queue.counter != 0

/-- `chIQPutI`. -/
def chIQPutI (queue : IoQueue Caller) (b : UInt8) : QueueMsg × IoQueue Caller :=
  if queue.chIQIsFullI then
    (.full, queue)
  else
    (.ok, (store { queue with counter := queue.counter + 1 } b).chThdDequeueNextI)

/-- `chOQIsEmptyI`. -/
def chOQIsEmptyI (queue : IoQueue Caller) : Bool :=
  queue.wrptr == queue.rdptr && queue.counter != 0

/-- `chOQGetI`. -/
def chOQGetI (queue : IoQueue Caller) : Except QueueMsg UInt8 × IoQueue Caller :=
  if queue.chOQIsEmptyI then
    (.error .empty, queue)
  else
    let (b, queue) := fetch { queue with counter := queue.counter + 1 }
    (.ok b, queue.chThdDequeueNextI)

/-! ## The thread side -/

/-- How a look at the queue ends for a thread: its call returns, or it has to wait. -/
inductive Attempt (Result : Type*) where
  | returned (result : Result)
  | waits

/-- `chThdEnqueueTimeoutS` on the waiting threads of the queue. -/
def chThdEnqueueTimeoutS {Result : Type*} (queue : IoQueue Caller) (caller : Caller)
    (timeout : Systime) : Attempt (Except QueueMsg Result) × IoQueue Caller :=
  if timeout = timeImmediate then
    (.returned (.error .timeout), queue)
  else
    (.waits, { queue with waiting := queue.waiting ++ [caller] })

/-- `chIQIsEmptyI`. -/
def chIQIsEmptyI (queue : IoQueue Caller) : Bool :=
  queue.counter == 0

/-- `chIQGetTimeout`, from a look at the queue to its end or to the wait. -/
def chIQGetTimeout (queue : IoQueue Caller) (caller : Caller) (timeout : Systime) :
    Attempt (Except QueueMsg UInt8) × IoQueue Caller :=
  if queue.chIQIsEmptyI then
    queue.chThdEnqueueTimeoutS caller timeout
  else
    let (b, queue) := fetch { queue with counter := queue.counter - 1 }
    (.returned (.ok b), queue)

/-- `chOQIsFullI`. -/
def chOQIsFullI (queue : IoQueue Caller) : Bool :=
  queue.counter == 0

/-- `chOQPutTimeout`, from a look at the queue to its end or to the wait.  The
notification of the driver follows in the driver. -/
def chOQPutTimeout (queue : IoQueue Caller) (caller : Caller) (b : UInt8) (timeout : Systime) :
    Attempt (Except QueueMsg Unit) × IoQueue Caller :=
  if queue.chOQIsFullI then
    queue.chThdEnqueueTimeoutS caller timeout
  else
    (.returned (.ok ()), store { queue with counter := queue.counter - 1 } b)

/-! ## What the operations do to the contents -/

/-- The units the threads of a queue compete for. -/
def waiters (queue : IoQueue Caller) : Waiting Caller :=
  { free := queue.counter, waiting := queue.waiting, woken := queue.woken }

/-- The buffer holds a sequence of bytes. -/
def Stores (queue : IoQueue Caller) (bytes : List UInt8) : Prop :=
  RingHolds queue.top queue.buffer queue.rdptr queue.wrptr bytes

/-- An input queue counts its filled cells. -/
structure InputHolds (queue : IoQueue Caller) (bytes : List UInt8) : Prop where
  stores : queue.Stores bytes
  counter : queue.counter = bytes.length

/-- An output queue counts its free cells. -/
structure OutputHolds (queue : IoQueue Caller) (bytes : List UInt8) : Prop where
  stores : queue.Stores bytes
  counter : queue.counter + bytes.length = queue.top

variable {queue : IoQueue Caller} {bytes : List UInt8}

/-- Waking a thread does not touch the bytes. -/
theorem chThdDequeueNextI_eq (queue : IoQueue Caller) :
    ∃ waiting woken,
      queue.chThdDequeueNextI = { queue with waiting := waiting, woken := woken } := by
  unfold chThdDequeueNextI
  split
  · exact ⟨queue.waiting, queue.woken, rfl⟩
  · exact ⟨_, _, rfl⟩

theorem waiters_chThdDequeueNextI {next : IoQueue Caller}
    (counted : next.counter = queue.counter + 1) (waiting : next.waiting = queue.waiting)
    (woken : next.woken = queue.woken) :
    next.chThdDequeueNextI.waiters = queue.waiters.release := by
  unfold chThdDequeueNextI waiters Waiting.release
  cases listed : queue.waiting with
  | nil =>
      rw [listed] at waiting
      simp only [waiting, counted, woken]
  | cons first rest =>
      rw [listed] at waiting
      simp only [waiting, counted, woken]

/-- A byte is refused by an input queue exactly if all cells are filled. -/
theorem InputHolds.chIQIsFullI_iff (holds : queue.InputHolds bytes) :
    queue.chIQIsFullI = true ↔ bytes.length = queue.top := by
  have inside := holds.stores.read_lt
  unfold chIQIsFullI
  rw [Bool.and_eq_true, beq_iff_eq, bne_iff_ne, holds.stores.write_eq_read_iff, holds.counter]
  omega

/-- An output queue is empty exactly if it says so, full queues being told apart by the
counter. -/
theorem OutputHolds.chOQIsEmptyI_iff (holds : queue.OutputHolds bytes) :
    queue.chOQIsEmptyI = true ↔ bytes = [] := by
  have inside := holds.stores.read_lt
  have counted := holds.counter
  unfold chOQIsEmptyI
  rw [Bool.and_eq_true, beq_iff_eq, bne_iff_ne, holds.stores.write_eq_read_iff,
    ← List.length_eq_zero_iff]
  omega

theorem stores_store (holds : queue.Stores bytes) (room : bytes.length < queue.top)
    (b : UInt8) : (queue.store b).Stores (bytes ++ [b]) :=
  RingHolds.push holds b room

theorem stores_fetch {b : UInt8} (holds : queue.Stores (b :: bytes)) :
    queue.fetch.1 = b ∧ queue.fetch.2.Stores bytes :=
  RingHolds.pop holds

/-! ## One lemma for each operation -/

/-- `chIQPutI` appends a byte and releases one unit, unless the queue is full. -/
theorem chIQPutI_spec (holds : queue.InputHolds bytes) (b : UInt8) :
    (bytes.length = queue.top ∧ queue.chIQPutI b = (.full, queue)) ∨
      (bytes.length < queue.top ∧ (queue.chIQPutI b).1 = .ok ∧
        (queue.chIQPutI b).2.InputHolds (bytes ++ [b]) ∧
        (queue.chIQPutI b).2.top = queue.top ∧
        (queue.chIQPutI b).2.waiters = queue.waiters.release) := by
  have bounded := holds.stores.bounded
  unfold chIQPutI
  by_cases full : queue.chIQIsFullI = true
  · rw [if_pos full]
    exact Or.inl ⟨holds.chIQIsFullI_iff.mp full, rfl⟩
  · have room : bytes.length < queue.top := by
      have notFull := mt holds.chIQIsFullI_iff.mpr full
      omega
    have stored := stores_store holds.stores room b
    have counted : queue.counter + 1 = (bytes ++ [b]).length := by
      rw [List.length_append, holds.counter]
      rfl
    have released :
        (store { queue with counter := queue.counter + 1 } b).chThdDequeueNextI.waiters =
          queue.waiters.release := waiters_chThdDequeueNextI rfl rfl rfl
    obtain ⟨waiting, woken, same⟩ :=
      chThdDequeueNextI_eq (store { queue with counter := queue.counter + 1 } b)
    rw [if_neg full]
    refine Or.inr ⟨room, rfl, ?_, ?_, released⟩
    · simp only [same]
      exact ⟨stored, counted⟩
    · simp only [same]
      rfl

/-- `chOQGetI` takes the first byte and releases one unit, unless the queue is empty. -/
theorem chOQGetI_spec (holds : queue.OutputHolds bytes) :
    (bytes = [] ∧ queue.chOQGetI = (.error .empty, queue)) ∨
      (∃ b rest, bytes = b :: rest ∧ queue.chOQGetI.1 = .ok b ∧
        queue.chOQGetI.2.OutputHolds rest ∧ queue.chOQGetI.2.top = queue.top ∧
        queue.chOQGetI.2.waiters = queue.waiters.release) := by
  unfold chOQGetI
  by_cases empty : queue.chOQIsEmptyI = true
  · rw [if_pos empty]
    exact Or.inl ⟨holds.chOQIsEmptyI_iff.mp empty, rfl⟩
  · cases bytes with
    | nil => exact absurd (holds.chOQIsEmptyI_iff.mpr rfl) empty
    | cons b rest =>
        obtain ⟨read, left⟩ := stores_fetch holds.stores
        have counted : queue.counter + 1 + rest.length = queue.top := by
          have total := holds.counter
          rw [List.length_cons] at total
          omega
        have released :
            (fetch { queue with counter := queue.counter + 1 }).2.chThdDequeueNextI.waiters =
              queue.waiters.release := waiters_chThdDequeueNextI rfl rfl rfl
        obtain ⟨waiting, woken, same⟩ :=
          chThdDequeueNextI_eq (fetch { queue with counter := queue.counter + 1 }).2
        rw [if_neg empty]
        refine Or.inr ⟨b, rest, rfl, congrArg Except.ok read, ?_, ?_, released⟩
        · simp only [same]
          exact ⟨left, counted⟩
        · simp only [same]
          rfl

/-- `chIQGetTimeout` without a time limit takes the first byte, or waits if there is
none; either way it competes for one unit. -/
theorem chIQGetTimeout_spec (holds : queue.InputHolds bytes) (caller : Caller) :
    (queue.chIQGetTimeout caller timeInfinite).2.waiters = queue.waiters.acquire caller ∧
      (queue.chIQGetTimeout caller timeInfinite).2.top = queue.top ∧
      ((bytes = [] ∧ (queue.chIQGetTimeout caller timeInfinite).1 = .waits ∧
        (queue.chIQGetTimeout caller timeInfinite).2.InputHolds []) ∨
      (∃ b rest, bytes = b :: rest ∧
        (queue.chIQGetTimeout caller timeInfinite).1 = .returned (.ok b) ∧
        (queue.chIQGetTimeout caller timeInfinite).2.InputHolds rest)) := by
  have counted := holds.counter
  have unlimited : timeInfinite ≠ timeImmediate := by decide
  cases bytes with
  | nil =>
      have none : queue.counter = 0 := counted
      have result : queue.chIQGetTimeout caller timeInfinite =
          (.waits, { queue with waiting := queue.waiting ++ [caller] }) := by
        unfold chIQGetTimeout chIQIsEmptyI chThdEnqueueTimeoutS
        rw [if_pos (by simpa using none), if_neg unlimited]
      have acquired : queue.waiters.acquire caller =
          { queue.waiters with waiting := queue.waiting ++ [caller] } := if_pos none
      rw [result, acquired]
      exact ⟨rfl, rfl, Or.inl ⟨rfl, rfl, holds.stores, none⟩⟩
  | cons b rest =>
      obtain ⟨read, left⟩ := stores_fetch holds.stores
      have some : queue.counter = rest.length + 1 := counted
      have nonzero : queue.counter ≠ 0 := by omega
      have result : queue.chIQGetTimeout caller timeInfinite =
          (.returned (.ok b), (fetch { queue with counter := queue.counter - 1 }).2) := by
        unfold chIQGetTimeout chIQIsEmptyI
        rw [if_neg (by simpa using nonzero), ← read]
        rfl
      have acquired : queue.waiters.acquire caller =
          { queue.waiters with free := queue.counter - 1 } := if_neg nonzero
      rw [result, acquired]
      refine ⟨rfl, rfl, Or.inr ⟨b, rest, rfl, rfl, left, ?_⟩⟩
      show queue.counter - 1 = rest.length
      omega

/-- `chOQPutTimeout` without a time limit appends its byte, or waits if there is no
room. -/
theorem chOQPutTimeout_spec (holds : queue.OutputHolds bytes) (caller : Caller) (b : UInt8) :
    (queue.chOQPutTimeout caller b timeInfinite).2.waiters = queue.waiters.acquire caller ∧
      (queue.chOQPutTimeout caller b timeInfinite).2.top = queue.top ∧
      ((bytes.length = queue.top ∧ (queue.chOQPutTimeout caller b timeInfinite).1 = .waits ∧
        (queue.chOQPutTimeout caller b timeInfinite).2.OutputHolds bytes) ∨
      (bytes.length < queue.top ∧
        (queue.chOQPutTimeout caller b timeInfinite).1 = .returned (.ok ()) ∧
        (queue.chOQPutTimeout caller b timeInfinite).2.OutputHolds (bytes ++ [b]))) := by
  have counted := holds.counter
  have unlimited : timeInfinite ≠ timeImmediate := by decide
  by_cases none : queue.counter = 0
  · have result : queue.chOQPutTimeout caller b timeInfinite =
        (.waits, { queue with waiting := queue.waiting ++ [caller] }) := by
      unfold chOQPutTimeout chOQIsFullI chThdEnqueueTimeoutS
      rw [if_pos (by simpa using none), if_neg unlimited]
    have acquired : queue.waiters.acquire caller =
        { queue.waiters with waiting := queue.waiting ++ [caller] } := if_pos none
    rw [result, acquired]
    exact ⟨rfl, rfl, Or.inl ⟨by omega, rfl, holds.stores, counted⟩⟩
  · have room : bytes.length < queue.top := by omega
    have stored := stores_store holds.stores room b
    have result : queue.chOQPutTimeout caller b timeInfinite =
        (.returned (.ok ()), store { queue with counter := queue.counter - 1 } b) := by
      unfold chOQPutTimeout chOQIsFullI
      rw [if_neg (by simpa using none)]
    have acquired : queue.waiters.acquire caller =
        { queue.waiters with free := queue.counter - 1 } := if_neg none
    rw [result, acquired]
    refine ⟨rfl, rfl, Or.inr ⟨room, rfl, stored, ?_⟩⟩
    show queue.counter - 1 + (bytes ++ [b]).length = queue.top
    rw [List.length_append, List.length_singleton]
    omega

end IoQueue

end Kernel
end AnalogX

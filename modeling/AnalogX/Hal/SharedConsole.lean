import AnalogX.Hal.SerialPort
import AnalogX.Kernel.Scheduler

namespace AnalogX
namespace Hal

open Foundations Kernel

/-!
# Threads that share the console

All threads of the firmware print their lines to one serial port, character by character and
without a lock.  What keeps a line together is the scheduler: the threads have one priority
and no time quantum, so a thread which prints goes on until it has to wait for a free cell in
the output queue, and only then another thread can put characters of its own.

A line is therefore whole on the wire if the output queue has room for it when it is begun.
The interrupts which come in the meantime can only make more room, and make other threads
ready without letting them run.
-/

/-! ## Room in the output queue -/

namespace SerialPort

variable {Thread : Type*}

/-- Reading from the output queue never takes room away. -/
theorem counter_chOQGetI (queue : IoQueue (Thread × UInt8)) :
    queue.counter ≤ queue.chOQGetI.2.counter := by
  unfold IoQueue.chOQGetI IoQueue.chThdDequeueNextI
  split
  · exact Nat.le_refl _
  · dsimp only
    split
    · exact Nat.le_succ _
    · exact Nat.le_succ _

theorem serveTxe_room (port : SerialPort Thread) :
    port.serveTxe.written = port.written ∧
      port.oqueue.counter ≤ port.serveTxe.oqueue.counter := by
  have room := counter_chOQGetI port.oqueue
  unfold serveTxe
  split
  · rename_i b oqueue read
    rw [read] at room
    exact ⟨rfl, room⟩
  · rename_i msg oqueue read
    rw [read] at room
    exact ⟨rfl, room⟩

theorem serveTc_room (port : SerialPort Thread) (txeie : Bool) :
    (port.serveTc txeie).written = port.written ∧
      port.oqueue.counter ≤ (port.serveTc txeie).oqueue.counter := by
  unfold serveTc chnAddFlagsI
  dsimp only
  split
  · exact ⟨rfl, Nat.le_refl _⟩
  · exact ⟨rfl, Nat.le_refl _⟩

/-- The handler of the port writes nothing and only makes room. -/
theorem serveInterrupt_room (port : SerialPort Thread) (status : UsartStatus) :
    (port.serveInterrupt status).written = port.written ∧
      port.oqueue.counter ≤ (port.serveInterrupt status).oqueue.counter := by
  obtain ⟨oqueue, written, _, _⟩ := port.serveReception_frame status
  rw [← written, ← oqueue, serveInterrupt]
  generalize port.serveReception status = received
  have sent : ∀ enabled : Bool,
      (if enabled then received.serveTxe else received).written = received.written ∧
        received.oqueue.counter ≤
          (if enabled then received.serveTxe else received).oqueue.counter := by
    intro enabled
    cases enabled with
    | false => exact ⟨rfl, Nat.le_refl _⟩
    | true => exact serveTxe_room received
  rcases sent (port.txeie && status.txe) with ⟨kept, room⟩
  unfold serveTransmission
  dsimp only
  split
  · rcases serveTc_room (if port.txeie && status.txe then received.serveTxe else received)
      port.txeie with ⟨keptTc, roomTc⟩
    exact ⟨keptTc.trans kept, room.trans roomTc⟩
  · exact ⟨kept, room⟩

/-- A look at a queue which has room stores the character. -/
theorem put_room {port : SerialPort Thread} (tp : Thread) (b : UInt8)
    (room : port.oqueue.counter ≠ 0) :
    (port.put tp b).written = port.written ++ [(tp, b)] ∧
      (port.put tp b).oqueue.counter + 1 = port.oqueue.counter := by
  have notFull : ¬ port.oqueue.chOQIsFullI = true := by
    rw [IoQueue.chOQIsFullI, beq_iff_eq]
    exact room
  rw [put, IoQueue.chOQPutTimeout, if_neg notFull]
  exact ⟨rfl, Nat.succ_pred_eq_of_ne_zero room⟩

/-- A look at a full queue stores nothing. -/
theorem put_full (port : SerialPort Thread) (tp : Thread) (b : UInt8)
    (full : port.oqueue.counter = 0) : (port.put tp b).written = port.written := by
  have isFull : port.oqueue.chOQIsFullI = true := by
    rw [IoQueue.chOQIsFullI, beq_iff_eq]
    exact full
  rw [put, IoQueue.chOQPutTimeout, if_pos isFull]
  rfl

end SerialPort

/-! ## Lines -/

/-- The scheduler, the port, and for each thread the characters of its line which it has not
put yet.  The characters of all lines a thread has begun are history. -/
structure SharedConsole (Thread : Type*) where
  scheduler : Scheduler Thread
  port : SerialPort Thread
  line : Thread → List UInt8
  begun : Thread → List UInt8

namespace SharedConsole

variable {Thread : Type*} [DecidableEq Thread]

/-- What can happen: the running thread begins a line, puts the next character of its line, or
goes to sleep between two lines; the port interrupts; or something else, such as a timer,
makes a sleeping thread ready. -/
inductive Action (Thread : Type*) where
  | begin (text : List UInt8)
  | put
  | pause
  | interrupt (status : UsartStatus)
  | wake (thread : Thread)

/-- An interrupt handler makes threads ready, and the scheduler has its turn when the handler
is left. -/
def readyFromHandler (threads : ThreadSet Thread) (scheduler : Scheduler Thread)
    (readied : List Thread) : Scheduler Thread :=
  Scheduler.chSchRescheduleS threads
    (readied.foldl (fun scheduler tp =>
      Scheduler.chSchReadyI threads
        { scheduler with sleeping := scheduler.sleeping.erase tp } tp) scheduler)

/-- The running thread looks at the output queue with the next character of its line, for the
first time or after it was woken, and sleeps if the queue is full. -/
def putNext (console : SharedConsole Thread) (b : UInt8) (rest : List UInt8) :
    Option (SharedConsole Thread) :=
  let tp := console.scheduler.current
  let look : SerialPort.Action Thread :=
    if console.port.oqueue.woken.contains (tp, b) then .resumePut tp b else .put tp b
  (console.port.step look).bind fun port =>
    if console.port.oqueue.chOQIsFullI then
      console.scheduler.chSchGoSleepS.map fun scheduler =>
        { console with scheduler := scheduler, port := port }
    else
      some { console with port := port, line := Function.update console.line tp rest }

/-- One step.  The writers which the handler of the port has woken stand at the end of the
woken ones. -/
def step (threads : ThreadSet Thread) (console : SharedConsole Thread) :
    Action Thread → Option (SharedConsole Thread)
  | .begin text =>
      let tp := console.scheduler.current
      if console.line tp = [] ∧ tp ≠ threads.idle then
        some { console with
          line := Function.update console.line tp text
          begun := Function.update console.begun tp (console.begun tp ++ text) }
      else none
  | .put =>
      match console.line console.scheduler.current with
      | [] => none
      | b :: rest => console.putNext b rest
  | .pause =>
      let tp := console.scheduler.current
      if console.line tp = [] ∧ tp ≠ threads.idle then
        console.scheduler.chSchGoSleepS.map fun scheduler => { console with scheduler := scheduler }
      else none
  | .interrupt status =>
      let port := console.port.serveInterrupt status
      let readied := port.oqueue.woken.drop console.port.oqueue.woken.length
      some { console with
        scheduler := readyFromHandler threads console.scheduler (readied.map Prod.fst)
        port := port }
  | .wake tp =>
      if tp ∈ console.scheduler.sleeping ∧ console.port.Outside tp then
        some { console with scheduler := readyFromHandler threads console.scheduler [tp] }
      else none

/-- The console when the kernel and the port have been started. -/
def start (threads : ThreadSet Thread) (main : Thread) (others : List Thread)
    (ib ob : Nat → UInt8) : SharedConsole Thread where
  scheduler := Scheduler.boot threads main others
  port := SerialPort.sdStart ib ob
  line := fun _ => []
  begun := fun _ => []

/-! ## Interrupts -/

/-- Equals do not preempt each other. -/
theorem current_readyFromHandler {threads : ThreadSet Thread} {scheduler : Scheduler Thread}
    (highest : ∀ tp, threads.prio tp ≤ threads.prio scheduler.current) (readied : List Thread) :
    (readyFromHandler threads scheduler readied).current = scheduler.current := by
  have kept : ∀ scheduler : Scheduler Thread,
      (readied.foldl (fun scheduler tp =>
        Scheduler.chSchReadyI threads
          { scheduler with sleeping := scheduler.sleeping.erase tp } tp) scheduler).current =
        scheduler.current := by
    induction readied with
    | nil => exact fun _ => rfl
    | cons tp rest inductionHypothesis =>
        intro scheduler
        exact inductionHypothesis _
  rw [readyFromHandler, Scheduler.chSchRescheduleS, if_neg, kept]
  rw [kept, Nat.not_lt, Scheduler.firstprio]
  split
  · exact Nat.zero_le _
  · exact highest _

/-- A look of the running thread, in either form, is a look at the same queue. -/
theorem look_eq_put {port next : SerialPort Thread} {tp : Thread} {b : UInt8}
    (taken : port.step
      (if port.oqueue.woken.contains (tp, b) then .resumePut tp b else .put tp b) = some next) :
    ∃ other : SerialPort Thread, other.oqueue.counter = port.oqueue.counter ∧
      other.written = port.written ∧ next = other.put tp b := by
  split at taken
  · rename_i woken
    rw [SerialPort.step, if_pos (List.contains_iff_mem.mp woken)] at taken
    cases taken
    exact ⟨{ port with
      oqueue := { port.oqueue with woken := port.oqueue.woken.erase (tp, b) } }, rfl, rfl, rfl⟩
  · rw [SerialPort.step] at taken
    split at taken
    · cases taken
      exact ⟨port, rfl, rfl, rfl⟩
    · cases taken

/-- What a step does to the lines: the running thread begins one, the next character of its
line is stored, or nothing is written. -/
theorem step_effect {threads : ThreadSet Thread} {console next : SharedConsole Thread}
    {action : Action Thread} (taken : console.step threads action = some next) :
    (∃ text, console.line console.scheduler.current = [] ∧
      next.port.written = console.port.written ∧
      next.line = Function.update console.line console.scheduler.current text ∧
      next.begun = Function.update console.begun console.scheduler.current
        (console.begun console.scheduler.current ++ text)) ∨
    (∃ b rest, console.line console.scheduler.current = b :: rest ∧
      next.port.written = console.port.written ++ [(console.scheduler.current, b)] ∧
      next.line = Function.update console.line console.scheduler.current rest ∧
      next.begun = console.begun) ∨
    (next.port.written = console.port.written ∧ next.line = console.line ∧
      next.begun = console.begun) := by
  cases action with
  | begin text =>
      rw [step] at taken
      split at taken
      · rename_i free
        cases taken
        exact Or.inl ⟨text, free.1, rfl, rfl, rfl⟩
      · cases taken
  | put =>
      rw [step] at taken
      split at taken
      · cases taken
      · rename_i b rest unput
        rcases Option.bind_eq_some_iff.mp taken with ⟨port, looked, taken⟩
        rcases look_eq_put looked with ⟨other, counter, written, rfl⟩
        split at taken
        · rename_i full
          rcases Option.map_eq_some_iff.mp taken with ⟨scheduler, _, rfl⟩
          refine Or.inr (Or.inr ⟨?_, rfl, rfl⟩)
          rw [IoQueue.chOQIsFullI, beq_iff_eq, ← counter] at full
          exact (other.put_full console.scheduler.current b full).trans written
        · rename_i free
          cases taken
          refine Or.inr (Or.inl ⟨b, rest, unput, ?_, rfl, rfl⟩)
          rw [IoQueue.chOQIsFullI, beq_iff_eq, ← counter] at free
          rw [← written]
          exact (other.put_room console.scheduler.current b free).1
  | pause =>
      rw [step] at taken
      split at taken
      · rcases Option.map_eq_some_iff.mp taken with ⟨scheduler, _, rfl⟩
        exact Or.inr (Or.inr ⟨rfl, rfl, rfl⟩)
      · cases taken
  | interrupt status =>
      cases taken
      exact Or.inr (Or.inr ⟨(console.port.serveInterrupt_room status).1, rfl, rfl⟩)
  | wake tp =>
      rw [step] at taken
      split at taken
      · cases taken
        exact Or.inr (Or.inr ⟨rfl, rfl, rfl⟩)
      · cases taken

/-- What was written stays. -/
theorem step_written {threads : ThreadSet Thread} {console next : SharedConsole Thread}
    {action : Action Thread} (taken : console.step threads action = some next) :
    console.port.written <+: next.port.written := by
  rcases step_effect taken with ⟨_, _, written, _⟩ | ⟨_, _, _, written, _⟩ | ⟨written, _⟩
  · rw [written]
  · rw [written]
    exact List.prefix_append _ _
  · rw [written]

/-- A step of the console takes at most one step of the port. -/
theorem step_port {threads : ThreadSet Thread} {console next : SharedConsole Thread}
    {action : Action Thread} (taken : console.step threads action = some next) :
    next.port = console.port ∨
      ∃ portAction, console.port.step portAction = some next.port := by
  cases action with
  | begin text =>
      rw [step] at taken
      split at taken
      · cases taken
        exact Or.inl rfl
      · cases taken
  | put =>
      rw [step] at taken
      split at taken
      · cases taken
      · rcases Option.bind_eq_some_iff.mp taken with ⟨port, looked, taken⟩
        refine Or.inr ⟨_, looked.trans ?_⟩
        split at taken
        · rcases Option.map_eq_some_iff.mp taken with ⟨scheduler, _, rfl⟩
          rfl
        · cases taken
          rfl
  | pause =>
      rw [step] at taken
      split at taken
      · rcases Option.map_eq_some_iff.mp taken with ⟨scheduler, _, rfl⟩
        exact Or.inl rfl
      · cases taken
  | interrupt status =>
      cases taken
      exact Or.inr ⟨.interrupt status, rfl⟩
  | wake tp =>
      rw [step] at taken
      split at taken
      · cases taken
        exact Or.inl rfl
      · cases taken

/-- The port of a console stays in order. -/
theorem run_inOrder {threads : ThreadSet Thread} {main : Thread} {others : List Thread}
    {ib ob : Nat → UInt8} {actions : List (Action Thread)} {console : SharedConsole Thread}
    (run : runFrom (step threads) (start threads main others ib ob) actions = some console) :
    console.port.InOrder := by
  have preserved : ∀ console action next, console.port.InOrder →
      step threads console action = some next → next.port.InOrder := by
    intro console action next inOrder taken
    rcases step_port taken with same | ⟨portAction, portTaken⟩
    · rw [same]
      exact inOrder
    · exact SerialPort.step_inOrder inOrder portTaken
  exact runFrom_invariant preserved run (SerialPort.inOrder_sdStart ib ob)

/-! ## Each thread by itself -/

/-- The characters of one thread among those written. -/
def charactersOf (tp : Thread) (written : List (Thread × UInt8)) : List UInt8 :=
  (written.filter fun entry => entry.1 = tp).map Prod.snd

theorem charactersOf_append (tp : Thread) (written more : List (Thread × UInt8)) :
    charactersOf tp (written ++ more) = charactersOf tp written ++ charactersOf tp more := by
  rw [charactersOf, List.filter_append, List.map_append]
  rfl

/-- Each thread has written what it has begun, up to the rest of its line. -/
def Faithful (console : SharedConsole Thread) : Prop :=
  ∀ tp, charactersOf tp console.port.written ++ console.line tp = console.begun tp

theorem step_faithful {threads : ThreadSet Thread} {console next : SharedConsole Thread}
    {action : Action Thread} (faithful : Faithful console)
    (taken : console.step threads action = some next) : Faithful next := by
  intro tp
  have before := faithful tp
  rcases step_effect taken with ⟨text, empty, written, line, begun⟩ |
    ⟨b, rest, unput, written, line, begun⟩ | ⟨written, line, begun⟩
  · rw [written, line, begun]
    by_cases own : tp = console.scheduler.current
    · subst own
      rw [empty, List.append_nil] at before
      rw [Function.update_self, Function.update_self, before]
    · rw [Function.update_of_ne own, Function.update_of_ne own]
      exact before
  · rw [written, line, begun, charactersOf_append]
    by_cases own : tp = console.scheduler.current
    · subst own
      have stored : charactersOf console.scheduler.current [(console.scheduler.current, b)] =
          [b] := by
        simp [charactersOf]
      rw [unput] at before
      rw [Function.update_self, stored, List.append_assoc]
      exact before
    · have none : charactersOf tp [(console.scheduler.current, b)] = [] := by
        simp [charactersOf, Ne.symm own]
      rw [Function.update_of_ne own, none, List.append_nil]
      exact before
  · rw [written, line, begun]
    exact before

/-- However the threads and the interrupts are interleaved, the wire carries a mixture of the
lines of the threads from which nothing is missing, in which nothing is repeated, and in
which the characters of every thread have their order. -/
theorem lines_mixed_in_order {threads : ThreadSet Thread} {main : Thread} {others : List Thread}
    {ib ob : Nat → UInt8} {actions : List (Action Thread)} {final : SharedConsole Thread}
    (run : runFrom (step threads) (start threads main others ib ob) actions = some final) :
    (∃ unsent, final.port.written.map Prod.snd = final.port.transmitted ++ unsent ∧
      unsent.length ≤ 16 ∧ (unsent ≠ [] → final.port.txeie = true)) ∧
      ∀ tp, charactersOf tp final.port.written ++ final.line tp = final.begun tp := by
  constructor
  · rcases (run_inOrder run).2 with ⟨unsent, sends⟩
    have size : final.port.oqueue.top = 16 := sends.size
    have counted := sends.holds.counter
    exact ⟨unsent, sends.lossless, by omega, sends.enabled⟩
  · exact runFrom_invariant (fun _ _ _ faithful taken => step_faithful faithful taken) run
      (fun _ => rfl)

/-- A line of eighteen characters of the main thread does not fit the queue.  The receiver,
which becomes ready meanwhile, waits for room behind the main thread and has its turn before
the last character. -/
theorem lines_mixed_in_order_divided :
    let text := (List.range 18).map UInt8.ofNat
    let transmit : Action FirmwareThread :=
      .interrupt ⟨false, false, false, false, false, none, true, false⟩
    let actions := [.begin text, .wake .canRx] ++ List.replicate 17 .put ++
      [.begin [0x21], .put, transmit, .put, .put, transmit, .put, .pause, transmit, .put]
    ∃ final : SharedConsole FirmwareThread,
      runFrom (step firmwareThreads)
        (start firmwareThreads .main [.canRx, .adcWorker] (fun _ => 0) (fun _ => 0))
        actions = some final ∧
      final.port.written.map Prod.fst = List.replicate 17 .main ++ [.canRx, .main] ∧
      charactersOf .main final.port.written ++ final.line .main = text := by
  intro text transmit actions
  have found : ((runFrom (step firmwareThreads)
      (start firmwareThreads .main [.canRx, .adcWorker] (fun _ => 0) (fun _ => 0))
      actions).map fun final => (final.port.written.map Prod.fst, final.begun .main)) =
        some (List.replicate 17 .main ++ [.canRx, .main], text) := by
    decide
  rcases Option.map_eq_some_iff.mp found with ⟨final, run, state⟩
  rcases Prod.mk.inj state with ⟨writers, begun⟩
  exact ⟨final, run, writers, ((lines_mixed_in_order run).2 .main).trans begun⟩

/-! ## Lines for which there is room -/

/-- The running thread is within a line for which there is room, or the line has been written
in one piece, behind what was written before it. -/
def Undivided (tp : Thread) (text : List UInt8) (earlier : List (Thread × UInt8))
    (console : SharedConsole Thread) : Prop :=
  (∃ done left, text = done ++ left ∧ console.scheduler.current = tp ∧ console.line tp = left ∧
    console.port.written = earlier ++ done.map (tp, ·) ∧
    left.length ≤ console.port.oqueue.counter) ∨
  earlier ++ text.map (tp, ·) <+: console.port.written

/-- The next character of a line for which there is room. -/
theorem put_undivided {tp : Thread} {text done left : List UInt8} {b : UInt8}
    {earlier : List (Thread × UInt8)} {console next : SharedConsole Thread}
    (split : text = done ++ b :: left) (running : console.scheduler.current = tp)
    (written : console.port.written = earlier ++ done.map (tp, ·))
    (room : (b :: left).length ≤ console.port.oqueue.counter)
    (taken : console.putNext b left = some next) : Undivided tp text earlier next := by
  have free : console.port.oqueue.counter ≠ 0 := by
    rw [List.length_cons] at room
    omega
  rw [putNext, running] at taken
  rcases Option.bind_eq_some_iff.mp taken with ⟨port, looked, taken⟩
  rcases look_eq_put looked with ⟨other, counter, same, rfl⟩
  rcases other.put_room tp b (by rw [counter]; exact free) with ⟨stored, less⟩
  have notFull : ¬ console.port.oqueue.chOQIsFullI = true := by
    rw [IoQueue.chOQIsFullI, beq_iff_eq]
    exact free
  rw [if_neg notFull] at taken
  cases taken
  refine Or.inl ⟨done ++ [b], left, ?_, running, Function.update_self _ _ _, ?_, ?_⟩
  · rw [split, List.append_assoc]
    rfl
  · dsimp only
    rw [stored, same, written, List.map_append, List.append_assoc]
    rfl
  · dsimp only
    rw [List.length_cons] at room
    omega

/-- Every step leaves the line undivided. -/
theorem step_undivided {threads : ThreadSet Thread} {tp : Thread} {text : List UInt8}
    {earlier : List (Thread × UInt8)} {console next : SharedConsole Thread}
    {action : Action Thread} (highest : ∀ other, threads.prio other ≤ threads.prio tp)
    (undivided : Undivided tp text earlier console)
    (taken : console.step threads action = some next) : Undivided tp text earlier next := by
  rcases undivided with ⟨done, left, split, running, unput, written, room⟩ | whole
  · cases left with
    | nil =>
        rw [List.append_nil] at split
        refine Or.inr ?_
        rw [split, ← written]
        exact step_written taken
    | cons b left =>
        cases action with
        | begin other =>
            rw [step, running, unput, if_neg (by simp)] at taken
            cases taken
        | put =>
            rw [step, running, unput] at taken
            exact put_undivided split running written room taken
        | pause =>
            rw [step, running, unput, if_neg (by simp)] at taken
            cases taken
        | interrupt status =>
            cases taken
            rcases console.port.serveInterrupt_room status with ⟨kept, more⟩
            refine Or.inl ⟨done, b :: left, split, ?_, unput, kept.trans written, room.trans more⟩
            rw [← running] at highest
            exact (current_readyFromHandler highest _).trans running
        | wake other =>
            rw [step] at taken
            split at taken
            · cases taken
              refine Or.inl ⟨done, b :: left, split, ?_, unput, written, room⟩
              rw [← running] at highest
              exact (current_readyFromHandler highest _).trans running
            · cases taken
  · exact Or.inr (whole.trans (step_written taken))

/-- A line which has room in the output queue when it is begun is not divided, whatever the
other threads and the interrupts do: until it is complete only its own characters are
written, and they go out on the wire in the order in which they were written. -/
theorem line_undivided {threads : ThreadSet Thread} {main tp : Thread} {others : List Thread}
    {ib ob : Nat → UInt8} {before after : List (Action Thread)} {text : List UInt8}
    {console final : SharedConsole Thread}
    (highest : ∀ other, threads.prio other ≤ threads.prio tp)
    (reached : runFrom (step threads) (start threads main others ib ob) before = some console)
    (running : console.scheduler.current = tp)
    (room : text.length ≤ console.port.oqueue.counter)
    (run : runFrom (step threads) console (.begin text :: after) = some final) :
    (∃ unsent, final.port.written.map Prod.snd = final.port.transmitted ++ unsent) ∧
      ((∃ done left, text = done ++ left ∧ final.scheduler.current = tp ∧
        final.line tp = left ∧
        final.port.written = console.port.written ++ done.map (tp, ·)) ∨
      console.port.written ++ text.map (tp, ·) <+: final.port.written) := by
  constructor
  · have whole := runFrom_append_eq_some.mpr ⟨console, reached, run⟩
    rcases (run_inOrder whole).2 with ⟨unsent, sends⟩
    exact ⟨unsent, sends.lossless⟩
  · rcases runFrom_cons_eq_some.mp run with ⟨begun, taken, remaining⟩
    rw [step] at taken
    split at taken
    · cases taken
      have initially : Undivided tp text console.port.written
          { console with
            line := Function.update console.line console.scheduler.current text
            begun := Function.update console.begun console.scheduler.current
              (console.begun console.scheduler.current ++ text) } := by
        refine Or.inl ⟨[], text, rfl, running, ?_, ?_, room⟩
        · dsimp only
          rw [running, Function.update_self]
        · rw [List.map_nil, List.append_nil]
      have undivided : Undivided tp text console.port.written final :=
        runFrom_invariant (fun _ _ _ undivided taken => step_undivided highest undivided taken)
          remaining initially
      rcases undivided with ⟨done, left, split, current, unput, written, _⟩ | whole
      · exact Or.inl ⟨done, left, split, current, unput, written⟩
      · exact Or.inr whole
    · cases taken

/-- The main thread prints `ok` and is interrupted twice: a worker becomes ready, and a
character leaves the queue.  The worker has its turn when the main thread sleeps. -/
theorem line_undivided_interrupted :
    let after : List (Action FirmwareThread) :=
      [.put, .wake .canRx, .interrupt ⟨false, false, false, false, false, none, true, false⟩,
        .put, .pause, .begin [0x21], .put]
    ∃ final : SharedConsole FirmwareThread,
      runFrom (step firmwareThreads)
        (start firmwareThreads .main [.canRx, .adcWorker] (fun _ => 0) (fun _ => 0))
        (.begin [0x6F, 0x6B] :: after) = some final ∧
      final.scheduler.current = .canRx ∧
      [(FirmwareThread.main, 0x6F), (.main, 0x6B)] <+: final.port.written := by
  intro after
  have found : ((runFrom (step firmwareThreads)
      (start firmwareThreads .main [.canRx, .adcWorker] (fun _ => 0) (fun _ => 0))
      (.begin [0x6F, 0x6B] :: after)).map fun final => final.scheduler.current) =
        some .canRx := by
    decide
  rcases Option.map_eq_some_iff.mp found with ⟨final, run, current⟩
  have highest : ∀ other, firmwareThreads.prio other ≤ firmwareThreads.prio .main := by
    intro other
    cases other <;> decide
  have reached : runFrom (step firmwareThreads)
      (start firmwareThreads .main [.canRx, .adcWorker] (fun _ => 0) (fun _ => 0)) [] =
        some (start firmwareThreads .main [.canRx, .adcWorker] (fun _ => 0) (fun _ => 0)) := rfl
  have undivided := (line_undivided highest reached rfl (by decide) run).2
  rcases undivided with ⟨_, _, _, stillRunning, _⟩ | whole
  · rw [current] at stillRunning
    cases stillRunning
  · exact ⟨final, run, current, whole⟩

end SharedConsole
end Hal
end AnalogX

import AnalogX.Can.ReceivePath
import AnalogX.Kernel.Events

namespace AnalogX
namespace Can

/-!
# The events of the receive path

The receive path keeps two flags for its events: the worker is registered, and its event is
pending.  Here they are obtained from the event functions of the kernel.  Every step of the
path makes the calls which the source makes, and the lists, masks and states of the kernel
agree with the flags and the worker of the path afterwards.
-/

open Kernel Foundations

/-- `ALL_EVENTS`, and the flags of `chEvtRegisterMask`. -/
def allEvents : BitVec 32 := BitVec.allOnes 32

/-- The event system with `can_worker`, its listener and `rxfull_event`. -/
abbrev RxEvents := EventSystem Unit Unit Unit

namespace ReceivePath

/-- The state of the worker thread for the event functions. -/
def waitState : WorkerPc → WaitState
  | .blocked => .blocked .any allEvents
  | .woken signalled => .readied .any allEvents signalled
  | _ => .running

/-- The calls of `can_worker`: `chEvtRegister` with event 0, and `chEvtWaitAnyTimeout`. -/
def workerCalls : WorkerPc → List (EventSystem.Action Unit Unit Unit)
  | .registering => [.register () () () 1 allEvents]
  | .enteringWait => [.wait () .any allEvents false]
  | .woken _ => [.resume ()]
  | _ => []

/-- The calls made in a step of the path.  Whenever the handler runs and there is a frame, it
broadcasts `CAN_MAILBOX_TO_MASK(1)`. -/
def eventCalls (path : ReceivePath) : ReceiveAction → List (EventSystem.Action Unit Unit Unit)
  | .mainStep => []
  | .frameArrives _ =>
      if path.interruptEnabled ∨ 3 ≤ path.fifo.length then [.broadcast () 1] else []
  | .canInterrupt => if path.fifo.isEmpty then [] else [.broadcast () 1]
  | .waitExpires => [.expire ()]
  | .workerStep => workerCalls path.worker

/-- The calls made along a run. -/
def runCalls (path : ReceivePath) :
    List ReceiveAction → List (EventSystem.Action Unit Unit Unit)
  | [] => []
  | action :: rest =>
      path.eventCalls action ++
        match path.step action with
        | none => []
        | some next => next.runCalls rest

/-- The kernel agrees with the flags of the path. -/
structure Matches (path : ReceivePath) (system : RxEvents) : Prop where
  unlisted : path.listening = false → system.esNext () = [] ∧ system.source () = none
  listed : path.listening = true → system.esNext () = [()] ∧
    (system.listeners ()).listener = () ∧ (system.listeners ()).events = 1 ∧
    (system.listeners ()).wflags = allEvents
  pending : system.epending () = if path.pending then 1 else 0
  wait : system.wait () = waitState path.worker

theorem matches_reset (listeners : Unit → EventListener Unit) :
    Matches reset (EventSystem.init listeners) where
  unlisted _ := ⟨rfl, rfl⟩
  listed impossible := by cases impossible
  pending := rfl
  wait := rfl

/-- The registered listener hears the handler. -/
theorem hears_handler {listener : EventListener Unit} (flags : listener.wflags = allEvents) :
    listener.Hears 1 := by
  refine Or.inr ((mask_ne_zero_iff _).mpr ⟨0, ?_⟩)
  rw [flags, BitVec.getLsbD_and, BitVec.getLsbD_or]
  simp [allEvents]

/-- The worker is signalled: it sleeps no longer, and other states are kept. -/
theorem waitState_signal (worker : WorkerPc) (pending : BitVec 32) :
    (waitState worker).signal (pending ||| 1) =
      waitState (if worker = .blocked then .woken true else worker) := by
  have satisfied : Satisfied .any allEvents (pending ||| 1) := by
    refine (mask_ne_zero_iff _).mpr ⟨0, ?_⟩
    rw [BitVec.getLsbD_and, BitVec.getLsbD_or]
    simp [allEvents]
  cases worker with
  | blocked => exact if_pos satisfied
  | _ => rfl

/-- The handler makes the event of a registered worker pending and readies the worker. -/
theorem Matches.broadcastRxfull {path : ReceivePath} {system : RxEvents}
    (matched : Matches path system) :
    Matches path.broadcastRxfull (system.chEvtBroadcastFlagsI () 1) := by
  cases listening : path.listening with
  | false =>
      have alone := (matched.unlisted listening).1
      have unchanged : system.chEvtBroadcastFlagsI () 1 = system := by
        rw [EventSystem.chEvtBroadcastFlagsI, alone, List.foldl_nil]
      rw [unchanged]
      refine ⟨matched.unlisted, matched.listed, ?_, ?_⟩
      · rw [matched.pending, ReceivePath.broadcastRxfull, listening, Bool.or_false]
      · rw [matched.wait, ReceivePath.broadcastRxfull, listening, Bool.false_and]
        rfl
  | true =>
      rcases matched.listed listening with ⟨linked, thread, events, flags⟩
      have signalled : ∃ listeners : Unit → EventListener Unit,
          (listeners ()).events = 1 ∧ (listeners ()).wflags = allEvents ∧
          system.chEvtBroadcastFlagsI () 1 =
            { system with listeners := listeners }.chEvtSignalI () 1 := by
        refine ⟨Function.update system.listeners ()
          { system.listeners () with flags := (system.listeners ()).flags ||| 1 },
          events, flags, ?_⟩
        rw [EventSystem.chEvtBroadcastFlagsI, linked, List.foldl_cons, List.foldl_nil,
          EventSystem.signalListener_of_hears (hears_handler flags)]
        exact congrArg (EventSystem.chEvtSignalI _ ()) events
      rcases signalled with ⟨listeners, events, flags, signalled⟩
      rw [signalled]
      refine ⟨?_, ?_, ?_, ?_⟩
      · intro deaf
        exact absurd (listening.symm.trans deaf) (by decide)
      · intro _
        exact ⟨linked, rfl, events, flags⟩
      · have raised : system.epending () ||| 1 = 1 := by
          rw [matched.pending]
          cases path.pending <;> rfl
        simp only [EventSystem.chEvtSignalI, ReceivePath.broadcastRxfull, listening, Bool.or_true, if_true,
          Function.update_self, raised]
      · simp only [EventSystem.chEvtSignalI, ReceivePath.broadcastRxfull, listening, Bool.true_and,
          Function.update_self, matched.wait, waitState_signal, decide_eq_true_eq]

/-- The kernel does not see changes of the path outside its events. -/
theorem Matches.of_eq {path other : ReceivePath} {system : RxEvents}
    (matched : Matches path system) (listening : other.listening = path.listening)
    (pending : other.pending = path.pending)
    (worker : waitState other.worker = waitState path.worker) : Matches other system := by
  refine ⟨?_, ?_, ?_, ?_⟩
  · rw [listening]
    exact matched.unlisted
  · rw [listening]
    exact matched.listed
  · rw [pending]
    exact matched.pending
  · rw [worker]
    exact matched.wait

/-- The end of a wait with the event pending. -/
theorem Matches.served {path : ReceivePath} {system : RxEvents}
    (matched : Matches path system) (pending : path.pending = true) :
    Matches { path with pending := false, worker := .receiving }
      (system.take () (some .any) allEvents (awaited .any allEvents (system.epending ()))) := by
  refine ⟨matched.unlisted, matched.listed, ?_, rfl⟩
  have one : system.epending () = 1 := by rw [matched.pending, pending, if_pos rfl]
  simp only [EventSystem.take, Function.update_self, one]
  rfl

/-- The worker registers while its listener is not in use. -/
theorem Matches.register {path : ReceivePath} {system : RxEvents}
    (matched : Matches path system) (deaf : path.listening = false)
    (early : path.worker = .registering) :
    ∃ next, system.step (.register () () () 1 allEvents) = some next ∧
      Matches { path with listening := true, worker := .startupSleep } next := by
  rcases matched.unlisted deaf with ⟨alone, unused⟩
  have running : system.wait () = .running := by
    rw [matched.wait, early]
    rfl
  refine ⟨_, if_pos ⟨running, unused⟩, ?_, ?_, matched.pending, running⟩
  · intro impossible
    cases impossible
  · intro _
    refine ⟨?_, rfl, rfl, rfl⟩
    simp [EventSystem.chEvtRegisterMaskWithFlags, alone]

/-- The worker enters its wait and is served at once. -/
theorem Matches.enterServed {path : ReceivePath} {system : RxEvents}
    (matched : Matches path system) (entering : path.worker = .enteringWait)
    (pending : path.pending = true) :
    ∃ next, system.step (.wait () .any allEvents false) = some next ∧
      Matches { path with pending := false, worker := .receiving } next := by
  have running : system.wait () = .running := by
    rw [matched.wait, entering]
    rfl
  have satisfied : Satisfied .any allEvents (system.epending ()) := by
    rw [matched.pending, pending]
    decide
  refine ⟨_, if_pos running, ?_⟩
  rw [EventSystem.chEvtWait, if_pos satisfied]
  exact matched.served pending

/-- The worker enters its wait and falls asleep. -/
theorem Matches.enterAsleep {path : ReceivePath} {system : RxEvents}
    (matched : Matches path system) (entering : path.worker = .enteringWait)
    (silent : path.pending = false) :
    ∃ next, system.step (.wait () .any allEvents false) = some next ∧
      Matches { path with worker := .blocked } next := by
  have running : system.wait () = .running := by
    rw [matched.wait, entering]
    rfl
  have unsatisfied : ¬ Satisfied .any allEvents (system.epending ()) := by
    rw [matched.pending, silent]
    decide
  refine ⟨_, if_pos running, ?_⟩
  rw [EventSystem.chEvtWait, if_neg unsatisfied]
  exact ⟨matched.unlisted, matched.listed, matched.pending, rfl⟩

/-- A readied worker runs again. -/
theorem Matches.resume {path : ReceivePath} {system : RxEvents} {signalled : Bool}
    (matched : Matches path system) (woken : path.worker = .woken signalled) :
    system.step (.resume ()) = some (system.chEvtWaitEnd () .any allEvents signalled) := by
  have readied : system.wait () = .readied .any allEvents signalled := by
    rw [matched.wait, woken]
    rfl
  rw [EventSystem.step, readied]

/-- The calls of the worker. -/
theorem Matches.workerStep {path next : ReceivePath} {system : RxEvents}
    (matched : Matches path system) (consistent : path.Consistent)
    (taken : path.workerStep = some next) :
    ∃ systemNext, runFrom EventSystem.step system (workerCalls path.worker) = some systemNext ∧
      Matches next systemNext := by
  rcases workerStep_cases taken with ⟨early, rfl⟩ | ⟨pending, waiting, rfl⟩ |
    ⟨frame, rest, receiving, stored, rfl⟩ | ⟨pc, moves, rfl⟩
  · rcases matched.register (consistent.unregistered.mpr (Or.inr early)) early with
      ⟨systemNext, called, related⟩
    rw [early]
    exact ⟨systemNext, runFrom_cons_eq_some.mpr ⟨systemNext, called, rfl⟩, related⟩
  · rcases waiting with entering | woken
    · rcases matched.enterServed entering pending with ⟨systemNext, called, related⟩
      rw [entering]
      exact ⟨systemNext, runFrom_cons_eq_some.mpr ⟨systemNext, called, rfl⟩, related⟩
    · rw [woken]
      exact ⟨_, runFrom_cons_eq_some.mpr ⟨_, matched.resume woken, rfl⟩, matched.served pending⟩
  · rw [receiving]
    refine ⟨system, rfl, matched.of_eq rfl rfl ?_⟩
    rw [receiving]
    rfl
  · cases moves with
    | blocks entering silent =>
        rcases matched.enterAsleep entering silent with ⟨systemNext, called, related⟩
        rw [entering]
        exact ⟨systemNext, runFrom_cons_eq_some.mpr ⟨systemNext, called, rfl⟩, related⟩
    | spurious woken silent =>
        have pending := consistent.signalled woken
        rw [silent] at pending
        cases pending
    | expired woken =>
        rw [woken]
        exact ⟨_, runFrom_cons_eq_some.mpr ⟨_, matched.resume woken, rfl⟩,
          matched.unlisted, matched.listed, matched.pending, rfl⟩
    | slept pc | announced pc | drained pc _ | processed _ pc | retries pc =>
        rw [pc]
        refine ⟨system, rfl, matched.of_eq rfl rfl ?_⟩
        rw [pc]
        rfl

/-- The boot sequence makes no call; it creates the worker in a running state. -/
theorem Matches.mainStep {path : ReceivePath} {system : RxEvents}
    (matched : Matches path system) (consistent : path.Consistent) :
    Matches path.mainStep system := by
  have early := consistent.creation
  rw [ReceivePath.mainStep]
  cases main : path.main with
  | createCanRx =>
      have absent : path.worker = .notCreated := early (by simp [BeforeCreation, main])
      refine matched.of_eq rfl rfl ?_
      rw [absent]
      rfl
  | _ => exact matched.of_eq rfl rfl rfl

/-- Every step of the path is matched by its calls. -/
theorem Matches.step {path next : ReceivePath} {system : RxEvents} {action : ReceiveAction}
    (matched : Matches path system) (consistent : path.Consistent)
    (taken : path.step action = some next) :
    ∃ systemNext, runFrom EventSystem.step system (path.eventCalls action) = some systemNext ∧
      Matches next systemNext := by
  cases action with
  | mainStep =>
      cases taken
      exact ⟨system, rfl, matched.mainStep consistent⟩
  | frameArrives frame =>
      rcases frameArrives_cases taken with ⟨_, ⟨masked, room, rfl⟩ | ⟨raised, rfl⟩⟩
      · have quiet : ¬ (path.interruptEnabled = true ∨ 3 ≤ path.fifo.length) := by
          rw [masked]
          simp only [Bool.false_eq_true, false_or, Nat.not_le]
          exact room
        rw [eventCalls, if_neg quiet]
        exact ⟨system, rfl, matched.of_eq rfl rfl rfl⟩
      · rw [eventCalls, if_pos raised]
        have stored : Matches { path with fifo := storeFrame path.fifo frame } system :=
          matched.of_eq rfl rfl rfl
        exact ⟨_, rfl, stored.broadcastRxfull⟩
  | canInterrupt =>
      rcases canInterrupt_cases taken with ⟨_, ⟨empty, rfl⟩ | ⟨filled, rfl⟩⟩
      · rw [eventCalls, if_pos (List.isEmpty_iff.mpr empty)]
        exact ⟨system, rfl, matched⟩
      · rw [eventCalls, if_neg (fun empty => filled (List.isEmpty_iff.mp empty))]
        exact ⟨_, rfl, matched.broadcastRxfull⟩
  | waitExpires =>
      rcases waitExpires_cases taken with ⟨asleep, rfl⟩
      have blocked : system.wait () = .blocked .any allEvents := by
        rw [matched.wait, asleep]
        rfl
      have expired : system.step (.expire ()) = some { system with
          wait := Function.update system.wait () (.readied .any allEvents false) } := by
        rw [EventSystem.step, blocked]
      exact ⟨_, runFrom_cons_eq_some.mpr ⟨_, expired, rfl⟩,
        matched.unlisted, matched.listed, matched.pending, rfl⟩
  | workerStep => exact matched.workerStep consistent taken

/-- The calls of a run can be made one after the other. -/
theorem Matches.run {path final : ReceivePath} {system : RxEvents}
    {actions : List ReceiveAction} (matched : Matches path system)
    (consistent : path.Consistent) (run : runFrom ReceivePath.step path actions = some final) :
    ∃ systemFinal,
      runFrom EventSystem.step system (path.runCalls actions) = some systemFinal ∧
      Matches final systemFinal := by
  induction actions generalizing path system with
  | nil =>
      cases run
      exact ⟨system, rfl, matched⟩
  | cons action rest inductionHypothesis =>
      rcases runFrom_cons_eq_some.mp run with ⟨next, taken, remaining⟩
      rcases matched.step consistent taken with ⟨systemNext, called, related⟩
      rcases inductionHypothesis related (step_consistent consistent taken) remaining with
        ⟨systemFinal, later, related⟩
      refine ⟨systemFinal, ?_, related⟩
      rw [runCalls, taken]
      exact runFrom_append_eq_some.mpr ⟨systemNext, called, later⟩

/-- The receive path is a client of the event functions.  Whatever the order of frames,
interrupts, time limits and threads, the kernel accepts the calls of the path and is left
with the listener, the pending event and the wait of the path.  So the worker never sleeps on
a pending event, and its event is pending when it has been signalled and not been returned
since. -/
theorem receivePath_refines_events {actions : List ReceiveAction} {final : ReceivePath}
    (listeners : Unit → EventListener Unit)
    (run : runFrom ReceivePath.step reset actions = some final) :
    ∃ system, runFrom EventSystem.step (EventSystem.init listeners) (reset.runCalls actions) =
        some system ∧
      Matches final system ∧ (final.worker = .blocked → final.pending = false) ∧
      (final.pending = true ↔ Outstanding system.history () 0) := by
  rcases (matches_reset listeners).run reset_consistent run with ⟨system, called, matched⟩
  have sound := EventSystem.sound_run called
  refine ⟨system, called, matched, ?_, ?_⟩
  · intro asleep
    have agrees := sound.threads ()
    rw [matched.wait, asleep, matched.pending] at agrees
    cases pending : final.pending with
    | false => rfl
    | true =>
        rw [pending] at agrees
        exact absurd (by decide) agrees
  · rw [← sound.pending, matched.pending]
    cases final.pending <;> decide

/-- Two frames arrive while the worker sleeps in its wait, and then a transmission ends. -/
def sleepingWorkerRun (frame : CanRxFrame) : List ReceiveAction :=
  [.mainStep, .mainStep, .mainStep, .mainStep, .mainStep, .workerStep, .workerStep, .workerStep,
    .workerStep, .frameArrives frame, .frameArrives frame, .canInterrupt, .workerStep]

/-- The second frame finds the interrupt masked and makes no call; the end of the
transmission broadcasts the event once more. -/
theorem receivePath_refines_events_asleep :
    ∃ final system,
      runFrom ReceivePath.step reset (sleepingWorkerRun unrelatedFrame) = some final ∧
      runFrom EventSystem.step (EventSystem.init fun _ => ⟨(), 0, 0, 0⟩)
        [.register () () () 1 allEvents, .wait () .any allEvents false, .broadcast () 1,
          .broadcast () 1, .resume ()] = some system ∧
      Matches final system := by
  have run : runFrom ReceivePath.step reset (sleepingWorkerRun unrelatedFrame) = some _ := rfl
  rcases receivePath_refines_events (fun _ => ⟨(), 0, 0, 0⟩) run with ⟨system, called, matched, _⟩
  exact ⟨_, system, run, called, matched⟩

end ReceivePath
end Can
end AnalogX

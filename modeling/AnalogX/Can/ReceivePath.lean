import AnalogX.Can.WorkerRuns
import AnalogX.Foundations.Runs

namespace AnalogX
namespace Can

/-!
# The receive path from boot to dispatch

Four parties share the receive path: `main`, which starts the peripheral and
creates the threads; the bus, on which frames arrive at any moment; the interrupt
of the driver; and `can_worker`, which registers as a listener, waits for events
and drains the FIFO.  Each of them takes one step at a time, in any order.

When a frame arrives with the receive interrupt enabled, the handler masks it and
signals the listeners registered at that moment; `canReceive` enables it again only
when it has emptied the FIFO.  Whoever misses the event must therefore find the
frames some other way, and `can_worker` has none: its timeout branch does not look
at the FIFO.  It depends on the next run of the handler, which tests only whether
there are frames.  An overrun of the FIFO is one occasion, because its interrupt is
never masked.  The others are the interrupts of the rest of the peripheral: this
microcontroller has one vector for all of them, so the end of an own transmission
and an error on the bus run the receive handler too.

Only control is kept here.  What a step does to the variables of the firmware is
`ReceivePath.effect`, and no decision of the path depends on it.
-/

open Kernel Firmware Foundations

/-- The boot sequence of `main`, by the call it makes next. -/
inductive MainPc where
  | systemCanInit
  | systemAdcInit
  | systemSerialInit
  | logStart
  | createCanRx
  | createAdcWorker
  | mainLoop
  deriving DecidableEq

/-- Where `can_worker` stands.  A waiting thread is `blocked` until an event or
the timer makes it ready, and `woken` until it runs again. -/
inductive WorkerPc where
  | notCreated
  | registering
  | startupSleep
  | announcing
  | enteringWait
  | blocked
  | woken (signalled : Bool)
  | receiving
  | processing (rxMsg : CanRxFrame)
  | timedOut
  deriving DecidableEq

/-- The control state shared by the four parties. -/
structure ReceivePath where
  main : MainPc
  worker : WorkerPc
  /-- The frames in the three mailboxes of the receive FIFO, oldest first. -/
  fifo : List CanRxFrame
  /-- `CAN_IER_FMPIE0`. -/
  interruptEnabled : Bool
  /-- The worker is registered on `rxfull_event`. -/
  listening : Bool
  /-- `epending` of the worker has the bit of that event. -/
  pending : Bool
  deriving DecidableEq

/-- A step of one of the parties. -/
inductive ReceiveAction where
  | mainStep
  | frameArrives (frame : CanRxFrame)
  | canInterrupt
  | waitExpires
  | workerStep
  deriving DecidableEq

namespace ReceivePath

/-- Before `system_can_init` the peripheral is off and nothing is registered. -/
def reset : ReceivePath where
  main := .systemCanInit
  worker := .notCreated
  fifo := []
  interruptEnabled := false
  listening := false
  pending := false

/-- `canStart` enables the receive interrupt; creating the thread makes the worker
ready to run. -/
def mainStep (path : ReceivePath) : ReceivePath :=
  match path.main with
  | .systemCanInit => { path with main := .systemAdcInit, interruptEnabled := true }
  | .systemAdcInit => { path with main := .systemSerialInit }
  | .systemSerialInit => { path with main := .logStart }
  | .logStart => { path with main := .createCanRx }
  | .createCanRx => { path with main := .createAdcWorker, worker := .registering }
  | .createAdcWorker => { path with main := .mainLoop }
  | .mainLoop => path

/-- The hardware FIFO keeps three frames; an overrun replaces the newest. -/
def storeFrame (fifo : List CanRxFrame) (frame : CanRxFrame) : List CanRxFrame :=
  if fifo.length < 3 then fifo ++ [frame] else fifo.dropLast ++ [frame]

/-- The broadcast of `rxfull_event`, after the interrupt has been masked.
`chEvtSignalI` makes the worker ready if it is blocked. -/
def broadcastRxfull (path : ReceivePath) : ReceivePath :=
  { path with
    interruptEnabled := false
    pending := path.pending || path.listening
    worker := if path.listening && path.worker = .blocked then .woken true else path.worker }

/-- `can_lld_rx0_handler`.  It does not ask why it runs. -/
def canLldRx0Handler (path : ReceivePath) : ReceivePath :=
  if path.fifo.isEmpty then path else path.broadcastRxfull

/-- A frame passes the default filter of the running peripheral.  The interrupt of
an overrun is always enabled. -/
def frameArrives (frame : CanRxFrame) (path : ReceivePath) : Option ReceivePath :=
  if path.main = .systemCanInit then none
  else
    let overrun := 3 ≤ path.fifo.length
    let path := { path with fifo := storeFrame path.fifo frame }
    some (if path.interruptEnabled ∨ overrun then path.canLldRx0Handler else path)

/-- Another interrupt of the running peripheral, at the end of a transmission or after
an error.  All interrupts enter `STM32_CAN1_UNIFIED_HANDLER`. -/
def canInterrupt (path : ReceivePath) : Option ReceivePath :=
  if path.main = .systemCanInit then none else some path.canLldRx0Handler

/-- The timer of `chEvtWaitAnyTimeout` readies the thread, if it still waits. -/
def waitExpires (path : ReceivePath) : Option ReceivePath :=
  if path.worker = .blocked then some { path with worker := .woken false } else none

/-- `canReceive` with `TIME_IMMEDIATE`. -/
def canReceive (path : ReceivePath) : Option (CanRxFrame × ReceivePath) :=
  match path.fifo with
  | [] => none
  | frame :: rest =>
      some (frame, { path with
        fifo := rest
        interruptEnabled := path.interruptEnabled || rest.isEmpty })

/-- The end of `chEvtWaitAnyTimeout`: a pending event is served and cleared. -/
def serveEvent (path : ReceivePath) : ReceivePath :=
  if path.pending then { path with pending := false, worker := .receiving }
  else { path with worker := .timedOut }

/-- One step of `can_worker`. -/
def workerStep (path : ReceivePath) : Option ReceivePath :=
  match path.worker with
  | .notCreated => none
  | .registering => some { path with listening := true, worker := .startupSleep }
  | .startupSleep => some { path with worker := .announcing }
  | .announcing => some { path with worker := .enteringWait }
  | .enteringWait =>
      if path.pending then some path.serveEvent else some { path with worker := .blocked }
  | .blocked => none
  | .woken true => some path.serveEvent
  | .woken false => some { path with worker := .timedOut }
  | .receiving =>
      match path.canReceive with
      | none => some { path with worker := .enteringWait }
      | some (frame, path) => some { path with worker := .processing frame }
  | .processing _ => some { path with worker := .receiving }
  | .timedOut => some { path with worker := .enteringWait }

/-- One step of the path. -/
def step (path : ReceivePath) : ReceiveAction → Option ReceivePath
  | .mainStep => some path.mainStep
  | .frameArrives frame => path.frameArrives frame
  | .canInterrupt => path.canInterrupt
  | .waitExpires => path.waitExpires
  | .workerStep => path.workerStep

/-- What the same step does to the variables of the firmware.  The iterations of
the main loop have their own counter and are not part of the path. -/
def effect (pins : Pins) (path : ReceivePath) : ReceiveAction → State → State
  | .mainStep, fw =>
      match path.main with
      | .systemCanInit => initCanOperatingParameters pins fw
      | .logStart =>
          fw.logInfo "===AnalogX START (Version %u.%u.%u)===\r\n"
            [some majorVer.toNat, some minorVer.toNat, some patchVer.toNat]
      | _ => fw
  | .workerStep, fw =>
      match path.worker with
      | .announcing => canWorkerStartup fw
      | .timedOut => canWorkerWake fw .timeout
      | .processing rxMsg => processFrame rxMsg fw
      | _ => fw
  | _, fw => fw

/-- `main` leaves `system_can_init` behind with its first step. -/
theorem mainStep_running (path : ReceivePath) : path.mainStep.main ≠ .systemCanInit := by
  rcases path with ⟨main, worker, fifo, interruptEnabled, listening, pending⟩
  unfold mainStep
  cases main <;> simp

/-- A thread that takes a step has been created. -/
theorem workerStep_created {path next : ReceivePath} (taken : path.workerStep = some next) :
    path.worker ≠ .notCreated := by
  intro absent
  rw [workerStep, absent] at taken
  cases taken

/-! ## What a step can do -/

/-- The steps of the worker that only move it on. -/
inductive MovesTo (path : ReceivePath) : WorkerPc → Prop where
  | slept : path.worker = .startupSleep → MovesTo path .announcing
  | announced : path.worker = .announcing → MovesTo path .enteringWait
  | blocks : path.worker = .enteringWait → path.pending = false → MovesTo path .blocked
  | spurious : path.worker = .woken true → path.pending = false → MovesTo path .timedOut
  | expired : path.worker = .woken false → MovesTo path .timedOut
  | drained : path.worker = .receiving → path.fifo = [] → MovesTo path .enteringWait
  | processed (rxMsg : CanRxFrame) : path.worker = .processing rxMsg → MovesTo path .receiving
  | retries : path.worker = .timedOut → MovesTo path .enteringWait

/-- The worker registers, serves a pending event, takes a frame out of the FIFO, or
moves on. -/
theorem workerStep_cases {path next : ReceivePath} (taken : path.workerStep = some next) :
    (path.worker = .registering ∧
      next = { path with listening := true, worker := .startupSleep }) ∨
    (path.pending = true ∧ (path.worker = .enteringWait ∨ path.worker = .woken true) ∧
      next = { path with pending := false, worker := .receiving }) ∨
    (∃ frame rest, path.worker = .receiving ∧ path.fifo = frame :: rest ∧
      next = { path with
        fifo := rest
        interruptEnabled := path.interruptEnabled || rest.isEmpty
        worker := .processing frame }) ∨
    ∃ pc, path.MovesTo pc ∧ next = { path with worker := pc } := by
  unfold workerStep serveEvent canReceive at taken
  cases pc : path.worker with
  | notCreated =>
      rw [pc] at taken
      cases taken
  | registering =>
      rw [pc] at taken
      cases taken
      exact Or.inl ⟨rfl, rfl⟩
  | startupSleep =>
      rw [pc] at taken
      cases taken
      exact Or.inr (Or.inr (Or.inr ⟨_, .slept pc, rfl⟩))
  | announcing =>
      rw [pc] at taken
      cases taken
      exact Or.inr (Or.inr (Or.inr ⟨_, .announced pc, rfl⟩))
  | enteringWait =>
      rw [pc] at taken
      cases pending : path.pending with
      | true =>
          rw [pending] at taken
          cases taken
          exact Or.inr (Or.inl ⟨rfl, Or.inl rfl, rfl⟩)
      | false =>
          rw [pending] at taken
          cases taken
          exact Or.inr (Or.inr (Or.inr ⟨_, .blocks pc pending, rfl⟩))
  | blocked =>
      rw [pc] at taken
      cases taken
  | woken signalled =>
      rw [pc] at taken
      cases signalled with
      | false =>
          cases taken
          exact Or.inr (Or.inr (Or.inr ⟨_, .expired pc, rfl⟩))
      | true =>
          cases pending : path.pending with
          | true =>
              rw [pending] at taken
              cases taken
              exact Or.inr (Or.inl ⟨rfl, Or.inr rfl, rfl⟩)
          | false =>
              rw [pending] at taken
              cases taken
              exact Or.inr (Or.inr (Or.inr ⟨_, .spurious pc pending, rfl⟩))
  | receiving =>
      rw [pc] at taken
      cases stored : path.fifo with
      | nil =>
          rw [stored] at taken
          cases taken
          exact Or.inr (Or.inr (Or.inr ⟨_, .drained pc stored, rfl⟩))
      | cons frame rest =>
          rw [stored] at taken
          cases taken
          exact Or.inr (Or.inr (Or.inl ⟨frame, rest, rfl, rfl, rfl⟩))
  | processing rxMsg =>
      rw [pc] at taken
      cases taken
      exact Or.inr (Or.inr (Or.inr ⟨_, .processed rxMsg pc, rfl⟩))
  | timedOut =>
      rw [pc] at taken
      cases taken
      exact Or.inr (Or.inr (Or.inr ⟨_, .retries pc, rfl⟩))

theorem storeFrame_ne_nil (fifo : List CanRxFrame) (frame : CanRxFrame) :
    storeFrame fifo frame ≠ [] := by
  unfold storeFrame
  split <;> simp

/-- The handler broadcasts the event exactly if there is a frame. -/
theorem canLldRx0Handler_of_ne_nil {path : ReceivePath} (filled : path.fifo ≠ []) :
    path.canLldRx0Handler = path.broadcastRxfull := by
  rw [canLldRx0Handler, if_neg]
  rw [List.isEmpty_iff]
  exact filled

/-- The broadcast moves only a blocked worker. -/
theorem worker_broadcastRxfull (path : ReceivePath) :
    path.broadcastRxfull.worker = path.worker ∨
      (path.worker = .blocked ∧ path.broadcastRxfull.worker = .woken true) := by
  unfold broadcastRxfull
  dsimp only
  split
  · rename_i woken
    rw [Bool.and_eq_true, decide_eq_true_eq] at woken
    exact Or.inr ⟨woken.2, rfl⟩
  · exact Or.inl rfl

/-- An arriving frame is stored, and the handler runs if its interrupt is enabled or
the FIFO was full. -/
theorem frameArrives_cases {path next : ReceivePath} {frame : CanRxFrame}
    (taken : path.frameArrives frame = some next) :
    path.main ≠ .systemCanInit ∧
      ((path.interruptEnabled = false ∧ path.fifo.length < 3 ∧
          next = { path with fifo := storeFrame path.fifo frame }) ∨
        ((path.interruptEnabled = true ∨ 3 ≤ path.fifo.length) ∧
          next = broadcastRxfull { path with fifo := storeFrame path.fifo frame })) := by
  unfold frameArrives at taken
  split at taken
  · cases taken
  · rename_i running
    refine ⟨running, ?_⟩
    dsimp only at taken
    split at taken
    · rename_i raised
      rw [canLldRx0Handler_of_ne_nil (storeFrame_ne_nil path.fifo frame)] at taken
      exact Or.inr ⟨raised, (Option.some.inj taken).symm⟩
    · rename_i quiet
      rw [not_or, Nat.not_le] at quiet
      exact Or.inl ⟨Bool.eq_false_of_not_eq_true quiet.1, quiet.2, (Option.some.inj taken).symm⟩

/-- Another interrupt broadcasts the event if there is a frame. -/
theorem canInterrupt_cases {path next : ReceivePath} (taken : path.canInterrupt = some next) :
    path.main ≠ .systemCanInit ∧
      ((path.fifo = [] ∧ next = path) ∨ (path.fifo ≠ [] ∧ next = path.broadcastRxfull)) := by
  unfold canInterrupt at taken
  split at taken
  · cases taken
  · rename_i running
    refine ⟨running, ?_⟩
    by_cases empty : path.fifo = []
    · rw [canLldRx0Handler, if_pos (List.isEmpty_iff.mpr empty)] at taken
      exact Or.inl ⟨empty, (Option.some.inj taken).symm⟩
    · rw [canLldRx0Handler_of_ne_nil empty] at taken
      exact Or.inr ⟨empty, (Option.some.inj taken).symm⟩

/-- The wait expires only for a thread that is still blocked. -/
theorem waitExpires_cases {path next : ReceivePath} (taken : path.waitExpires = some next) :
    path.worker = .blocked ∧ next = { path with worker := .woken false } := by
  unfold waitExpires at taken
  split at taken
  · rename_i blocked
    exact ⟨blocked, (Option.some.inj taken).symm⟩
  · cases taken

/-- Only `main` moves itself. -/
theorem step_main {path next : ReceivePath} {action : ReceiveAction}
    (other : action ≠ .mainStep) (taken : path.step action = some next) :
    next.main = path.main := by
  cases action with
  | mainStep => exact absurd rfl other
  | frameArrives frame =>
      rcases frameArrives_cases taken with ⟨_, ⟨_, _, rfl⟩ | ⟨_, rfl⟩⟩
      · rfl
      · rfl
  | canInterrupt =>
      rcases canInterrupt_cases taken with ⟨_, ⟨_, rfl⟩ | ⟨_, rfl⟩⟩
      · rfl
      · rfl
  | waitExpires =>
      rcases waitExpires_cases taken with ⟨_, rfl⟩
      rfl
  | workerStep =>
      rcases workerStep_cases taken with ⟨_, rfl⟩ | ⟨_, _, rfl⟩ | ⟨_, _, _, _, rfl⟩ | ⟨_, _, rfl⟩
      · rfl
      · rfl
      · rfl
      · rfl

/-! ## Orders that always hold -/

/-- The worker is inside `chEvtWaitAnyTimeout`, asleep or made ready. -/
def Waiting (path : ReceivePath) : Prop :=
  path.worker = .blocked ∨ ∃ signalled, path.worker = .woken signalled

/-- The worker has served an event and is draining the FIFO. -/
def Draining (path : ReceivePath) : Prop :=
  path.worker = .receiving ∨ ∃ rxMsg, path.worker = .processing rxMsg

/-- `main` has not yet created the receiving thread. -/
def BeforeCreation (path : ReceivePath) : Prop :=
  path.main ≠ .createAdcWorker ∧ path.main ≠ .mainLoop

/-- What holds in every reachable state, whenever frames arrive. -/
structure Consistent (path : ReceivePath) : Prop where
  creation : path.BeforeCreation → path.worker = .notCreated
  unregistered : path.listening = false ↔
    path.worker = .notCreated ∨ path.worker = .registering
  unsignalled : path.listening = false → path.pending = false
  stopped : path.main = .systemCanInit → path.fifo = []
  masked : path.main ≠ .systemCanInit → (path.interruptEnabled = true ↔ path.fifo = [])
  signalled : path.worker = .woken true → path.pending = true

theorem reset_consistent : Consistent reset := by
  constructor <;> simp [reset]

theorem mainStep_consistent {path : ReceivePath} (consistent : path.Consistent) :
    path.mainStep.Consistent := by
  obtain ⟨creation, unregistered, unsignalled, stopped, masked, signalled⟩ := consistent
  rcases path with ⟨main, worker, fifo, interruptEnabled, listening, pending⟩
  unfold mainStep
  cases main <;> constructor <;> simp_all [BeforeCreation]

/-- A registered worker listens. -/
theorem Consistent.listens {path : ReceivePath} (consistent : path.Consistent)
    (registered : path.worker ≠ .notCreated ∧ path.worker ≠ .registering) :
    path.listening = true := by
  apply Bool.of_not_eq_false
  intro deaf
  rcases consistent.unregistered.mp deaf with absent | early
  · exact registered.1 absent
  · exact registered.2 early

/-- Moving a registered worker to a place where no event is needed. -/
theorem Consistent.move {path : ReceivePath} {pc : WorkerPc} (consistent : path.Consistent)
    (registered : path.worker ≠ .notCreated ∧ path.worker ≠ .registering)
    (target : pc ≠ .notCreated ∧ pc ≠ .registering ∧ pc ≠ .woken true) :
    Consistent { path with worker := pc } := by
  have listens := consistent.listens registered
  refine ⟨?_, ?_, consistent.unsignalled, consistent.stopped, consistent.masked, ?_⟩
  · intro early
    exact absurd (consistent.creation early) registered.1
  · constructor
    · intro deaf
      exact absurd (listens.symm.trans deaf) (by decide)
    · rintro (absent | early)
      · exact absurd absent target.1
      · exact absurd early target.2.1
  · intro woken
    exact absurd woken target.2.2

theorem MovesTo.registered {path : ReceivePath} {pc : WorkerPc} (moves : path.MovesTo pc) :
    path.worker ≠ .notCreated ∧ path.worker ≠ .registering := by
  cases moves <;> simp [*]

theorem MovesTo.target {path : ReceivePath} {pc : WorkerPc} (moves : path.MovesTo pc) :
    pc ≠ .notCreated ∧ pc ≠ .registering ∧ pc ≠ .woken true := by
  cases moves <;> simp

/-- The broadcast for a filled FIFO. -/
theorem Consistent.broadcastRxfull {path : ReceivePath} (consistent : path.Consistent)
    (running : path.main ≠ .systemCanInit) (filled : path.fifo ≠ []) :
    path.broadcastRxfull.Consistent := by
  refine ⟨?_, ?_, ?_, fun early => absurd early running, ?_, ?_⟩
  · intro early
    have absent := consistent.creation early
    simp [ReceivePath.broadcastRxfull, absent]
  · have unregistered := consistent.unregistered
    by_cases asleep : path.worker = .blocked <;>
      cases listens : path.listening <;> simp_all [ReceivePath.broadcastRxfull]
  · intro deaf
    have silent := consistent.unsignalled deaf
    change path.listening = false at deaf
    simp [ReceivePath.broadcastRxfull, silent, deaf]
  · intro _
    simp [ReceivePath.broadcastRxfull, filled]
  · have signalled := consistent.signalled
    cases listens : path.listening <;> simp_all [ReceivePath.broadcastRxfull]

/-- Storing a frame behind a masked interrupt. -/
theorem Consistent.store {path : ReceivePath} {fifo : List CanRxFrame}
    (consistent : path.Consistent) (running : path.main ≠ .systemCanInit)
    (masked : path.interruptEnabled = false) (filled : fifo ≠ []) :
    Consistent { path with fifo := fifo } := by
  refine ⟨consistent.creation, consistent.unregistered, consistent.unsignalled,
    fun early => absurd early running, ?_, consistent.signalled⟩
  intro _
  simp only [masked, filled, Bool.false_eq_true]

theorem frameArrives_consistent {path next : ReceivePath} {frame : CanRxFrame}
    (consistent : path.Consistent) (taken : path.frameArrives frame = some next) :
    next.Consistent := by
  have stored := storeFrame_ne_nil path.fifo frame
  rcases frameArrives_cases taken with ⟨running, ⟨masked, _, rfl⟩ | ⟨_, rfl⟩⟩
  · exact consistent.store running masked stored
  · have masked : Consistent
        { path with fifo := storeFrame path.fifo frame, interruptEnabled := false } := by
      refine ⟨consistent.creation, consistent.unregistered, consistent.unsignalled,
        fun early => absurd early running, ?_, consistent.signalled⟩
      intro _
      simp only [stored, Bool.false_eq_true]
    exact masked.broadcastRxfull running stored

theorem canInterrupt_consistent {path next : ReceivePath} (consistent : path.Consistent)
    (taken : path.canInterrupt = some next) : next.Consistent := by
  rcases canInterrupt_cases taken with ⟨running, ⟨_, rfl⟩ | ⟨filled, rfl⟩⟩
  · exact consistent
  · exact consistent.broadcastRxfull running filled

theorem waitExpires_consistent {path next : ReceivePath}
    (consistent : path.Consistent) (taken : path.waitExpires = some next) :
    next.Consistent := by
  rcases waitExpires_cases taken with ⟨asleep, rfl⟩
  exact consistent.move (by simp [asleep]) (by simp)

theorem workerStep_consistent {path next : ReceivePath}
    (consistent : path.Consistent) (taken : path.workerStep = some next) :
    next.Consistent := by
  rcases workerStep_cases taken with ⟨early, rfl⟩ | ⟨_, waiting, rfl⟩ |
    ⟨frame, rest, receiving, stored, rfl⟩ | ⟨pc, moves, rfl⟩
  · refine ⟨?_, ?_, ?_, consistent.stopped, consistent.masked, ?_⟩
    · intro unborn
      exact absurd (early.symm.trans (consistent.creation unborn)) (by decide)
    · simp
    · simp
    · simp
  · have registered : path.worker ≠ .notCreated ∧ path.worker ≠ .registering := by
      rcases waiting with entering | woken
      · simp [entering]
      · simp [woken]
    have moved : Consistent { path with worker := .receiving } :=
      consistent.move registered (by simp)
    exact ⟨moved.creation, moved.unregistered, fun _ => rfl, moved.stopped, moved.masked, by simp⟩
  · have moved : Consistent { path with worker := .processing frame } :=
      consistent.move (by simp [receiving]) (by simp)
    have running : path.main ≠ .systemCanInit := by
      intro stopped
      rw [consistent.stopped stopped] at stored
      cases stored
    have masked : path.interruptEnabled = false := by
      apply Bool.eq_false_of_not_eq_true
      intro enabled
      rw [(consistent.masked running).mp enabled] at stored
      cases stored
    refine ⟨moved.creation, moved.unregistered, moved.unsignalled,
      fun stopped => absurd stopped running, ?_, by simp⟩
    intro _
    simp [masked]
  · exact consistent.move moves.registered moves.target

theorem step_consistent {path next : ReceivePath} {action : ReceiveAction}
    (consistent : path.Consistent) (taken : path.step action = some next) :
    next.Consistent := by
  cases action with
  | mainStep =>
      cases taken
      exact mainStep_consistent consistent
  | frameArrives frame => exact frameArrives_consistent consistent taken
  | canInterrupt => exact canInterrupt_consistent consistent taken
  | waitExpires => exact waitExpires_consistent consistent taken
  | workerStep => exact workerStep_consistent consistent taken

/-! ## Frames that wait for the worker to register -/

/-- The environment holds its frames back until the worker listens. -/
def ArrivesToListener (path : ReceivePath) (action : ReceiveAction) : Prop :=
  ∀ frame, action = .frameArrives frame → path.listening = true

/-- Every frame in the FIFO is known to the worker: it is draining, or its event
is pending. -/
structure Prompt (path : ReceivePath) : Prop extends path.Consistent where
  empty : path.listening = false → path.fifo = []
  known : path.listening = true → path.fifo ≠ [] → path.pending = true ∨ path.Draining

theorem reset_prompt : Prompt reset := by
  refine ⟨reset_consistent, ?_, ?_⟩
  · intro _
    rfl
  · intro registered
    cases registered

theorem mainStep_prompt {path : ReceivePath} (prompt : path.Prompt) : path.mainStep.Prompt := by
  have consistent := mainStep_consistent prompt.toConsistent
  obtain ⟨⟨creation, unregistered, _, _, _, _⟩, empty, known⟩ := prompt
  rcases path with ⟨main, worker, fifo, interruptEnabled, listening, pending⟩
  refine ⟨consistent, ?_, ?_⟩ <;> unfold mainStep
  · cases main <;> exact empty
  · cases main
    case createCanRx => simp_all [BeforeCreation]
    all_goals exact known

/-- A broadcast which the worker hears tells it about every frame. -/
theorem prompt_broadcastRxfull {path : ReceivePath} (consistent : path.broadcastRxfull.Consistent)
    (registered : path.listening = true) : path.broadcastRxfull.Prompt := by
  refine ⟨consistent, ?_, ?_⟩
  · intro deaf
    exact absurd (registered.symm.trans deaf) (by decide)
  · intro _ _
    simp [broadcastRxfull, registered]

theorem frameArrives_prompt {path next : ReceivePath} {frame : CanRxFrame}
    (prompt : path.Prompt) (registered : path.listening = true)
    (taken : path.frameArrives frame = some next) : next.Prompt := by
  have consistent := frameArrives_consistent prompt.toConsistent taken
  rcases frameArrives_cases taken with ⟨running, ⟨masked, _, rfl⟩ | ⟨_, rfl⟩⟩
  · have filled : path.fifo ≠ [] := by
      intro empty
      exact absurd (((prompt.masked running).mpr empty).symm.trans masked) (by decide)
    refine ⟨consistent, ?_, ?_⟩
    · intro deaf
      exact absurd (registered.symm.trans deaf) (by decide)
    · intro _ _
      exact prompt.known registered filled
  · exact prompt_broadcastRxfull consistent registered

theorem canInterrupt_prompt {path next : ReceivePath} (prompt : path.Prompt)
    (taken : path.canInterrupt = some next) : next.Prompt := by
  have consistent := canInterrupt_consistent prompt.toConsistent taken
  rcases canInterrupt_cases taken with ⟨_, ⟨_, rfl⟩ | ⟨filled, rfl⟩⟩
  · exact prompt
  · have registered : path.listening = true := by
      apply Bool.of_not_eq_false
      intro deaf
      exact filled (prompt.empty deaf)
    exact prompt_broadcastRxfull consistent registered

/-- Moving a worker that is not in the middle of draining. -/
theorem Prompt.move {path : ReceivePath} {pc : WorkerPc} (prompt : path.Prompt)
    (consistent : Consistent { path with worker := pc })
    (drains : path.Draining → path.fifo = [] ∨ pc = .receiving) :
    Prompt { path with worker := pc } := by
  refine ⟨consistent, prompt.empty, ?_⟩
  intro registered filled
  rcases prompt.known registered filled with pending | draining
  · exact Or.inl pending
  · rcases drains draining with empty | receiving
    · exact absurd empty filled
    · exact Or.inr (Or.inl receiving)

/-- The worker leaves the drain loop only when the FIFO is empty. -/
theorem MovesTo.drains {path : ReceivePath} {pc : WorkerPc} (moves : path.MovesTo pc)
    (draining : path.Draining) : path.fifo = [] ∨ pc = .receiving := by
  unfold Draining at draining
  cases moves <;> simp_all

theorem waitExpires_prompt {path next : ReceivePath} (prompt : path.Prompt)
    (taken : path.waitExpires = some next) : next.Prompt := by
  have consistent := waitExpires_consistent prompt.toConsistent taken
  rcases waitExpires_cases taken with ⟨asleep, rfl⟩
  refine prompt.move consistent ?_
  intro draining
  simp [Draining, asleep] at draining

theorem workerStep_prompt {path next : ReceivePath} (prompt : path.Prompt)
    (taken : path.workerStep = some next) : next.Prompt := by
  have consistent := workerStep_consistent prompt.toConsistent taken
  rcases workerStep_cases taken with ⟨early, rfl⟩ | ⟨_, waiting, rfl⟩ |
    ⟨frame, rest, receiving, stored, rfl⟩ | ⟨pc, moves, rfl⟩
  · have empty := prompt.empty (prompt.unregistered.mpr (Or.inr early))
    exact ⟨consistent, fun _ => empty, fun _ filled => absurd empty filled⟩
  · exact ⟨consistent, prompt.empty, fun _ _ => Or.inr (Or.inl rfl)⟩
  · have listens := prompt.listens (by simp [receiving])
    refine ⟨consistent, ?_, fun _ _ => Or.inr (Or.inr ⟨frame, rfl⟩)⟩
    intro deaf
    exact absurd (listens.symm.trans deaf) (by decide)
  · exact prompt.move consistent moves.drains

theorem step_prompt {path next : ReceivePath} {action : ReceiveAction}
    (prompt : path.Prompt) (allowed : path.ArrivesToListener action)
    (taken : path.step action = some next) : next.Prompt := by
  cases action with
  | mainStep =>
      cases taken
      exact mainStep_prompt prompt
  | frameArrives frame => exact frameArrives_prompt prompt (allowed frame rfl) taken
  | canInterrupt => exact canInterrupt_prompt prompt taken
  | waitExpires => exact waitExpires_prompt prompt taken
  | workerStep => exact workerStep_prompt prompt taken

/-! ## A frame that came too early -/

/-- The receive handler does not run in this step, or nobody hears its broadcast. -/
def Unheard (path : ReceivePath) : ReceiveAction → Prop
  | .frameArrives _ =>
      path.listening = true → path.interruptEnabled = false ∧ path.fifo.length < 3
  | .canInterrupt => path.listening = false
  | _ => True

instance (path : ReceivePath) : (action : ReceiveAction) → Decidable (path.Unheard action)
  | .mainStep => isTrue trivial
  | .frameArrives _ =>
      inferInstanceAs
        (Decidable (path.listening = true → path.interruptEnabled = false ∧ path.fifo.length < 3))
  | .canInterrupt => inferInstanceAs (Decidable (path.listening = false))
  | .waitExpires => isTrue trivial
  | .workerStep => isTrue trivial

/-- The interrupt is masked over a filled FIFO and nobody was told. -/
structure Stranded (path : ReceivePath) : Prop where
  running : path.main ≠ .systemCanInit
  filled : path.fifo ≠ []
  masked : path.interruptEnabled = false
  silent : path.pending = false
  idle : ¬ path.Draining ∧ path.worker ≠ .woken true

/-- The worker does not begin to drain without an event. -/
theorem MovesTo.idle {path : ReceivePath} {pc : WorkerPc} (moves : path.MovesTo pc)
    (idle : ¬ path.Draining) : ¬ Draining { path with worker := pc } := by
  unfold Draining at idle ⊢
  cases moves <;> simp_all

theorem workerStep_stranded {path next : ReceivePath} (stranded : path.Stranded)
    (taken : path.workerStep = some next) : next.Stranded := by
  obtain ⟨running, filled, masked, silent, idle, notSignalled⟩ := stranded
  rcases workerStep_cases taken with ⟨early, rfl⟩ | ⟨pending, _, _⟩ |
    ⟨_, _, receiving, _, _⟩ | ⟨pc, moves, rfl⟩
  · exact ⟨running, filled, masked, silent, by simp [Draining], by simp⟩
  · exact absurd (silent.symm.trans pending) (by decide)
  · exact absurd (Or.inl receiving) idle
  · exact ⟨running, filled, masked, silent, moves.idle idle, moves.target.2.2⟩

theorem mainStep_stranded {path : ReceivePath} (stranded : path.Stranded) :
    path.mainStep.Stranded := by
  have moved := mainStep_running path
  obtain ⟨running, filled, masked, silent, idle, notSignalled⟩ := stranded
  rcases path with ⟨main, worker, fifo, interruptEnabled, listening, pending⟩
  refine ⟨moved, ?_, ?_, ?_, ?_, ?_⟩ <;> unfold mainStep <;>
    cases main <;> simp_all [Draining]

/-- A broadcast without a listener changes nothing but the mask. -/
theorem stranded_broadcastRxfull {path : ReceivePath} (deaf : path.listening = false)
    (stranded : Stranded { path with interruptEnabled := false }) :
    path.broadcastRxfull.Stranded := by
  have same : path.broadcastRxfull = { path with interruptEnabled := false } := by
    simp [broadcastRxfull, deaf]
  rw [same]
  exact stranded

/-- Such a state lasts until the worker hears the handler: it does not look at the
FIFO by itself, and frames that follow find the interrupt masked. -/
theorem step_stranded {path next : ReceivePath} {action : ReceiveAction}
    (stranded : path.Stranded) (unheard : path.Unheard action)
    (taken : path.step action = some next) : next.Stranded := by
  cases action with
  | mainStep =>
      cases taken
      exact mainStep_stranded stranded
  | frameArrives frame =>
      have stored := storeFrame_ne_nil path.fifo frame
      rcases frameArrives_cases taken with ⟨running, ⟨masked, _, rfl⟩ | ⟨raised, rfl⟩⟩
      · exact ⟨running, stored, masked, stranded.silent, stranded.idle⟩
      · have deaf : path.listening = false := by
          apply Bool.eq_false_of_not_eq_true
          intro registered
          rcases unheard registered with ⟨masked, room⟩
          rcases raised with enabled | full
          · exact absurd (masked.symm.trans enabled) (by decide)
          · omega
        exact stranded_broadcastRxfull deaf
          ⟨running, stored, rfl, stranded.silent, stranded.idle⟩
  | canInterrupt =>
      rcases canInterrupt_cases taken with ⟨running, ⟨_, rfl⟩ | ⟨filled, rfl⟩⟩
      · exact stranded
      · exact stranded_broadcastRxfull unheard
          ⟨running, filled, rfl, stranded.silent, stranded.idle⟩
  | waitExpires =>
      rcases waitExpires_cases taken with ⟨_, rfl⟩
      exact ⟨stranded.running, stranded.filled, stranded.masked, stranded.silent,
        by simp [Draining], by simp⟩
  | workerStep => exact workerStep_stranded stranded taken

/-- A frame that arrives before the worker listens strands the FIFO. -/
theorem frameArrives_stranded {path next : ReceivePath} {frame : CanRxFrame}
    (consistent : path.Consistent) (deaf : path.listening = false)
    (taken : path.frameArrives frame = some next) : next.Stranded := by
  have stored := storeFrame_ne_nil path.fifo frame
  have silent := consistent.unsignalled deaf
  have idle : ¬ path.Draining ∧ path.worker ≠ .woken true := by
    unfold Draining
    rcases consistent.unregistered.mp deaf with absent | early
    · simp [absent]
    · simp [early]
  rcases frameArrives_cases taken with ⟨running, ⟨masked, _, rfl⟩ | ⟨_, rfl⟩⟩
  · exact ⟨running, stored, masked, silent, idle⟩
  · exact stranded_broadcastRxfull deaf ⟨running, stored, rfl, silent, idle⟩

/-! ## A handler which the worker hears -/

/-- The worker never unregisters. -/
theorem step_listening {path next : ReceivePath} {action : ReceiveAction}
    (registered : path.listening = true) (taken : path.step action = some next) :
    next.listening = true := by
  cases action with
  | mainStep =>
      cases taken
      unfold mainStep
      cases path.main <;> exact registered
  | frameArrives frame =>
      rcases frameArrives_cases taken with ⟨_, ⟨_, _, rfl⟩ | ⟨_, rfl⟩⟩
      · exact registered
      · exact registered
  | canInterrupt =>
      rcases canInterrupt_cases taken with ⟨_, ⟨_, rfl⟩ | ⟨_, rfl⟩⟩
      · exact registered
      · exact registered
  | waitExpires =>
      rcases waitExpires_cases taken with ⟨_, rfl⟩
      exact registered
  | workerStep =>
      rcases workerStep_cases taken with ⟨_, rfl⟩ | ⟨_, _, rfl⟩ | ⟨_, _, _, _, rfl⟩ | ⟨_, _, rfl⟩
      · rfl
      · exact registered
      · exact registered
      · exact registered

/-- Once the worker has heard the handler it knows about every frame. -/
theorem prompt_of_heard {path next : ReceivePath} {action : ReceiveAction}
    (consistent : path.Consistent) (heard : ¬ path.Unheard action)
    (taken : path.step action = some next) : next.listening = true ∧ next.Prompt := by
  have kept := step_consistent consistent taken
  cases action with
  | mainStep => exact absurd trivial heard
  | waitExpires => exact absurd trivial heard
  | workerStep => exact absurd trivial heard
  | frameArrives frame =>
      rw [Unheard, Classical.not_imp] at heard
      rcases frameArrives_cases taken with ⟨_, ⟨masked, room, _⟩ | ⟨_, rfl⟩⟩
      · exact absurd ⟨masked, room⟩ heard.2
      · exact ⟨heard.1, prompt_broadcastRxfull kept heard.1⟩
  | canInterrupt =>
      have registered : path.listening = true := Bool.of_not_eq_false heard
      rcases canInterrupt_cases taken with ⟨_, ⟨empty, rfl⟩ | ⟨_, rfl⟩⟩
      · refine ⟨registered, consistent, ?_, fun _ filled => absurd empty filled⟩
        intro deaf
        exact absurd (registered.symm.trans deaf) (by decide)
      · exact ⟨registered, prompt_broadcastRxfull kept registered⟩

/-- From then on it does not miss any. -/
theorem prompt_of_registered {actions : List ReceiveAction} {path final : ReceivePath}
    (registered : path.listening = true) (prompt : path.Prompt)
    (run : runFrom step path actions = some final) : final.Prompt := by
  have preserved : ∀ (path : ReceivePath) (action : ReceiveAction) (next : ReceivePath),
      (path.listening = true ∧ path.Prompt) → path.step action = some next →
        next.listening = true ∧ next.Prompt := by
    intro path action next holds taken
    exact ⟨step_listening holds.1 taken, step_prompt holds.2 (fun _ _ => holds.1) taken⟩
  exact (runFrom_invariant preserved run ⟨registered, prompt⟩).2

/-! ## No lost wake-up -/

/-- A frame in the FIFO will wake the worker: its event is pending, or the next
frame raises the interrupt. -/
def WakeupAssured (path : ReceivePath) : Prop :=
  path.fifo ≠ [] → path.pending = true ∨ path.interruptEnabled = true

theorem Prompt.wakeupAssured {path : ReceivePath} (prompt : path.Prompt)
    (waiting : path.Waiting) : path.WakeupAssured := by
  intro filled
  have registered : path.listening = true := by
    apply Bool.of_not_eq_false
    intro deaf
    exact filled (prompt.empty deaf)
  rcases prompt.known registered filled with pending | draining
  · exact Or.inl pending
  · unfold Draining at draining
    rcases waiting with asleep | ⟨signalled, woken⟩
    · simp [asleep] at draining
    · simp [woken] at draining

theorem Stranded.not_wakeupAssured {path : ReceivePath} (stranded : path.Stranded) :
    ¬ path.WakeupAssured := by
  intro assured
  rcases assured stranded.filled with pending | enabled
  · rw [stranded.silent] at pending
    cases pending
  · rw [stranded.masked] at enabled
    cases enabled

/-- The run lemma for frames that arrive to a listener. -/
theorem prompt_of_guarded {actions : List ReceiveAction} {path : ReceivePath}
    (guarded : Guarded step ArrivesToListener reset actions)
    (run : runFrom step reset actions = some path) : path.Prompt :=
  guarded.invariant (fun _ _ _ holds allowed taken => step_prompt holds allowed taken) run
    reset_prompt

/-- A run in which a frame came too early and nothing was heard afterwards. -/
theorem stranded_of_early {actions : List ReceiveAction} {path : ReceivePath}
    (run : runFrom step reset actions = some path)
    (early : ¬ Guarded step ArrivesToListener reset actions)
    (unheard : Guarded step Unheard reset actions) : path.Stranded := by
  rcases guarded_or_violation run with guarded | violation
  · exact absurd guarded early
  · rcases violation with ⟨before, action, after, middle, next, split, reached, missed, taken, rest⟩
    have consistent : middle.Consistent :=
      runFrom_invariant (fun _ _ _ holds taken => step_consistent holds taken) reached
        reset_consistent
    have stranded : next.Stranded := by
      unfold ArrivesToListener at missed
      rw [not_forall] at missed
      rcases missed with ⟨frame, arrival⟩
      rw [Classical.not_imp] at arrival
      rcases arrival with ⟨arrives, deaf⟩
      subst arrives
      exact frameArrives_stranded consistent (Bool.eq_false_of_not_eq_true deaf) taken
    have later : Guarded step Unheard next after := by
      rw [split] at unheard
      exact (unheard.of_run reached).2 next taken
    exact later.invariant (fun _ _ _ holds unheard taken => step_stranded holds unheard taken) rest
      stranded

/-- For every interleaving of the boot sequence, the arriving frames, the other
interrupts of the peripheral, the expiring waits and the steps of the worker: whenever
the worker waits, the frames in the FIFO are sure to wake it exactly if no frame arrived
between `canStart` and the registration of the listener, or the handler has run again
since the worker is registered. -/
theorem wakeup_assured_iff {actions : List ReceiveAction} {path : ReceivePath}
    (run : runFrom step reset actions = some path) (waiting : path.Waiting) :
    path.WakeupAssured ↔
      Guarded step ArrivesToListener reset actions ∨ ¬ Guarded step Unheard reset actions := by
  constructor
  · intro assured
    by_cases early : Guarded step ArrivesToListener reset actions
    · exact Or.inl early
    · refine Or.inr ?_
      intro unheard
      exact (stranded_of_early run early unheard).not_wakeupAssured assured
  · rintro (guarded | heard)
    · exact (prompt_of_guarded guarded run).wakeupAssured waiting
    · rcases guarded_or_violation run with unheard | hearing
      · exact absurd unheard heard
      · rcases hearing with ⟨before, action, after, middle, next, _, reached, heard, taken, rest⟩
        have consistent : middle.Consistent :=
          runFrom_invariant (fun _ _ _ holds taken => step_consistent holds taken) reached
            reset_consistent
        rcases prompt_of_heard consistent heard taken with ⟨registered, prompt⟩
        exact (prompt_of_registered registered prompt rest).wakeupAssured waiting

/-- A boot during which the first frame arrives right after `canStart`; the worker
registers, announces the device and blocks. -/
def earlyFrameBoot (frame : CanRxFrame) : List ReceiveAction :=
  [.mainStep, .frameArrives frame, .mainStep, .mainStep, .mainStep, .mainStep, .workerStep,
    .workerStep, .workerStep, .workerStep]

/-- The frame sits in the FIFO, the worker is blocked, no event is pending and the
interrupt is masked. -/
theorem earlyFrame_stranded :
    ∃ path, runFrom step reset (earlyFrameBoot unrelatedFrame) = some path ∧
      path.worker = .blocked ∧ path.fifo ≠ [] ∧
      ¬ (path.pending = true ∨ path.interruptEnabled = true) :=
  ⟨_, rfl, rfl, by decide, by decide⟩

/-- The end of the announcement makes up for the early frame: the handler runs again and
wakes the worker. -/
theorem earlyFrame_assured_iff :
    (∃ path, runFrom step reset (earlyFrameBoot unrelatedFrame) = some path ∧ path.Waiting ∧
      (path.WakeupAssured ↔
        Guarded step ArrivesToListener reset (earlyFrameBoot unrelatedFrame) ∨
          ¬ Guarded step Unheard reset (earlyFrameBoot unrelatedFrame))) ∧
    ∃ path, runFrom step reset (earlyFrameBoot unrelatedFrame ++ [.canInterrupt]) = some path ∧
      path.Waiting ∧ path.fifo ≠ [] ∧ path.WakeupAssured := by
  refine ⟨⟨_, rfl, Or.inl rfl, wakeup_assured_iff rfl (Or.inl rfl)⟩, ?_⟩
  have reached : ∃ path,
      runFrom step reset (earlyFrameBoot unrelatedFrame ++ [.canInterrupt]) = some path ∧
        path.worker = .woken true ∧ path.fifo ≠ [] := ⟨_, rfl, rfl, by decide⟩
  rcases reached with ⟨path, run, woken, filled⟩
  have waiting : path.Waiting := Or.inr ⟨true, woken⟩
  exact ⟨path, run, waiting, filled, (wakeup_assured_iff run waiting).mpr (Or.inr (by decide))⟩

end ReceivePath

end Can
end AnalogX

import AnalogX.Foundations.Runs
import AnalogX.Kernel.Queues

namespace AnalogX
namespace Hal

open Foundations Kernel

/-!
# The serial port between its threads and its interrupt

The port has one queue for each direction.  Every thread of the firmware may write to the
console, one byte at a time, and a thread may read from it; the interrupt handler of the
USART fills the input queue and drains the output queue.  Handler and threads meet in any
order, because a thread holds the kernel lock only for one look at a queue.

The steps below are the handler and the two kinds of thread calls.  A call which has to
wait is resumed when the handler side has woken it.  The port keeps a record of what went
through it: the bytes the handler accepted or dropped, what the calls returned, and the
bytes that reached the data register.
-/

/-- The event flags of the driver. -/
inductive ChannelFlag where
  | inputAvailable
  | outputEmpty
  | transmissionEnd
  | parityError
  | framingError
  | overrunError
  | noiseError
  | breakDetected
  deriving DecidableEq

/-- What the handler finds in the status register; the received byte stands for the
flag `RXNE` and the data register. -/
structure UsartStatus where
  ore : Bool
  pe : Bool
  fe : Bool
  ne : Bool
  lbdf : Bool
  rxne : Option UInt8
  txe : Bool
  tc : Bool

/-- `SERIAL_BUFFERS_SIZE`. -/
def serialBuffersSize : Nat := 16

/-- The driver of one port, its interrupt enable bits, and the record of its traffic. -/
structure SerialPort (Thread : Type*) where
  iqueue : IoQueue Thread
  oqueue : IoQueue (Thread × UInt8)
  txeie : Bool
  tcie : Bool
  flags : List ChannelFlag
  accepted : List UInt8
  dropped : List UInt8
  delivered : List (Thread × UInt8)
  written : List (Thread × UInt8)
  transmitted : List UInt8

namespace SerialPort

variable {Thread : Type*}

/-- `sdObjectInit` and `sdStart`. -/
def sdStart (ib ob : Nat → UInt8) : SerialPort Thread where
  iqueue := IoQueue.chIQObjectInit ib serialBuffersSize
  oqueue := IoQueue.chOQObjectInit ob serialBuffersSize
  txeie := false
  tcie := false
  flags := []
  accepted := []
  dropped := []
  delivered := []
  written := []
  transmitted := []

/-- `chnAddFlagsI`. -/
def chnAddFlagsI (port : SerialPort Thread) (flags : List ChannelFlag) : SerialPort Thread :=
  { port with flags := port.flags ++ flags }

/-! ## The interrupt handler -/

/-- `set_error`. -/
def setError (status : UsartStatus) : List ChannelFlag :=
  (if status.ore then [.overrunError] else []) ++ (if status.pe then [.parityError] else []) ++
    (if status.fe then [.framingError] else []) ++ (if status.ne then [.noiseError] else [])

/-- `sdIncomingDataI`. -/
def sdIncomingDataI (port : SerialPort Thread) (b : UInt8) : SerialPort Thread :=
  let port := if port.iqueue.chIQIsEmptyI then port.chnAddFlagsI [.inputAvailable] else port
  match port.iqueue.chIQPutI b with
  | (.ok, iqueue) => { port with iqueue := iqueue, accepted := port.accepted ++ [b] }
  | (_, iqueue) =>
      { port with
        iqueue := iqueue
        flags := port.flags ++ [.overrunError]
        dropped := port.dropped ++ [b] }

/-- The part of the handler for an empty transmission register. -/
def serveTxe (port : SerialPort Thread) : SerialPort Thread :=
  match port.oqueue.chOQGetI with
  | (.ok b, oqueue) => { port with oqueue := oqueue, transmitted := port.transmitted ++ [b] }
  | (.error _, oqueue) =>
      { port with
        oqueue := oqueue
        flags := port.flags ++ [.outputEmpty]
        txeie := false
        tcie := true }

/-- The part of the handler for the end of the transmission.  It writes back the control
register as it was when the handler was entered. -/
def serveTc (port : SerialPort Thread) (txeie : Bool) : SerialPort Thread :=
  let port := if port.oqueue.chOQIsEmptyI then port.chnAddFlagsI [.transmissionEnd] else port
  { port with txeie := txeie, tcie := false }

/-- The head of `serve_interrupt`: errors and a break. -/
def serveErrors (port : SerialPort Thread) (status : UsartStatus) : SerialPort Thread :=
  let port :=
    if status.ore || status.ne || status.fe || status.pe then port.chnAddFlagsI (setError status)
    else port
  if status.lbdf then port.chnAddFlagsI [.breakDetected] else port

/-- The first half of `serve_interrupt`, up to the received data. -/
def serveReception (port : SerialPort Thread) (status : UsartStatus) : SerialPort Thread :=
  match status.rxne with
  | some b => (port.serveErrors status).sdIncomingDataI b
  | none => port.serveErrors status

/-- The second half of `serve_interrupt`, with the control register read at its entry. -/
def serveTransmission (port : SerialPort Thread) (txeie : Bool) (status : UsartStatus) :
    SerialPort Thread :=
  let port := if txeie && status.txe then port.serveTxe else port
  if status.tc then port.serveTc txeie else port

/-- `serve_interrupt`. -/
def serveInterrupt (port : SerialPort Thread) (status : UsartStatus) : SerialPort Thread :=
  (port.serveReception status).serveTransmission port.txeie status

/-! ## The calls of the threads -/

/-- One look of `sdGet` at the input queue. -/
def sdGet (port : SerialPort Thread) (thread : Thread) : SerialPort Thread :=
  match port.iqueue.chIQGetTimeout thread timeInfinite with
  | (.returned (.ok b), iqueue) =>
      { port with iqueue := iqueue, delivered := port.delivered ++ [(thread, b)] }
  | (_, iqueue) => { port with iqueue := iqueue }

/-- One look of the stream method `put` at the output queue.  A byte that was stored
enables the transmission interrupt, which is the notification of the driver. -/
def put (port : SerialPort Thread) (thread : Thread) (b : UInt8) : SerialPort Thread :=
  match port.oqueue.chOQPutTimeout (thread, b) b timeInfinite with
  | (.returned (.ok _), oqueue) =>
      { port with oqueue := oqueue, txeie := true, written := port.written ++ [(thread, b)] }
  | (_, oqueue) => { port with oqueue := oqueue }

/-- The thread is not inside a call. -/
def Outside (port : SerialPort Thread) (thread : Thread) : Prop :=
  thread ∉ port.iqueue.waiting ∧ thread ∉ port.iqueue.woken ∧
    thread ∉ port.oqueue.waiting.map Prod.fst ∧ thread ∉ port.oqueue.woken.map Prod.fst

instance [DecidableEq Thread] (port : SerialPort Thread) (thread : Thread) :
    Decidable (port.Outside thread) :=
  inferInstanceAs (Decidable (_ ∧ _ ∧ _ ∧ _))

/-- The handler, a new call, or a woken call that runs again. -/
inductive Action (Thread : Type*) where
  | interrupt (status : UsartStatus)
  | get (thread : Thread)
  | resumeGet (thread : Thread)
  | put (thread : Thread) (b : UInt8)
  | resumePut (thread : Thread) (b : UInt8)

def step [DecidableEq Thread] (port : SerialPort Thread) : Action Thread → Option (SerialPort Thread)
  | .interrupt status => some (port.serveInterrupt status)
  | .get thread => if port.Outside thread then some (port.sdGet thread) else none
  | .resumeGet thread =>
      if thread ∈ port.iqueue.woken then
        some (sdGet
          { port with iqueue := { port.iqueue with woken := port.iqueue.woken.erase thread } }
          thread)
      else
        none
  | .put thread b => if port.Outside thread then some (port.put thread b) else none
  | .resumePut thread b =>
      if (thread, b) ∈ port.oqueue.woken then
        some (put
          { port with oqueue := { port.oqueue with woken := port.oqueue.woken.erase (thread, b) } }
          thread b)
      else
        none

/-! ## The receiving side -/

/-- The input queue holds the bytes which were accepted and not delivered yet. -/
structure Receives (port : SerialPort Thread) (unread : List UInt8) : Prop where
  holds : port.iqueue.InputHolds unread
  size : port.iqueue.top = serialBuffersSize
  lossless : port.accepted = port.delivered.map Prod.snd ++ unread
  attended : port.iqueue.waiters.Attended

variable {port next : SerialPort Thread} {unread unsent : List UInt8}

theorem Receives.frame (receives : port.Receives unread) (iqueue : next.iqueue = port.iqueue)
    (accepted : next.accepted = port.accepted) (delivered : next.delivered = port.delivered) :
    next.Receives unread where
  holds := by
    rw [iqueue]
    exact receives.holds
  size := by
    rw [iqueue]
    exact receives.size
  lossless := by
    rw [accepted, delivered]
    exact receives.lossless
  attended := by
    rw [iqueue]
    exact receives.attended

theorem sdIncomingDataI_receives (receives : port.Receives unread) (b : UInt8) :
    ∃ unread, (port.sdIncomingDataI b).Receives unread := by
  unfold sdIncomingDataI
  generalize flagged : (if port.iqueue.chIQIsEmptyI then _ else port) = informed
  have same : informed.iqueue = port.iqueue ∧ informed.accepted = port.accepted ∧
      informed.delivered = port.delivered := by
    rw [← flagged]
    split <;> exact ⟨rfl, rfl, rfl⟩
  have informedReceives := receives.frame same.1 same.2.1 same.2.2
  rcases IoQueue.chIQPutI_spec informedReceives.holds b with ⟨-, result⟩ |
    ⟨-, ok, holds, top, released⟩
  · simp only [result]
    exact ⟨unread, informedReceives.frame rfl rfl rfl⟩
  · generalize result : informed.iqueue.chIQPutI b = outcome at ok holds top released
    obtain ⟨msg, iqueue⟩ := outcome
    cases ok
    simp only [result]
    refine ⟨unread ++ [b], holds, top.trans informedReceives.size, ?_, ?_⟩
    · show informed.accepted ++ [b] = informed.delivered.map Prod.snd ++ (unread ++ [b])
      rw [informedReceives.lossless, List.append_assoc]
    · show iqueue.waiters.Attended
      rw [show iqueue.waiters = _ from released]
      exact informedReceives.attended.release

/-- A look at the input queue, whether or not it is the first one of a call. -/
theorem sdGet_receives (thread : Thread) (holds : port.iqueue.InputHolds unread)
    (size : port.iqueue.top = serialBuffersSize)
    (lossless : port.accepted = port.delivered.map Prod.snd ++ unread)
    (attended : (port.iqueue.waiters.acquire thread).Attended) :
    ∃ unread, (port.sdGet thread).Receives unread := by
  obtain ⟨acquired, top, outcome⟩ := IoQueue.chIQGetTimeout_spec holds thread
  unfold sdGet
  generalize port.iqueue.chIQGetTimeout thread timeInfinite = result at acquired top outcome
  obtain ⟨attempt, iqueue⟩ := result
  rw [← show iqueue.waiters = _ from acquired] at attended
  rcases outcome with ⟨rfl, waits, kept⟩ | ⟨b, rest, rfl, returned, kept⟩
  · cases waits
    exact ⟨[], kept, top.trans size, lossless, attended⟩
  · cases returned
    refine ⟨rest, kept, top.trans size, ?_, attended⟩
    show port.accepted = (port.delivered ++ [(thread, b)]).map Prod.snd ++ rest
    rw [lossless, List.map_append, List.append_assoc]
    rfl

/-! ## The sending side -/

/-- The output queue holds the bytes which were written and not transmitted yet, and
while there are any the transmission interrupt is enabled. -/
structure Sends (port : SerialPort Thread) (unsent : List UInt8) : Prop where
  holds : port.oqueue.OutputHolds unsent
  size : port.oqueue.top = serialBuffersSize
  lossless : port.written.map Prod.snd = port.transmitted ++ unsent
  attended : port.oqueue.waiters.Attended
  enabled : unsent ≠ [] → port.txeie = true

theorem Sends.frame (sends : port.Sends unsent) (oqueue : next.oqueue = port.oqueue)
    (written : next.written = port.written) (transmitted : next.transmitted = port.transmitted)
    (enabled : unsent ≠ [] → next.txeie = true) : next.Sends unsent where
  holds := by
    rw [oqueue]
    exact sends.holds
  size := by
    rw [oqueue]
    exact sends.size
  lossless := by
    rw [written, transmitted]
    exact sends.lossless
  attended := by
    rw [oqueue]
    exact sends.attended
  enabled := enabled

/-- The handler disables its own interrupt only when it found the queue empty. -/
theorem serveTxe_sends (sends : port.Sends unsent) :
    ∃ left, (left ≠ [] → unsent ≠ []) ∧ port.serveTxe.Sends left := by
  unfold serveTxe
  rcases IoQueue.chOQGetI_spec sends.holds with ⟨rfl, result⟩ |
    ⟨b, rest, rfl, ok, holds, top, released⟩
  · simp only [result]
    refine ⟨[], id, sends.frame rfl rfl rfl ?_⟩
    exact fun some => absurd rfl some
  · generalize result : port.oqueue.chOQGetI = outcome at ok holds top released
    obtain ⟨msg, oqueue⟩ := outcome
    cases ok
    refine ⟨rest, fun _ => List.cons_ne_nil b rest, holds, top.trans sends.size, ?_, ?_, ?_⟩
    · show port.written.map Prod.snd = port.transmitted ++ [b] ++ rest
      rw [sends.lossless, List.append_assoc]
      rfl
    · show oqueue.waiters.Attended
      rw [show oqueue.waiters = _ from released]
      exact sends.attended.release
    · intro _
      exact sends.enabled (List.cons_ne_nil b rest)

theorem serveTc_sends (sends : port.Sends unsent) {txeie : Bool}
    (enabled : unsent ≠ [] → txeie = true) : (port.serveTc txeie).Sends unsent := by
  unfold serveTc
  split <;> exact sends.frame rfl rfl rfl enabled

/-- A look at the output queue, whether or not it is the first one of a call. -/
theorem put_sends (thread : Thread) (b : UInt8) (holds : port.oqueue.OutputHolds unsent)
    (size : port.oqueue.top = serialBuffersSize)
    (lossless : port.written.map Prod.snd = port.transmitted ++ unsent)
    (enabled : unsent ≠ [] → port.txeie = true)
    (attended : (port.oqueue.waiters.acquire (thread, b)).Attended) :
    ∃ unsent, (port.put thread b).Sends unsent := by
  obtain ⟨acquired, top, outcome⟩ := IoQueue.chOQPutTimeout_spec holds (thread, b) b
  unfold put
  generalize port.oqueue.chOQPutTimeout (thread, b) b timeInfinite = result
    at acquired top outcome
  obtain ⟨attempt, oqueue⟩ := result
  rw [← show oqueue.waiters = _ from acquired] at attended
  rcases outcome with ⟨-, waits, kept⟩ | ⟨-, returned, kept⟩
  · cases waits
    exact ⟨unsent, kept, top.trans size, lossless, attended, enabled⟩
  · cases returned
    refine ⟨unsent ++ [b], kept, top.trans size, ?_, attended, fun _ => rfl⟩
    show (port.written ++ [(thread, b)]).map Prod.snd = port.transmitted ++ (unsent ++ [b])
    rw [List.map_append, lossless, List.append_assoc]
    rfl

/-! ## The handler as a whole -/

/-- The handler up to the transmission register touches neither the output queue nor its
interrupt. -/
theorem sdIncomingDataI_frame (port : SerialPort Thread) (b : UInt8) :
    (port.sdIncomingDataI b).oqueue = port.oqueue ∧
      (port.sdIncomingDataI b).written = port.written ∧
      (port.sdIncomingDataI b).transmitted = port.transmitted ∧
      (port.sdIncomingDataI b).txeie = port.txeie := by
  unfold sdIncomingDataI chnAddFlagsI
  split <;> dsimp only <;> split <;> exact ⟨rfl, rfl, rfl, rfl⟩

theorem serveTxe_frame (port : SerialPort Thread) :
    port.serveTxe.iqueue = port.iqueue ∧ port.serveTxe.accepted = port.accepted ∧
      port.serveTxe.delivered = port.delivered := by
  unfold serveTxe
  split <;> exact ⟨rfl, rfl, rfl⟩

theorem serveTc_frame (port : SerialPort Thread) (txeie : Bool) :
    (port.serveTc txeie).iqueue = port.iqueue ∧
      (port.serveTc txeie).accepted = port.accepted ∧
      (port.serveTc txeie).delivered = port.delivered := by
  unfold serveTc chnAddFlagsI
  split <;> exact ⟨rfl, rfl, rfl⟩

theorem serveErrors_eq (port : SerialPort Thread) (status : UsartStatus) :
    ∃ flags, port.serveErrors status = { port with flags := flags } := by
  unfold serveErrors chnAddFlagsI
  split <;> dsimp only <;> split <;> exact ⟨_, rfl⟩

theorem serveReception_frame (port : SerialPort Thread) (status : UsartStatus) :
    (port.serveReception status).oqueue = port.oqueue ∧
      (port.serveReception status).written = port.written ∧
      (port.serveReception status).transmitted = port.transmitted ∧
      (port.serveReception status).txeie = port.txeie := by
  obtain ⟨flags, same⟩ := serveErrors_eq port status
  unfold serveReception
  rw [same]
  cases status.rxne with
  | none => exact ⟨rfl, rfl, rfl, rfl⟩
  | some b => exact sdIncomingDataI_frame { port with flags := flags } b

theorem serveReception_receives (receives : port.Receives unread) (status : UsartStatus) :
    ∃ unread, (port.serveReception status).Receives unread := by
  obtain ⟨flags, same⟩ := serveErrors_eq port status
  have kept : Receives { port with flags := flags } unread := receives.frame rfl rfl rfl
  unfold serveReception
  rw [same]
  cases status.rxne with
  | none => exact ⟨unread, kept⟩
  | some b => exact sdIncomingDataI_receives kept b

theorem serveTransmission_receives (receives : port.Receives unread) (txeie : Bool)
    (status : UsartStatus) : (port.serveTransmission txeie status).Receives unread := by
  unfold serveTransmission
  have kept : (if txeie && status.txe then port.serveTxe else port).Receives unread := by
    split
    · obtain ⟨iqueue, accepted, delivered⟩ := serveTxe_frame port
      exact receives.frame iqueue accepted delivered
    · exact receives
  dsimp only
  split
  · obtain ⟨iqueue, accepted, delivered⟩ := serveTc_frame
      (if txeie && status.txe then port.serveTxe else port) txeie
    exact kept.frame iqueue accepted delivered
  · exact kept

theorem serveTransmission_sends (sends : port.Sends unsent) (status : UsartStatus) :
    ∃ unsent, (port.serveTransmission port.txeie status).Sends unsent := by
  unfold serveTransmission
  obtain ⟨left, fewer, kept⟩ : ∃ left, (left ≠ [] → unsent ≠ []) ∧
      (if port.txeie && status.txe then port.serveTxe else port).Sends left := by
    split
    · exact serveTxe_sends sends
    · exact ⟨unsent, id, sends⟩
  dsimp only
  split
  · exact ⟨left, serveTc_sends kept fun some => sends.enabled (fewer some)⟩
  · exact ⟨left, kept⟩

/-! ## Whole runs -/

/-- Both directions are in order. -/
def InOrder (port : SerialPort Thread) : Prop :=
  (∃ unread, port.Receives unread) ∧ ∃ unsent, port.Sends unsent

theorem inOrder_sdStart (ib ob : Nat → UInt8) : (sdStart ib ob : SerialPort Thread).InOrder := by
  have size : (0 : Nat) < serialBuffersSize := by decide
  refine ⟨⟨[], ⟨RingHolds.nil ib size, rfl⟩, rfl, rfl, ?_⟩,
    ⟨[], ⟨RingHolds.nil ob size, rfl⟩, rfl, rfl, ?_, ?_⟩⟩
  · exact fun waiting => absurd rfl waiting
  · exact fun waiting => absurd rfl waiting
  · exact fun unsent => absurd rfl unsent

theorem sdGet_frame (port : SerialPort Thread) (thread : Thread) :
    (port.sdGet thread).oqueue = port.oqueue ∧ (port.sdGet thread).written = port.written ∧
      (port.sdGet thread).transmitted = port.transmitted ∧
      (port.sdGet thread).txeie = port.txeie := by
  unfold sdGet
  split <;> exact ⟨rfl, rfl, rfl, rfl⟩

theorem put_frame (port : SerialPort Thread) (thread : Thread) (b : UInt8) :
    (port.put thread b).iqueue = port.iqueue ∧ (port.put thread b).accepted = port.accepted ∧
      (port.put thread b).delivered = port.delivered := by
  unfold put
  split <;> exact ⟨rfl, rfl, rfl⟩

/-- The handler accepts or drops a byte as the input queue says. -/
theorem sdIncomingDataI_full (port : SerialPort Thread) (b : UInt8) :
    (port.sdIncomingDataI b).accepted =
        port.accepted ++ (if (port.iqueue.chIQPutI b).1 = .full then [] else [b]) ∧
      (port.sdIncomingDataI b).dropped =
        port.dropped ++ (if (port.iqueue.chIQPutI b).1 = .full then [b] else []) := by
  unfold sdIncomingDataI chnAddFlagsI IoQueue.chIQPutI
  by_cases full : port.iqueue.chIQIsFullI = true
  · by_cases empty : port.iqueue.chIQIsEmptyI = true <;> simp [full, empty]
  · by_cases empty : port.iqueue.chIQIsEmptyI = true <;> simp [full, empty]

variable [DecidableEq Thread]

theorem step_inOrder {action : Action Thread} (inOrder : port.InOrder)
    (taken : port.step action = some next) : next.InOrder := by
  obtain ⟨⟨unread, receives⟩, ⟨unsent, sends⟩⟩ := inOrder
  cases action with
  | interrupt status =>
      cases taken
      obtain ⟨oqueue, written, transmitted, txeie⟩ := serveReception_frame port status
      obtain ⟨unread, received⟩ := serveReception_receives receives status
      have pending : (port.serveReception status).Sends unsent := by
        refine sends.frame oqueue written transmitted ?_
        rw [txeie]
        exact sends.enabled
      refine ⟨⟨unread, serveTransmission_receives received port.txeie status⟩, ?_⟩
      unfold serveInterrupt
      rw [← txeie]
      exact serveTransmission_sends pending status
  | get thread =>
      simp only [step] at taken
      split at taken <;> cases taken
      obtain ⟨oqueue, written, transmitted, txeie⟩ := sdGet_frame port thread
      refine ⟨?_, unsent, sends.frame oqueue written transmitted ?_⟩
      · exact sdGet_receives thread receives.holds receives.size receives.lossless
          (receives.attended.acquire thread)
      · rw [txeie]
        exact sends.enabled
  | resumeGet thread =>
      simp only [step] at taken
      split at taken
      case isFalse => cases taken
      case isTrue woken =>
        cases taken
        obtain ⟨oqueue, written, transmitted, txeie⟩ := sdGet_frame
          { port with iqueue := { port.iqueue with woken := port.iqueue.woken.erase thread } } thread
        refine ⟨?_, unsent, sends.frame oqueue written transmitted ?_⟩
        · exact sdGet_receives thread ⟨receives.holds.stores, receives.holds.counter⟩
            receives.size receives.lossless (receives.attended.resume woken)
        · rw [txeie]
          exact sends.enabled
  | put thread b =>
      simp only [step] at taken
      split at taken <;> cases taken
      obtain ⟨iqueue, accepted, delivered⟩ := put_frame port thread b
      refine ⟨⟨unread, receives.frame iqueue accepted delivered⟩, ?_⟩
      exact put_sends thread b sends.holds sends.size sends.lossless sends.enabled
        (sends.attended.acquire (thread, b))
  | resumePut thread b =>
      simp only [step] at taken
      split at taken
      case isFalse => cases taken
      case isTrue woken =>
        cases taken
        obtain ⟨iqueue, accepted, delivered⟩ := put_frame
          { port with
            oqueue := { port.oqueue with woken := port.oqueue.woken.erase (thread, b) } } thread b
        refine ⟨⟨unread, receives.frame iqueue accepted delivered⟩, ?_⟩
        exact put_sends thread b ⟨sends.holds.stores, sends.holds.counter⟩ sends.size
          sends.lossless sends.enabled (sends.attended.resume woken)

theorem run_inOrder {ib ob : Nat → UInt8} {actions : List (Action Thread)}
    (run : runFrom step (sdStart ib ob) actions = some port) : port.InOrder :=
  runFrom_invariant (fun _ _ _ inOrder taken => step_inOrder inOrder taken) run
    (inOrder_sdStart ib ob)

/-- What the threads read from the port is what the handler accepted, in order and without
loss or repetition.  The handler drops a byte exactly if sixteen are unread, and as long as
threads are waiting every unread byte has a woken thread that will look for it. -/
theorem delivered_in_order {ib ob : Nat → UInt8} {actions : List (Action Thread)}
    (run : runFrom step (sdStart ib ob) actions = some port) :
    ∃ unread, port.accepted = port.delivered.map Prod.snd ++ unread ∧
      (∀ b, (port.iqueue.chIQPutI b).1 = .full ↔ unread.length = 16) ∧
      (∀ b, (port.sdIncomingDataI b).accepted =
          port.accepted ++ (if unread.length = 16 then [] else [b]) ∧
        (port.sdIncomingDataI b).dropped =
          port.dropped ++ (if unread.length = 16 then [b] else [])) ∧
      (port.iqueue.waiting ≠ [] → unread.length ≤ port.iqueue.woken.length) := by
  obtain ⟨⟨unread, receives⟩, -⟩ := run_inOrder run
  have size := receives.size
  have refused : ∀ b, (port.iqueue.chIQPutI b).1 = .full ↔ unread.length = 16 := by
    intro b
    rcases IoQueue.chIQPutI_spec receives.holds b with ⟨full, result⟩ | ⟨room, ok, -⟩
    · rw [result]
      exact iff_of_true rfl (full.trans size)
    · rw [ok]
      rw [size] at room
      exact iff_of_false (by decide) (Nat.ne_of_lt room)
  refine ⟨unread, receives.lossless, refused, ?_, ?_⟩
  · intro b
    have outcome := port.sdIncomingDataI_full b
    simp only [refused b] at outcome
    exact outcome
  · intro waiting
    rw [← receives.holds.counter]
    exact receives.attended waiting

/-- Seventeen bytes arrive while the reader does not run: the last one is dropped, and two
readers then find the first two. -/
theorem delivered_in_order_overrun :
    let receive (b : UInt8) : Action Bool :=
      .interrupt ⟨false, false, false, false, false, some b, false, false⟩
    let actions := [.get true] ++ (List.range 17).map (fun i => receive (UInt8.ofNat i)) ++
      [.resumeGet true, .get false]
    ∃ port : SerialPort Bool,
      runFrom step (sdStart (fun _ => 0) (fun _ => 0)) actions = some port ∧
        port.dropped = [16] ∧ port.delivered = [(true, 0), (false, 1)] ∧
        ∃ unread, port.accepted = [0, 1] ++ unread ∧ unread.length ≠ 16 := by
  intro receive actions
  have completed : (runFrom step (sdStart (fun _ => 0) (fun _ => 0)) actions).isSome = true := by
    decide
  obtain ⟨port, run⟩ := Option.isSome_iff_exists.mp completed
  have found : ((runFrom step (sdStart (fun _ => 0) (fun _ => 0)) actions).map
      fun port => (port.dropped, port.delivered, (port.iqueue.chIQPutI 0).1)) =
        some ([16], [(true, 0), (false, 1)], .ok) := by decide
  rw [run] at found
  simp only [Option.map_some, Option.some.injEq, Prod.mk.injEq] at found
  obtain ⟨dropped, delivered, room⟩ := found
  obtain ⟨unread, lossless, full, -, -⟩ := delivered_in_order run
  refine ⟨port, run, dropped, delivered, unread, ?_, ?_⟩
  · rw [lossless, delivered]
    rfl
  · intro sixteen
    rw [(full 0).mpr sixteen] at room
    cases room

/-- What reaches the wire is what the threads wrote, in the order of their writes and
without loss or repetition.  While bytes are unsent the transmission interrupt is enabled,
and as long as threads are waiting every free cell has a woken thread that will look for
it. -/
theorem transmitted_in_order {ib ob : Nat → UInt8} {actions : List (Action Thread)}
    (run : runFrom step (sdStart ib ob) actions = some port) :
    ∃ unsent, port.written.map Prod.snd = port.transmitted ++ unsent ∧ unsent.length ≤ 16 ∧
      (unsent ≠ [] → port.txeie = true) ∧
      (port.oqueue.waiting ≠ [] → 16 ≤ unsent.length + port.oqueue.woken.length) := by
  obtain ⟨-, ⟨unsent, sends⟩⟩ := run_inOrder run
  have size : port.oqueue.top = 16 := sends.size
  have counted := sends.holds.counter
  refine ⟨unsent, sends.lossless, by omega, sends.enabled, ?_⟩
  intro waiting
  have units : port.oqueue.counter ≤ port.oqueue.woken.length := sends.attended waiting
  omega

/-- Eighteen bytes from two threads, the last two of which wait for the handler to make
room. -/
theorem transmitted_in_order_waiting :
    let transmit : Action Bool := .interrupt ⟨false, false, false, false, false, none, true, false⟩
    let actions := (List.range 16).map (fun i => .put (i % 2 == 0) (UInt8.ofNat i)) ++
      [.put true 16, .put false 17, transmit, .resumePut true 16]
    ∃ port : SerialPort Bool,
      runFrom step (sdStart (fun _ => 0) (fun _ => 0)) actions = some port ∧
        port.transmitted = [0] ∧ port.oqueue.waiting = [(false, 17)] ∧
        ∃ unsent, port.written.map Prod.snd = 0 :: unsent ∧ unsent.length ≤ 16 ∧
          16 ≤ unsent.length := by
  intro transmit actions
  have completed : (runFrom step (sdStart (fun _ => 0) (fun _ => 0)) actions).isSome = true := by
    decide
  obtain ⟨port, run⟩ := Option.isSome_iff_exists.mp completed
  have found : ((runFrom step (sdStart (fun _ => 0) (fun _ => 0)) actions).map
      fun port => (port.transmitted, port.oqueue.waiting, port.oqueue.woken)) =
        some ([0], [(false, 17)], []) := by decide
  rw [run] at found
  simp only [Option.map_some, Option.some.injEq, Prod.mk.injEq] at found
  obtain ⟨transmitted, waiting, woken⟩ := found
  obtain ⟨unsent, lossless, bounded, -, attended⟩ := transmitted_in_order run
  have full := attended (by rw [waiting]; exact List.cons_ne_nil _ _)
  rw [woken] at full
  refine ⟨port, run, transmitted, waiting, unsent, ?_, bounded, full⟩
  rw [lossless, transmitted]
  rfl

end SerialPort

end Hal
end AnalogX

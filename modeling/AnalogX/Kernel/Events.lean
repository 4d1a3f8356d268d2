import AnalogX.Foundations.Registers
import AnalogX.Foundations.Runs
import Mathlib.Data.Nat.Find
import Mathlib.Logic.Function.Basic

namespace AnalogX
namespace Kernel

open Foundations

/-!
# Events

A thread has a mask of pending events.  Sources broadcast to the listeners registered on
them, and each listener signals its own events to its thread; a thread may also be
signalled directly.  A thread waits for one, any or all of a mask of events, with or without
a time limit, and takes the events it waited for out of its pending ones.

Two things can go wrong in such a scheme.  A thread may block, or stay blocked, although
its events are pending; and an event may be lost between a signal and the thread, or be
returned more often than it was signalled.  Every signal and every return is kept in a
history, which no operation looks at.
-/

/-- `event_listener_t`. -/
structure EventListener (Thread : Type*) where
  listener : Thread
  events : BitVec 32
  flags : BitVec 32
  wflags : BitVec 32

/-- `chEvtWaitOneTimeout`, `chEvtWaitAnyTimeout` and `chEvtWaitAllTimeout`. -/
inductive WaitKind where
  | one
  | any
  | all
  deriving DecidableEq

/-- Where a thread stands with respect to these functions.  A blocked thread is readied by a
signal or by its time limit. -/
inductive WaitState where
  | running
  | blocked (kind : WaitKind) (ewmask : BitVec 32)
  | readied (kind : WaitKind) (ewmask : BitVec 32) (signalled : Bool)
  deriving DecidableEq

/-- An entry of the history of a thread: events signalled to it, or events returned to it out of
a mask, with the kind of the wait if the call could wait. -/
inductive EventNote where
  | signalled (events : BitVec 32)
  | returned (kind : Option WaitKind) (mask events : BitVec 32)

/-- The events of the kernel.  A listener is linked in at most one list, and `source` tells in
which. -/
structure EventSystem (Thread Source Listener : Type*) where
  esNext : Source → List Listener
  source : Listener → Option Source
  listeners : Listener → EventListener Thread
  epending : Thread → BitVec 32
  wait : Thread → WaitState
  history : List (Thread × EventNote)

/-- The condition on which a wait ends. -/
def Satisfied (kind : WaitKind) (ewmask pending : BitVec 32) : Prop :=
  match kind with
  | .one | .any => pending &&& ewmask ≠ 0
  | .all => pending &&& ewmask = ewmask

instance (kind : WaitKind) (ewmask pending : BitVec 32) :
    Decidable (Satisfied kind ewmask pending) :=
  match kind with
  | .one => inferInstanceAs (Decidable (_ ≠ _))
  | .any => inferInstanceAs (Decidable (_ ≠ _))
  | .all => inferInstanceAs (Decidable (_ = _))

/-- The test of a signal on the state of its thread. -/
def WaitState.signal (pending : BitVec 32) : WaitState → WaitState
  | .blocked kind ewmask =>
      if Satisfied kind ewmask pending then .readied kind ewmask true else .blocked kind ewmask
  | state => state

/-- What a wait returns: the lowest of the awaited events that are pending, all of them, or
the awaited events. -/
def awaited (kind : WaitKind) (ewmask pending : BitVec 32) : BitVec 32 :=
  let m := pending &&& ewmask
  match kind with
  | .one => m ^^^ (m &&& (m - 1))
  | .any => m
  | .all => ewmask

/-- A listener hears a broadcast without flags, and one with flags if it has one of its own
flags then. -/
def EventListener.Hears {Thread : Type*} (listener : EventListener Thread)
    (flags : BitVec 32) : Prop :=
  flags = 0 ∨ (listener.flags ||| flags) &&& listener.wflags ≠ 0

instance {Thread : Type*} (listener : EventListener Thread) (flags : BitVec 32) :
    Decidable (listener.Hears flags) :=
  inferInstanceAs (Decidable (_ ∨ _))

/-- The signal of a listener to its thread. -/
def EventListener.note {Thread : Type*} (listener : EventListener Thread) : Thread × EventNote :=
  (listener.listener, .signalled listener.events)

/-! ## What a wait returns -/

/-- A mask is not empty when it has an event. -/
theorem mask_ne_zero_iff (m : BitVec 32) : m ≠ 0 ↔ ∃ event, m.getLsbD event = true := by
  constructor
  · intro filled
    by_contra empty
    apply filled
    apply BitVec.eq_of_getLsbD_eq
    intro event _
    simpa using fun set => empty ⟨event, set⟩
  · rintro ⟨event, set⟩ rfl
    simp at set

/-- All events of a mask are pending. -/
theorem and_eq_mask_iff (pending mask : BitVec 32) :
    pending &&& mask = mask ↔
      ∀ event, mask.getLsbD event = true → pending.getLsbD event = true := by
  constructor
  · intro covered event member
    rw [← covered, BitVec.getLsbD_and, Bool.and_eq_true] at member
    exact member.1
  · intro covered
    apply BitVec.eq_of_getLsbD_eq
    intro event _
    rw [BitVec.getLsbD_and]
    cases member : mask.getLsbD event with
    | false => rw [Bool.and_false]
    | true => rw [covered event member, Bool.and_self]

/-- More pending events leave a wait satisfied. -/
theorem Satisfied.or {kind : WaitKind} {ewmask pending : BitVec 32}
    (satisfied : Satisfied kind ewmask pending) (events : BitVec 32) :
    Satisfied kind ewmask (pending ||| events) := by
  have grows : ∀ event, pending.getLsbD event = true →
      (pending ||| events).getLsbD event = true := by
    intro event set
    rw [BitVec.getLsbD_or, set, Bool.true_or]
  have some_event : pending &&& ewmask ≠ 0 → (pending ||| events) &&& ewmask ≠ 0 := by
    simp only [mask_ne_zero_iff, BitVec.getLsbD_and, Bool.and_eq_true]
    rintro ⟨event, set, member⟩
    exact ⟨event, grows event set, member⟩
  cases kind with
  | one => exact some_event satisfied
  | any => exact some_event satisfied
  | all =>
      refine (and_eq_mask_iff _ _).mpr ?_
      intro event member
      exact grows event ((and_eq_mask_iff _ _).mp satisfied event member)

/-- A sleeping thread does not have its events, and a thread readied by a signal has them. -/
def WaitState.Agrees (pending : BitVec 32) : WaitState → Prop
  | .running => True
  | .blocked kind ewmask => ¬ Satisfied kind ewmask pending
  | .readied kind ewmask signalled => signalled = true → Satisfied kind ewmask pending

/-- A signal readies its thread just in time. -/
theorem WaitState.Agrees.signal {pending : BitVec 32} {state : WaitState}
    (agrees : state.Agrees pending) (events : BitVec 32) :
    (state.signal (pending ||| events)).Agrees (pending ||| events) := by
  cases state with
  | running => exact trivial
  | blocked kind ewmask =>
      rw [WaitState.signal]
      split
      · intro _
        assumption
      · assumption
  | readied kind ewmask signalled =>
      intro bySignal
      exact (agrees bySignal).or events

/-- The expression of `chEvtWaitOneTimeout` keeps the events which have no lower one in the
mask. -/
theorem getLsbD_lowest (m : BitVec 32) (event : Nat) :
    (m ^^^ (m &&& (m - 1))).getLsbD event = true ↔
      m.getLsbD event = true ∧ ∀ lower < event, m.getLsbD lower = false := by
  have inverted : m - 1 = ~~~(-m) := (BitVec.not_neg m).symm
  rw [inverted, BitVec.getLsbD_xor, BitVec.getLsbD_and, BitVec.getLsbD_not, BitVec.getLsbD_neg]
  by_cases word : event < 32
  · cases m.getLsbD event <;> simp [word]
  · have outside := BitVec.getLsbD_of_ge m event (Nat.le_of_not_lt word)
    simp [outside]

/-- A mask which is not empty has a lowest event, and the expression is that event. -/
theorem lowest_event {m : BitVec 32} (filled : m ≠ 0) :
    ∃ event < 32, m ^^^ (m &&& (m - 1)) = BitVec.twoPow 32 event ∧ m.getLsbD event = true ∧
      ∀ lower < event, m.getLsbD lower = false := by
  have inhabited := (mask_ne_zero_iff m).mp filled
  have set := Nat.find_spec inhabited
  have least : ∀ lower < Nat.find inhabited, m.getLsbD lower = false := by
    intro lower below
    simpa using Nat.find_min inhabited below
  refine ⟨Nat.find inhabited, BitVec.lt_of_getLsbD set, ?_, set, least⟩
  apply BitVec.eq_of_getLsbD_eq
  intro event word
  rw [BitVec.getLsbD_twoPow, Bool.eq_iff_iff, getLsbD_lowest, Bool.and_eq_true,
    decide_eq_true_iff, decide_eq_true_iff]
  constructor
  · rintro ⟨member, lowest⟩
    refine ⟨BitVec.lt_of_getLsbD set, (Nat.find_eq_iff inhabited).mpr ⟨member, ?_⟩⟩
    intro lower below
    rw [lowest lower below]
    exact Bool.false_ne_true
  · rintro ⟨_, rfl⟩
    exact ⟨set, least⟩

/-- What a call may return out of a mask, given the events which are outstanding.  The call
which waits for one event serves the lowest one. -/
def Returns (outstanding : Nat → Prop) (mask m : BitVec 32) : Option WaitKind → Prop
  | some .one => ∃ event < 32, m = BitVec.twoPow 32 event ∧
      (outstanding event ∧ mask.getLsbD event = true) ∧
      ∀ lower < event, ¬ (outstanding lower ∧ mask.getLsbD lower = true)
  | some .any => m ≠ 0 ∧
      ∀ event, m.getLsbD event = true ↔ outstanding event ∧ mask.getLsbD event = true
  | some .all => m = mask ∧ ∀ event, mask.getLsbD event = true → outstanding event
  | none => ∀ event, m.getLsbD event = true ↔ outstanding event ∧ mask.getLsbD event = true

/-- A satisfied wait returns what it may return. -/
theorem awaited_returns {kind : WaitKind} {mask pending : BitVec 32}
    (satisfied : Satisfied kind mask pending) :
    Returns (fun event => pending.getLsbD event = true) mask (awaited kind mask pending)
      (some kind) := by
  have member : ∀ event, (pending &&& mask).getLsbD event = true ↔
      pending.getLsbD event = true ∧ mask.getLsbD event = true := by
    intro event
    rw [BitVec.getLsbD_and, Bool.and_eq_true]
  cases kind with
  | one =>
      rcases lowest_event satisfied with ⟨event, word, single, set, least⟩
      refine ⟨event, word, single, (member event).mp set, ?_⟩
      intro lower below both
      have absent := least lower below
      rw [(member lower).mpr both] at absent
      cases absent
  | any => exact ⟨satisfied, member⟩
  | all => exact ⟨rfl, (and_eq_mask_iff _ _).mp satisfied⟩

/-! ## Events in the history -/

section History

variable {Thread : Type*} [DecidableEq Thread]

/-- What an entry says about one event of one thread: it becomes outstanding or is returned. -/
def settles (tp : Thread) (event : Nat) : Thread × EventNote → Option Bool
  | (other, .signalled events) =>
      if other = tp ∧ events.getLsbD event = true then some true else none
  | (other, .returned _ _ events) =>
      if other = tp ∧ events.getLsbD event = true then some false else none

/-- An event is outstanding when it has been signalled and not been returned since. -/
def Outstanding (history : List (Thread × EventNote)) (tp : Thread) (event : Nat) : Prop :=
  lastWrite (settles tp event) false history = true

/-- A signal makes its events outstanding. -/
theorem outstanding_signalled (history : List (Thread × EventNote)) (tp other : Thread)
    (events : BitVec 32) (event : Nat) :
    Outstanding (history ++ [(other, .signalled events)]) tp event ↔
      Outstanding history tp event ∨ (other = tp ∧ events.getLsbD event = true) := by
  unfold Outstanding
  rw [lastWrite_append, lastWrite_cons, lastWrite_nil, settles]
  split <;> simp_all

/-- A return settles its events. -/
theorem outstanding_returned (history : List (Thread × EventNote)) (tp other : Thread)
    (kind : Option WaitKind) (mask m : BitVec 32) (event : Nat) :
    Outstanding (history ++ [(other, .returned kind mask m)]) tp event ↔
      Outstanding history tp event ∧ ¬ (other = tp ∧ m.getLsbD event = true) := by
  unfold Outstanding
  rw [lastWrite_append, lastWrite_cons, lastWrite_nil, settles]
  split <;> simp_all

end History

namespace EventSystem

variable {Thread Source Listener : Type*}

section Operations

variable [DecidableEq Thread] [DecidableEq Source] [DecidableEq Listener]

/-- The system before any registration. -/
def init (listeners : Listener → EventListener Thread) :
    EventSystem Thread Source Listener where
  esNext := fun _ => []
  source := fun _ => none
  listeners := listeners
  epending := fun _ => 0
  wait := fun _ => .running
  history := []

/-- `chEvtSignalI`. -/
def chEvtSignalI (system : EventSystem Thread Source Listener) (tp : Thread)
    (events : BitVec 32) : EventSystem Thread Source Listener :=
  let pending := system.epending tp ||| events
  { system with
    epending := Function.update system.epending tp pending
    wait := Function.update system.wait tp ((system.wait tp).signal pending)
    history := system.history ++ [(tp, .signalled events)] }

/-- One iteration of `chEvtBroadcastFlagsI`. -/
def signalListener (flags : BitVec 32) (system : EventSystem Thread Source Listener)
    (elp : Listener) : EventSystem Thread Source Listener :=
  let listener := system.listeners elp
  let raised := listener.flags ||| flags
  let system := { system with
    listeners := Function.update system.listeners elp { listener with flags := raised } }
  if flags = 0 ∨ raised &&& listener.wflags ≠ 0 then
    system.chEvtSignalI listener.listener listener.events
  else system

/-- `chEvtBroadcastFlagsI`. -/
def chEvtBroadcastFlagsI (system : EventSystem Thread Source Listener) (esp : Source)
    (flags : BitVec 32) : EventSystem Thread Source Listener :=
  (system.esNext esp).foldl (signalListener flags) system

/-- `chEvtRegisterMaskWithFlags`. -/
def chEvtRegisterMaskWithFlags (system : EventSystem Thread Source Listener) (esp : Source)
    (elp : Listener) (currp : Thread) (events wflags : BitVec 32) :
    EventSystem Thread Source Listener :=
  { system with
    esNext := Function.update system.esNext esp (elp :: system.esNext esp)
    source := Function.update system.source elp (some esp)
    listeners := Function.update system.listeners elp ⟨currp, events, 0, wflags⟩ }

/-- `chEvtUnregister`. -/
def chEvtUnregister (system : EventSystem Thread Source Listener) (esp : Source)
    (elp : Listener) : EventSystem Thread Source Listener :=
  if elp ∈ system.esNext esp then
    { system with
      esNext := Function.update system.esNext esp ((system.esNext esp).erase elp)
      source := Function.update system.source elp none }
  else system

/-- `chEvtGetAndClearFlags`. -/
def chEvtGetAndClearFlags (system : EventSystem Thread Source Listener) (elp : Listener) :
    BitVec 32 × EventSystem Thread Source Listener :=
  ((system.listeners elp).flags,
    { system with
      listeners :=
        Function.update system.listeners elp { system.listeners elp with flags := 0 } })

/-- Events leave the pending ones and are returned to their thread. -/
def take (system : EventSystem Thread Source Listener) (currp : Thread)
    (kind : Option WaitKind) (mask m : BitVec 32) : EventSystem Thread Source Listener :=
  { system with
    epending := Function.update system.epending currp (system.epending currp &&& ~~~m)
    wait := Function.update system.wait currp .running
    history := system.history ++ [(currp, .returned kind mask m)] }

/-- `chEvtGetAndClearEvents`. -/
def chEvtGetAndClearEvents (system : EventSystem Thread Source Listener) (currp : Thread)
    (events : BitVec 32) : EventSystem Thread Source Listener :=
  let m := system.epending currp &&& events
  { system with
    epending := Function.update system.epending currp (system.epending currp &&& ~~~events)
    history := system.history ++ [(currp, .returned none events m)] }

/-- The beginning of the wait functions, up to the sleep. -/
def chEvtWait (system : EventSystem Thread Source Listener) (currp : Thread) (kind : WaitKind)
    (events : BitVec 32) (immediate : Bool) : EventSystem Thread Source Listener :=
  if Satisfied kind events (system.epending currp) then
    system.take currp (some kind) events (awaited kind events (system.epending currp))
  else if immediate then system
  else { system with wait := Function.update system.wait currp (.blocked kind events) }

/-- The end of the wait functions, after the sleep.  A timeout returns no event. -/
def chEvtWaitEnd (system : EventSystem Thread Source Listener) (currp : Thread)
    (kind : WaitKind) (ewmask : BitVec 32) (signalled : Bool) :
    EventSystem Thread Source Listener :=
  if signalled then
    system.take currp (some kind) ewmask (awaited kind ewmask (system.epending currp))
  else { system with wait := Function.update system.wait currp .running }

/-- The operations of threads and handlers, the time limits, and the return of readied
threads. -/
inductive Action (Thread Source Listener : Type*) where
  | register (esp : Source) (elp : Listener) (currp : Thread) (events wflags : BitVec 32)
  | unregister (esp : Source) (elp : Listener)
  | signal (tp : Thread) (events : BitVec 32)
  | broadcast (esp : Source) (flags : BitVec 32)
  | getAndClearFlags (elp : Listener)
  | getAndClear (currp : Thread) (events : BitVec 32)
  | wait (currp : Thread) (kind : WaitKind) (events : BitVec 32) (immediate : Bool)
  | expire (tp : Thread)
  | resume (tp : Thread)

/-- One operation.  Only running threads call, and they register a listener which is not in
use; `chEvtAddEvents` is a signal of a thread to itself. -/
def step (system : EventSystem Thread Source Listener) :
    Action Thread Source Listener → Option (EventSystem Thread Source Listener)
  | .register esp elp currp events wflags =>
      if system.wait currp = .running ∧ system.source elp = none then
        some (system.chEvtRegisterMaskWithFlags esp elp currp events wflags)
      else none
  | .unregister esp elp => some (system.chEvtUnregister esp elp)
  | .signal tp events => some (system.chEvtSignalI tp events)
  | .broadcast esp flags => some (system.chEvtBroadcastFlagsI esp flags)
  | .getAndClearFlags elp => some (system.chEvtGetAndClearFlags elp).2
  | .getAndClear currp events =>
      if system.wait currp = .running then some (system.chEvtGetAndClearEvents currp events)
      else none
  | .wait currp kind events immediate =>
      if system.wait currp = .running then some (system.chEvtWait currp kind events immediate)
      else none
  | .expire tp =>
      match system.wait tp with
      | .blocked kind ewmask =>
          some { system with wait := Function.update system.wait tp (.readied kind ewmask false) }
      | _ => none
  | .resume tp =>
      match system.wait tp with
      | .readied kind ewmask signalled => some (system.chEvtWaitEnd tp kind ewmask signalled)
      | _ => none

end Operations

/-! ## Threads and their events -/

section Invariant

variable [DecidableEq Thread]

/-- No thread sleeps on events it has, the pending events are the outstanding ones, every
return was one of outstanding events, and the lists of the sources hold the registered
listeners. -/
structure Sound (system : EventSystem Thread Source Listener) : Prop where
  threads : ∀ tp, (system.wait tp).Agrees (system.epending tp)
  pending : ∀ tp event,
    (system.epending tp).getLsbD event = true ↔ Outstanding system.history tp event
  returned : ∀ before tp kind mask m,
    before ++ [(tp, .returned kind mask m)] <+: system.history →
      Returns (Outstanding before tp) mask m kind
  linked : ∀ esp elp, elp ∈ system.esNext esp ↔ system.source elp = some esp
  unrepeated : ∀ esp, (system.esNext esp).Nodup

theorem sound_init (listeners : Listener → EventListener Thread) :
    (init listeners : EventSystem Thread Source Listener).Sound where
  threads tp := trivial
  pending tp event := by simp [init, Outstanding]
  returned before tp kind mask m earlier := by simp [init] at earlier
  linked esp elp := by simp [init]
  unrepeated esp := List.nodup_nil

/-- A signal readies its thread if the thread has its events now. -/
theorem Sound.signal {system : EventSystem Thread Source Listener} (sound : system.Sound)
    (tp : Thread) (events : BitVec 32) : (system.chEvtSignalI tp events).Sound := by
  refine ⟨?_, ?_, ?_, sound.linked, sound.unrepeated⟩
  · intro other
    simp only [chEvtSignalI]
    by_cases same : other = tp
    · subst same
      rw [Function.update_self, Function.update_self]
      exact (sound.threads other).signal events
    · rw [Function.update_of_ne same, Function.update_of_ne same]
      exact sound.threads other
  · intro other event
    simp only [chEvtSignalI]
    rw [outstanding_signalled, ← sound.pending]
    by_cases same : other = tp
    · subst same
      simp [Function.update_self, BitVec.getLsbD_or]
    · simp [Function.update_of_ne same, Ne.symm same]
  · intro before other kind mask m earlier
    rcases List.prefix_concat_iff.mp earlier with whole | earlier
    · have last := (List.append_inj' whole rfl).2
      cases last
    · exact sound.returned before other kind mask m earlier

/-- The return of a call is a return of outstanding events. -/
theorem Sound.returns_outstanding {system : EventSystem Thread Source Listener}
    (sound : system.Sound) {tp : Thread} {kind : Option WaitKind} {mask m : BitVec 32}
    (allowed : Returns (fun event => (system.epending tp).getLsbD event = true) mask m kind) :
    Returns (Outstanding system.history tp) mask m kind := by
  have same : (fun event => (system.epending tp).getLsbD event = true) =
      Outstanding system.history tp := by
    funext event
    exact propext (sound.pending tp event)
  rwa [same] at allowed

/-- The events of a return leave the pending ones. -/
theorem Sound.take {system : EventSystem Thread Source Listener} (sound : system.Sound)
    {currp : Thread} {kind : Option WaitKind} {mask m : BitVec 32}
    (allowed : Returns (fun event => (system.epending currp).getLsbD event = true) mask m kind) :
    (system.take currp kind mask m).Sound := by
  refine ⟨?_, ?_, ?_, sound.linked, sound.unrepeated⟩
  · intro other
    simp only [EventSystem.take]
    by_cases same : other = currp
    · subst same
      rw [Function.update_self, Function.update_self]
      exact trivial
    · rw [Function.update_of_ne same, Function.update_of_ne same]
      exact sound.threads other
  · intro other event
    simp only [EventSystem.take]
    rw [outstanding_returned, ← sound.pending]
    by_cases same : other = currp
    · subst same
      rw [Function.update_self]
      cases set : (system.epending other).getLsbD event with
      | false => simp [set]
      | true => simp [set, BitVec.lt_of_getLsbD set]
    · simp [Function.update_of_ne same, Ne.symm same]
  · intro before other otherKind otherMask other_m earlier
    rcases List.prefix_concat_iff.mp earlier with whole | earlier
    · obtain ⟨rfl, last⟩ := List.append_inj' whole rfl
      cases last
      exact sound.returns_outstanding allowed
    · exact sound.returned before other otherKind otherMask other_m earlier

/-- A change of the state of one thread which keeps to its pending events. -/
theorem Sound.move {system : EventSystem Thread Source Listener} (sound : system.Sound)
    {tp : Thread} {state : WaitState} (agrees : state.Agrees (system.epending tp)) :
    { system with wait := Function.update system.wait tp state }.Sound := by
  refine ⟨?_, sound.pending, sound.returned, sound.linked, sound.unrepeated⟩
  intro other
  dsimp only
  by_cases same : other = tp
  · subst same
    rwa [Function.update_self]
  · rw [Function.update_of_ne same]
    exact sound.threads other

/-- The contents of the listeners matter to broadcasts only. -/
theorem Sound.relabel {system : EventSystem Thread Source Listener} (sound : system.Sound)
    (listeners : Listener → EventListener Thread) :
    { system with listeners := listeners }.Sound :=
  ⟨sound.threads, sound.pending, sound.returned, sound.linked, sound.unrepeated⟩

/-- A call which takes the pending events out of a mask without waiting. -/
theorem chEvtGetAndClearEvents_eq_take {system : EventSystem Thread Source Listener}
    {currp : Thread} (running : system.wait currp = .running) (events : BitVec 32) :
    system.chEvtGetAndClearEvents currp events =
      system.take currp none events (system.epending currp &&& events) := by
  have cleared : system.epending currp &&& ~~~events =
      system.epending currp &&& ~~~(system.epending currp &&& events) := by
    apply BitVec.eq_of_getLsbD_eq
    intro event word
    simp only [BitVec.getLsbD_and, BitVec.getLsbD_not]
    cases (system.epending currp).getLsbD event <;> simp
  rw [chEvtGetAndClearEvents, EventSystem.take, cleared, ← running, Function.update_eq_self]

/-- The beginning of a wait. -/
theorem Sound.wait {system : EventSystem Thread Source Listener} (sound : system.Sound)
    (currp : Thread) (kind : WaitKind) (events : BitVec 32) (immediate : Bool) :
    (system.chEvtWait currp kind events immediate).Sound := by
  rw [chEvtWait]
  split
  · exact sound.take (awaited_returns ‹_›)
  · split
    · exact sound
    · exact sound.move ‹_›

/-- The end of a wait. -/
theorem Sound.waitEnd {system : EventSystem Thread Source Listener} (sound : system.Sound)
    {tp : Thread} {kind : WaitKind} {ewmask : BitVec 32} {signalled : Bool}
    (readied : system.wait tp = .readied kind ewmask signalled) :
    (system.chEvtWaitEnd tp kind ewmask signalled).Sound := by
  have agrees := sound.threads tp
  rw [readied] at agrees
  rw [chEvtWaitEnd]
  split
  · exact sound.take (awaited_returns (agrees ‹_›))
  · exact sound.move trivial

/-! ## Broadcasts -/

variable [DecidableEq Listener]

/-- One iteration of a broadcast. -/
theorem Sound.signalListener {system : EventSystem Thread Source Listener}
    (sound : system.Sound) (flags : BitVec 32) (elp : Listener) :
    (system.signalListener flags elp).Sound := by
  dsimp only [EventSystem.signalListener]
  split
  · exact (sound.relabel _).signal _ _
  · exact sound.relabel _

/-- A listener which hears a broadcast signals its events to its thread. -/
theorem signalListener_of_hears {flags : BitVec 32}
    {system : EventSystem Thread Source Listener} {elp : Listener}
    (hears : (system.listeners elp).Hears flags) :
    signalListener flags system elp =
      { system with
        listeners := Function.update system.listeners elp
          { system.listeners elp with flags := (system.listeners elp).flags ||| flags }
      }.chEvtSignalI (system.listeners elp).listener (system.listeners elp).events :=
  if_pos hears

theorem signalListener_history (flags : BitVec 32) (system : EventSystem Thread Source Listener)
    (elp : Listener) :
    (signalListener flags system elp).history = system.history ++
      if (system.listeners elp).Hears flags then [(system.listeners elp).note] else [] := by
  by_cases hears : (system.listeners elp).Hears flags
  · rw [signalListener_of_hears hears, if_pos hears]
    rfl
  · have kept : signalListener flags system elp = { system with listeners := _ } := if_neg hears
    rw [kept, if_neg hears, List.append_nil]

theorem signalListener_listeners (flags : BitVec 32)
    (system : EventSystem Thread Source Listener) {elp other : Listener} (apart : other ≠ elp) :
    (signalListener flags system elp).listeners other = system.listeners other := by
  dsimp only [signalListener]
  split
  · exact Function.update_of_ne apart _ _
  · exact Function.update_of_ne apart _ _

/-- The listeners of a list without repetitions are signalled once, if they hear. -/
theorem signalListeners_history (flags : BitVec 32) {elps : List Listener}
    (unrepeated : elps.Nodup) (system : EventSystem Thread Source Listener) :
    (elps.foldl (signalListener flags) system).history = system.history ++
      ((elps.map system.listeners).filter (·.Hears flags)).map EventListener.note := by
  induction elps generalizing system with
  | nil => exact (List.append_nil _).symm
  | cons elp rest inductionHypothesis =>
      rcases List.nodup_cons.mp unrepeated with ⟨fresh, unrepeated⟩
      have others : rest.map (signalListener flags system elp).listeners =
          rest.map system.listeners := by
        apply List.map_congr_left
        intro other member
        exact signalListener_listeners flags system fun same => fresh (same ▸ member)
      rw [List.foldl_cons, inductionHypothesis unrepeated, others, signalListener_history,
        List.append_assoc, List.map_cons]
      by_cases hears : (system.listeners elp).Hears flags
      · rw [if_pos hears, List.filter_cons_of_pos (by simpa using hears)]
        rfl
      · rw [if_neg hears, List.filter_cons_of_neg (by simpa using hears)]
        rfl

theorem Sound.broadcast {system : EventSystem Thread Source Listener} (sound : system.Sound)
    (esp : Source) (flags : BitVec 32) : (system.chEvtBroadcastFlagsI esp flags).Sound := by
  rw [chEvtBroadcastFlagsI]
  generalize system.esNext esp = elps
  induction elps generalizing system with
  | nil => exact sound
  | cons elp rest inductionHypothesis => exact inductionHypothesis (sound.signalListener flags elp)

/-! ## Registrations -/

variable [DecidableEq Source]

/-- A listener which is not in use is linked in one list. -/
theorem Sound.register {system : EventSystem Thread Source Listener} (sound : system.Sound)
    (esp : Source) {elp : Listener} (unused : system.source elp = none) (currp : Thread)
    (events wflags : BitVec 32) :
    (system.chEvtRegisterMaskWithFlags esp elp currp events wflags).Sound := by
  have unlinked : ∀ other, elp ∉ system.esNext other := by
    intro other member
    rw [(sound.linked other elp).mp member] at unused
    cases unused
  refine ⟨sound.threads, sound.pending, sound.returned, ?_, ?_⟩
  · intro source listener
    dsimp only [chEvtRegisterMaskWithFlags]
    have before := sound.linked source listener
    have absent := unlinked source
    simp only [Function.update_apply]
    by_cases sameListener : listener = elp
    · subst sameListener
      by_cases sameSource : source = esp
      · simp [sameSource]
      · simp [sameSource, absent, Ne.symm sameSource]
    · by_cases sameSource : source = esp
      · subst sameSource
        simp [sameListener, before]
      · simp [sameListener, sameSource, before]
  · intro source
    dsimp only [chEvtRegisterMaskWithFlags]
    by_cases same : source = esp
    · subst same
      rw [Function.update_self]
      exact List.nodup_cons.mpr ⟨unlinked source, sound.unrepeated source⟩
    · rw [Function.update_of_ne same]
      exact sound.unrepeated source

theorem Sound.unregister {system : EventSystem Thread Source Listener} (sound : system.Sound)
    (esp : Source) (elp : Listener) : (system.chEvtUnregister esp elp).Sound := by
  rw [chEvtUnregister]
  split
  · rename_i member
    have here := (sound.linked esp elp).mp member
    refine ⟨sound.threads, sound.pending, sound.returned, ?_, ?_⟩
    · intro source listener
      dsimp only
      have before := sound.linked source listener
      simp only [Function.update_apply]
      by_cases sameSource : source = esp
      · subst sameSource
        rw [if_pos rfl, (sound.unrepeated source).mem_erase_iff, before]
        by_cases sameListener : listener = elp
        · simp [sameListener]
        · simp [sameListener]
      · rw [if_neg sameSource, before]
        by_cases sameListener : listener = elp
        · subst sameListener
          simp [here, Ne.symm sameSource]
        · simp [sameListener]
    · intro source
      dsimp only
      by_cases same : source = esp
      · subst same
        rw [Function.update_self]
        exact (sound.unrepeated source).erase elp
      · rw [Function.update_of_ne same]
        exact sound.unrepeated source
  · exact sound

/-! ## Runs -/

/-- Every operation keeps threads and events in step. -/
theorem sound_step {system next : EventSystem Thread Source Listener}
    {action : Action Thread Source Listener} (sound : system.Sound)
    (taken : system.step action = some next) : next.Sound := by
  cases action with
  | register esp elp currp events wflags =>
      rw [step] at taken
      split at taken
      · cases taken
        exact sound.register esp (by rename_i allowed; exact allowed.2) currp events wflags
      · cases taken
  | unregister esp elp =>
      cases taken
      exact sound.unregister esp elp
  | signal tp events =>
      cases taken
      exact sound.signal tp events
  | broadcast esp flags =>
      cases taken
      exact sound.broadcast esp flags
  | getAndClearFlags elp =>
      cases taken
      exact sound.relabel _
  | getAndClear currp events =>
      rw [step] at taken
      split at taken
      · cases taken
        rw [chEvtGetAndClearEvents_eq_take ‹_›]
        refine sound.take ?_
        intro event
        rw [BitVec.getLsbD_and, Bool.and_eq_true]
      · cases taken
  | wait currp kind events immediate =>
      rw [step] at taken
      split at taken
      · cases taken
        exact sound.wait currp kind events immediate
      · cases taken
  | expire tp =>
      rw [step] at taken
      split at taken
      · cases taken
        exact sound.move (fun impossible => by cases impossible)
      · cases taken
  | resume tp =>
      rw [step] at taken
      split at taken
      · cases taken
        exact sound.waitEnd ‹_›
      · cases taken

theorem sound_run {listeners : Listener → EventListener Thread}
    {actions : List (Action Thread Source Listener)}
    {final : EventSystem Thread Source Listener}
    (run : runFrom step (init listeners) actions = some final) : final.Sound :=
  runFrom_invariant (fun _ _ _ sound taken => sound_step sound taken) run (sound_init listeners)

/-- Events are neither lost nor made up, in whatever order threads and handlers act.  A thread
which sleeps does not have its events.  An event is pending exactly when it has been
signalled and not been returned since.  Every call returned what it may return of the events
outstanding when it ended, and a broadcast signals each registered listener which hears it,
once. -/
theorem events_delivered {listeners : Listener → EventListener Thread}
    {actions : List (Action Thread Source Listener)}
    {final : EventSystem Thread Source Listener}
    (run : runFrom step (init listeners) actions = some final) :
    (∀ tp kind ewmask, final.wait tp = .blocked kind ewmask →
      ¬ Satisfied kind ewmask (final.epending tp)) ∧
    (∀ tp event,
      (final.epending tp).getLsbD event = true ↔ Outstanding final.history tp event) ∧
    (∀ before tp kind mask m, before ++ [(tp, .returned kind mask m)] <+: final.history →
      Returns (Outstanding before tp) mask m kind) ∧
    ∀ esp flags, ∃ elps : List Listener, elps.Nodup ∧
      (∀ elp, elp ∈ elps ↔ final.source elp = some esp) ∧
      (final.chEvtBroadcastFlagsI esp flags).history = final.history ++
        ((elps.map final.listeners).filter (·.Hears flags)).map EventListener.note := by
  have sound := sound_run run
  refine ⟨?_, sound.pending, sound.returned, ?_⟩
  · intro tp kind ewmask blocked
    have agrees := sound.threads tp
    rwa [blocked] at agrees
  · intro esp flags
    refine ⟨final.esNext esp, sound.unrepeated esp, sound.linked esp, ?_⟩
    exact signalListeners_history flags (sound.unrepeated esp) final

end Invariant

/-- A thread waits for one event and is signalled another one; the broadcast of the source it
listens to ends its wait. -/
def sleeperRun : List (Action Bool Unit Unit) :=
  [.register () () true 1 0xFFFFFFFF, .wait true .one 1 false, .signal true 2, .broadcast () 1,
    .resume true]

/-- The thread is returned the event it waited for, and the other one stays. -/
theorem events_delivered_to_sleeper :
    ∃ final, runFrom step (init fun _ => ⟨false, 0, 0, 0⟩) sleeperRun = some final ∧
      Returns (Outstanding [(true, .signalled 2), (true, .signalled 1)] true) 1 1 (some .one) ∧
      Outstanding final.history true 1 := by
  have run : runFrom step (init fun _ => ⟨false, 0, 0, 0⟩) sleeperRun = some _ := rfl
  have delivered := events_delivered run
  refine ⟨_, run, ?_, ?_⟩
  · exact delivered.2.2.1 [(true, .signalled 2), (true, .signalled 1)] true (some .one) 1 1
      ⟨[], rfl⟩
  · exact (delivered.2.1 true 1).mp (by decide)

end EventSystem
end Kernel
end AnalogX

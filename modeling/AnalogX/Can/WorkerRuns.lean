import AnalogX.Can.Worker

namespace AnalogX
namespace Can

/-!
# Whole runs of the receiving thread

The refinement of the abstract machine reduces every question about a run to its
history of dispatched frames and its pattern of waits.  Three laws are read off.

The first is the full behaviour of a run: the last accepted rate wins, the flag
is a latch, and announcements are exactly the one at start-up and those of the
timeouts that find the flag unset.

The second concerns configuration frames without a payload.  The handler rejects
them, yet its caller provisions the device, so a run keeps the flag tied to an
accepted configuration exactly as long as no rejected frame comes first.

The third counts announcements against time.  Only an uninterrupted second of
silence produces one, so the time spent in waits that a frame cut short is lost
to them.
-/

open Kernel Firmware Foundations

/-! ## Reading a run off its history -/

theorem dispatched_foldl_wake (range : AddressRange) (machine : Provisioning)
    (wakeups : List Wakeup) :
    (wakeups.foldl (Provisioning.wake range) machine).dispatched =
      machine.dispatched ++ dispatchedFrames wakeups := by
  induction wakeups generalizing machine with
  | nil => exact (List.append_nil _).symm
  | cons wakeup rest inductionHypothesis =>
      rw [List.foldl_cons, inductionHypothesis, dispatchedFrames, dispatchedFrames,
        List.flatMap_cons, ← List.append_assoc]
      congr 1
      cases wakeup with
      | timeout =>
          rw [Provisioning.wake, Wakeup.batch, List.append_nil]
          split <;> rfl
      | event waited batch => rfl

theorem canWorker_canBaseAddress (pins : Pins) (wakeups : List Wakeup) :
    (canWorker pins wakeups).canBaseAddress = pins.range.base :=
  (canWorker_represents pins wakeups).canBaseAddress

theorem canWorker_updateRateHz (pins : Pins) (wakeups : List Wakeup) :
    (canWorker pins wakeups).updateRateHz =
      lastWrite pins.range.writtenRate defaultSampleRate (dispatchedFrames wakeups) := by
  rw [(canWorker_represents pins wakeups).updateRateHz, Provisioning.rate, dispatched_foldl_wake]
  rfl

theorem canWorker_provisioned (pins : Pins) (wakeups : List Wakeup) :
    (canWorker pins wakeups).provisioned = true ↔
      ∃ frame ∈ dispatchedFrames wakeups, pins.range.Configures frame := by
  rw [(canWorker_represents pins wakeups).provisioned, Provisioning.provisioned,
    dispatched_foldl_wake, List.any_eq_true]
  simp only [Provisioning.start, List.nil_append, decide_eq_true_eq]

theorem dispatchedFrames_append (first second : List Wakeup) :
    dispatchedFrames (first ++ second) = dispatchedFrames first ++ dispatchedFrames second :=
  List.flatMap_append

/-! ## Announcements -/

/-- Whether the wait ended by its timeout. -/
def Wakeup.isTimeout : Wakeup → Bool
  | timeout => true
  | event _ _ => false

/-- The number of timeouts of a run which find the provisioned flag unset. -/
def unprovisionedTimeouts (pins : Pins) (wakeups : List Wakeup) : Nat :=
  (List.range wakeups.length).countP fun index =>
    wakeups[index]?.any Wakeup.isTimeout && !(canWorker pins (wakeups.take index)).provisioned

theorem unprovisionedTimeouts_concat (pins : Pins) (wakeups : List Wakeup) (wakeup : Wakeup) :
    unprovisionedTimeouts pins (wakeups ++ [wakeup]) =
      unprovisionedTimeouts pins wakeups +
        if wakeup.isTimeout && !(canWorker pins wakeups).provisioned then 1 else 0 := by
  unfold unprovisionedTimeouts
  rw [List.length_append, List.length_singleton, List.range_succ, List.countP_append,
    List.countP_singleton]
  congr 1
  · apply List.countP_congr
    intro index member
    have inside := List.mem_range.mp member
    rw [List.getElem?_append_left inside, List.take_append_of_le_length (Nat.le_of_lt inside)]
  · rw [List.getElem?_concat_length, List.take_left', Option.any_some]
    rfl

/-- One timeout appends an announcement unless the device is provisioned. -/
theorem transmissions_canWorker_concat (pins : Pins) (wakeups : List Wakeup) (wakeup : Wakeup) :
    transmissions (canWorker pins (wakeups ++ [wakeup])).trace =
      transmissions (canWorker pins wakeups).trace ++
        if wakeup.isTimeout && !(canWorker pins wakeups).provisioned
        then [announcement pins.range] else [] := by
  have before := canWorker_represents pins wakeups
  have after := canWorkerWake_represents before wakeup
  rw [canWorker_append, List.foldl_cons, List.foldl_nil, after.transmissions,
    before.transmissions, before.provisioned]
  cases wakeup with
  | timeout =>
      rw [Provisioning.wake, Wakeup.isTimeout, Bool.true_and]
      cases (wakeups.foldl (Provisioning.wake pins.range) Provisioning.start).provisioned
          pins.range
      · exact List.replicate_succ'
      · exact (List.append_nil _).symm
  | event waited batch => exact (List.append_nil _).symm

/-- The transmissions of a run are its announcements. -/
theorem transmissions_canWorker (pins : Pins) (wakeups : List Wakeup) :
    transmissions (canWorker pins wakeups).trace =
      List.replicate (1 + unprovisionedTimeouts pins wakeups) (announcement pins.range) := by
  induction wakeups using List.reverseRecOn with
  | nil => exact (canWorkerStartup_represents pins).transmissions
  | append_singleton wakeups wakeup inductionHypothesis =>
      rw [transmissions_canWorker_concat, unprovisionedTimeouts_concat, inductionHypothesis,
        ← Nat.add_assoc]
      cases wakeup.isTimeout && !(canWorker pins wakeups).provisioned
      · exact List.append_nil _
      · exact List.replicate_succ'.symm

/-! ## The behaviour of a whole run -/

/-- A standard frame, or an identifier from which subtracting the base wraps, is
never a configuration frame of the range. -/
theorem not_configures_of_standard_or_below {range : AddressRange} {frame : CanRxFrame}
    (outside : frame.ide = 0 ∨ frame.eid.toNat < range.base.toNat) :
    ¬ range.Configures frame := by
  intro configures
  rcases outside with standard | below
  · rw [configures.1] at standard
    exact absurd standard (by decide)
  · have identifier := configures.2
    omega

/-- What a run of the worker has done, in terms of its wake-ups only. -/
structure RunBehaviour (pins : Pins) (wakeups : List Wakeup) : Prop where
  /-- The last frame accepted as a configuration determines the rate. -/
  lastRateWins :
    (canWorker pins wakeups).updateRateHz =
      lastWrite pins.range.writtenRate defaultSampleRate (dispatchedFrames wakeups)
  /-- No other frame changes the rate or the flag. -/
  othersIgnored :
    ∀ frame, ¬ pins.range.Configures frame →
      (processFrame frame (canWorker pins wakeups)).updateRateHz =
          (canWorker pins wakeups).updateRateHz ∧
        (processFrame frame (canWorker pins wakeups)).provisioned =
          (canWorker pins wakeups).provisioned
  /-- Standard and wrapping identifiers are among the ignored frames. -/
  outsideIgnored :
    ∀ frame : CanRxFrame, frame.ide = 0 ∨ frame.eid.toNat < pins.range.base.toNat →
      ¬ pins.range.Configures frame
  flagSet :
    (∃ frame ∈ dispatchedFrames wakeups, pins.range.Accepts frame) →
      (canWorker pins wakeups).provisioned = true
  flagUnset :
    (∀ frame ∈ dispatchedFrames wakeups, ¬ pins.range.Configures frame) →
      (canWorker pins wakeups).provisioned = false
  flagLatched :
    (canWorker pins wakeups).provisioned = true →
      ∀ later, (canWorker pins (wakeups ++ later)).provisioned = true
  /-- One announcement at start-up, one at each timeout before the flag is set,
  and no other transmission. -/
  announced :
    transmissions (canWorker pins wakeups).trace =
      List.replicate (1 + unprovisionedTimeouts pins wakeups) (announcement pins.range)

/-- Every run of every device behaves like that. -/
theorem canWorker_behaviour (pins : Pins) (wakeups : List Wakeup) :
    RunBehaviour pins wakeups := by
  constructor
  · exact canWorker_updateRateHz pins wakeups
  · intro frame other
    have processed := processFrame_dispatched frame (canWorker_canBaseAddress pins wakeups)
    have notAccepted : ¬ pins.range.Accepts frame := fun accepted => other accepted.1
    constructor
    · rw [processed.updateRateHz, AddressRange.writtenRate, if_neg notAccepted, Option.getD_none]
    · rw [processed.provisioned, decide_eq_false other, Bool.or_false]
  · intro frame outside
    exact not_configures_of_standard_or_below outside
  · rintro ⟨frame, member, accepted⟩
    exact (canWorker_provisioned pins wakeups).mpr ⟨frame, member, accepted.1⟩
  · intro none
    apply Bool.eq_false_iff.mpr
    intro set
    rcases (canWorker_provisioned pins wakeups).mp set with ⟨frame, member, configures⟩
    exact none frame member configures
  · intro set later
    rcases (canWorker_provisioned pins wakeups).mp set with ⟨frame, member, configures⟩
    apply (canWorker_provisioned pins (wakeups ++ later)).mpr
    refine ⟨frame, ?_, configures⟩
    rw [dispatchedFrames_append]
    exact List.mem_append_left _ member
  · exact transmissions_canWorker pins wakeups

/-! ## Rejected configurations -/

/-- Dispatching a frame keeps the rate and the provisioned flag. -/
def KeepsConfiguration (frame : CanRxFrame) (fw : State) : Prop :=
  (dispatchCanRx frame fw).1.updateRateHz = fw.updateRateHz ∧
    (dispatchCanRx frame fw).1.provisioned = fw.provisioned

/-- No rejected configuration frame comes before the first accepted one. -/
def AcceptedFirst (range : AddressRange) (frames : List CanRxFrame) : Prop :=
  ∀ before frame after, frames = before ++ frame :: after → range.Rejects frame →
    ∃ earlier ∈ before, range.Accepts earlier

/-- Rejected frames left no trace in any state of a run: the flag is set only
after an accepted configuration whose rate was stored, and until then every
timeout announces the device. -/
def RejectionsHarmless (pins : Pins) (frames : List CanRxFrame) : Prop :=
  ∀ wakeups, dispatchedFrames wakeups <+: frames →
    ((canWorker pins wakeups).provisioned = true →
      ∃ frame ∈ dispatchedFrames wakeups, pins.range.Accepts frame ∧
        (canWorker pins wakeups).updateRateHz = frame.firstByte) ∧
    ((∀ frame ∈ dispatchedFrames wakeups, ¬ pins.range.Accepts frame) →
      transmissions (canWorker pins (wakeups ++ [.timeout])).trace =
        transmissions (canWorker pins wakeups).trace ++ [announcement pins.range])

theorem keepsConfiguration_iff {range : AddressRange} {frame : CanRxFrame} {fw : State}
    (address : fw.canBaseAddress = range.base) (rejected : range.Rejects frame) :
    KeepsConfiguration frame fw ↔ fw.provisioned = true := by
  have dispatched := dispatchCanRx_dispatched frame address
  unfold KeepsConfiguration
  rw [dispatched.updateRateHz, dispatched.provisioned, AddressRange.writtenRate,
    if_neg rejected.not_accepts, Option.getD_none, decide_eq_true rejected.1, Bool.or_true,
    and_iff_right rfl, eq_comm]

/-- An accepted frame in the history has stored its rate, or a later one has. -/
theorem exists_stored_rate (pins : Pins) {wakeups : List Wakeup}
    (accepted : ∃ frame ∈ dispatchedFrames wakeups, pins.range.Accepts frame) :
    ∃ frame ∈ dispatchedFrames wakeups, pins.range.Accepts frame ∧
      (canWorker pins wakeups).updateRateHz = frame.firstByte := by
  rw [canWorker_updateRateHz]
  rcases lastWrite_cases pins.range.writtenRate defaultSampleRate (dispatchedFrames wakeups) with
    ⟨silent, _⟩ | ⟨frame, member, written⟩
  · rcases accepted with ⟨frame, member, accepts⟩
    have nothing := silent frame member
    rw [AddressRange.writtenRate_eq_some.mpr ⟨accepts, rfl⟩] at nothing
    cases nothing
  · rcases AddressRange.writtenRate_eq_some.mp written with ⟨accepts, rate⟩
    exact ⟨frame, member, accepts, rate.symm⟩

theorem rejectionsHarmless_of_acceptedFirst (pins : Pins) {frames : List CanRxFrame}
    (order : AcceptedFirst pins.range frames) : RejectionsHarmless pins frames := by
  intro wakeups before
  have acceptedOfSet : (canWorker pins wakeups).provisioned = true →
      ∃ frame ∈ dispatchedFrames wakeups, pins.range.Accepts frame := by
    intro set
    rcases (canWorker_provisioned pins wakeups).mp set with ⟨frame, member, configures⟩
    rcases (pins.range.configures_iff frame).mp configures with accepted | rejected
    · exact ⟨frame, member, accepted⟩
    · rcases List.append_of_mem member with ⟨earlier, later, split⟩
      rcases before with ⟨rest, whole⟩
      rw [split, List.append_assoc, List.cons_append] at whole
      rcases order earlier frame (later ++ rest) whole.symm rejected with ⟨other, found, accepts⟩
      refine ⟨other, ?_, accepts⟩
      rw [split]
      exact List.mem_append_left _ found
  constructor
  · intro set
    exact exists_stored_rate pins (acceptedOfSet set)
  · intro none
    have unset : (canWorker pins wakeups).provisioned = false := by
      apply Bool.eq_false_iff.mpr
      intro set
      rcases acceptedOfSet set with ⟨frame, member, accepts⟩
      exact none frame member accepts
    rw [transmissions_canWorker_concat, unset]
    rfl

theorem acceptedFirst_of_rejectionsHarmless (pins : Pins) {frames : List CanRxFrame}
    (harmless : RejectionsHarmless pins frames) : AcceptedFirst pins.range frames := by
  intro before frame after split rejected
  have history : dispatchedFrames [.event ⟨0, by decide⟩ (before ++ [frame])] =
      before ++ [frame] := List.append_nil _
  have initial : before ++ [frame] <+: frames :=
    ⟨after, by rw [split, List.append_assoc, List.singleton_append]⟩
  have state := harmless [.event ⟨0, by decide⟩ (before ++ [frame])] (history.symm ▸ initial)
  rw [history] at state
  have set := (canWorker_provisioned pins [.event ⟨0, by decide⟩ (before ++ [frame])]).mpr
    ⟨frame, history.symm ▸ List.mem_append_right _ List.mem_cons_self, rejected.1⟩
  rcases state.1 set with ⟨other, member, accepts, _⟩
  rcases List.mem_append.mp member with earlier | same
  · exact ⟨other, earlier, accepts⟩
  · rw [List.mem_singleton.mp same] at accepts
    exact absurd rejected.2 (Nat.not_lt.mpr accepts.2)

/-- A rejected configuration frame leaves a reachable state as it was exactly if
the device was provisioned before; over a run, rejections are harmless exactly
if the first configuration frame was an accepted one. -/
theorem rejected_configuration_harmless_iff (pins : Pins) :
    (∀ wakeups frame, pins.range.Rejects frame →
      (KeepsConfiguration frame (canWorker pins wakeups) ↔
        (canWorker pins wakeups).provisioned = true)) ∧
    ∀ wakeups, RejectionsHarmless pins (dispatchedFrames wakeups) ↔
      AcceptedFirst pins.range (dispatchedFrames wakeups) := by
  constructor
  · intro wakeups frame rejected
    exact keepsConfiguration_iff (canWorker_canBaseAddress pins wakeups) rejected
  · intro wakeups
    exact ⟨acceptedFirst_of_rejectionsHarmless pins, rejectionsHarmless_of_acceptedFirst pins⟩

/-- An extended frame for the device with both jumpers closed, without payload. -/
def emptyConfiguration : CanRxFrame where
  fmi := 0
  time := 0
  dlc := 0
  rtr := 0
  ide := 1
  ident := 0xE4603
  data8 := fun _ => 0

/-- At start-up the empty configuration is rejected and still provisions the
device, although no frame was accepted; the following timeout is silent. -/
theorem emptyConfiguration_provisions :
    (Pins.mk false false false).range.Rejects emptyConfiguration ∧
    ¬ KeepsConfiguration emptyConfiguration (canWorker ⟨false, false, false⟩ []) ∧
    ¬ RejectionsHarmless ⟨false, false, false⟩
      (dispatchedFrames [.event ⟨0, by decide⟩ [emptyConfiguration]]) := by
  have rejected : (Pins.mk false false false).range.Rejects emptyConfiguration := by decide
  refine ⟨rejected, ?_, ?_⟩
  · intro keeps
    have set := (keepsConfiguration_iff
      (canWorker_canBaseAddress ⟨false, false, false⟩ []) rejected).mp keeps
    exact absurd set (by decide)
  · intro harmless
    rcases acceptedFirst_of_rejectionsHarmless _ harmless [] emptyConfiguration [] rfl rejected with
      ⟨frame, member, _⟩
    exact absurd member List.not_mem_nil

/-- A configuration of the same device with a rate of 100. -/
def rateConfiguration : CanRxFrame :=
  { emptyConfiguration with dlc := 1, data8 := fun _ => 100 }

theorem acceptedFirst_rateConfiguration :
    AcceptedFirst (Pins.mk false false false).range [rateConfiguration, emptyConfiguration] := by
  intro before frame after split rejected
  cases before with
  | nil =>
      have first : rateConfiguration = frame := (List.cons.inj split).1
      rw [← first] at rejected
      exact absurd rejected (by decide)
  | cons earlier rest =>
      have first : rateConfiguration = earlier := (List.cons.inj split).1
      exact ⟨earlier, List.mem_cons_self, first ▸ (by decide)⟩

/-- The empty configuration changes the device at start-up.  Behind an accepted
configuration it changes nothing, and a run with that order is harmless. -/
theorem emptyConfiguration_harmless_iff :
    (Pins.mk false false false).range.Rejects emptyConfiguration ∧
      (KeepsConfiguration emptyConfiguration (canWorker ⟨false, false, false⟩ []) ↔
        (canWorker ⟨false, false, false⟩ []).provisioned = true) ∧
      KeepsConfiguration emptyConfiguration
        (canWorker ⟨false, false, false⟩ [.event ⟨0, by decide⟩ [rateConfiguration]]) ∧
      RejectionsHarmless ⟨false, false, false⟩ (dispatchedFrames
        [.event ⟨0, by decide⟩ [rateConfiguration, emptyConfiguration]]) := by
  have rejected : (Pins.mk false false false).range.Rejects emptyConfiguration := by decide
  rcases rejected_configuration_harmless_iff ⟨false, false, false⟩ with ⟨keeps, harmless⟩
  exact ⟨rejected, keeps [] emptyConfiguration rejected,
    (keeps _ emptyConfiguration rejected).mpr (by decide),
    (harmless _).mpr acceptedFirst_rateConfiguration⟩

/-! ## Announcements against time -/

/-- The total time of the waits of a run. -/
def waitedTicks (wakeups : List Wakeup) : Nat :=
  (wakeups.map Wakeup.waited).sum

/-- The time of those waits which a receive event cut short. -/
def interruptedTicks (wakeups : List Wakeup) : Nat :=
  ((wakeups.filter fun wakeup => !wakeup.isTimeout).map Wakeup.waited).sum

/-- The number of frames sent between two states of a run. -/
def sentBetween (before after : State) : Nat :=
  (transmissions after.trace).length - (transmissions before.trace).length

/-- A run is made of full waits and interrupted ones. -/
theorem waitedTicks_eq (wakeups : List Wakeup) :
    waitedTicks wakeups =
      waitTicks * wakeups.countP Wakeup.isTimeout + interruptedTicks wakeups := by
  unfold waitedTicks interruptedTicks
  induction wakeups with
  | nil => rfl
  | cons wakeup rest inductionHypothesis =>
      rw [List.map_cons, List.sum_cons, inductionHypothesis]
      cases wakeup with
      | timeout =>
          rw [List.countP_cons_of_pos rfl, List.filter_cons_of_neg (by decide), Wakeup.waited,
            Nat.mul_succ]
          omega
      | event ticks batch =>
          rw [List.countP_cons_of_neg Bool.false_ne_true, List.filter_cons_of_pos rfl, List.map_cons,
            List.sum_cons]
          omega

/-- As long as no configuration frame arrives, every timeout is announced. -/
theorem unprovisionedTimeouts_append (pins : Pins) (history wakeups : List Wakeup)
    (unprovisioned : (canWorker pins history).provisioned = false)
    (unrelated : ∀ frame ∈ dispatchedFrames wakeups, ¬ pins.range.Configures frame) :
    unprovisionedTimeouts pins (history ++ wakeups) =
      unprovisionedTimeouts pins history + wakeups.countP Wakeup.isTimeout := by
  induction wakeups using List.reverseRecOn with
  | nil => rw [List.append_nil, List.countP_nil, Nat.add_zero]
  | append_singleton wakeups wakeup inductionHypothesis =>
      rw [dispatchedFrames_append] at unrelated
      have earlier : ∀ frame ∈ dispatchedFrames wakeups, ¬ pins.range.Configures frame :=
        fun frame member => unrelated frame (List.mem_append_left _ member)
      have unset : (canWorker pins (history ++ wakeups)).provisioned = false := by
        apply Bool.eq_false_iff.mpr
        intro set
        rcases (canWorker_provisioned pins (history ++ wakeups)).mp set with
          ⟨frame, member, configures⟩
        rw [dispatchedFrames_append] at member
        rcases List.mem_append.mp member with old | new
        · have wasSet := (canWorker_provisioned pins history).mpr ⟨frame, old, configures⟩
          rw [unprovisioned] at wasSet
          cases wasSet
        · exact earlier frame new configures
      rw [← List.append_assoc, unprovisionedTimeouts_concat, inductionHypothesis earlier, unset,
        List.countP_append, List.countP_singleton, Bool.not_false, Bool.and_true, Nat.add_assoc]

/-- From any unprovisioned state, and whatever unrelated frames arrive, the
announcements of a run keep up with one per second exactly if the waits cut short
by these frames add up to less than one second. -/
theorem announcements_keep_up_iff (pins : Pins) (history wakeups : List Wakeup)
    (unprovisioned : (canWorker pins history).provisioned = false)
    (unrelated : ∀ frame ∈ dispatchedFrames wakeups, ¬ pins.range.Configures frame) :
    waitedTicks wakeups / waitTicks ≤
        sentBetween (canWorker pins history) (canWorker pins (history ++ wakeups)) ↔
      interruptedTicks wakeups < waitTicks := by
  have positive : 0 < waitTicks := by decide
  have sent : sentBetween (canWorker pins history) (canWorker pins (history ++ wakeups)) =
      wakeups.countP Wakeup.isTimeout := by
    unfold sentBetween
    rw [transmissions_canWorker, transmissions_canWorker, List.length_replicate,
      List.length_replicate, unprovisionedTimeouts_append pins history wakeups unprovisioned
        unrelated]
    omega
  rw [sent, waitedTicks_eq, Nat.mul_add_div positive]
  constructor
  · intro enough
    have zero : interruptedTicks wakeups / waitTicks = 0 :=
      Nat.le_zero.mp (Nat.le_of_add_le_add_left enough)
    exact (Nat.div_eq_zero_iff_lt positive).mp zero
  · intro short
    rw [Nat.div_eq_of_lt short]
    exact Nat.le_refl _

/-- A standard frame of some other node on the bus. -/
def unrelatedFrame : CanRxFrame where
  fmi := 0
  time := 0
  dlc := 1
  rtr := 0
  ide := 0
  ident := 0x123
  data8 := fun _ => 0

/-- Two waits of half a second, each ended by an unrelated frame. -/
def interruptedSecond : List Wakeup :=
  [.event ⟨5000, by decide⟩ [unrelatedFrame], .event ⟨5000, by decide⟩ [unrelatedFrame]]

/-- A full second has passed and nothing was announced. -/
theorem interruptedSecond_silent :
    (canWorker ⟨false, false, false⟩ []).provisioned = false ∧
    (∀ frame ∈ dispatchedFrames interruptedSecond,
      ¬ (Pins.mk false false false).range.Configures frame) ∧
    ¬ waitedTicks interruptedSecond / waitTicks ≤
      sentBetween (canWorker ⟨false, false, false⟩ [])
        (canWorker ⟨false, false, false⟩ interruptedSecond) := by
  decide

/-- A full second and a wait of half a second which an unrelated frame ends. -/
def uninterruptedSecond : List Wakeup :=
  [.timeout, .event ⟨5000, by decide⟩ [unrelatedFrame]]

/-- The equivalence at that run, and a run which keeps up. -/
theorem interruptedSecond_keeps_up_iff :
    (waitedTicks interruptedSecond / waitTicks ≤
        sentBetween (canWorker ⟨false, false, false⟩ [])
          (canWorker ⟨false, false, false⟩ ([] ++ interruptedSecond)) ↔
      interruptedTicks interruptedSecond < waitTicks) ∧
    waitedTicks uninterruptedSecond / waitTicks ≤
      sentBetween (canWorker ⟨false, false, false⟩ [])
        (canWorker ⟨false, false, false⟩ ([] ++ uninterruptedSecond)) :=
  ⟨announcements_keep_up_iff ⟨false, false, false⟩ [] interruptedSecond (by decide) (by decide),
    (announcements_keep_up_iff ⟨false, false, false⟩ [] uninterruptedSecond (by decide)
      (by decide)).mpr (by decide)⟩

end Can
end AnalogX

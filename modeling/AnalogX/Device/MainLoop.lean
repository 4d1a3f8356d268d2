import AnalogX.Device.Transmissions

namespace AnalogX
namespace Device

/-!
# The loop of `main`

After six calls of the boot sequence `main` only counts.  Each iteration adds the interval of
the check to `stats_check`, and the stats are broadcast when the sum exceeds ten seconds.  The
comparison is strict, so a broadcast takes one iteration more than ten seconds have.

Whatever the other threads do in between, the number of stats handed to `canTransmit` is a
function of the number of steps of `main`, and each of them carries the rate in force at the
call.
-/

open Kernel Can Firmware Adc Foundations

/-- The action is a step of `main`. -/
def isMainStep : DeviceAction → Bool
  | .receive .mainStep => true
  | _ => false

/-- The steps of `main` among the actions. -/
def mainSteps (actions : List DeviceAction) : Nat :=
  actions.countP isMainStep

/-- The calls of the boot sequence which have been made. -/
def bootCalls : MainPc → Nat
  | .systemCanInit => 0
  | .systemAdcInit => 1
  | .systemSerialInit => 2
  | .logStart => 3
  | .createCanRx => 4
  | .createAdcWorker => 5
  | .mainLoop => 6

/-- A frame is the stats of a range at a rate. -/
def IsStats (range : AddressRange) (rate : UInt8) (frame : CanTxFrame) : Prop :=
  ExtendedData frame (range.base.toNat + 2) ![rate, 0x55, 0x55, 0x55, 0x55, 1, 0, 1]

theorem mainSteps_append (before : List DeviceAction) (action : DeviceAction) :
    mainSteps (before ++ [action]) = mainSteps before + if isMainStep action then 1 else 0 := by
  rw [mainSteps, List.countP_append, List.countP_singleton, mainSteps]

/-! ## Steps outside the loop -/

theorem receiveStep_stats {pins : Pins} {device next : Device} {action : ReceiveAction}
    (holds : Invariant pins device) (taken : device.receiveStep pins action = some next) :
    next.statsCheck = device.statsCheck ∧
      sentAt pins.range apiStatsOffset next.firmware =
        sentAt pins.range apiStatsOffset device.firmware := by
  rcases Option.map_eq_some_iff.mp taken with ⟨receive, moved, result⟩
  subst result
  exact ⟨rfl, sentAt_effect holds (by decide) moved⟩

theorem adcStep_stats {pins : Pins} {device next : Device} {action : AdcAction}
    (holds : Invariant pins device) (taken : device.adcStep action = some next) :
    next.statsCheck = device.statsCheck ∧
      sentAt pins.range apiStatsOffset next.firmware =
        sentAt pins.range apiStatsOffset device.firmware := by
  have sent := sentAt_adcStep apiStatsOffset holds taken
  rw [if_neg (by decide), List.append_nil] at sent
  rcases Option.map_eq_some_iff.mp taken with ⟨sampler, _, result⟩
  subst result
  exact ⟨rfl, sent⟩

/-- Only the iterations of the loop count and send stats. -/
theorem step_stats {pins : Pins} {device next : Device} {action : DeviceAction}
    (holds : Invariant pins device)
    (outside : action = .receive .mainStep → device.receive.main ≠ .mainLoop)
    (taken : device.step pins action = some next) :
    next.statsCheck = device.statsCheck ∧
      sentAt pins.range apiStatsOffset next.firmware =
        sentAt pins.range apiStatsOffset device.firmware := by
  rcases step_cases taken with ⟨part, _, _, moved⟩ | ⟨middle, _, _, moved, _, create⟩ |
    ⟨main, loop, _⟩ | ⟨value, _, moved⟩ | ⟨_, moved⟩ | ⟨ticks, _, result⟩
  · exact receiveStep_stats holds moved
  · rcases receiveStep_stats holds moved with ⟨check, sent⟩
    rcases adcStep_stats (receiveStep_invariant holds moved) create with ⟨check', sent'⟩
    exact ⟨check'.trans check, sent'.trans sent⟩
  · exact absurd loop (outside main)
  · exact adcStep_stats holds moved
  · exact adcStep_stats holds moved
  · rw [result]
    exact ⟨rfl, rfl⟩

theorem bootCalls_mainStep (path : ReceivePath) :
    bootCalls path.mainStep.main = min (bootCalls path.main + 1) 6 := by
  rw [ReceivePath.mainStep]
  cases pc : path.main with
  | mainLoop =>
      rw [pc]
      rfl
  | _ => rfl

/-- The boot sequence makes one call in each step of `main`. -/
theorem step_bootCalls {pins : Pins} {device next : Device} {action : DeviceAction}
    (taken : device.step pins action = some next) :
    bootCalls next.receive.main =
      min (bootCalls device.receive.main + if isMainStep action then 1 else 0) 6 := by
  have projected := step_receive pins device action next taken
  have kept : bootCalls device.receive.main = min (bootCalls device.receive.main) 6 := by
    cases device.receive.main <;> rfl
  cases action with
  | receive part =>
      rcases runFrom_cons_eq_some.mp projected with ⟨receive, moved, done⟩
      rw [← Option.some.inj done]
      by_cases main : part = .mainStep
      · subst main
        rw [← Option.some.inj moved]
        exact bootCalls_mainStep device.receive
      · have still : isMainStep (.receive part) = false := by
          cases part with
          | mainStep => exact absurd rfl main
          | _ => rfl
        rw [ReceivePath.step_main main moved, still, if_neg Bool.false_ne_true, Nat.add_zero]
        exact kept
  | _ =>
      rw [← Option.some.inj projected]
      exact kept

/-! ## The schedule of the stats -/

theorem step_mainLoop {pins : Pins} {device : Device} (loop : device.receive.main = .mainLoop) :
    device.step pins (.receive .mainStep) = some device.mainLoop := by
  rw [step, loop]

/-- One iteration: the stats are sent and the count restarts, or the count goes on. -/
theorem mainLoop_stats {pins : Pins} {device : Device} (holds : Invariant pins device)
    (loop : device.receive.main = .mainLoop) {count : Nat} (small : count < 101)
    (check : device.statsCheck.toNat = 100 * count) :
    device.mainLoop.statsCheck.toNat = 100 * ((count + 1) % 101) ∧
      sentAt pins.range apiStatsOffset device.mainLoop.firmware =
        sentAt pins.range apiStatsOffset device.firmware ++
          if count = 100 then [statsFrame device.firmware] else [] := by
  have address := (holds.configured (by rw [loop]; decide)).canBaseAddress
  have sent := sentAt_broadcastStats apiStatsOffset address
  rw [if_pos rfl] at sent
  have next : (device.statsCheck + mainThreadCheckIntervalMs).toNat = 100 * (count + 1) := by
    have interval : mainThreadCheckIntervalMs.toNat = 100 := rfl
    rw [UInt32.toNat_add, check, interval]
    omega
  have bound : mainThreadSleepNormalMs < device.statsCheck + mainThreadCheckIntervalMs ↔
      count = 100 := by
    have normal : mainThreadSleepNormalMs.toNat = 10000 := rfl
    rw [UInt32.lt_iff_toNat_lt, next, normal]
    omega
  unfold mainLoop
  dsimp only
  by_cases full : count = 100
  · rw [if_pos (bound.mpr full), if_pos full]
    refine ⟨?_, sent⟩
    rw [full]
    rfl
  · rw [if_neg (fun exceeded => full (bound.mp exceeded)), if_neg full, List.append_nil]
    refine ⟨?_, rfl⟩
    rw [Nat.mod_eq_of_lt (by omega)]
    exact next

/-- The count and the stats after a history of the device. -/
structure OnStatsSchedule (pins : Pins) (actions : List DeviceAction) (device : Device) :
    Prop where
  boot : bootCalls device.receive.main = min (mainSteps actions) 6
  check : device.statsCheck.toNat = 100 * ((mainSteps actions - 6) % 101)
  sent : (sentAt pins.range apiStatsOffset device.firmware).length =
    (mainSteps actions - 6) / 101
  frames : ∀ n frame, (sentAt pins.range apiStatsOffset device.firmware)[n]? = some frame →
    ∃ before after middle, actions = before ++ .receive .mainStep :: after ∧
      runFrom (step pins) reset before = some middle ∧ mainSteps before = 106 + 101 * n ∧
      IsStats pins.range
        (lastWrite pins.range.writtenRate defaultSampleRate middle.dispatched) frame

/-- The stats which were transmitted stay explained by the beginning of the history. -/
theorem OnStatsSchedule.frames_append {pins : Pins} {actions : List DeviceAction}
    {device : Device} (scheduled : OnStatsSchedule pins actions device)
    (action : DeviceAction) {n : Nat} {frame : CanTxFrame}
    (found : (sentAt pins.range apiStatsOffset device.firmware)[n]? = some frame) :
    ∃ before after middle, actions ++ [action] = before ++ .receive .mainStep :: after ∧
      runFrom (step pins) reset before = some middle ∧ mainSteps before = 106 + 101 * n ∧
      IsStats pins.range
        (lastWrite pins.range.writtenRate defaultSampleRate middle.dispatched) frame := by
  rcases scheduled.frames n frame found with ⟨before, after, middle, split, run, count, built⟩
  refine ⟨before, after ++ [action], middle, ?_, run, count, built⟩
  rw [split, List.append_assoc, List.cons_append]

/-- An iteration of the loop. -/
theorem OnStatsSchedule.iterate {pins : Pins} {actions : List DeviceAction} {device : Device}
    (scheduled : OnStatsSchedule pins actions device) (holds : Invariant pins device)
    (reached : runFrom (step pins) reset actions = some device)
    (loop : device.receive.main = .mainLoop) :
    OnStatsSchedule pins (actions ++ [.receive .mainStep]) device.mainLoop := by
  have booted : 6 ≤ mainSteps actions := by
    have boot := scheduled.boot
    rw [loop, bootCalls] at boot
    omega
  have steps : mainSteps (actions ++ [.receive .mainStep]) = mainSteps actions + 1 :=
    mainSteps_append actions (.receive .mainStep)
  have small : (mainSteps actions - 6) % 101 < 101 := Nat.mod_lt _ (by decide)
  rcases mainLoop_stats holds loop small scheduled.check with ⟨check, sent⟩
  have address := (holds.configured (by rw [loop]; decide)).canBaseAddress
  have built : IsStats pins.range device.firmware.updateRateHz (statsFrame device.firmware) :=
    statsFrame_extendedData address
  refine ⟨?_, ?_, ?_, ?_⟩
  · rw [mainLoop_receive, loop, steps, bootCalls]
    omega
  · rw [check, steps]
    omega
  · rw [sent, List.length_append, scheduled.sent, steps]
    split
    · rw [List.length_singleton]
      omega
    · rw [List.length_nil]
      omega
  · intro n frame found
    rw [sent] at found
    by_cases earlier : n < (sentAt pins.range apiStatsOffset device.firmware).length
    · rw [List.getElem?_append_left earlier] at found
      exact scheduled.frames_append _ found
    · rw [List.getElem?_append_right (Nat.le_of_not_lt earlier)] at found
      rw [scheduled.sent] at earlier found
      split at found
      · rename_i full
        rcases List.getElem?_eq_some_iff.mp found with ⟨inside, same⟩
        rw [List.length_singleton] at inside
        rw [List.getElem_singleton] at same
        refine ⟨actions, [], device, rfl, reached, by omega, ?_⟩
        rw [← same, ← holds.updateRateHz]
        exact built
      · rw [List.getElem?_nil] at found
        cases found

/-- Any other step. -/
theorem OnStatsSchedule.advance {pins : Pins} {actions : List DeviceAction}
    {device next : Device} {action : DeviceAction}
    (scheduled : OnStatsSchedule pins actions device) (holds : Invariant pins device)
    (outside : action = .receive .mainStep → device.receive.main ≠ .mainLoop)
    (taken : device.step pins action = some next) :
    OnStatsSchedule pins (actions ++ [action]) next := by
  rcases step_stats holds outside taken with ⟨check, sent⟩
  have boot := step_bootCalls taken
  rw [scheduled.boot] at boot
  have same : mainSteps (actions ++ [action]) - 6 = mainSteps actions - 6 := by
    rw [mainSteps_append]
    split
    · rename_i main
      have booting : min (mainSteps actions) 6 ≠ 6 := by
        rw [← scheduled.boot]
        intro booted
        have isMain : action = .receive .mainStep := by
          cases action with
          | receive part => cases part <;> simp_all [isMainStep]
          | _ => cases main
        apply outside isMain
        cases pc : device.receive.main with
        | mainLoop => rfl
        | _ =>
            rw [pc] at booted
            cases booted
      omega
    · rfl
  refine ⟨?_, ?_, ?_, ?_⟩
  · rw [boot, mainSteps_append]
    omega
  · rw [check, same]
    exact scheduled.check
  · rw [sent, same]
    exact scheduled.sent
  · intro n frame found
    rw [sent] at found
    exact scheduled.frames_append action found

/-- The stats a device transmits, over every interleaving of the threads: there is one call for
every 101 iterations of the loop, and the `n`-th frame carries the rate which the frames
dispatched before that iteration have set. -/
theorem stats_every_101_iterations {pins : Pins} {actions : List DeviceAction}
    {device : Device} (run : runFrom (step pins) reset actions = some device) :
    (sentAt pins.range apiStatsOffset device.firmware).length = (mainSteps actions - 6) / 101 ∧
      ∀ n frame, (sentAt pins.range apiStatsOffset device.firmware)[n]? = some frame →
        ∃ before after middle, actions = before ++ .receive .mainStep :: after ∧
          runFrom (step pins) reset before = some middle ∧ mainSteps before = 106 + 101 * n ∧
          IsStats pins.range
            (lastWrite pins.range.writtenRate defaultSampleRate middle.dispatched) frame := by
  have initially : OnStatsSchedule pins [] reset :=
    ⟨rfl, rfl, rfl, fun n frame found => by cases found⟩
  have scheduled : OnStatsSchedule pins ([] ++ actions) device := by
    refine runFrom_history ?_ rfl initially run
    intro before action device next reached scheduled taken
    have holds := run_invariant reached
    by_cases iteration : action = .receive .mainStep ∧ device.receive.main = .mainLoop
    · rcases iteration with ⟨rfl, loop⟩
      rw [step_mainLoop loop] at taken
      cases taken
      exact scheduled.iterate holds reached loop
    · exact scheduled.advance holds (fun main loop => iteration ⟨main, loop⟩) taken
  exact ⟨scheduled.sent, scheduled.frames⟩

/-- Nothing stops the loop. -/
theorem iterations_run {pins : Pins} {device : Device}
    (loop : device.receive.main = .mainLoop) (iterations : Nat) :
    ∃ final, runFrom (step pins) device (List.replicate iterations (.receive .mainStep)) =
      some final := by
  induction iterations generalizing device with
  | zero => exact ⟨device, rfl⟩
  | succ iterations inductionHypothesis =>
      have loops : device.mainLoop.receive.main = .mainLoop := by rwa [mainLoop_receive]
      rcases inductionHypothesis loops with ⟨final, remaining⟩
      exact ⟨final, runFrom_cons_eq_some.mpr ⟨_, step_mainLoop loop, remaining⟩⟩

/-- The six calls of the boot sequence and 101 iterations. -/
theorem stats_every_101_iterations_first :
    ∃ device frame, runFrom (step ⟨false, false, false⟩) reset
        (List.replicate 6 (.receive .mainStep) ++ List.replicate 101 (.receive .mainStep)) =
          some device ∧
      sentAt (Pins.mk false false false).range apiStatsOffset device.firmware = [frame] ∧
      ∃ rate, IsStats (Pins.mk false false false).range rate frame := by
  have booted : ∃ device, runFrom (step ⟨false, false, false⟩) reset
      (List.replicate 6 (.receive .mainStep)) = some device ∧
      device.receive.main = .mainLoop := ⟨_, rfl, rfl⟩
  rcases booted with ⟨device, boot, loop⟩
  rcases iterations_run loop 101 with ⟨final, iterations⟩
  have run := runFrom_append_eq_some.mpr ⟨device, boot, iterations⟩
  rcases stats_every_101_iterations run with ⟨sent, frames⟩
  rw [mainSteps, List.countP_append, List.countP_replicate, List.countP_replicate] at sent
  rcases List.length_eq_one_iff.mp sent with ⟨frame, only⟩
  rcases frames 0 frame (by rw [only]; rfl) with ⟨_, _, _, _, _, _, built⟩
  exact ⟨final, frame, run, only, _, built⟩

end Device
end AnalogX

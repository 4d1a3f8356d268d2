import AnalogX.Kernel.TimerService

namespace AnalogX
namespace Kernel

open Foundations

/-!
# How long a timer takes

Between the call that arms a timer and its callback the counter makes at least the
requested number of ticks, in every order of the steps.  When the interrupt is
entered and left before the counter moves on, it makes at most one tick more: the
alarm is never programmed closer than two ticks ahead, and a timer which becomes the
first one a tick before its deadline has to wait for that alarm.
-/

namespace TimerService

variable {Timer : Type*} {service next final : TimerService Timer}

/-- The ticks in a list of actions. -/
def ticks : List (VirtualTimers.Action Timer) → Nat
  | [] => 0
  | .elapse :: rest => ticks rest + 1
  | _ :: rest => ticks rest

/-- The actions which take the deadline of a timer away. -/
def Clears (timer : Timer) : VirtualTimers.Action Timer → Prop
  | .reset other => other = timer
  | .serve other => other = timer
  | _ => False

/-- What one step of the service does, deadline by deadline. -/
theorem step_cases {action : VirtualTimers.Action Timer}
    (taken : service.step action = some next) :
    (action = .elapse ∧ next = { service with now := service.now + 1 }) ∨
      (∃ timer delay, action = .set timer delay ∧ next.now = service.now ∧
        service.deadline timer = none ∧
        next.deadline timer = some (service.now + max 2 delay.toNat) ∧
        ∀ other, other ≠ timer → next.deadline other = service.deadline other) ∨
      (∃ timer, (action = .reset timer ∨ action = .serve timer ∧ service.Due timer) ∧
        next.now = service.now ∧ next.deadline timer = none ∧
        ∀ other, other ≠ timer → next.deadline other = service.deadline other) ∨
      ((action = .enter ∨ action = .leave) ∧ next = service) := by
  classical
  cases action with
  | elapse =>
      cases taken
      exact Or.inl ⟨rfl, rfl⟩
  | set timer delay =>
      simp only [step] at taken
      split at taken
      case isFalse => cases taken
      case isTrue unset =>
        cases taken
        refine Or.inr (Or.inl ⟨timer, delay, rfl, rfl, unset, ?_, ?_⟩)
        · simp only [Function.update_self]
        · intro other different
          simp only [Function.update_of_ne different]
  | reset timer =>
      simp only [step] at taken
      split at taken
      case isTrue => cases taken
      case isFalse =>
        cases taken
        refine Or.inr (Or.inr (Or.inl ⟨timer, Or.inl rfl, rfl, ?_, ?_⟩))
        · simp only [Function.update_self]
        · intro other different
          simp only [Function.update_of_ne different]
  | enter =>
      cases taken
      exact Or.inr (Or.inr (Or.inr ⟨Or.inl rfl, rfl⟩))
  | serve timer =>
      simp only [step] at taken
      split at taken
      case isFalse => cases taken
      case isTrue due =>
        cases taken
        refine Or.inr (Or.inr (Or.inl ⟨timer, Or.inr ⟨rfl, due⟩, rfl, ?_, ?_⟩))
        · simp only [Function.update_self]
        · intro other different
          simp only [Function.update_of_ne different]
  | callHeader => cases taken
  | leave =>
      cases taken
      exact Or.inr (Or.inr (Or.inr ⟨Or.inr rfl, rfl⟩))

/-- A deadline stays as it is until it is cleared. -/
theorem deadline_step {action : VirtualTimers.Action Timer} {timer : Timer} {due : Nat}
    (known : service.deadline timer = some due) (kept : ¬ Clears timer action)
    (taken : service.step action = some next) : next.deadline timer = some due := by
  rcases step_cases taken with
    ⟨rfl, rfl⟩ | ⟨other, delay, rfl, -, unset, -, others⟩ | ⟨other, cleared, -, -, others⟩ |
      ⟨-, rfl⟩
  · exact known
  · have different : timer ≠ other := by
      rintro rfl
      rw [known] at unset
      cases unset
    rw [others timer different, known]
  · have different : timer ≠ other := by
      rintro rfl
      rcases cleared with rfl | ⟨rfl, -⟩ <;> exact kept rfl
    rw [others timer different, known]
  · exact known

theorem now_step {action : VirtualTimers.Action Timer}
    (taken : service.step action = some next) : next.now = service.now + ticks [action] := by
  rcases step_cases taken with
    ⟨rfl, rfl⟩ | ⟨timer, delay, rfl, same, -⟩ | ⟨timer, rfl | ⟨rfl, -⟩, same, -⟩ |
      ⟨rfl | rfl, rfl⟩
  · rfl
  all_goals first | exact same | rfl

theorem ticks_cons (action : VirtualTimers.Action Timer)
    (rest : List (VirtualTimers.Action Timer)) :
    ticks (action :: rest) = ticks [action] + ticks rest := by
  cases action
  case elapse => exact Nat.add_comm _ _
  all_goals exact (Nat.zero_add _).symm

/-- The clock of the service counts the ticks of the run, and a deadline that is not
cleared is the same at its end. -/
theorem run_keeps_deadline {actions : List (VirtualTimers.Action Timer)} {timer : Timer}
    {due : Nat} (run : runFrom step service actions = some final)
    (known : service.deadline timer = some due)
    (kept : ∀ action ∈ actions, ¬ Clears timer action) :
    final.deadline timer = some due ∧ final.now = service.now + ticks actions := by
  induction actions generalizing service with
  | nil =>
      cases run
      exact ⟨known, rfl⟩
  | cons action rest inductionHypothesis =>
      rcases runFrom_cons_eq_some.mp run with ⟨middle, taken, remaining⟩
      have still := deadline_step known (kept action List.mem_cons_self) taken
      obtain ⟨unchanged, counted⟩ := inductionHypothesis remaining still
        (fun later member => kept later (List.mem_cons_of_mem _ member))
      refine ⟨unchanged, ?_⟩
      rw [counted, now_step taken, ticks_cons action rest, Nat.add_assoc]

/-- No open deadline has passed by more than one tick. -/
def Timely (service : TimerService Timer) : Prop :=
  ∀ timer due, service.deadline timer = some due → service.now ≤ due + 1

/-- Only the passing of time can make a service late. -/
theorem Timely.step (timely : service.Timely) {action : VirtualTimers.Action Timer}
    (still : action ≠ .elapse) (taken : service.step action = some next) : next.Timely := by
  intro other due found
  rcases step_cases taken with
    ⟨rfl, -⟩ | ⟨timer, delay, -, same, -, new, others⟩ | ⟨timer, -, same, gone, others⟩ | ⟨-, rfl⟩
  · exact absurd rfl still
  · by_cases self : other = timer
    · subst self
      rw [new] at found
      cases found
      omega
    · rw [others other self] at found
      rw [same]
      exact timely other due found
  · by_cases self : other = timer
    · subst self
      rw [gone] at found
      cases found
    · rw [others other self] at found
      rw [same]
      exact timely other due found
  · exact timely other due found

/-- The service as it stands when a timer is served that was armed some actions ago. -/
theorem due_when_served {before between : List (VirtualTimers.Action Timer)} {timer : Timer}
    {delay : Systime}
    (run : runFrom step initial
      (before ++ .set timer delay :: (between ++ [.serve timer])) = some final)
    (kept : ∀ action ∈ between, ¬ Clears timer action) :
    ∃ service due,
      runFrom step initial
        (before ++ .set timer delay :: between) = some service ∧
      service.deadline timer = some due ∧ due ≤ service.now ∧
      service.now + max 2 delay.toNat = due + ticks between := by
  rcases runFrom_append_eq_some.mp run with ⟨arming, reached, rest⟩
  rcases runFrom_cons_eq_some.mp rest with ⟨armed, set, remaining⟩
  rcases runFrom_append_eq_some.mp remaining with ⟨service, waited, serving⟩
  rcases runFrom_cons_eq_some.mp serving with ⟨served, taken, -⟩
  have prior : runFrom step initial
      (before ++ .set timer delay :: between) = some service := by
    exact runFrom_append_eq_some.mpr
      ⟨arming, reached, runFrom_cons_eq_some.mpr ⟨armed, set, waited⟩⟩
  rcases step_cases set with
    ⟨none, -⟩ | ⟨_, _, same, now, -, new, -⟩ | ⟨_, none | ⟨none, -⟩, -⟩ | ⟨none | none, -⟩
  case inr.inl =>
    cases same
    obtain ⟨known, counted⟩ := run_keeps_deadline waited new kept
    rcases step_cases taken with
      ⟨none, -⟩ | ⟨_, _, none, -⟩ | ⟨_, none | ⟨same, due⟩, -⟩ | ⟨none | none, -⟩
    case inr.inr.inl.inr =>
      cases same
      obtain ⟨deadline, found, come, -⟩ := due
      rw [known] at found
      cases found
      exact ⟨service, _, prior, known, come, by omega⟩
    all_goals cases none
  all_goals cases none

end TimerService

namespace VirtualTimers

variable {Timer : Type*}

/-- The interrupt is entered and left before the counter moves on. -/
def Prompt (system : VirtualTimers Timer) : Action Timer → Prop
  | .elapse => system.pending = false ∧ system.handler = .idle
  | _ => True

/-- A prompt interrupt within the range of the counter. -/
def FitsPromptly (system : VirtualTimers Timer) [DecidableEq Timer] (action : Action Timer) :
    Prop :=
  system.Fits action ∧ system.Prompt action

/-- Corresponding states of which the service is not late. -/
def SimulatesTimely (system : VirtualTimers Timer) (service : TimerService Timer) : Prop :=
  Simulates system service ∧ service.Timely

/-- Without a requested interrupt the alarm is still ahead, so the next tick makes no
deadline late. -/
theorem timely_elapse {system : VirtualTimers Timer} {service : TimerService Timer}
    (simulates : Simulates system service) (quiet : ¬ system.Signalled) :
    TimerService.Timely { service with now := service.now + 1 } := by
  obtain ⟨base, represents⟩ := simulates
  intro timer due found
  rcases represents.alarmFor found with signalled | ⟨alarm, future, bounded, -⟩
  · exact absurd signalled quiet
  · show service.now + 1 ≤ due + 1
    omega

theorem step_simulatesTimely [DecidableEq Timer] (system : VirtualTimers Timer)
    (service : TimerService Timer) (action : Action Timer) (next : VirtualTimers Timer)
    (simulates : SimulatesTimely system service) (fits : system.FitsPromptly action)
    (taken : system.step action = some next) :
    ∃ serviceNext, service.step action = some serviceNext ∧
      SimulatesTimely next serviceNext := by
  obtain ⟨serviceNext, served, still⟩ :=
    step_simulates system service action next simulates.1 fits.1 taken
  refine ⟨serviceNext, served, still, ?_⟩
  by_cases passing : action = .elapse
  · subst passing
    cases served
    refine timely_elapse simulates.1 ?_
    rintro (serving | ⟨pending, -⟩)
    · rw [fits.2.2] at serving
      cases serving
    · rw [fits.2.1] at pending
      cases pending
  · exact simulates.2.step passing served

theorem simulatesTimely_vtInit :
    SimulatesTimely (vtInit : VirtualTimers Timer) TimerService.initial := by
  refine ⟨simulates_vtInit, ?_⟩
  intro timer due found
  cases found

variable [DecidableEq Timer]

instance (system : VirtualTimers Timer) (action : Action Timer) :
    Decidable (system.Prompt action) :=
  match action with
  | .elapse => inferInstanceAs (Decidable (_ ∧ _))
  | .set _ _ | .reset _ | .enter | .serve _ | .callHeader | .leave =>
      inferInstanceAs (Decidable True)

/-- A timer is served no earlier than it was asked for, in whatever order the other
requests, the ticks and the interrupt come.  With a prompt interrupt it is served at
most one tick later. -/
theorem served_on_time {system : VirtualTimers Timer} {before between : List (Action Timer)}
    {timer : Timer} {delay : Systime}
    (run : runFrom step vtInit (before ++ .set timer delay :: (between ++ [.serve timer])) =
      some system)
    (fits : Guarded step Fits vtInit
      (before ++ .set timer delay :: (between ++ [.serve timer])))
    (kept : ∀ action ∈ between, ¬ TimerService.Clears timer action) :
    max 2 delay.toNat ≤ TimerService.ticks between ∧
      (Guarded step Prompt vtInit
          (before ++ .set timer delay :: (between ++ [.serve timer])) →
        TimerService.ticks between ≤ max 2 delay.toNat + 1) := by
  obtain ⟨service, served, -⟩ := fits.simulates step_simulates run simulates_vtInit
  obtain ⟨waiting, due, reached, known, come, elapsed⟩ :=
    TimerService.due_when_served served kept
  refine ⟨by omega, ?_⟩
  intro prompt
  have split : before ++ .set timer delay :: (between ++ [.serve timer]) =
      (before ++ .set timer delay :: between) ++ [.serve timer] := by
    rw [List.append_assoc, List.cons_append]
  rw [split] at run fits prompt
  obtain ⟨state, prior, -⟩ := runFrom_append_eq_some.mp run
  obtain ⟨again, sameRun, -, timely⟩ := (fits.of_append.and prompt.of_append).simulates
    step_simulatesTimely prior simulatesTimely_vtInit
  rw [reached] at sameRun
  cases sameRun
  have late := timely timer due known
  omega

/-- The timer that becomes the first one a tick before its deadline is served a tick
late. -/
theorem served_on_time_behind_other :
    let between : List (Action Bool) :=
      [.elapse, .elapse, .elapse, .elapse, .elapse, .enter, .serve false, .leave, .elapse,
        .elapse, .enter]
    TimerService.ticks between = 7 ∧ max 2 (6 : Systime).toNat ≤ TimerService.ticks between ∧
      TimerService.ticks between ≤ max 2 (6 : Systime).toNat + 1 := by
  intro between
  have kept : ∀ action ∈ between, ¬ TimerService.Clears true action := by
    simp [between, TimerService.Clears]
  obtain ⟨system, run⟩ : ∃ system, runFrom step vtInit
      ([.set false 5] ++ .set true 6 :: (between ++ [.serve true])) = some system :=
    Option.isSome_iff_exists.mp (by decide)
  have served := served_on_time run (by decide) kept
  exact ⟨rfl, served.1, served.2 (by decide)⟩

end VirtualTimers

end Kernel
end AnalogX

import Mathlib.Data.List.Basic
import Mathlib.Tactic.Common

namespace AnalogX
namespace Foundations

/-!
# Finite runs of a partial step function

A component that takes one action at a time is a partial step function on its
states: `none` refuses an action that is not enabled.  A run executes a finite
list of actions and is itself refused as soon as one of them is.  Because every
prefix of a run is again a run, a statement about the last state of every run is
a statement about every state that is ever reached.

Guarded runs carry a condition on each action in the state where it is taken.
They serve for laws which hold only as long as the environment keeps away from
some transition.  A run that is not guarded has a first violation, so what such
a violation makes permanent can be followed to the end of the run.
-/

variable {State Action : Type*}

/-- Execute the actions in order, refusing the run at the first refused action. -/
def runFrom (step : State → Action → Option State) (state : State)
    (actions : List Action) : Option State :=
  actions.foldlM step state

variable {step : State → Action → Option State}

theorem runFrom_cons (state : State) (action : Action) (rest : List Action) :
    runFrom step state (action :: rest) =
      (step state action).bind fun next => runFrom step next rest :=
  rfl

/-- A nonempty run splits at its first action. -/
theorem runFrom_cons_eq_some {state final : State} {action : Action} {rest : List Action} :
    runFrom step state (action :: rest) = some final ↔
      ∃ next, step state action = some next ∧ runFrom step next rest = some final := by
  rw [runFrom_cons, Option.bind_eq_some_iff]

/-- Runs compose: the second list starts where the first one ended. -/
theorem runFrom_append (state : State) (first second : List Action) :
    runFrom step state (first ++ second) =
      (runFrom step state first).bind fun middle => runFrom step middle second := by
  unfold runFrom
  rw [List.foldlM_append]
  rfl

theorem runFrom_append_eq_some {state final : State} {first second : List Action} :
    runFrom step state (first ++ second) = some final ↔
      ∃ middle, runFrom step state first = some middle ∧
        runFrom step middle second = some final := by
  rw [runFrom_append, Option.bind_eq_some_iff]

/-! ## Guarded runs and their invariants -/

/-- Every action meets the guard in the state where it is taken. -/
def Guarded (step : State → Action → Option State) (guard : State → Action → Prop) :
    State → List Action → Prop
  | _, [] => True
  | state, action :: rest =>
      guard state action ∧ ∀ next, step state action = some next → Guarded step guard next rest

variable {guard : State → Action → Prop}

/-- Whether a concrete run is guarded can be evaluated along its states. -/
instance Guarded.decidable [∀ state action, Decidable (guard state action)] :
    ∀ (state : State) (actions : List Action), Decidable (Guarded step guard state actions)
  | _, [] => isTrue trivial
  | state, action :: rest =>
      match taken : step state action with
      | none =>
          decidable_of_iff (guard state action)
            ⟨fun allowed => ⟨allowed, fun _ reached => by rw [taken] at reached; cases reached⟩,
              And.left⟩
      | some next =>
          have := Guarded.decidable next rest
          decidable_of_iff (guard state action ∧ Guarded step guard next rest)
            ⟨fun ⟨allowed, later⟩ => ⟨allowed, fun other reached => by
                rw [taken] at reached
                cases reached
                exact later⟩,
              fun guarded => ⟨guarded.1, guarded.2 next taken⟩⟩

/-- Actions which the guard allows in every state. -/
theorem Guarded.of_forall {state : State} {actions : List Action}
    (allowed : ∀ action ∈ actions, ∀ state, guard state action) :
    Guarded step guard state actions := by
  induction actions generalizing state with
  | nil => exact trivial
  | cons action rest inductionHypothesis =>
      refine ⟨allowed action List.mem_cons_self state, ?_⟩
      intro next _
      exact inductionHypothesis fun later member => allowed later (List.mem_cons_of_mem _ member)

/-- Two guards which hold along a run hold together. -/
theorem Guarded.and {other : State → Action → Prop} {state : State} {actions : List Action}
    (first : Guarded step guard state actions) (second : Guarded step other state actions) :
    Guarded step (fun state action => guard state action ∧ other state action) state actions := by
  induction actions generalizing state with
  | nil => exact trivial
  | cons action rest inductionHypothesis =>
      refine ⟨⟨first.1, second.1⟩, ?_⟩
      intro next taken
      exact inductionHypothesis (first.2 next taken) (second.2 next taken)

/-- A guarded run is guarded up to any of its states. -/
theorem Guarded.of_append {state : State} {first second : List Action}
    (guarded : Guarded step guard state (first ++ second)) :
    Guarded step guard state first := by
  induction first generalizing state with
  | nil => exact trivial
  | cons action rest inductionHypothesis =>
      refine ⟨guarded.1, ?_⟩
      intro next taken
      exact inductionHypothesis (guarded.2 next taken)

/-- A guarded run is guarded from any of its states on. -/
theorem Guarded.of_run {state middle : State} {first second : List Action}
    (guarded : Guarded step guard state (first ++ second))
    (run : runFrom step state first = some middle) : Guarded step guard middle second := by
  induction first generalizing state with
  | nil =>
      cases run
      exact guarded
  | cons action rest inductionHypothesis =>
      rcases runFrom_cons_eq_some.mp run with ⟨next, taken, remaining⟩
      exact inductionHypothesis (guarded.2 next taken) remaining

/-- The invariant rule.  One step lemma, used only at guarded actions, carries a
property of the first state to the last state of a guarded run. -/
theorem Guarded.invariant {invariant : State → Prop}
    (preserved : ∀ state action next, invariant state → guard state action →
      step state action = some next → invariant next)
    {state final : State} {actions : List Action}
    (guarded : Guarded step guard state actions)
    (run : runFrom step state actions = some final)
    (holds : invariant state) : invariant final := by
  induction actions generalizing state with
  | nil =>
      cases run
      exact holds
  | cons action rest inductionHypothesis =>
      rcases runFrom_cons_eq_some.mp run with ⟨next, taken, remaining⟩
      exact inductionHypothesis (guarded.2 next taken) remaining
        (preserved state action next holds guarded.1 taken)

/-- The invariant rule for a property which every enabled action preserves. -/
theorem runFrom_invariant {invariant : State → Prop}
    (preserved : ∀ state action next, invariant state →
      step state action = some next → invariant next)
    {state final : State} {actions : List Action}
    (run : runFrom step state actions = some final)
    (holds : invariant state) : invariant final := by
  induction actions generalizing state with
  | nil =>
      cases run
      exact holds
  | cons action rest inductionHypothesis =>
      rcases runFrom_cons_eq_some.mp run with ⟨next, taken, remaining⟩
      exact inductionHypothesis remaining (preserved state action next holds taken)

/-- The invariant rule for a property whose step lemma rests on an invariant that
is already established. -/
theorem runFrom_invariant_under {invariant property : State → Prop}
    (established : ∀ state action next, invariant state →
      step state action = some next → invariant next)
    (preserved : ∀ state action next, invariant state → property state →
      step state action = some next → property next)
    {state final : State} {actions : List Action}
    (run : runFrom step state actions = some final)
    (holds : invariant state) (initially : property state) : property final := by
  induction actions generalizing state with
  | nil =>
      cases run
      exact initially
  | cons action rest inductionHypothesis =>
      rcases runFrom_cons_eq_some.mp run with ⟨next, taken, remaining⟩
      exact inductionHypothesis remaining (established state action next holds taken)
        (preserved state action next holds initially taken)

/-- The rule for properties which relate a state to the actions that led to it. -/
theorem runFrom_history {property : List Action → State → Prop} {start : State}
    (extended : ∀ before action state next, runFrom step start before = some state →
      property before state → step state action = some next → property (before ++ [action]) next)
    {before actions : List Action} {state final : State}
    (earlier : runFrom step start before = some state) (holds : property before state)
    (run : runFrom step state actions = some final) : property (before ++ actions) final := by
  induction actions generalizing before state with
  | nil =>
      cases run
      rwa [List.append_nil]
  | cons action rest inductionHypothesis =>
      rcases runFrom_cons_eq_some.mp run with ⟨next, taken, remaining⟩
      have reached : runFrom step start (before ++ [action]) = some next :=
        runFrom_append_eq_some.mpr ⟨state, earlier, runFrom_cons_eq_some.mpr ⟨next, taken, rfl⟩⟩
      rw [List.append_cons]
      exact inductionHypothesis reached (extended before action state next earlier holds taken)
        remaining

/-- A completed run is guarded, or it takes some action against the guard.  The
violating state, its successor and the rest of the run are returned explicitly. -/
theorem guarded_or_violation {state final : State} {actions : List Action}
    (run : runFrom step state actions = some final) :
    Guarded step guard state actions ∨
      ∃ before action after middle next,
        actions = before ++ action :: after ∧
        runFrom step state before = some middle ∧ ¬ guard middle action ∧
        step middle action = some next ∧ runFrom step next after = some final := by
  induction actions generalizing state with
  | nil => exact Or.inl trivial
  | cons action rest inductionHypothesis =>
      rcases runFrom_cons_eq_some.mp run with ⟨next, taken, remaining⟩
      by_cases allowed : guard state action
      · rcases inductionHypothesis remaining with guarded | violation
        · refine Or.inl ⟨allowed, ?_⟩
          intro other otherTaken
          rw [taken] at otherTaken
          cases otherTaken
          exact guarded
        · rcases violation with ⟨before, bad, after, middle, later, split, reached, refused, rest⟩
          refine Or.inr ⟨action :: before, bad, after, middle, later, ?_, ?_, refused, rest⟩
          · rw [split, List.cons_append]
          · exact runFrom_cons_eq_some.mpr ⟨next, taken, reached⟩
      · exact Or.inr ⟨[], action, rest, state, next, rfl, rfl, allowed, taken, remaining⟩

/-! ## Components of a system -/

/-- Guarded runs compose. -/
theorem Guarded.append {state middle : State} {first second : List Action}
    (guarded : Guarded step guard state first)
    (run : runFrom step state first = some middle)
    (later : Guarded step guard middle second) :
    Guarded step guard state (first ++ second) := by
  induction first generalizing state with
  | nil =>
      cases run
      exact later
  | cons action rest inductionHypothesis =>
      rcases runFrom_cons_eq_some.mp run with ⟨next, taken, remaining⟩
      refine ⟨guarded.1, ?_⟩
      intro other otherTaken
      rw [taken] at otherTaken
      cases otherTaken
      exact inductionHypothesis (guarded.2 next taken) remaining

/-- What a system does to one of its components is a run of the component.  Every
action of the system is labelled with the steps the component takes in it, none
or several, and the guard of the system has to ensure that of the component. -/
theorem Guarded.project {Component Label : Type*}
    {componentStep : Component → Label → Option Component}
    {componentGuard : Component → Label → Prop}
    (project : State → Component) (label : State → Action → List Label)
    (matched : ∀ state action next, step state action = some next →
      runFrom componentStep (project state) (label state action) = some (project next))
    (respected : ∀ state action, guard state action →
      Guarded componentStep componentGuard (project state) (label state action))
    {state final : State} {actions : List Action}
    (guarded : Guarded step guard state actions)
    (run : runFrom step state actions = some final) :
    ∃ labels, runFrom componentStep (project state) labels = some (project final) ∧
      Guarded componentStep componentGuard (project state) labels := by
  induction actions generalizing state with
  | nil =>
      cases run
      exact ⟨[], rfl, trivial⟩
  | cons action rest inductionHypothesis =>
      rcases runFrom_cons_eq_some.mp run with ⟨next, taken, remaining⟩
      rcases inductionHypothesis (guarded.2 next taken) remaining with ⟨labels, reached, kept⟩
      have first := matched state action next taken
      refine ⟨label state action ++ labels, ?_, ?_⟩
      · exact runFrom_append_eq_some.mpr ⟨project next, first, reached⟩
      · exact (respected state action guarded.1).append first kept

/-! ## Simulation -/

/-- The simulation rule.  When every guarded step is matched by a step of an abstract
system under the same action, a guarded run is a run of the abstract system. -/
theorem Guarded.simulates {Abstract : Type*}
    {abstractStep : Abstract → Action → Option Abstract} {related : State → Abstract → Prop}
    (matched : ∀ state abstract action next, related state abstract → guard state action →
      step state action = some next →
      ∃ abstractNext, abstractStep abstract action = some abstractNext ∧
        related next abstractNext)
    {state final : State} {abstract : Abstract} {actions : List Action}
    (guarded : Guarded step guard state actions)
    (run : runFrom step state actions = some final) (initially : related state abstract) :
    ∃ abstractFinal, runFrom abstractStep abstract actions = some abstractFinal ∧
      related final abstractFinal := by
  induction actions generalizing state abstract with
  | nil =>
      cases run
      exact ⟨abstract, rfl, initially⟩
  | cons action rest inductionHypothesis =>
      rcases runFrom_cons_eq_some.mp run with ⟨next, taken, remaining⟩
      rcases matched state abstract action next initially guarded.1 taken with
        ⟨abstractNext, abstractTaken, stillRelated⟩
      rcases inductionHypothesis (guarded.2 next taken) remaining stillRelated with
        ⟨abstractFinal, abstractRun, related⟩
      exact ⟨abstractFinal, runFrom_cons_eq_some.mpr ⟨abstractNext, abstractTaken, abstractRun⟩,
        related⟩

/-- The simulation rule for a system whose steps are matched by several steps of the
abstract one, or by none. -/
theorem Guarded.refines {Abstract Label : Type*}
    {abstractStep : Abstract → Label → Option Abstract} {related : State → Abstract → Prop}
    (matched : ∀ state abstract action next, related state abstract → guard state action →
      step state action = some next →
      ∃ labels abstractNext, runFrom abstractStep abstract labels = some abstractNext ∧
        related next abstractNext)
    {state final : State} {abstract : Abstract} {actions : List Action}
    (guarded : Guarded step guard state actions)
    (run : runFrom step state actions = some final) (initially : related state abstract) :
    ∃ labels abstractFinal, runFrom abstractStep abstract labels = some abstractFinal ∧
      related final abstractFinal := by
  induction actions generalizing state abstract with
  | nil =>
      cases run
      exact ⟨[], abstract, rfl, initially⟩
  | cons action rest inductionHypothesis =>
      rcases runFrom_cons_eq_some.mp run with ⟨next, taken, remaining⟩
      rcases matched state abstract action next initially guarded.1 taken with
        ⟨first, abstractNext, abstractTaken, stillRelated⟩
      rcases inductionHypothesis (guarded.2 next taken) remaining stillRelated with
        ⟨later, abstractFinal, abstractRun, related⟩
      exact ⟨first ++ later, abstractFinal,
        runFrom_append_eq_some.mpr ⟨abstractNext, abstractTaken, abstractRun⟩, related⟩

end Foundations
end AnalogX

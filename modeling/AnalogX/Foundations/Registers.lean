import Mathlib.Data.List.Basic

namespace AnalogX
namespace Foundations

/-!
# Registers written by a stream of events

A register that some events overwrite and the others leave alone holds, after
any finite stream, the value of the last overwriting event.  The laws below
follow the stream event by event, so that a loop which updates its variable step
by step is described by the whole history of the loop.
-/

variable {Event Value : Type*}

/-- The last value written by the events, or the initial value if none writes. -/
def lastWrite (write : Event → Option Value) (initial : Value) (events : List Event) : Value :=
  (events.filterMap write).getLast?.getD initial

@[simp] theorem lastWrite_nil (write : Event → Option Value) (initial : Value) :
    lastWrite write initial [] = initial :=
  rfl

/-- A write at the head is the initial value seen by the rest of the stream. -/
theorem lastWrite_cons (write : Event → Option Value) (initial : Value)
    (event : Event) (rest : List Event) :
    lastWrite write initial (event :: rest) =
      lastWrite write ((write event).getD initial) rest := by
  unfold lastWrite
  cases written : write event with
  | none => rw [List.filterMap_cons_none written, Option.getD_none]
  | some value =>
      rw [List.filterMap_cons_some written, List.getLast?_cons, Option.getD_some, Option.getD_some]

/-- The register after two streams is the register of the second one, started
with the value the first one left behind. -/
theorem lastWrite_append (write : Event → Option Value) (initial : Value)
    (first second : List Event) :
    lastWrite write initial (first ++ second) =
      lastWrite write (lastWrite write initial first) second := by
  induction first generalizing initial with
  | nil => rfl
  | cons event rest inductionHypothesis =>
      rw [List.cons_append, lastWrite_cons, lastWrite_cons, inductionHypothesis]

/-- The register holds its initial value, or the value of an event that occurred. -/
theorem lastWrite_cases (write : Event → Option Value) (initial : Value) (events : List Event) :
    ((∀ event ∈ events, write event = none) ∧ lastWrite write initial events = initial) ∨
      ∃ event ∈ events, write event = some (lastWrite write initial events) := by
  induction events generalizing initial with
  | nil => exact Or.inl ⟨fun event member => absurd member List.not_mem_nil, rfl⟩
  | cons event rest inductionHypothesis =>
      rw [lastWrite_cons]
      rcases inductionHypothesis ((write event).getD initial) with ⟨silent, kept⟩ | later
      · rw [kept]
        cases written : write event with
        | none =>
            refine Or.inl ⟨?_, rfl⟩
            intro other member
            rcases List.mem_cons.mp member with same | member
            · rw [same, written]
            · exact silent other member
        | some value => exact Or.inr ⟨event, List.mem_cons_self, written⟩
      · rcases later with ⟨other, member, written⟩
        exact Or.inr ⟨other, List.mem_cons_of_mem event member, written⟩

end Foundations
end AnalogX

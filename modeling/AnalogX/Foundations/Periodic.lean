import Mathlib.Data.List.Basic
import Mathlib.Tactic.Common

namespace AnalogX
namespace Foundations

/-!
# Periodic events

The times of a sequence of events are periodic if the event with index `n` falls
into the `n`-th period, wherever in it.  The number of events in a window of time
is then determined up to one: every period that ends in the window has its event
there, and only a period that begins in the window can have one.
-/

section Counting

variable {Element : Type*} {p : Element → Bool} {elements : List Element} {count : Nat}

/-- The elements with small indices are counted. -/
theorem le_countP_of_initial (long : count ≤ elements.length)
    (initial : ∀ index element, elements[index]? = some element → index < count →
      p element = true) :
    count ≤ elements.countP p := by
  have all : ∀ element ∈ elements.take count, p element = true := by
    intro element member
    rcases List.getElem?_of_mem member with ⟨index, found⟩
    rw [List.getElem?_take] at found
    split at found
    · rename_i inside
      exact initial index element found inside
    · cases found
  calc
    count = (elements.take count).length := (List.length_take_of_le long).symm
    _ = (elements.take count).countP p := (List.countP_eq_length.mpr all).symm
    _ ≤ elements.countP p := (List.take_sublist count elements).countP_le

/-- Only elements with small indices are counted. -/
theorem countP_le_of_beyond
    (beyond : ∀ index element, elements[index]? = some element → count ≤ index →
      p element = false) :
    elements.countP p ≤ count := by
  have none : (elements.drop count).countP p = 0 := by
    apply List.countP_eq_zero.mpr
    intro element member
    rcases List.getElem?_of_mem member with ⟨index, found⟩
    rw [List.getElem?_drop] at found
    rw [beyond (count + index) element found (Nat.le_add_right _ _)]
    exact Bool.false_ne_true
  calc
    elements.countP p = (elements.take count).countP p + (elements.drop count).countP p := by
      rw [← List.countP_append, List.take_append_drop]
    _ = (elements.take count).countP p := by rw [none, Nat.add_zero]
    _ ≤ (elements.take count).length := List.countP_le_length
    _ ≤ count := List.length_take_le _ _

end Counting

/-- Each event falls into the period with its index. -/
def Periodic (period : Nat) (times : List Nat) : Prop :=
  ∀ index time, times[index]? = some time →
    index * period ≤ time ∧ time < index * period + period

/-- The number of events before the end of a window that begins at time zero. -/
def countWithin (window : Nat) (times : List Nat) : Nat :=
  times.countP (· < window)

section Periods

variable {period : Nat} {times : List Nat}

theorem periodic_nil (period : Nat) : Periodic period [] := by
  intro index time found
  cases found

/-- One more event, in the period after those of the events so far. -/
theorem Periodic.concat (periodic : Periodic period times) {time : Nat}
    (begun : times.length * period ≤ time) (room : time < times.length * period + period) :
    Periodic period (times ++ [time]) := by
  intro index other found
  rw [List.getElem?_append] at found
  split at found
  · exact periodic index other found
  · rw [List.getElem?_singleton] at found
    split at found
    · cases found
      have last : index = times.length := by omega
      rw [last]
      exact ⟨begun, room⟩
    · cases found

/-- Every period that ends within the window contributes an event, if it has had one. -/
theorem Periodic.le_countWithin (periodic : Periodic period times) {window count : Nat}
    (long : count ≤ times.length) (periods : count * period ≤ window) :
    count ≤ countWithin window times := by
  apply le_countP_of_initial long
  intro index time found inside
  have limit := (periodic index time found).2
  have order : (index + 1) * period ≤ count * period := Nat.mul_le_mul_right _ inside
  rw [Nat.succ_mul] at order
  apply decide_eq_true
  omega

/-- Only a period that begins within the window contributes an event. -/
theorem Periodic.countWithin_le (periodic : Periodic period times) {window count : Nat}
    (periods : window ≤ count * period) : countWithin window times ≤ count := by
  apply countP_le_of_beyond
  intro index time found beyond
  have begun := (periodic index time found).1
  have order : count * period ≤ index * period := Nat.mul_le_mul_right _ beyond
  apply decide_eq_false
  omega

/-- Events at the very start of their periods are all counted if the last of these
periods begins within the window. -/
theorem le_countWithin_starts {cycles window count : Nat} (enough : count + 1 ≤ cycles)
    (last : count * period < window) :
    count + 1 ≤ countWithin window ((List.range cycles).map (· * period)) := by
  apply le_countP_of_initial
  · rw [List.length_map, List.length_range]
    exact enough
  · intro index time found inside
    rw [List.getElem?_map, List.getElem?_range (Nat.lt_of_lt_of_le inside enough)] at found
    cases found
    apply decide_eq_true
    exact Nat.lt_of_le_of_lt (Nat.mul_le_mul_right _ (Nat.le_of_lt_succ inside)) last

end Periods

end Foundations
end AnalogX

import Mathlib.Algebra.Order.Sub.Basic
import Mathlib.Data.List.Sort
import Mathlib.Tactic.Common

namespace AnalogX
namespace Foundations

/-!
# Delta lists

A delta list holds timed entries in the order in which they fall due.  Only the
distance of an entry to its predecessor is stored, so moving the common base time
touches the first entry alone, however many entries follow it.  The price is that
an entry which is inserted or removed in the middle changes the distance stored
in its successor.

The deadlines below are the meaning of such a list.  Insertion is ordered
insertion by deadline, in front of the entries which are due at the same time,
and removal drops one entry without moving any other deadline.
-/

variable {Key Time : Type*}

section Meaning

variable [Add Time]

/-- The deadlines a delta list stands for, seen from its base time. -/
def deadlines (base : Time) : List (Key × Time) → List (Key × Time)
  | [] => []
  | (key, delta) :: rest => (key, base + delta) :: deadlines (base + delta) rest

theorem deadlines_cons (base delta : Time) (key : Key) (rest : List (Key × Time)) :
    deadlines base ((key, delta) :: rest) =
      (key, base + delta) :: deadlines (base + delta) rest :=
  rfl

/-- The base time does not matter for which entries are in the list. -/
theorem map_fst_deadlines (base : Time) (entries : List (Key × Time)) :
    (deadlines base entries).map Prod.fst = entries.map Prod.fst := by
  induction entries generalizing base with
  | nil => rfl
  | cons entry rest inductionHypothesis =>
      rw [deadlines_cons, List.map_cons, List.map_cons, inductionHypothesis]

/-- Give up the first entry of a list: its distance goes to the next one. -/
def postpone (delta : Time) : List (Key × Time) → List (Key × Time)
  | [] => []
  | (key, distance) :: rest => (key, distance + delta) :: rest

/-- Remove the entry of a key. -/
def removeDelta [DecidableEq Key] (key : Key) : List (Key × Time) → List (Key × Time)
  | [] => []
  | (other, delta) :: rest =>
      if other = key then postpone delta rest else (other, delta) :: removeDelta key rest

/-- Insert an entry at a distance from the base time. -/
def insertDelta [LT Time] [DecidableLT Time] [Sub Time] (key : Key) (delta : Time) :
    List (Key × Time) → List (Key × Time)
  | [] => [(key, delta)]
  | (other, distance) :: rest =>
      if distance < delta then
        (other, distance) :: insertDelta key (delta - distance) rest
      else
        (key, delta) :: (other, distance - delta) :: rest

end Meaning

/-- The order of the deadlines. -/
def DueBefore [LE Time] (first second : Key × Time) : Prop :=
  first.2 ≤ second.2

instance [LE Time] [DecidableLE Time] : DecidableRel (@DueBefore Key Time _) :=
  fun first second => inferInstanceAs (Decidable (first.2 ≤ second.2))

section Removal

variable [AddCommMonoid Time]

/-- Postponing the rest of a list stands for moving its base time. -/
theorem deadlines_postpone (base delta : Time) (rest : List (Key × Time)) :
    deadlines base (postpone delta rest) = deadlines (base + delta) rest := by
  cases rest with
  | nil => rfl
  | cons first rest =>
      have moved : base + (first.2 + delta) = base + delta + first.2 := by
        rw [add_comm first.2 delta, add_assoc]
      rw [postpone, deadlines_cons, moved]
      rfl

/-- Removal takes one deadline out and leaves every other one where it was. -/
theorem deadlines_removeDelta [DecidableEq Key] (base : Time) (key : Key)
    (entries : List (Key × Time)) :
    deadlines base (removeDelta key entries) =
      (deadlines base entries).eraseP (fun entry => entry.1 = key) := by
  induction entries generalizing base with
  | nil => rfl
  | cons first rest inductionHypothesis =>
      rcases first with ⟨other, delta⟩
      by_cases same : other = key
      · rw [removeDelta, if_pos same, deadlines_postpone, deadlines_cons,
          List.eraseP_cons_of_pos (by simpa using same)]
      · rw [removeDelta, if_neg same, deadlines_cons, deadlines_cons, inductionHypothesis,
          List.eraseP_cons_of_neg (by simpa using same)]

end Removal

section Order

variable [AddCommMonoid Time] [LinearOrder Time] [CanonicallyOrderedAdd Time]

/-- No deadline lies before the base time. -/
theorem le_of_mem_deadlines {base : Time} {entries : List (Key × Time)} {entry : Key × Time}
    (member : entry ∈ deadlines base entries) : base ≤ entry.2 := by
  induction entries generalizing base with
  | nil => cases member
  | cons first rest inductionHypothesis =>
      rcases List.mem_cons.mp member with same | later
      · rw [same]
        exact le_self_add
      · exact le_self_add.trans (inductionHypothesis later)

variable [IsOrderedCancelAddMonoid Time] [Sub Time] [OrderedSub Time]

/-- Insertion in a delta list is ordered insertion of the deadline. -/
theorem deadlines_insertDelta (base delta : Time) (key : Key) (entries : List (Key × Time)) :
    deadlines base (insertDelta key delta entries) =
      (deadlines base entries).orderedInsert DueBefore (key, base + delta) := by
  induction entries generalizing base delta with
  | nil => rfl
  | cons first rest inductionHypothesis =>
      rcases first with ⟨other, distance⟩
      by_cases passed : distance < delta
      · have later : ¬ DueBefore (key, base + delta) (other, base + distance) := by
          exact not_le.mpr (add_lt_add_right passed base)
        have rebased : base + distance + (delta - distance) = base + delta := by
          rw [add_assoc, add_tsub_cancel_of_le passed.le]
        rw [insertDelta, if_pos passed, deadlines_cons, inductionHypothesis, rebased,
          deadlines_cons, List.orderedInsert_of_not_le _ _ later]
      · have earlier : DueBefore (key, base + delta) (other, base + distance) := by
          exact add_le_add_right (not_lt.mp passed) base
        have rebased : base + delta + (distance - delta) = base + distance := by
          rw [add_assoc, add_tsub_cancel_of_le (not_lt.mp passed)]
        rw [insertDelta, if_neg passed, deadlines_cons, deadlines_cons, rebased,
          deadlines_cons, List.orderedInsert_cons_of_le _ _ earlier]

end Order

/-- With one entry for each key, removal is exact on the members. -/
theorem mem_eraseP_key [DecidableEq Key] {key : Key} {entries : List (Key × Time)}
    (distinct : (entries.map Prod.fst).Nodup) (entry : Key × Time) :
    entry ∈ entries.eraseP (fun other => other.1 = key) ↔ entry ∈ entries ∧ entry.1 ≠ key := by
  induction entries with
  | nil => simp
  | cons first rest inductionHypothesis =>
      rw [List.map_cons, List.nodup_cons] at distinct
      by_cases same : first.1 = key
      · rw [List.eraseP_cons_of_pos (by simpa using same)]
        constructor
        · intro member
          refine ⟨List.mem_cons_of_mem _ member, ?_⟩
          intro again
          apply distinct.1
          rw [same, ← again]
          exact List.mem_map_of_mem member
        · rintro ⟨member, different⟩
          rcases List.mem_cons.mp member with head | tail
          · exact absurd (head ▸ same) different
          · exact tail
      · rw [List.eraseP_cons_of_neg (by simpa using same), List.mem_cons,
          inductionHypothesis distinct.2, List.mem_cons]
        constructor
        · rintro (head | ⟨tail, different⟩)
          · exact ⟨Or.inl head, head ▸ same⟩
          · exact ⟨Or.inr tail, different⟩
        · rintro ⟨head | tail, different⟩
          · exact Or.inl head
          · exact Or.inr ⟨tail, different⟩

end Foundations
end AnalogX

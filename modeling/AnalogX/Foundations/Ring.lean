import Mathlib.Data.List.Basic
import Mathlib.Logic.Function.Basic
import Mathlib.Tactic.Common

namespace AnalogX
namespace Foundations

/-!
# Ring buffers and counted resources

A ring buffer stores a first-in first-out sequence in a fixed number of cells, between
a read and a write position that both move forward and wrap.  The two positions alone
do not tell a full buffer from an empty one, so its users keep a count beside them.

That count is also what threads wait for.  A counted resource has callers which take
one unit or wait, and a side which releases units and wakes the first of the waiting
callers for each.  A caller that was woken has no unit reserved for it and has to look
again.  Nobody waits in vain nevertheless: as long as callers are waiting, no more units
are free than callers are on their way to take one.
-/

variable {Item Caller : Type*}

/-- The position behind a position. -/
def ringNext (size position : Nat) : Nat :=
  if size ≤ position + 1 then 0 else position + 1

/-- The position of the item at an index, counted from a read position. -/
def ringIndex (size start index : Nat) : Nat :=
  if start + index < size then start + index else start + index - size

theorem ringIndex_next {size start index : Nat} (inside : start < size)
    (bounded : index < size) :
    ringIndex size (ringNext size start) index = ringIndex size start (index + 1) := by
  unfold ringIndex ringNext
  split <;> split <;> split <;> omega

theorem ringNext_ringIndex {size start index : Nat} (inside : start < size)
    (bounded : index < size) :
    ringNext size (ringIndex size start index) = ringIndex size start (index + 1) := by
  unfold ringIndex ringNext
  split <;> split <;> split <;> omega

theorem ringIndex_ne {size start first second : Nat} (ordered : first < second)
    (bounded : second < size) :
    ringIndex size start first ≠ ringIndex size start second := by
  unfold ringIndex
  split <;> split <;> omega

/-- The cells between the positions hold the items in order. -/
structure RingHolds (size : Nat) (cells : Nat → Item) (read write : Nat) (items : List Item) :
    Prop where
  bounded : items.length ≤ size
  read_lt : read < size
  write_eq : write = ringIndex size read items.length
  cell : ∀ index < items.length, items[index]? = some (cells (ringIndex size read index))

namespace RingHolds

variable {size read write : Nat} {cells : Nat → Item} {items : List Item}

theorem nil (cells : Nat → Item) {position : Nat} (inside : position < size) :
    RingHolds size cells position position [] where
  bounded := Nat.zero_le size
  read_lt := inside
  write_eq := by
    unfold ringIndex
    rw [if_pos (by simpa using inside)]
    rfl
  cell := by
    intro index impossible
    cases impossible

/-- Writing one item behind the others. -/
theorem push (holds : RingHolds size cells read write items) (item : Item)
    (room : items.length < size) :
    RingHolds size (Function.update cells write item) read (ringNext size write)
      (items ++ [item]) where
  bounded := by
    rw [List.length_append]
    exact room
  read_lt := holds.read_lt
  write_eq := by
    rw [holds.write_eq, ringNext_ringIndex holds.read_lt room, List.length_append]
    rfl
  cell := by
    intro index inside
    rw [List.length_append, List.length_singleton] at inside
    rcases Nat.lt_or_eq_of_le (Nat.lt_succ_iff.mp inside) with earlier | last
    · have different : ringIndex size read index ≠ write := by
        rw [holds.write_eq]
        exact ringIndex_ne earlier room
      rw [List.getElem?_append_left earlier, Function.update_of_ne different]
      exact holds.cell index earlier
    · subst last
      rw [List.getElem?_append_right (Nat.le_refl _), Nat.sub_self, ← holds.write_eq,
        Function.update_self]
      rfl

/-- Reading the oldest item. -/
theorem pop {item : Item} {rest : List Item}
    (holds : RingHolds size cells read write (item :: rest)) :
    cells read = item ∧ RingHolds size cells (ringNext size read) write rest := by
  have length : rest.length < size := holds.bounded
  have first := holds.cell 0 (Nat.zero_lt_succ _)
  have origin : ringIndex size read 0 = read := by
    unfold ringIndex
    rw [if_pos (by simpa using holds.read_lt)]
    rfl
  rw [origin] at first
  cases first
  refine ⟨rfl, Nat.le_of_lt length, ?_, ?_, ?_⟩
  · unfold ringNext
    have inside := holds.read_lt
    split <;> omega
  · rw [holds.write_eq, List.length_cons, ringIndex_next holds.read_lt length]
  · intro index inside
    rw [ringIndex_next holds.read_lt (Nat.lt_trans inside length)]
    exact holds.cell (index + 1) (Nat.succ_lt_succ inside)

/-- The positions agree for an empty and for a full buffer. -/
theorem write_eq_read_iff (holds : RingHolds size cells read write items) :
    write = read ↔ items.length = 0 ∨ items.length = size := by
  have inside := holds.read_lt
  have bounded := holds.bounded
  rw [holds.write_eq]
  unfold ringIndex
  split <;> omega

end RingHolds

/-! ## Counted resources -/

/-- The free units, the callers which wait for one in order of their arrival, and the
callers which were woken and have not looked yet. -/
structure Waiting (Caller : Type*) where
  free : Nat
  waiting : List Caller
  woken : List Caller

namespace Waiting

/-- One more unit, which wakes the first waiting caller. -/
def release (state : Waiting Caller) : Waiting Caller :=
  match state.waiting with
  | [] => { state with free := state.free + 1 }
  | first :: rest =>
      { free := state.free + 1, waiting := rest, woken := state.woken ++ [first] }

/-- A caller takes a unit or waits for one. -/
def acquire (caller : Caller) (state : Waiting Caller) : Waiting Caller :=
  if state.free = 0 then { state with waiting := state.waiting ++ [caller] }
  else { state with free := state.free - 1 }

/-- While callers wait, all free units are accounted for by callers on their way. -/
def Attended (state : Waiting Caller) : Prop :=
  state.waiting ≠ [] → state.free ≤ state.woken.length

variable {state : Waiting Caller}

theorem Attended.release (attended : state.Attended) : state.release.Attended := by
  unfold Waiting.release
  split
  case h_1 empty =>
    intro waiting
    exact absurd empty waiting
  case h_2 first rest list =>
    intro _
    have units := attended (by rw [list]; exact List.cons_ne_nil _ _)
    show state.free + 1 ≤ (state.woken ++ [first]).length
    rw [List.length_append]
    exact Nat.succ_le_succ units

theorem Attended.acquire (attended : state.Attended) (caller : Caller) :
    (state.acquire caller).Attended := by
  unfold Waiting.acquire
  split
  case isTrue none =>
    intro _
    show state.free ≤ state.woken.length
    omega
  case isFalse =>
    intro waiting
    have units := attended waiting
    show state.free - 1 ≤ state.woken.length
    omega

/-- A woken caller looks again. -/
theorem Attended.resume [BEq Caller] [LawfulBEq Caller] (attended : state.Attended) {caller : Caller}
    (woken : caller ∈ state.woken) :
    (Waiting.acquire caller { state with woken := state.woken.erase caller }).Attended := by
  unfold Waiting.acquire
  split
  case isTrue none =>
    intro _
    have zero : state.free = 0 := none
    show state.free ≤ (state.woken.erase caller).length
    omega
  case isFalse some =>
    intro waiting
    have units := attended waiting
    show state.free - 1 ≤ (state.woken.erase caller).length
    rw [List.length_erase_of_mem woken]
    omega

end Waiting

end Foundations
end AnalogX

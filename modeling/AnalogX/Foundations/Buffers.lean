import Mathlib.Data.List.Induction
import Mathlib.Order.Lattice
import Mathlib.Order.Defs.LinearOrder
import Mathlib.Tactic.Common

namespace AnalogX
namespace Foundations

/-!
# Buffers behind a pointer

The memory behind a pointer is a function from offsets to cells, together with
its extent: one more than the largest offset that was loaded from or stored to.
No access is refused.  Whether a program stays within an array of a given size is
a statement about the extent it leaves behind, and what it computes can be stated
without fixing the size of the array first.

A program that advances its pointer with every store leaves a list in the buffer.
A cursor is such a pointer with the memory behind it, and the lemmas below let the
programs that push to a cursor be described by lists alone.
-/

/-- Memory behind a pointer, with the extent of the accesses made so far. -/
@[ext] structure Buffer (Cell : Type*) where
  cells : Nat → Cell
  extent : Nat

namespace Buffer

variable {Cell : Type*}

/-- Memory with arbitrary contents, not yet accessed. -/
def fresh (cells : Nat → Cell) : Buffer Cell where
  cells := cells
  extent := 0

/-- Record an access. -/
def touch (buffer : Buffer Cell) (index : Nat) : Buffer Cell :=
  { buffer with extent := max buffer.extent (index + 1) }

/-- Load a cell. -/
def load (buffer : Buffer Cell) (index : Nat) : Cell × Buffer Cell :=
  (buffer.cells index, buffer.touch index)

/-- Store to a cell. -/
def store (buffer : Buffer Cell) (index : Nat) (cell : Cell) : Buffer Cell where
  cells := Function.update buffer.cells index cell
  extent := max buffer.extent (index + 1)

/-- Store the cells of a list, one after the other. -/
def storeAll : Buffer Cell → Nat → List Cell → Buffer Cell
  | buffer, _, [] => buffer
  | buffer, start, cell :: rest => (buffer.store start cell).storeAll (start + 1) rest

@[simp] theorem extent_fresh (cells : Nat → Cell) : (fresh cells).extent = 0 := rfl

@[simp] theorem extent_store (buffer : Buffer Cell) (index : Nat) (cell : Cell) :
    (buffer.store index cell).extent = max buffer.extent (index + 1) := rfl

@[simp] theorem cells_store_self (buffer : Buffer Cell) (index : Nat) (cell : Cell) :
    (buffer.store index cell).cells index = cell := by
  unfold store
  dsimp only
  rw [Function.update_self]

theorem cells_store_of_ne (buffer : Buffer Cell) {index other : Nat} (cell : Cell)
    (different : other ≠ index) :
    (buffer.store index cell).cells other = buffer.cells other := by
  unfold store
  dsimp only
  rw [Function.update_of_ne different]

/-- An access below the extent leaves no trace. -/
theorem touch_of_lt {buffer : Buffer Cell} {index : Nat} (inside : index < buffer.extent) :
    buffer.touch index = buffer := by
  unfold touch
  rw [Nat.max_eq_left inside]

/-- The second store to a cell is the one that counts. -/
theorem store_store (buffer : Buffer Cell) (index : Nat) (first second : Cell) :
    (buffer.store index first).store index second = buffer.store index second := by
  unfold store
  dsimp only
  rw [Function.update_idem, max_assoc, max_self]

/-- Stores to different cells commute. -/
theorem store_comm (buffer : Buffer Cell) {index other : Nat} (cell otherCell : Cell)
    (different : index ≠ other) :
    (buffer.store index cell).store other otherCell =
      (buffer.store other otherCell).store index cell := by
  unfold store
  dsimp only
  rw [Function.update_comm different, max_assoc, max_assoc, max_comm (index + 1)]

/-! ## Lists of cells -/

theorem storeAll_cons (buffer : Buffer Cell) (start : Nat) (cell : Cell) (rest : List Cell) :
    buffer.storeAll start (cell :: rest) = (buffer.store start cell).storeAll (start + 1) rest :=
  rfl

theorem storeAll_append (buffer : Buffer Cell) (start : Nat) (first second : List Cell) :
    buffer.storeAll start (first ++ second) =
      (buffer.storeAll start first).storeAll (start + first.length) second := by
  induction first generalizing buffer start with
  | nil => rfl
  | cons cell rest inductionHypothesis =>
      rw [List.cons_append, storeAll_cons, storeAll_cons, inductionHypothesis,
        List.length_cons, Nat.add_assoc, Nat.add_comm 1]

theorem storeAll_concat (buffer : Buffer Cell) (start : Nat) (first : List Cell) (cell : Cell) :
    buffer.storeAll start (first ++ [cell]) =
      (buffer.storeAll start first).store (start + first.length) cell := by
  rw [storeAll_append]
  rfl

/-- A store outside the range of a list commutes with storing the list. -/
theorem store_storeAll_comm (buffer : Buffer Cell) {index start : Nat} {content : List Cell}
    (cell : Cell) (outside : index < start ∨ start + content.length ≤ index) :
    (buffer.storeAll start content).store index cell =
      (buffer.store index cell).storeAll start content := by
  induction content generalizing buffer start with
  | nil => rfl
  | cons head rest inductionHypothesis =>
      rw [List.length_cons] at outside
      rw [storeAll_cons, storeAll_cons, inductionHypothesis _ (by omega),
        store_comm _ _ _ (by omega)]

/-- Outside the range of the list nothing changes. -/
theorem cells_storeAll_outside (buffer : Buffer Cell) {index start : Nat} {content : List Cell}
    (outside : index < start ∨ start + content.length ≤ index) :
    (buffer.storeAll start content).cells index = buffer.cells index := by
  induction content generalizing buffer start with
  | nil => rfl
  | cons head rest inductionHypothesis =>
      rw [List.length_cons] at outside
      rw [storeAll_cons, inductionHypothesis _ (by omega), cells_store_of_ne _ _ (by omega)]

/-- Within its range, the list can be read back. -/
theorem cells_storeAll_inside (buffer : Buffer Cell) (start : Nat) {content : List Cell}
    {index : Nat} {cell : Cell} (inside : content[index]? = some cell) :
    (buffer.storeAll start content).cells (start + index) = cell := by
  induction content generalizing buffer start index with
  | nil => cases inside
  | cons head rest inductionHypothesis =>
      cases index with
      | zero =>
          cases inside
          rw [storeAll_cons, cells_storeAll_outside _ (by omega)]
          exact cells_store_self buffer start cell
      | succ index =>
          rw [storeAll_cons, Nat.add_comm index, ← Nat.add_assoc]
          exact inductionHypothesis _ _ inside

theorem extent_storeAll_of_ne_nil (buffer : Buffer Cell) (start : Nat) {content : List Cell}
    (nonempty : content ≠ []) :
    (buffer.storeAll start content).extent = max buffer.extent (start + content.length) := by
  induction content generalizing buffer start with
  | nil => exact absurd rfl nonempty
  | cons head rest inductionHypothesis =>
      cases rest with
      | nil => rfl
      | cons next rest =>
          rw [storeAll_cons, inductionHypothesis _ _ (List.cons_ne_nil _ _), extent_store]
          simp only [List.length_cons]
          omega

/-- Loading a cell of a stored list leaves the buffer as it is. -/
theorem load_storeAll (buffer : Buffer Cell) (start : Nat) {content : List Cell} {index : Nat}
    {cell : Cell} (inside : content[index]? = some cell) :
    (buffer.storeAll start content).load (start + index) =
      (cell, buffer.storeAll start content) := by
  have bound := (List.getElem?_eq_some_iff.mp inside).1
  have nonempty : content ≠ [] := List.ne_nil_of_length_pos (by omega)
  have seen : start + index < (buffer.storeAll start content).extent := by
    rw [extent_storeAll_of_ne_nil _ _ nonempty]
    omega
  unfold load
  rw [cells_storeAll_inside _ _ inside, touch_of_lt seen]

/-- Overwriting the first cell of a stored list. -/
theorem store_storeAll_head (buffer : Buffer Cell) (start : Nat) (first second : Cell)
    (rest : List Cell) :
    (buffer.storeAll start (first :: rest)).store start second =
      buffer.storeAll start (second :: rest) := by
  rw [storeAll_cons, store_storeAll_comm _ _ (Or.inl (Nat.lt_succ_self start)), store_store,
    storeAll_cons]

/-! ## Swapping the ends of a list -/

/-- Exchange two cells through a temporary: both are loaded, the later one is
stored to first. -/
def exchange (buffer : Buffer Cell) (first last : Nat) : Buffer Cell :=
  let (aux, buffer) := buffer.load last
  let (cell, buffer) := buffer.load first
  (buffer.store last cell).store first aux

/-- The two ends of a list may be stored before the cells between them. -/
theorem storeAll_ends (buffer : Buffer Cell) (start : Nat) (first last : Cell)
    (middle : List Cell) :
    buffer.storeAll start (first :: (middle ++ [last])) =
      ((buffer.store start first).store (start + 1 + middle.length) last).storeAll
        (start + 1) middle := by
  rw [storeAll_cons, storeAll_concat, store_storeAll_comm _ _ (Or.inr le_rfl)]

/-- Exchanging the ends of a stored list stores the list with its ends exchanged;
the extent does not grow. -/
theorem exchange_ends (buffer : Buffer Cell) (start : Nat) (first last : Cell)
    (middle : List Cell) :
    (buffer.storeAll start (first :: (middle ++ [last]))).exchange start
        (start + 1 + middle.length) =
      buffer.storeAll start (last :: (middle ++ [first])) := by
  have atFirst : (first :: (middle ++ [last]))[0]? = some first := rfl
  have atLast : (first :: (middle ++ [last]))[1 + middle.length]? = some last := by
    rw [Nat.add_comm, List.getElem?_cons_succ, List.getElem?_append_right le_rfl, Nat.sub_self]
    rfl
  unfold exchange
  rw [Nat.add_assoc start, load_storeAll _ _ atLast]
  dsimp only
  rw [← Nat.add_zero start, load_storeAll _ _ atFirst, Nat.add_zero, ← Nat.add_assoc,
    storeAll_ends, storeAll_ends, store_storeAll_comm _ _ (Or.inr le_rfl), store_store,
    store_storeAll_comm _ _ (Or.inl (Nat.lt_succ_self start)),
    store_comm _ _ _ (by omega), store_store, store_comm _ _ _ (by omega)]

/-! ## Terminated strings -/

/-- The cells up to the first terminator are the given text. -/
structure Holds (buffer : Buffer Cell) (terminator : Cell) (text : List Cell) : Prop where
  content : ∀ index cell, text[index]? = some cell → buffer.cells index = cell
  terminated : buffer.cells text.length = terminator
  clean : terminator ∉ text

/-- A terminated list holds the text before its terminator. -/
theorem storeAll_holds (buffer : Buffer Cell) {terminator : Cell} {text : List Cell}
    (rest : List Cell) (clean : terminator ∉ text) :
    (buffer.storeAll 0 (text ++ terminator :: rest)).Holds terminator text where
  content := by
    intro index cell inside
    have position : (text ++ terminator :: rest)[index]? = some cell := by
      rw [List.getElem?_append_left (List.getElem?_eq_some_iff.mp inside).1]
      exact inside
    have value := cells_storeAll_inside buffer 0 position
    rwa [Nat.zero_add] at value
  terminated := by
    have position : (text ++ terminator :: rest)[text.length]? = some terminator := by
      rw [List.getElem?_append_right le_rfl, Nat.sub_self]
      rfl
    have value := cells_storeAll_inside buffer 0 position
    rwa [Nat.zero_add] at value
  clean := clean

/-- A buffer holds at most one text. -/
theorem Holds.unique {buffer : Buffer Cell} {terminator : Cell} {first second : List Cell}
    (one : buffer.Holds terminator first) (other : buffer.Holds terminator second) :
    first = second := by
  have sameLength : first.length = second.length := by
    rcases lt_trichotomy first.length second.length with shorter | same | longer
    · have found := other.content first.length _ (List.getElem?_eq_getElem shorter)
      rw [one.terminated] at found
      exact absurd (found ▸ List.getElem_mem shorter) other.clean
    · exact same
    · have found := one.content second.length _ (List.getElem?_eq_getElem longer)
      rw [other.terminated] at found
      exact absurd (found ▸ List.getElem_mem longer) one.clean
  apply List.ext_getElem sameLength
  intro index inFirst inSecond
  rw [← one.content index _ (List.getElem?_eq_getElem inFirst),
    ← other.content index _ (List.getElem?_eq_getElem inSecond)]

end Buffer

/-! ## Cursors -/

/-- A pointer that advances with every store, and the memory it points into. -/
structure Cursor (Cell : Type*) where
  ptr : Nat
  buffer : Buffer Cell

namespace Cursor

variable {Cell : Type*}

/-- `*ptr++ = cell`. -/
def push (cursor : Cursor Cell) (cell : Cell) : Cursor Cell where
  ptr := cursor.ptr + 1
  buffer := cursor.buffer.store cursor.ptr cell

/-- Push the cells of a list. -/
def write (cursor : Cursor Cell) (content : List Cell) : Cursor Cell where
  ptr := cursor.ptr + content.length
  buffer := cursor.buffer.storeAll cursor.ptr content

theorem ptr_write (cursor : Cursor Cell) (content : List Cell) :
    (cursor.write content).ptr = cursor.ptr + content.length := rfl

theorem write_cons (cursor : Cursor Cell) (cell : Cell) (rest : List Cell) :
    cursor.write (cell :: rest) = (cursor.push cell).write rest := by
  unfold write push
  rw [Buffer.storeAll_cons, List.length_cons, Nat.add_assoc, Nat.add_comm 1]

theorem write_append (cursor : Cursor Cell) (first second : List Cell) :
    cursor.write (first ++ second) = (cursor.write first).write second := by
  unfold write
  rw [Buffer.storeAll_append, List.length_append, Nat.add_assoc]

/-- Pushing a terminator to what was written at the start of a buffer. -/
theorem buffer_write_push (buffer : Buffer Cell) (text : List Cell) (cell : Cell) :
    (((Cursor.mk 0 buffer).write text).push cell).buffer = buffer.storeAll 0 (text ++ [cell]) := by
  rw [Buffer.storeAll_concat]
  rfl

end Cursor

end Foundations
end AnalogX

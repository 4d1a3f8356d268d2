import AnalogX.Foundations.Buffers
import AnalogX.Foundations.Runs
import Mathlib.Data.List.Basic
import Mathlib.Data.UInt

namespace AnalogX
namespace Firmware

/-!
# Lines from the serial port

`serial_getline` takes bytes from a serial driver one at a time and stores them
behind its buffer pointer.  It stops after a carriage return, or when only the
place of the terminator is left.  `sdGet` blocks until there is a byte, so a
driver is the unbounded stream of the bytes it will deliver, with the number of
bytes that were taken from it.

A sequence of calls, each with a buffer of its own, cuts the stream into lines.
Nothing of the stream is lost between two calls, because a call takes exactly the
bytes it stores.
-/

open Foundations

/-- A serial driver: what it delivers, and how much of it was taken. -/
structure SerialDriver where
  bytes : Nat → UInt8
  taken : Nat

/-- `sdGet`. -/
def sdGet (sdp : SerialDriver) : UInt8 × SerialDriver :=
  (sdp.bytes sdp.taken, { sdp with taken := sdp.taken + 1 })

/-- The character `\r`. -/
def carriageReturn : UInt8 := 0x0D

/-- The loop of `serial_getline`, with `buf_len` already decremented.  The byte just
stored is looked up again behind the advanced pointer. -/
def getlineLoop (bufLen read : Nat) (buf : Cursor UInt8) (sdp : SerialDriver) :
    Nat × Cursor UInt8 × SerialDriver :=
  if read < bufLen then
    let (byte, sdp) := sdGet sdp
    let buf := buf.push byte
    let (last, memory) := buf.buffer.load (buf.ptr - 1)
    let buf := { buf with buffer := memory }
    if carriageReturn = last then (read + 1, buf, sdp)
    else getlineLoop bufLen (read + 1) buf sdp
  else (read, buf, sdp)
termination_by bufLen - read

/-- `serial_getline`.  A buffer is absent if the pointer is `NULL`. -/
def serialGetline (sdp : SerialDriver) (buf : Option (Buffer UInt8)) (bufLen : Nat) :
    Nat × Option (Buffer UInt8) × SerialDriver :=
  match buf with
  | none => (0, none, sdp)
  | some memory =>
      if bufLen = 0 then (0, some memory, sdp)
      else
        let (read, buf, sdp) := getlineLoop (bufLen - 1) 0 ⟨0, memory⟩ sdp
        (read, some (buf.push 0).buffer, sdp)

/-! ## The next line of a stream -/

/-- The bytes of a stream up to the first carriage return, but at most `limit`. -/
def nextLine (bytes : Nat → UInt8) : Nat → Nat → List UInt8
  | 0, _ => []
  | limit + 1, start =>
      bytes start ::
        if carriageReturn = bytes start then [] else nextLine bytes limit (start + 1)

/-- A part of a stream. -/
def window (bytes : Nat → UInt8) (start count : Nat) : List UInt8 :=
  (List.range' start count).map bytes

theorem window_succ (bytes : Nat → UInt8) (start count : Nat) :
    window bytes start (count + 1) = bytes start :: window bytes (start + 1) count := by
  unfold window
  rw [List.range'_succ, List.map_cons]

theorem window_append (bytes : Nat → UInt8) (start first second : Nat) :
    window bytes start (first + second) =
      window bytes start first ++ window bytes (start + first) second := by
  unfold window
  rw [← List.map_append, ← List.range'_append_1]

section NextLine

variable (bytes : Nat → UInt8) (limit start : Nat)

theorem length_nextLine_le : (nextLine bytes limit start).length ≤ limit := by
  induction limit generalizing start with
  | zero => exact le_rfl
  | succ limit inductionHypothesis =>
      have rest := inductionHypothesis (start + 1)
      rw [nextLine, List.length_cons]
      split
      · exact Nat.succ_le_succ (Nat.zero_le limit)
      · exact Nat.succ_le_succ rest

/-- A line is a part of the stream. -/
theorem nextLine_eq_window :
    nextLine bytes limit start = window bytes start (nextLine bytes limit start).length := by
  induction limit generalizing start with
  | zero => rfl
  | succ limit inductionHypothesis =>
      have rest := inductionHypothesis (start + 1)
      rw [nextLine]
      split
      · rfl
      · rw [List.length_cons, window_succ, ← rest]

/-- Only its last byte can be a carriage return. -/
theorem carriageReturn_notMem_dropLast :
    carriageReturn ∉ (nextLine bytes limit start).dropLast := by
  induction limit generalizing start with
  | zero => exact List.not_mem_nil
  | succ limit inductionHypothesis =>
      have rest := inductionHypothesis (start + 1)
      rw [nextLine]
      split
      · exact List.not_mem_nil
      · rename_i other
        cases tail : nextLine bytes limit (start + 1) with
        | nil => exact List.not_mem_nil
        | cons byte later =>
            rw [tail] at rest
            rw [List.dropLast_cons_of_ne_nil (List.cons_ne_nil _ _), List.mem_cons, not_or]
            exact ⟨other, rest⟩

/-- A line shorter than the limit ends with a carriage return. -/
theorem getLast_nextLine (short : (nextLine bytes limit start).length < limit) :
    (nextLine bytes limit start).getLast? = some carriageReturn := by
  induction limit generalizing start with
  | zero => exact absurd short (Nat.not_lt_zero _)
  | succ limit inductionHypothesis =>
      rw [nextLine] at short ⊢
      by_cases ends : carriageReturn = bytes start
      · rw [if_pos ends, List.getLast?_singleton, ends]
      · rw [if_neg ends, List.length_cons] at short
        have rest := inductionHypothesis (start + 1) (Nat.lt_of_succ_lt_succ short)
        rw [if_neg ends, List.getLast?_cons, rest]
        rfl

end NextLine

/-! ## One call -/

/-- The driver after more bytes were taken. -/
def SerialDriver.advance (sdp : SerialDriver) (count : Nat) : SerialDriver :=
  { sdp with taken := sdp.taken + count }

/-- Looking back at the byte just pushed changes nothing. -/
theorem load_push (buf : Cursor UInt8) (byte : UInt8) :
    (buf.push byte).buffer.load ((buf.push byte).ptr - 1) = (byte, (buf.push byte).buffer) := by
  change (buf.buffer.store buf.ptr byte).load buf.ptr = _
  unfold Buffer.load
  rw [Buffer.cells_store_self, Buffer.touch_of_lt]
  · rfl
  · rw [Buffer.extent_store]
    omega

/-- The loop stores the next line of the stream and takes just that line. -/
theorem getlineLoop_eq (bufLen read : Nat) (buf : Cursor UInt8) (sdp : SerialDriver) :
    let line := nextLine sdp.bytes (bufLen - read) sdp.taken
    getlineLoop bufLen read buf sdp =
      (read + line.length, buf.write line, sdp.advance line.length) := by
  induction room : bufLen - read generalizing read buf sdp with
  | zero =>
      rw [getlineLoop, if_neg (by omega)]
      rfl
  | succ room inductionHypothesis =>
      have rest := inductionHypothesis (read + 1) (buf.push (sdp.bytes sdp.taken))
        (sdp.advance 1) (by omega)
      rw [getlineLoop, if_pos (by omega)]
      dsimp only [sdGet]
      rw [load_push, nextLine]
      dsimp only
      by_cases ends : carriageReturn = sdp.bytes sdp.taken
      · rw [if_pos ends, if_pos ends, Cursor.write_cons]
        rfl
      · rw [if_neg ends, if_neg ends, Cursor.write_cons, List.length_cons]
        refine rest.trans ?_
        dsimp only [SerialDriver.advance]
        rw [Nat.add_assoc read, Nat.add_assoc sdp.taken, Nat.add_comm 1]

/-- A call with room for at least the terminator. -/
structure Call where
  bufLen : Nat
  positive : 1 ≤ bufLen
  cells : Nat → UInt8

/-- The line a call finds in the stream. -/
def Call.line (call : Call) (sdp : SerialDriver) : List UInt8 :=
  nextLine sdp.bytes (call.bufLen - 1) sdp.taken

/-- What a call returns, what it leaves in its buffer and what it takes. -/
theorem serialGetline_eq (call : Call) (sdp : SerialDriver) :
    serialGetline sdp (some (Buffer.fresh call.cells)) call.bufLen =
      ((call.line sdp).length, some ((Buffer.fresh call.cells).storeAll 0 (call.line sdp ++ [0])),
        sdp.advance (call.line sdp).length) := by
  have positive := call.positive
  unfold serialGetline
  dsimp only
  rw [if_neg (by omega), getlineLoop_eq]
  dsimp only
  rw [Cursor.buffer_write_push, Nat.zero_add]
  rfl

/-! ## Sequences of calls -/

/-- What a call leaves behind: the length it was given, the count it returned and
its buffer. -/
structure Reply where
  bufLen : Nat
  read : Nat
  memory : Buffer UInt8

/-- The bytes which the call stored. -/
def Reply.stored (reply : Reply) : List UInt8 :=
  (List.range reply.read).map reply.memory.cells

/-- A driver and the replies of the calls made on it. -/
structure Session where
  sdp : SerialDriver
  replies : List Reply

namespace Session

/-- A driver from which nothing was taken yet. -/
def opened (bytes : Nat → UInt8) : Session where
  sdp := ⟨bytes, 0⟩
  replies := []

/-- One more call. -/
def step (session : Session) (call : Call) : Option Session :=
  match serialGetline session.sdp (some (Buffer.fresh call.cells)) call.bufLen with
  | (_, none, _) => none
  | (read, some memory, sdp) =>
      some { sdp := sdp, replies := session.replies ++ [⟨call.bufLen, read, memory⟩] }

/-- The reply to a call, in terms of the line it finds. -/
def reply (session : Session) (call : Call) : Reply where
  bufLen := call.bufLen
  read := (call.line session.sdp).length
  memory := (Buffer.fresh call.cells).storeAll 0 (call.line session.sdp ++ [0])

/-- Every call returns. -/
theorem step_eq (session : Session) (call : Call) :
    session.step call =
      some { sdp := session.sdp.advance (call.line session.sdp).length
             replies := session.replies ++ [session.reply call] } := by
  unfold step
  rw [serialGetline_eq]
  rfl

theorem stored_reply (session : Session) (call : Call) :
    (session.reply call).stored = call.line session.sdp := by
  apply List.ext_getElem
  · rw [Reply.stored, List.length_map, List.length_range]
    rfl
  · intro index _ inLine
    have inside : (call.line session.sdp ++ [0])[index]? =
        some ((call.line session.sdp)[index]) := by
      rw [List.getElem?_append_left inLine, List.getElem?_eq_getElem inLine]
    have value := (Buffer.fresh call.cells).cells_storeAll_inside 0 inside
    rw [Nat.zero_add] at value
    simp only [Reply.stored, List.getElem_map, List.getElem_range]
    exact value

end Session

/-- What is promised of a single call. -/
structure Reply.Sound (reply : Reply) : Prop where
  fits : reply.read ≤ reply.bufLen - 1
  terminated : reply.memory.cells reply.read = 0
  within : reply.memory.extent ≤ reply.bufLen
  single : carriageReturn ∉ reply.stored.dropLast
  early : reply.read < reply.bufLen - 1 → reply.stored.getLast? = some carriageReturn

theorem Session.reply_sound (session : Session) (call : Call) : (session.reply call).Sound where
  fits := length_nextLine_le _ _ _
  terminated := by
    have position : (call.line session.sdp ++ [0])[(call.line session.sdp).length]? = some 0 := by
      rw [List.getElem?_append_right le_rfl, Nat.sub_self]
      rfl
    have value := (Buffer.fresh call.cells).cells_storeAll_inside 0 position
    rwa [Nat.zero_add] at value
  within := by
    have bound : (call.line session.sdp).length ≤ call.bufLen - 1 := length_nextLine_le _ _ _
    have positive := call.positive
    change ((Buffer.fresh call.cells).storeAll 0 (call.line session.sdp ++ [0])).extent ≤ call.bufLen
    rw [Buffer.extent_storeAll_of_ne_nil _ _ (List.append_ne_nil_of_right_ne_nil _ (by simp)),
      Buffer.extent_fresh, List.length_append, List.length_singleton]
    omega
  single := by
    rw [Session.stored_reply]
    exact carriageReturn_notMem_dropLast _ _ _
  early := by
    intro short
    rw [Session.stored_reply]
    exact getLast_nextLine _ _ _ short

/-- The stored lines are what was taken from the stream, and every reply is sound. -/
structure Session.Sound (bytes : Nat → UInt8) (session : Session) : Prop where
  stream : session.sdp.bytes = bytes
  lossless : (session.replies.map Reply.stored).flatten = window bytes 0 session.sdp.taken
  replies : ∀ reply ∈ session.replies, reply.Sound

namespace Session

theorem opened_sound (bytes : Nat → UInt8) : Sound bytes (opened bytes) where
  stream := rfl
  lossless := rfl
  replies := by
    intro reply member
    cases member

/-- One call extends what was stored by exactly what it takes. -/
theorem step_sound {bytes : Nat → UInt8} (session : Session) (call : Call) (next : Session)
    (sound : Sound bytes session) (taken : session.step call = some next) : Sound bytes next := by
  rw [step_eq] at taken
  cases taken
  refine ⟨sound.stream, ?_, ?_⟩
  · have line : call.line session.sdp =
        window bytes session.sdp.taken (call.line session.sdp).length := by
      rw [← sound.stream]
      exact nextLine_eq_window _ _ _
    rw [List.map_append, List.flatten_append, sound.lossless, List.map_singleton,
      List.flatten_singleton, stored_reply]
    dsimp only [SerialDriver.advance]
    rw [window_append, Nat.zero_add, ← line]
  · intro reply member
    rcases List.mem_append.mp member with earlier | last
    · exact sound.replies reply earlier
    · rw [List.mem_singleton.mp last]
      exact session.reply_sound call

/-- Every sequence of calls runs to its end, with one reply to each call. -/
theorem run_completes (session : Session) (calls : List Call) :
    ∃ final, runFrom step session calls = some final ∧
      final.replies.map Reply.bufLen =
        session.replies.map Reply.bufLen ++ calls.map Call.bufLen := by
  induction calls generalizing session with
  | nil => exact ⟨session, rfl, (List.append_nil _).symm⟩
  | cons call rest inductionHypothesis =>
      rcases inductionHypothesis _ with ⟨final, run, lengths⟩
      refine ⟨final, runFrom_cons_eq_some.mpr ⟨_, session.step_eq call, run⟩, ?_⟩
      rw [lengths, List.map_append, List.append_assoc]
      rfl

/-- For every stream and every sequence of calls, the stored lines put together are
exactly the part of the stream that was taken, and every call keeps to its buffer,
terminates its line and stops early only at a carriage return. -/
theorem getline_lossless (bytes : Nat → UInt8) (calls : List Call) :
    ∃ final, runFrom step (opened bytes) calls = some final ∧
      final.replies.map Reply.bufLen = calls.map Call.bufLen ∧
      (final.replies.map Reply.stored).flatten = window bytes 0 final.sdp.taken ∧
      ∀ reply ∈ final.replies, reply.Sound := by
  rcases run_completes (opened bytes) calls with ⟨final, run, lengths⟩
  have sound := runFrom_invariant step_sound run (opened_sound bytes)
  exact ⟨final, run, lengths, sound.lossless, sound.replies⟩

end Session

end Firmware
end AnalogX

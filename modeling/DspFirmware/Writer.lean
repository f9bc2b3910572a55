import DspFirmware.Leb128

/-!
Writing into a growing byte string at a position.

There is one way to write: a run of bytes lands at the position and replaces what was there. A
position past the end is allowed; the gap is filled with zeros by the next write, even by a write
of no bytes. The encodings of words, texts and LEB128 numbers are ordinary byte runs.
-/

namespace DspFirmware

/-- What has been written so far, and where the next write goes. -/
structure Writer where
  buffer : Bytes
  pos : Nat
  deriving DecidableEq, Repr

namespace Writer

def empty : Writer := ⟨[], 0⟩

def seek (w : Writer) (pos : Nat) : Writer := { w with pos }

/-- Puts a run of bytes at the position and moves behind it. -/
def write (w : Writer) (run : Bytes) : Writer where
  buffer :=
    w.buffer.take w.pos ++ List.replicate (w.pos - w.buffer.length) 0 ++ run
      ++ w.buffer.drop (w.pos + run.length)
  pos := w.pos + run.length

/-- At the end of what is written, a write appends. -/
theorem write_at_end (buffer run : Bytes) :
    (Writer.mk buffer buffer.length).write run
      = ⟨buffer ++ run, buffer.length + run.length⟩ := by
  simp [write, List.drop_eq_nil_of_le]

/-- Behind the end of what is written, a write fills the gap with zeros. -/
theorem write_past_end {buffer : Bytes} {pos : Nat} (past : buffer.length ≤ pos) (run : Bytes) :
    (Writer.mk buffer pos).write run
      = ⟨buffer ++ List.replicate (pos - buffer.length) 0 ++ run, pos + run.length⟩ := by
  have reached : buffer.drop (pos + run.length) = [] :=
    List.drop_eq_nil_of_le (Nat.le_add_right_of_le past)
  simp [write, List.take_of_length_le past, reached]

/-- At the start, a write replaces as many bytes as it has. -/
theorem write_at_start {old run : Bytes} (same : run.length = old.length) (rest : Bytes) :
    (Writer.mk (old ++ rest) 0).write run = ⟨run ++ rest, run.length⟩ := by
  simp [write, same]

/-- What stands in front of a write reaches up to its position. -/
theorem length_front (w : Writer) :
    (w.buffer.take w.pos ++ List.replicate (w.pos - w.buffer.length) (0 : UInt8)).length
      = w.pos := by
  rw [List.length_append, List.length_take, List.length_replicate]
  omega

/-- Writing one run and then another is writing both of them together. -/
theorem write_append (w : Writer) (first second : Bytes) :
    w.write (first ++ second) = (w.write first).write second := by
  let front := w.buffer.take w.pos ++ List.replicate (w.pos - w.buffer.length) 0
  let rest := w.buffer.drop (w.pos + first.length)
  have length : (front ++ first).length = w.pos + first.length := by
    rw [List.length_append, length_front]
  have filled : w.pos + first.length - (front ++ first ++ rest).length = 0 := by
    rw [List.length_append, length]
    omega
  have before : (front ++ first ++ rest).take (w.pos + first.length) = front ++ first := by
    rw [← length, List.take_left]
  have behind : (front ++ first ++ rest).drop (w.pos + first.length + second.length)
      = w.buffer.drop (w.pos + (first ++ second).length) := by
    rw [← length, ← List.drop_drop, List.drop_left, List.drop_drop, List.length_append,
      Nat.add_assoc]
  change _ = (Writer.mk (front ++ first ++ rest) (w.pos + first.length)).write second
  rw [write, write]
  simp only [before, behind, filled]
  simp [front, Nat.add_assoc]

/-- A write reaches its own end, and never shortens the buffer. -/
theorem length_buffer_write (w : Writer) (run : Bytes) :
    (w.write run).buffer.length = max w.buffer.length (w.pos + run.length) := by
  simp only [write, List.length_append, List.length_take, List.length_replicate,
    List.length_drop]
  omega

end Writer

namespace Bytes

def ofInt8 (value : Int8) : Bytes := ofUInt8 value.toUInt8
def ofInt16 (value : Int16) : Bytes := ofUInt16 value.toUInt16
def ofInt32 (value : Int32) : Bytes := ofUInt32 value.toUInt32
def ofInt64 (value : Int64) : Bytes := ofUInt64 value.toUInt64

/-- An unsigned number in the shortest LEB128 form. -/
def uleb128 (value : UInt64) : Bytes := Leb128.encodeUnsigned value.toNat

/-- A signed number in the shortest LEB128 form. -/
def sleb128 (value : Int64) : Bytes := Leb128.encodeSigned value.toInt

end Bytes

end DspFirmware

import DspFirmware.Value
import DspFirmware.Proofs.Leb128

/-!
Reading back whatever a writer has written. Each value is read by the operation of its kind, from
exactly the bytes it was written as, so that a whole sequence is found again behind anything written
before it and in front of anything that follows.
-/

namespace DspFirmware

namespace Value

/-- A text goes out in UTF-8 and comes back byte by byte: it has to be ASCII, and to hold no zero. -/
def Writable : Value → Prop
  | text name => Text.Ascii name
  | _ => True

instance : (value : Value) → Decidable value.Writable
  | text name => inferInstanceAs (Decidable (Text.Ascii name))
  | uint8 _ | uint16 _ | uint32 _ | uint64 _ | int8 _ | int16 _ | int32 _ | int64 _ | bytes _
  | unsigned _ | signed _ => inferInstanceAs (Decidable True)

theorem yields_terminated {name : String} (h : Text.Ascii name) :
    Read.Yields Read.text (Text.terminated name) name := by
  have read := Read.yields_text (Text.zero_notMem_latin1Bytes h.nameable)
  rwa [Text.latin1_latin1Bytes h.nameable, ← Text.utf8_of_ascii h] at read

/-- The operation of its kind reads a value from its own bytes. -/
theorem yields_read {value : Value} (writable : value.Writable) :
    Read.Yields value.kind.read value.encode value := by
  cases value with
  | uint8 value => exact (Read.yields_uint8 value).map
  | uint16 value => exact (Read.yields_uint16 value).map
  | uint32 value => exact (Read.yields_uint32 value).map
  | uint64 value => exact (Read.yields_uint64 value).map
  | int8 value => exact (Read.yields_int8 value).map
  | int16 value => exact (Read.yields_int16 value).map
  | int32 value => exact (Read.yields_int32 value).map
  | int64 value => exact (Read.yields_int64 value).map
  | bytes run => exact (Read.yields_bytes rfl).map
  | text name => exact (yields_terminated writable).map
  | unsigned value => exact (Read.yields_uleb128 (Leb128.unsigned_encodeUnsigned _)).map
  | signed value => exact (Read.yields_sleb128 (Leb128.signed_encodeSigned _)).map

theorem yields_values {values : List Value} (writable : ∀ value ∈ values, value.Writable) :
    Read.Yields (Read.values (values.map kind)) (values.flatMap encode) values :=
  Read.yields_mapM fun value member => yields_read (writable value member)

end Value

namespace Writer

theorem write_nil {w : Writer} (inside : w.pos ≤ w.buffer.length) : w.write [] = w := by
  have filled : w.pos - w.buffer.length = 0 := by omega
  simp [write, filled]

/-- A write ends inside what is written then. -/
theorem pos_write_le (w : Writer) (run : Bytes) : (w.write run).pos ≤ (w.write run).buffer.length := by
  rw [length_buffer_write]
  exact Nat.le_max_right _ _

/-- Values are written as one run. -/
theorem put_eq_write {w : Writer} (inside : w.pos ≤ w.buffer.length) (values : List Value) :
    w.put values = w.write (values.flatMap Value.encode) := by
  induction values generalizing w with
  | nil => exact (write_nil inside).symm
  | cons value values ih =>
      rw [List.flatMap_cons, write_append]
      exact ih (w.pos_write_le value.encode)

/-- What a write puts down is found at its position, in front of what was and what will be behind. -/
theorem exists_between_write {w : Writer} (inside : w.pos ≤ w.buffer.length) (run suffix : Bytes) :
    ∃ front rest, (w.write run).buffer ++ suffix = front ++ (run ++ rest) ∧ front.length = w.pos := by
  have filled : w.pos - w.buffer.length = 0 := by omega
  refine ⟨w.buffer.take w.pos, w.buffer.drop (w.pos + run.length) ++ suffix, ?_,
    List.length_take_of_le inside⟩
  simp [write, filled]

end Writer

theorem Read.valuesFrom_between {values : List Value}
    (writable : ∀ value ∈ values, value.Writable) (front rest : Bytes) :
    Read.runOn (Read.valuesFrom front.length (values.map Value.kind))
        (front ++ (values.flatMap Value.encode ++ rest))
      = .ok (values, (front ++ values.flatMap Value.encode).length) := by
  rw [Read.runOn_eq_ok_iff]
  refine ⟨.between (front ++ values.flatMap Value.encode) rest, Read.bind_eq_ok.mpr ?_⟩
  refine ⟨(), .between front (values.flatMap Value.encode ++ rest), Read.seek_between rfl, ?_⟩
  have found := Value.yields_values writable front rest
  exact Read.bind_eq_ok.mpr ⟨values, _, found, rfl⟩

/-- Whatever was written before, and wherever in it a sequence of values is put, its kinds read it back
from there, in order, and the reader stops where the writer did. Bytes that follow make no
difference. -/
theorem valuesFrom_put {w : Writer} (inside : w.pos ≤ w.buffer.length) {values : List Value}
    (writable : ∀ value ∈ values, value.Writable) (suffix : Bytes) :
    Read.runOn (Read.valuesFrom w.pos (values.map Value.kind)) ((w.put values).buffer ++ suffix)
      = .ok (values, (w.put values).pos) := by
  obtain ⟨front, rest, written, here⟩ :=
    Writer.exists_between_write inside (values.flatMap Value.encode) suffix
  have stop : (w.write (values.flatMap Value.encode)).pos
      = (front ++ values.flatMap Value.encode).length := by
    rw [List.length_append, here]
    rfl
  rw [Writer.put_eq_write inside, written, stop, ← here]
  exact Read.valuesFrom_between writable front rest

/-- Numbers at the ends of their ranges, an empty run and two texts, over the middle of a prefix and in
front of bytes that would continue a number. -/
theorem valuesFrom_put_extremes :
    let w : Writer := ⟨[1, 2, 3, 4, 5], 3⟩
    let values : List Value := [.unsigned 18446744073709551615, .signed (-9223372036854775808),
      .int64 (-2), .bytes [], .text "dir", .uint64 18446744073709551615, .signed 64, .text "",
      .int16 (-32768), .bytes [0, 0x80], .unsigned 0]
    (w.pos ≤ w.buffer.length ∧ ∀ value ∈ values, value.Writable)
      ∧ (w.put values).buffer.take 14 = [1, 2, 3, 255, 255, 255, 255, 255, 255, 255, 255, 255, 1, 128]
      ∧ Read.runOn (Read.valuesFrom 3 [.unsigned, .signed, .int64, .bytes 0, .text, .uint64, .signed,
          .text, .int16, .bytes 2, .unsigned]) ((w.put values).buffer ++ [0x80, 0x80, 1])
        = .ok (values, (w.put values).pos) := by
  intro w values
  have inside : w.pos ≤ w.buffer.length := by decide
  have writable : ∀ value ∈ values, value.Writable := by decide
  exact ⟨⟨inside, writable⟩, by decide +kernel, valuesFrom_put inside writable [0x80, 0x80, 1]⟩

end DspFirmware

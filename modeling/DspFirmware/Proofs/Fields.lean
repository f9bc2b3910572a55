import DspFirmware.Bytes
import Mathlib.Algebra.BigOperators.Group.List.Basic
import Mathlib.Algebra.Ring.Nat

/-!
Words at places of a byte string. A word of some width is below the power of 256 with that exponent,
so that the machine word made of it stands for the same number. It depends on the bytes at its place
and on nothing else.
-/

namespace DspFirmware.Bytes

theorem ofLittleEndian_lt (bytes : Bytes) : ofLittleEndian bytes < 256 ^ bytes.length := by
  induction bytes with
  | nil => simp [ofLittleEndian]
  | cons byte rest ih =>
      have small : byte.toNat < 256 := byte.toNat_lt
      rw [ofLittleEndian, List.length_cons, Nat.pow_succ]
      omega

/-- Bytes come back from their number, through the word of it. -/
theorem ofUInt8_ofLittleEndian {run : Bytes} (length : run.length = 1) :
    ofUInt8 (UInt8.ofNat run.ofLittleEndian) = run := by
  have back := littleEndian_ofLittleEndian run
  rwa [length] at back

theorem ofUInt16_ofLittleEndian {run : Bytes} (length : run.length = 2) :
    ofUInt16 (UInt16.ofNat run.ofLittleEndian) = run := by
  have fits := ofLittleEndian_lt run
  rw [length] at fits
  rw [ofUInt16, UInt16.toNat_ofNat_of_lt' fits, ← length, littleEndian_ofLittleEndian]

theorem ofUInt32_ofLittleEndian {run : Bytes} (length : run.length = 4) :
    ofUInt32 (UInt32.ofNat run.ofLittleEndian) = run := by
  have fits := ofLittleEndian_lt run
  rw [length] at fits
  rw [ofUInt32, UInt32.toNat_ofNat_of_lt' fits, ← length, littleEndian_ofLittleEndian]

theorem ofUInt64_ofLittleEndian {run : Bytes} (length : run.length = 8) :
    ofUInt64 (UInt64.ofNat run.ofLittleEndian) = run := by
  have fits := ofLittleEndian_lt run
  rw [length] at fits
  rw [ofUInt64, UInt64.toNat_ofNat_of_lt' fits, ← length, littleEndian_ofLittleEndian]

theorem field_lt (bytes : Bytes) (offset width : Nat) : bytes.field offset width < 256 ^ width := by
  have short : ((bytes.drop offset).take width).length ≤ width := List.length_take_le _ _
  exact (ofLittleEndian_lt _).trans_le (Nat.pow_le_pow_right (by decide) short)

theorem toNat_uint8_field (bytes : Bytes) (offset : Nat) :
    (UInt8.ofNat (bytes.field offset 1)).toNat = bytes.field offset 1 :=
  UInt8.toNat_ofNat_of_lt' (field_lt bytes offset 1)

theorem toNat_uint16_field (bytes : Bytes) (offset : Nat) :
    (UInt16.ofNat (bytes.field offset 2)).toNat = bytes.field offset 2 :=
  UInt16.toNat_ofNat_of_lt' (field_lt bytes offset 2)

theorem toNat_uint32_field (bytes : Bytes) (offset : Nat) :
    (UInt32.ofNat (bytes.field offset 4)).toNat = bytes.field offset 4 :=
  UInt32.toNat_ofNat_of_lt' (field_lt bytes offset 4)

theorem field_drop (bytes : Bytes) (count offset width : Nat) :
    field (bytes.drop count) offset width = bytes.field (count + offset) width := by
  rw [field, field, List.drop_drop]

/-- A beginning has the words that end in it. -/
theorem field_take {bytes : Bytes} {count offset width : Nat} (inside : offset + width ≤ count) :
    field (bytes.take count) offset width = bytes.field offset width := by
  rw [field, field, List.drop_take, List.take_take, Nat.min_eq_left (by omega)]

theorem take_congr {bytes others : Bytes} {count : Nat}
    (same : ∀ i, i < count → others[i]? = bytes[i]?) : others.take count = bytes.take count := by
  apply List.ext_getElem?
  intro i
  by_cases inside : i < count
  · rw [List.getElem?_take_of_lt inside, List.getElem?_take_of_lt inside, same i inside]
  · rw [List.getElem?_take_eq_none (by omega), List.getElem?_take_eq_none (by omega)]

/-- Slices are equal if the bytes at their places are. -/
theorem slice_congr {bytes others : Bytes} {offset count : Nat}
    (same : ∀ i, offset ≤ i → i < offset + count → others[i]? = bytes[i]?) :
    (others.drop offset).take count = (bytes.drop offset).take count := by
  apply take_congr
  intro i inside
  rw [List.getElem?_drop, List.getElem?_drop]
  exact same (offset + i) (by omega) (by omega)

theorem field_congr {bytes others : Bytes} {offset width : Nat}
    (same : ∀ i, offset ≤ i → i < offset + width → others[i]? = bytes[i]?) :
    others.field offset width = bytes.field offset width :=
  congrArg ofLittleEndian (slice_congr same)

/-- A slice that ends in the first of two byte strings. -/
theorem slice_append_left {first : Bytes} {offset count : Nat}
    (inside : offset + count ≤ first.length) (second : Bytes) :
    ((first ++ second).drop offset).take count = (first.drop offset).take count := by
  have enough : count ≤ (first.drop offset).length := by
    rw [List.length_drop]
    omega
  rw [List.drop_append_of_le_length (by omega), List.take_append_of_le_length enough]

/-- Behind the first of two byte strings, places are counted from its end. -/
theorem drop_append_right {first : Bytes} {place : Nat} (length : first.length = place)
    (second : Bytes) (offset : Nat) :
    (first ++ second).drop (place + offset) = second.drop offset := by
  rw [← List.drop_drop, ← length, List.drop_left]

/-- Byte strings behind each other, cut around one of them. -/
theorem flatMap_eq_append (f : α → Bytes) (items : List α) (i : Nat) (h : i < items.length) :
    items.flatMap f
      = (items.take i).flatMap f ++ (f items[i] ++ (items.drop (i + 1)).flatMap f) := by
  rw [← List.flatMap_cons, ← List.flatMap_append, List.getElem_cons_drop, List.take_append_drop]

/-- Among byte strings behind each other, each one follows those before it. -/
theorem drop_flatMap (f : α → Bytes) (items : List α) (i : Nat) (h : i < items.length) :
    (items.flatMap f).drop ((items.take i).flatMap f).length
      = f items[i] ++ (items.drop (i + 1)).flatMap f := by
  rw [flatMap_eq_append f items i h, List.drop_left]

/-- Among byte strings behind each other, each one is found behind those before it. -/
theorem slice_flatMap (f : α → Bytes) (items : List α) (i : Nat) (h : i < items.length) :
    ((items.flatMap f).drop ((items.take i).map fun item => (f item).length).sum).take
      (f items[i]).length = f items[i] := by
  rw [← List.length_flatMap, drop_flatMap f items i h, List.take_left]

/-- Among byte strings of one length behind each other, each one is found at a multiple of it. -/
theorem slice_flatMap_of_length {f : α → Bytes} {size : Nat} (length : ∀ item, (f item).length = size)
    (items : List α) (i : Nat) (h : i < items.length) :
    ((items.flatMap f).drop (size * i)).take size = f items[i] := by
  have place : ((items.take i).map fun item => (f item).length).sum = size * i := by
    simp only [length, List.map_const', List.sum_replicate_nat, List.length_take]
    rw [Nat.min_eq_left (Nat.le_of_lt h), Nat.mul_comm]
  have found := slice_flatMap f items i h
  rwa [place, length] at found

end DspFirmware.Bytes

import DspFirmware.Proofs.Container.Emission
import Mathlib.Order.Monotone.Basic

/-!
The bytes of a written container, each at its offset: the fields of the header, a descriptor for each
segment, zeros up to the payloads, and the payloads from there to the end, one behind the other.
-/

namespace DspFirmware.Container

open Bytes

/-- Where a payload begins. The place behind the last payload is the end of the file. -/
def payloadStart (segments : List Segment) (i : Nat) : Nat :=
  0x300 + ((segments.take i).map (·.data.length)).sum

theorem payloadStart_succ {segments : List Segment} {i : Nat} (h : i < segments.length) :
    payloadStart segments (i + 1) = payloadStart segments i + (segments[i]).data.length := by
  rw [payloadStart, payloadStart, List.take_succ_eq_append_getElem h, List.map_append,
    List.sum_append, List.map_singleton, List.sum_singleton, Nat.add_assoc]

theorem payloadStart_length (segments : List Segment) :
    payloadStart segments segments.length = payloadBase + (segments.flatMap (·.data)).length := by
  rw [payloadStart, List.take_length, List.length_flatMap, payloadBase]

theorem payloadStart_mono (segments : List Segment) : Monotone (payloadStart segments) := by
  refine monotone_nat_of_le_succ fun i => ?_
  by_cases h : i < segments.length
  · rw [payloadStart_succ h]
    exact Nat.le_add_right _ _
  · simp [payloadStart, List.take_of_length_le (Nat.le_of_not_lt h),
      List.take_of_length_le (Nat.le_succ_of_le (Nat.le_of_not_lt h))]

/-- Between the starts of the first payload and of a later one, every place lies in some payload. -/
theorem exists_payload {segments : List Segment} {p : Nat} (low : payloadStart segments 0 ≤ p)
    {count : Nat} (high : p < payloadStart segments count) :
    ∃ i < count, payloadStart segments i ≤ p ∧ p < payloadStart segments (i + 1) := by
  induction count with
  | zero => omega
  | succ count ih =>
      by_cases before : p < payloadStart segments count
      · obtain ⟨i, below, inside⟩ := ih before
        exact ⟨i, Nat.lt_succ_of_lt below, inside⟩
      · exact ⟨count, Nat.lt_succ_self count, Nat.le_of_not_lt before, high⟩

/-- No two payloads have a place in common. -/
theorem payload_unique {segments : List Segment} {p i j : Nat}
    (hi : payloadStart segments i ≤ p ∧ p < payloadStart segments (i + 1))
    (hj : payloadStart segments j ≤ p ∧ p < payloadStart segments (j + 1)) : i = j := by
  have apart {i j : Nat} (less : i < j) :
      payloadStart segments (i + 1) ≤ payloadStart segments j :=
    payloadStart_mono segments less
  by_contra different
  rcases Nat.lt_or_gt_of_ne different with less | less
  · have := apart less
    omega
  · have := apart less
    omega

/-- The bytes are those of a container with this header and these segments. -/
structure FileLayout (header : Header) (segments : List Segment) (file : Bytes) : Prop where
  length : file.length = if segments = [] then 0x120 else payloadStart segments segments.length
  fields : file.take 0x120 =
    header.signature.val ++ [0x44, 0x53, 0x50, 0x31] ++ littleEndian 4 file.length
      ++ littleEndian 2 header.memoryLayout.toNat ++ [0, 0]
      ++ [header.unknown, header.filterKind, UInt8.ofNat segments.length, header.flags]
      ++ littleEndian 4 header.filterAddress.toNat ++ littleEndian 4 header.filterSize.toNat
      ++ [0, 0, 0, 0, 0, 0, 0, 0]
  descriptor : ∀ (i : Nat) (h : i < segments.length), (file.drop (0x120 + 48 * i)).take 48 =
    littleEndian 4 (payloadStart segments i) ++ littleEndian 4 (segments[i]).address.toNat
      ++ littleEndian 4 (segments[i]).data.length ++ [0, 0, 0, (segments[i]).kind.code]
      ++ (sha256 (segments[i]).data).val
  gap : ∀ p, 0x120 + 48 * segments.length ≤ p → p < 0x300 → p < file.length → file[p]? = some 0
  payload : ∀ (i : Nat) (h : i < segments.length),
    (file.drop (payloadStart segments i)).take (segments[i]).data.length = (segments[i]).data
  next : ∀ (i : Nat) (h : i < segments.length),
    payloadStart segments (i + 1) = payloadStart segments i + (segments[i]).data.length
  cover : ∀ p, 0x300 ≤ p ∧ p < file.length ↔
    ∃! i, i < segments.length ∧ payloadStart segments i ≤ p ∧ p < payloadStart segments (i + 1)

theorem getElem_descriptorsFrom {segments : List Segment} {i : Nat} (h : i < segments.length)
    (h' : i < (descriptorsFrom payloadBase segments).length) :
    (descriptorsFrom payloadBase segments)[i]
      = describe segments[i] ⟨payloadStart segments i, (segments[i]).data.length⟩ := by
  simp only [descriptorsFrom, List.getElem_zipWith]
  rw [getElem_contiguous _ _ _ (by simpa using h)]
  simp [payloadStart, payloadBase, List.map_take]

/-- The record of a segment, with its numbers written out. -/
theorem encode_describe {segment : Segment} {start : Nat}
    (fits : start + segment.data.length < UInt32.size) :
    (describe segment ⟨start, segment.data.length⟩).encode =
      littleEndian 4 start ++ littleEndian 4 segment.address.toNat
        ++ littleEndian 4 segment.data.length ++ [0, 0, 0, segment.kind.code]
        ++ (sha256 segment.data).val := by
  have offset : (UInt32.ofNat start).toNat = start := UInt32.toNat_ofNat_of_lt' (by omega)
  have size : (UInt32.ofNat segment.data.length).toNat = segment.data.length :=
    UInt32.toNat_ofNat_of_lt' (by omega)
  simp only [describe, Descriptor.encode, ofUInt32, offset, size]

theorem descriptor_file {c : Container} {i : Nat} (h : i < c.segments.length) :
    ((c.front ++ c.payloads).drop (0x120 + 48 * i)).take 48
      = (describe c.segments[i] ⟨payloadStart c.segments i, (c.segments[i]).data.length⟩).encode := by
  have count := length_descriptorsFrom payloadBase c.segments
  have inside : 48 * i + 48
      ≤ ((descriptorsFrom payloadBase c.segments).flatMap Descriptor.encode).length := by
    rw [Descriptor.length_flatMap_encode, count, Descriptor.recordSize]
    omega
  have header : (c.header.encode c.size c.segments.length).length = 0x120 :=
    Header.length_encode _ _ _
  rw [front]
  simp only [List.append_assoc]
  rw [drop_append_right header, slice_append_left inside]
  refine (slice_flatMap_of_length Descriptor.length_encode _ i (count ▸ h)).trans ?_
  rw [getElem_descriptorsFrom h]

section

variable {c : Container} (few : c.segments.length ≤ maxSegments)
include few

theorem length_file (filled : c.segments ≠ []) :
    (c.front ++ c.payloads).length = payloadStart c.segments c.segments.length := by
  rw [List.length_append, length_front few, if_neg filled, payloadStart_length, payloads]

theorem fields_file : (c.front ++ c.payloads).take Header.size
    = c.header.encode (c.front ++ c.payloads).length c.segments.length := by
  rw [length_front_append_payloads few, front]
  simp only [List.append_assoc]
  exact List.take_left' (Header.length_encode _ _ _)

theorem gap_file {p : Nat} (low : 0x120 + 48 * c.segments.length ≤ p) (high : p < 0x300)
    (inside : p < (c.front ++ c.payloads).length) : (c.front ++ c.payloads)[p]? = some 0 := by
  have header : (c.header.encode c.size c.segments.length
      ++ (descriptorsFrom payloadBase c.segments).flatMap Descriptor.encode).length
        = 0x120 + 48 * c.segments.length := by
    rw [List.length_append, Header.length_encode, Descriptor.length_flatMap_encode,
      length_descriptorsFrom, Header.size, Descriptor.recordSize, Nat.mul_comm]
  have positive : c.segments.length ≠ 0 := by
    intro zero
    have empty : c.segments = [] := List.length_eq_zero_iff.mp zero
    rw [length_front_append_payloads few, size, empty] at inside
    simp only [List.isEmpty_nil, if_true, Header.size] at inside
    omega
  rw [front, List.append_assoc, List.getElem?_append_right (by omega), header, gap, if_neg positive]
  have zeros : p - (0x120 + 48 * c.segments.length)
      < (List.replicate (payloadBase - Header.size - c.segments.length * Descriptor.recordSize)
          (0 : UInt8)).length := by
    rw [List.length_replicate, payloadBase, Header.size, Descriptor.recordSize]
    omega
  rw [List.getElem?_append_left zeros, List.getElem?_replicate_of_lt (by simpa using zeros)]

theorem payload_file {i : Nat} (h : i < c.segments.length) :
    ((c.front ++ c.payloads).drop (payloadStart c.segments i)).take (c.segments[i]).data.length
      = (c.segments[i]).data := by
  have filled : c.segments ≠ [] := List.ne_nil_of_length_pos (Nat.zero_lt_of_lt h)
  have base : c.front.length = 0x300 := by
    rw [length_front few, if_neg filled, payloadBase]
  rw [payloadStart, drop_append_right base]
  exact slice_flatMap (·.data) c.segments i h

theorem cover_file (p : Nat) : 0x300 ≤ p ∧ p < (c.front ++ c.payloads).length ↔
    ∃! i, i < c.segments.length ∧ payloadStart c.segments i ≤ p
      ∧ p < payloadStart c.segments (i + 1) := by
  constructor
  · rintro ⟨low, high⟩
    have filled : c.segments ≠ [] := by
      intro empty
      rw [length_front_append_payloads few, size, empty] at high
      simp only [List.isEmpty_nil, if_true, Header.size] at high
      omega
    rw [length_file few filled] at high
    obtain ⟨i, below, inside⟩ := exists_payload low high
    exact ⟨i, ⟨below, inside⟩, fun j other => payload_unique other.2 inside⟩
  · rintro ⟨i, ⟨below, inside⟩, _⟩
    have filled : c.segments ≠ [] := List.ne_nil_of_length_pos (Nat.zero_lt_of_lt below)
    have first : 0x300 ≤ payloadStart c.segments i := Nat.le_add_right _ _
    have last := payloadStart_mono c.segments below
    rw [length_file few filled]
    exact ⟨first.trans inside.1, inside.2.trans_le last⟩

end

/-- What a written container consists of. -/
theorem fileLayout_of_serialize {c : Container} {file : Bytes} (h : c.serialize = .ok file) :
    FileLayout c.header c.segments file := by
  obtain ⟨few, fits, rfl⟩ := serialize_eq_ok_iff.mp h
  constructor
  · by_cases empty : c.segments = []
    · rw [if_pos empty, length_front_append_payloads few, size, empty]
      rfl
    · rw [if_neg empty, length_file few empty]
  · exact (fields_file few).trans rfl
  · intro i below
    have filled : c.segments ≠ [] := List.ne_nil_of_length_pos (Nat.zero_lt_of_lt below)
    have last := payloadStart_mono c.segments below
    rw [payloadStart_length, payloadStart_succ below] at last
    rw [descriptor_file below, encode_describe (last.trans_lt (fits.resolve_left filled))]
  · exact fun p => gap_file few
  · exact fun i => payload_file few
  · exact fun i => payloadStart_succ
  · exact cover_file few

/-- The first payload that ends beyond 32 bits is refused. -/
theorem place_eq_error {segments : List Segment} {i : Nat} (h : i < segments.length)
    (before : ∀ j < i, payloadStart segments (j + 1) ≤ 0xffffffff)
    (beyond : 0xffffffff < payloadStart segments (i + 1)) :
    place (segments.map (·.data.length)) = .error (.segmentTooLarge (segments[i]).data.length) := by
  have split : segments.map (·.data.length) = (segments.take i).map (·.data.length)
      ++ (segments[i]).data.length :: (segments.drop (i + 1)).map (·.data.length) := by
    conv_lhs => rw [← List.take_append_drop i segments, ← List.getElem_cons_drop h]
    rw [List.map_append, List.map_cons]
  have fits : payloadStart segments i < UInt32.size := by
    cases i with
    | zero => simp [payloadStart, UInt32.size]
    | succ j => exact Nat.lt_succ_of_le (before j (Nat.lt_succ_self j))
  rw [payloadStart_succ h] at beyond
  rw [place, split]
  exact placeFrom_eq_error (Or.inr fits) beyond

/-- What is written for a header and segments. More than ten segments are refused, and then the first
one whose payload ends beyond 32 bits. Otherwise the file has the bytes of the layout; it is written in
two passes over one buffer, whose length always fits the size field. -/
theorem emit_layout (header : Header) (segments : List Segment) :
    (∀ fileSize, serialize ⟨header, segments, fileSize⟩ = emit header segments) ∧
    (10 < segments.length →
      emit header segments = .error (.tooManySegments segments.length 10)) ∧
    (segments.length ≤ 10 → ∀ (i : Nat) (h : i < segments.length),
      (∀ j < i, payloadStart segments (j + 1) ≤ 0xffffffff) →
      0xffffffff < payloadStart segments (i + 1) →
      emit header segments = .error (.segmentTooLarge (segments[i]).data.length)) ∧
    (segments.length ≤ 10 → (∀ i < segments.length, payloadStart segments (i + 1) ≤ 0xffffffff) →
      ∃ file, emit header segments = .ok file ∧ FileLayout header segments file) ∧
    ∀ places, segments.length ≤ 10 → place (segments.map (·.data.length)) = .ok places →
      (firstPass header segments places).buffer.length ≤ 0xffffffff := by
  let c : Container := ⟨header, segments, 0⟩
  have same (fileSize : UInt32) : serialize ⟨header, segments, fileSize⟩ = emit header segments :=
    (emit_eq_serialize ⟨header, segments, fileSize⟩).symm
  refine ⟨same, fun many => ?_, fun few i below before beyond => ?_, fun few fits => ?_,
    fun places few placed => ?_⟩
  · rw [emit, if_pos (show maxSegments < segments.length from many)]
    rfl
  · rw [emit, if_neg (show ¬maxSegments < segments.length from Nat.not_lt.mpr few)]
    change (place _ >>= _) = _
    rw [place_eq_error below before beyond]
    rfl
  · have last : segments = [] ∨ payloadBase + c.payloads.length < UInt32.size := by
      refine or_iff_not_imp_left.mpr fun filled => ?_
      have positive := List.length_pos_iff.mpr filled
      have finish := fits (segments.length - 1) (by omega)
      rw [Nat.sub_add_cancel positive, payloadStart_length] at finish
      exact Nat.lt_succ_of_le finish
    have written : c.serialize = .ok (c.front ++ c.payloads) :=
      serialize_eq_ok_iff.mpr ⟨few, last, rfl⟩
    exact ⟨_, (same 0).symm.trans written, fileLayout_of_serialize written⟩
  · obtain ⟨length, fits⟩ := length_firstPass (c := c) few placed
    rw [length]
    exact Nat.le_of_lt_succ fits

/-- Three payloads, one of them empty; eleven of them; and one that ends just beyond 32 bits. -/
theorem emit_layout_boundary :
    let stale : Digest := ⟨List.replicate 32 0xee, List.length_replicate⟩
    let few : List Segment := [⟨.prog0, 0x100, [1, 2, 3], 7, stale⟩, ⟨.data, 0, [], 0, stale⟩,
      ⟨.prog1, 0xffffffff, [4, 5], 0x300, stale⟩]
    let long : Segment := ⟨.data, 0, List.replicate 0xfffffd00 0, 0, stale⟩
    (∃ file, emit Header.default few = .ok file ∧ FileLayout Header.default few file) ∧
    (firstPass Header.default few [⟨0x300, 3⟩, ⟨0x303, 0⟩, ⟨0x303, 2⟩]).buffer.length
      ≤ 0xffffffff ∧
    emit Header.default (List.replicate 11 long) = .error (.tooManySegments 11 10) ∧
    emit Header.default [long] = .error (.segmentTooLarge 0xfffffd00) := by
  intro stale few long
  obtain ⟨_, _, _, written, length⟩ := emit_layout Header.default few
  obtain ⟨_, many, _⟩ := emit_layout Header.default (List.replicate 11 long)
  obtain ⟨_, _, beyond, _⟩ := emit_layout Header.default [long]
  have size : long.data.length = 0xfffffd00 := List.length_replicate
  have fits (i : Nat) (below : i < few.length) : payloadStart few (i + 1) ≤ 0xffffffff := by
    have last : payloadStart few (i + 1) ≤ payloadStart few few.length :=
      payloadStart_mono few below
    have whole : payloadStart few few.length = 0x305 := rfl
    omega
  refine ⟨written (by decide) fits, length _ (by decide) rfl, ?_, ?_⟩
  · rw [List.length_replicate] at many
    exact many (by decide)
  · have refused := beyond (by simp) 0 (by simp) (by simp) (by
      simp [payloadStart, size])
    rwa [List.getElem_singleton, size] at refused

end DspFirmware.Container

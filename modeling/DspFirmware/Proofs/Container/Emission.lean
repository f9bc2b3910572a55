import DspFirmware.Container.Emission
import DspFirmware.Proofs.Container.RoundTrip
import DspFirmware.Proofs.Fields

/-!
What is written for a container, byte by byte. The two passes over one buffer come to the bytes of the
header with its size, the descriptors, zeros and the payloads: the second header covers the first one
exactly, and no payload reaches what was written before it.
-/

namespace DspFirmware.Container

theorem Header.emit_eq_write (header : Header) (fileSize : UInt32) (segmentCount : UInt8) (w : Writer) :
    header.emit fileSize segmentCount w
      = w.write (header.encode fileSize.toNat segmentCount.toNat) := by
  have fields : header.encode fileSize.toNat segmentCount.toNat
      = header.signature.val ++ magic ++ Bytes.ofUInt32 fileSize ++ Bytes.ofUInt16 header.memoryLayout
        ++ Bytes.ofUInt16 0 ++ Bytes.ofUInt8 header.unknown ++ Bytes.ofUInt8 header.filterKind
        ++ Bytes.ofUInt8 segmentCount ++ Bytes.ofUInt8 header.flags
        ++ Bytes.ofUInt32 header.filterAddress ++ Bytes.ofUInt32 header.filterSize
        ++ Bytes.ofUInt64 0 := by
    simp [Header.encode, Bytes.ofUInt32, Bytes.ofUInt8, UInt8.ofNat_toNat]
    rfl
  rw [fields, Header.emit]
  simp only [Writer.write_append]

namespace Descriptor

theorem emit_eq_write (w : Writer) (d : Descriptor) : emit w d = w.write d.encode := by
  have fields : d.encode = Bytes.ofUInt32 d.offset ++ Bytes.ofUInt32 d.address
      ++ Bytes.ofUInt32 d.size ++ [0, 0, 0] ++ Bytes.ofUInt8 d.kind.code ++ d.digest.val := by
    simp [encode, Bytes.ofUInt8]
  rw [fields, emit]
  simp only [Writer.write_append]

/-- At the end of the buffer, descriptors are appended. -/
theorem foldl_emit (descriptors : List Descriptor) (buffer : Bytes) :
    descriptors.foldl emit ⟨buffer, buffer.length⟩
      = ⟨buffer ++ descriptors.flatMap encode, (buffer ++ descriptors.flatMap encode).length⟩ := by
  induction descriptors generalizing buffer with
  | nil => simp
  | cons d others ih =>
      rw [List.foldl_cons, emit_eq_write, Writer.write_at_end, ← List.length_append, ih,
        List.flatMap_cons, List.append_assoc]

end Descriptor

/-- Payloads without gaps between them are appended, behind zeros up to the place of the first one. -/
theorem foldl_emitPayload (segments : List Segment) {offset : Nat} {w : Writer}
    (room : w.buffer.length ≤ offset) :
    ((segments.zip (contiguous offset (segments.map (·.data.length)))).foldl emitPayload w).buffer
      = if segments = [] then w.buffer
        else w.buffer ++ List.replicate (offset - w.buffer.length) 0
          ++ segments.flatMap (·.data) := by
  induction segments generalizing offset w with
  | nil => rfl
  | cons segment rest ih =>
      let reached := w.buffer ++ List.replicate (offset - w.buffer.length) 0 ++ segment.data
      have first : emitPayload w (segment, ⟨offset, segment.data.length⟩)
          = ⟨reached, offset + segment.data.length⟩ := Writer.write_past_end room _
      have length : reached.length = offset + segment.data.length := by
        simp only [reached, List.length_append, List.length_replicate]
        omega
      rw [if_neg (by simp), List.map_cons, contiguous, List.zip_cons_cons, List.foldl_cons, first,
        ih (Nat.le_of_eq length), length, Nat.sub_self]
      split
      · simp [reached, ‹rest = []›]
      · simp [reached]

/-- What the first pass leaves: the final bytes, except that the header lacks its size. -/
theorem buffer_firstPass (header : Header) {segments : List Segment}
    (few : segments.length ≤ maxSegments) :
    (firstPass header segments (contiguous payloadBase (segments.map (·.data.length)))).buffer
      = header.encode 0 segments.length
        ++ ((descriptorsFrom payloadBase segments).flatMap Descriptor.encode ++ gap segments.length
          ++ segments.flatMap (·.data)) := by
  have count : (UInt8.ofNat segments.length).toNat = segments.length :=
    UInt8.toNat_ofNat_of_lt' (by simp only [maxSegments] at few; simp only [UInt8.size]; omega)
  have begun : header.emit 0 (UInt8.ofNat segments.length) .empty
      = ⟨header.encode 0 segments.length, (header.encode 0 segments.length).length⟩ := by
    rw [Header.emit_eq_write, count]
    exact (Writer.write_at_end [] _).trans (by simp)
  have length : (header.encode 0 segments.length
      ++ (descriptorsFrom payloadBase segments).flatMap Descriptor.encode).length
        = Header.size + segments.length * Descriptor.recordSize := by
    rw [List.length_append, Header.length_encode, Descriptor.length_flatMap_encode,
      length_descriptorsFrom]
  rw [firstPass, begun]
  change ((segments.zip _).foldl emitPayload
    ((descriptorsFrom payloadBase segments).foldl Descriptor.emit _)).buffer = _
  rw [Descriptor.foldl_emit, foldl_emitPayload segments, length]
  · by_cases empty : segments = []
    · simp [empty, gap, descriptorsFrom]
    · have positive : segments.length ≠ 0 := fun zero => empty (List.length_eq_zero_iff.mp zero)
      rw [if_neg empty, gap, if_neg positive, Nat.sub_sub]
      simp only [List.append_assoc]
  · rw [length]
    simp only [maxSegments, payloadBase, Header.size, Descriptor.recordSize] at few ⊢
    omega

/-- The total length is known once the payloads are placed, and fits its field. -/
theorem length_firstPass {c : Container} {places : List Placement}
    (few : c.segments.length ≤ maxSegments)
    (placed : place (c.segments.map (·.data.length)) = .ok places) :
    (firstPass c.header c.segments places).buffer.length = c.size ∧ c.size < UInt32.size := by
  obtain ⟨fits, rfl⟩ := placeFrom_eq_ok_iff.mp placed
  rw [List.map_eq_nil_iff, ← List.length_flatMap] at fits
  refine ⟨?_, size_lt fits⟩
  rw [buffer_firstPass c.header few, ← length_front_append_payloads few, front, payloads]
  simp only [List.length_append, Header.length_encode]
  omega

/-- The second header covers the first one, and nothing else. -/
theorem buffer_emit_firstPass {c : Container} (few : c.segments.length ≤ maxSegments)
    (fits : c.size < UInt32.size) :
    (c.header.emit (UInt32.ofNat c.size) (UInt8.ofNat c.segments.length)
      ((firstPass c.header c.segments
        (contiguous payloadBase (c.segments.map (·.data.length)))).seek 0)).buffer
      = c.front ++ c.payloads := by
  have size : (UInt32.ofNat c.size).toNat = c.size := UInt32.toNat_ofNat_of_lt' fits
  have count : (UInt8.ofNat c.segments.length).toNat = c.segments.length :=
    UInt8.toNat_ofNat_of_lt' (by simp only [maxSegments] at few; simp only [UInt8.size]; omega)
  have same : (c.header.encode c.size c.segments.length).length
      = (c.header.encode 0 c.segments.length).length := by
    rw [Header.length_encode, Header.length_encode]
  rw [Header.emit_eq_write, size, count, Writer.seek, buffer_firstPass c.header few,
    Writer.write_at_start same, front, payloads]
  simp only [List.append_assoc]

/-- The two passes come to the bytes of the container, or to its fault. -/
theorem emit_eq_serialize (c : Container) : emit c.header c.segments = c.serialize := by
  rw [emit, serialize, placements]
  split
  · rfl
  · rename_i few
    have few : c.segments.length ≤ maxSegments := Nat.le_of_not_lt few
    cases placed : place (c.segments.map (·.data.length)) with
    | error fault => rfl
    | ok places =>
        obtain ⟨length, fits⟩ := length_firstPass few placed
        obtain ⟨-, rfl⟩ := placeFrom_eq_ok_iff.mp placed
        have written := buffer_emit_firstPass few fits
        rw [← length] at fits written
        change (if _ then Except.ok (c.header.emit _ _ _).buffer else _)
          = Except.ok (c.front ++ c.payloads)
        rw [if_pos fits, written]

end DspFirmware.Container

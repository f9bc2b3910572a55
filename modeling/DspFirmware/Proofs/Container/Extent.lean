import DspFirmware.Proofs.Container.Acceptance
import DspFirmware.Proofs.Container.RoundTrip
import DspFirmware.Proofs.Streaming

/-!
Where a container ends. Nothing is read from a part of a written file that lacks any of its end, even
where the last payloads are empty, and nothing behind the end is looked at.
-/

namespace DspFirmware.Container

open Read

theorem Header.streaming_read : Streaming Header.read := by
  refine (streaming_block 256).bind fun signature => ?_
  refine (streaming_bytes 4).bind fun found => ?_
  split
  · refine streaming_uint32.bind fun fileSize => ?_
    refine streaming_uint16.bind fun memoryLayout => ?_
    refine (streaming_skip 2).bind fun _ => ?_
    refine streaming_uint8.bind fun unknown => ?_
    refine streaming_uint8.bind fun filterKind => ?_
    refine streaming_uint8.bind fun segmentCount => ?_
    refine streaming_uint8.bind fun flags => ?_
    refine streaming_uint32.bind fun filterAddress => ?_
    refine streaming_uint32.bind fun filterSize => ?_
    exact (streaming_skip 8).bind fun _ => streaming_pure _
  · exact streaming_throw_bind _ _

namespace Descriptor

theorem streaming_readKind : Streaming readKind := by
  refine streaming_uint8.bind fun code => ?_
  split
  · exact streaming_pure _
  · exact streaming_throw _

theorem streaming_read : Streaming Descriptor.read := by
  refine streaming_uint32.bind fun offset => ?_
  refine streaming_uint32.bind fun address => ?_
  refine streaming_uint32.bind fun size => ?_
  refine (streaming_skip 3).bind fun _ => ?_
  refine streaming_readKind.bind fun kind => ?_
  exact (streaming_block 32).bind fun _ => streaming_pure _

theorem streaming_readList (count : Nat) : Streaming (readList count) := by
  induction count with
  | zero => exact streaming_pure []
  | succ count ih => exact streaming_read.bind fun _ => ih.bind fun _ => streaming_pure _

theorem streaming_readSegment (descriptor : Descriptor) : Streaming (readSegment descriptor) :=
  (streaming_seek _).bind fun _ => (streaming_bytes _).bind fun _ => streaming_pure _

end Descriptor

theorem streaming_read : Streaming Container.read :=
  Header.streaming_read.bind fun _ => (Descriptor.streaming_readList _).bind fun _ =>
    (Streaming.mapM Descriptor.streaming_readSegment _).bind fun _ => streaming_pure _

/-- A file reaches to the end of every segment that is read from it. -/
theorem end_le_of_parse {data : Bytes} {c : Container} (h : parse data = .ok c) :
    Header.size ≤ data.length ∧
      ∀ s ∈ c.segments, s.offset.toNat + s.data.length ≤ data.length := by
  obtain ⟨_, descriptors, room, _, _, _, _, inside, rfl⟩ := parse_eq_ok_iff.mp h
  refine ⟨room, fun s member => ?_⟩
  obtain ⟨d, hd, rfl⟩ := List.mem_map.mp member
  have size : (d.segment data).data.length ≤ d.size.toNat := List.length_take_le _ _
  exact (Nat.add_le_add_left size _).trans (inside d hd)

/-- Among payloads behind each other, one ends where all of them do: the last, be it empty or not. -/
theorem exists_end_settle {offset : Nat} {segments : List Segment} (filled : segments ≠ [])
    (fits : offset + (segments.flatMap (·.data)).length < UInt32.size) :
    ∃ s ∈ settle offset segments,
      s.offset.toNat + s.data.length = offset + (segments.flatMap (·.data)).length := by
  induction segments generalizing offset with
  | nil => exact absurd rfl filled
  | cons segment rest ih =>
      rw [List.flatMap_cons, List.length_append, ← Nat.add_assoc] at fits ⊢
      by_cases last : rest = []
      · refine ⟨_, List.mem_cons_self, ?_⟩
        rw [last]
        exact congrArg (· + _) (UInt32.toNat_ofNat_of_lt' (by omega))
      · obtain ⟨s, member, finish⟩ := ih last fits
        exact ⟨s, List.mem_cons_of_mem _ member, finish⟩

/-- A file from which a written container is read has all the bytes that were written. -/
theorem size_le_of_parse_settled {c : Container} {data : Bytes} (h : parse data = .ok c.settled)
    (fits : c.segments = [] ∨ payloadBase + c.payloads.length < UInt32.size) :
    c.size ≤ data.length := by
  obtain ⟨fields, ends⟩ := end_le_of_parse h
  by_cases empty : c.segments = []
  · simpa [size, empty] using fields
  · obtain ⟨s, member, finish⟩ := exists_end_settle empty (fits.resolve_left empty)
    rw [size, if_neg (by simpa using empty), payloads, ← finish]
    exact ends s member

/-- Written containers are self-delimiting. From a part of the file that lacks any of its end nothing is
read: some access goes beyond the part, and that is the fault. Behind the end, other bytes may stand
without any influence on what is read. -/
theorem parse_part {c : Container} {file : Bytes} (written : c.serialize = .ok file) :
    (∀ part, part <+: file → part ≠ file →
      ∃ offset count, part.length < offset + count ∧
        parse part = .error (.outOfBounds offset count part.length)) ∧
    ∃ back, parse file = .ok back ∧ ∀ trailing, parse (file ++ trailing) = .ok back := by
  have whole (trailing : Bytes) : parse (file ++ trailing) = .ok c.settled :=
    parse_of_serialize written trailing
  have alone : parse file = .ok c.settled := settled_of_serialize written
  refine ⟨fun part beginning proper => ?_, c.settled, alone, whole⟩
  rcases streaming_read.runOn beginning with same | short
  · obtain ⟨few, fits, rfl⟩ := serialize_eq_ok_iff.mp written
    have enough := size_le_of_parse_settled (same.trans alone) fits
    rw [← length_front_append_payloads few] at enough
    exact absurd (beginning.eq_of_length_le enough) proper
  · exact short

/-- Two empty payloads at the end of a file, in which even the last byte of the gap is needed. -/
theorem parse_part_emptyPayloads :
    let c := (Container.empty.addSegment .prog0 0 []).addSegment .data 0x100 []
    ∃ file back offset count, c.serialize = .ok file ∧ file.length = 0x300 ∧
      parse file = .ok back ∧ parse (file ++ [1, 2, 3]) = .ok back ∧
      parse file.dropLast = .error (.outOfBounds offset count 0x2ff) := by
  intro c
  have written : c.serialize = .ok (c.front ++ c.payloads) := rfl
  have length : (c.front ++ c.payloads).length = 0x300 := length_front_append_payloads (by decide)
  have shorter : (c.front ++ c.payloads).dropLast.length = 0x2ff := by
    rw [List.length_dropLast, length]
  obtain ⟨parts, back, alone, longer⟩ := parse_part written
  obtain ⟨offset, count, _, refused⟩ := parts _ (List.dropLast_prefix _) (by
    intro same
    rw [same, length] at shorter
    cases shorter)
  rw [shorter] at refused
  exact ⟨_, back, offset, count, written, length, alone, longer _, refused⟩

end DspFirmware.Container

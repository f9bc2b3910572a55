import DspFirmware.Container
import DspFirmware.Proofs.Container.Layout
import DspFirmware.Proofs.Reading

/-!
Containers that were written are read back. What comes back is the container with the places and
digests that writing gives it; stale ones from an earlier reading have no influence. Bytes behind the
end of the container are not looked at.
-/

namespace DspFirmware.Container

open Read Reader

/-- The fields are read back, with what the file declares about itself. -/
theorem Header.yields_read (header : Header) (fileSize : UInt32) (segmentCount : UInt8) :
    Yields Header.read (header.encode fileSize.toNat segmentCount.toNat)
      ⟨header, fileSize, segmentCount⟩ := by
  have flags : [header.unknown, header.filterKind, UInt8.ofNat segmentCount.toNat, header.flags]
      = [header.unknown] ++ ([header.filterKind] ++ ([segmentCount] ++ [header.flags])) := by
    rw [UInt8.ofNat_toNat]
    rfl
  simp only [Header.encode, flags, List.append_assoc]
  refine (yields_block header.signature).bind ?_
  refine (yields_bytes (show magic.length = 4 from rfl)).bind ?_
  rw [if_pos rfl]
  refine (yields_uint32 fileSize).bind ?_
  refine (yields_uint16 _).bind ?_
  refine (yields_skip (show ([0, 0] : Bytes).length = 2 from rfl)).bind ?_
  refine (yields_uint8 _).bind ?_
  refine (yields_uint8 _).bind ?_
  refine (yields_uint8 _).bind ?_
  refine (yields_uint8 _).bind ?_
  refine (yields_uint32 _).bind ?_
  refine (yields_uint32 _).bind ?_
  exact (yields_skip List.length_replicate).bind_pure

namespace Descriptor

theorem yields_readKind (kind : SegmentKind) : Yields readKind [kind.code] kind := by
  apply (yields_uint8 _).bind_nil
  rw [SegmentKind.ofCode, SegmentKind.ofCode?_code]
  exact yields_pure _

theorem yields_read (descriptor : Descriptor) :
    Yields Descriptor.read descriptor.encode descriptor := by
  have unused : [0, 0, 0, descriptor.kind.code] = [0, 0, 0] ++ [descriptor.kind.code] := rfl
  simp only [Descriptor.encode, unused, List.append_assoc]
  refine (yields_uint32 _).bind ?_
  refine (yields_uint32 _).bind ?_
  refine (yields_uint32 _).bind ?_
  refine (yields_skip (show ([0, 0, 0] : Bytes).length = 3 from rfl)).bind ?_
  refine (yields_readKind _).bind ?_
  exact (yields_block descriptor.digest).bind_pure

theorem yields_readList (descriptors : List Descriptor) :
    Yields (readList descriptors.length) (descriptors.flatMap encode) descriptors := by
  induction descriptors with
  | nil => exact yields_pure []
  | cons descriptor others ih => exact (yields_read descriptor).bind ih.bind_pure

theorem length_flatMap_encode (descriptors : List Descriptor) :
    (descriptors.flatMap encode).length = descriptors.length * recordSize := by
  induction descriptors with
  | nil => rfl
  | cons descriptor others ih =>
      rw [List.flatMap_cons, List.length_append, length_encode, ih, List.length_cons,
        Nat.add_one_mul, Nat.add_comm]

/-- The bytes that a descriptor locates become the payload, wherever the reader has been. -/
theorem readSegment_eq_ok (descriptor : Descriptor) {r : Reader} {passed run ahead : Bytes}
    (data : r.data = passed ++ (run ++ ahead)) (offset : descriptor.offset.toNat = passed.length)
    (size : descriptor.size.toNat = run.length) :
    readSegment descriptor r
      = .ok ⟨descriptor.kind, descriptor.address, run, descriptor.offset, descriptor.digest⟩
          (between (passed ++ run) ahead) := by
  refine bind_eq_ok.mpr ⟨(), between passed (run ++ ahead), ?_, ?_⟩
  · rw [offset]
    exact seek_between data
  · exact (yields_bytes size.symm).bind_pure passed ahead

end Descriptor

/-- The segments as they are read from a container in which their payloads begin at an offset. -/
def settle : (offset : Nat) → List Segment → List Segment
  | _, [] => []
  | offset, segment :: rest =>
      { segment with offset := UInt32.ofNat offset, digest := sha256 segment.data }
        :: settle (offset + segment.data.length) rest

theorem map_settle (offset : Nat) (segments : List Segment) :
    (settle offset segments).map (fun s => (s.kind, s.address, s.data))
      = segments.map (fun s => (s.kind, s.address, s.data)) := by
  induction segments generalizing offset with
  | nil => rfl
  | cons segment rest ih => rw [settle, List.map_cons, ih, List.map_cons]

theorem digest_of_mem_settle {offset : Nat} {segments : List Segment} {s : Segment}
    (h : s ∈ settle offset segments) : s.digest = sha256 s.data := by
  induction segments generalizing offset with
  | nil => cases h
  | cons segment rest ih =>
      rcases List.mem_cons.mp h with rfl | later
      · rfl
      · exact ih later

/-- Every payload begins where the payloads before it end. -/
theorem offset_settle {offset : Nat} {segments : List Segment}
    (fits : segments = [] ∨ offset + (segments.flatMap (·.data)).length < UInt32.size) (i : Nat)
    (inside : i < (settle offset segments).length) :
    ((settle offset segments)[i]).offset.toNat
      = offset + (((settle offset segments).take i).map (·.data.length)).sum := by
  induction segments generalizing offset i with
  | nil => cases inside
  | cons segment rest ih =>
      have fits := fits.resolve_left (by simp)
      rw [List.flatMap_cons, List.length_append] at fits
      cases i with
      | zero => simpa [settle] using UInt32.toNat_ofNat_of_lt' (by omega)
      | succ i =>
          have later := @ih (offset + segment.data.length) (Or.inr (by omega)) i
            (Nat.lt_of_succ_lt_succ inside)
          simp only [settle, List.getElem_cons_succ, List.take_succ_cons, List.map_cons,
            List.sum_cons]
          rw [later, Nat.add_assoc]

/-- The container as it is read from its own bytes. -/
def settled (c : Container) : Container where
  header := c.header
  segments := settle payloadBase c.segments
  fileSize := UInt32.ofNat c.size

/-- The descriptors of segments whose payloads begin at an offset. -/
def descriptorsFrom (offset : Nat) (segments : List Segment) : List Descriptor :=
  segments.zipWith describe (contiguous offset (segments.map (·.data.length)))

theorem descriptorsFrom_cons (offset : Nat) (segment : Segment) (rest : List Segment) :
    descriptorsFrom offset (segment :: rest)
      = describe segment ⟨offset, segment.data.length⟩
          :: descriptorsFrom (offset + segment.data.length) rest :=
  rfl

theorem length_descriptorsFrom (offset : Nat) (segments : List Segment) :
    (descriptorsFrom offset segments).length = segments.length := by
  induction segments generalizing offset with
  | nil => rfl
  | cons segment rest ih => rw [descriptorsFrom_cons, List.length_cons, ih, List.length_cons]

/-- Payloads behind each other are read through their descriptors, from any reader of the file. -/
theorem mapM_readSegment (segments : List Segment) {r : Reader} {passed ahead : Bytes}
    (data : r.data = passed ++ (segments.flatMap (·.data) ++ ahead))
    (fits : passed.length + (segments.flatMap (·.data)).length < UInt32.size) :
    ∃ s, (descriptorsFrom passed.length segments).mapM Descriptor.readSegment r
      = .ok (settle passed.length segments) s := by
  induction segments generalizing r passed with
  | nil => exact ⟨r, rfl⟩
  | cons segment rest ih =>
      rw [List.flatMap_cons, List.append_assoc] at data
      rw [List.flatMap_cons, List.length_append] at fits
      have first := Descriptor.readSegment_eq_ok
        (describe segment ⟨passed.length, segment.data.length⟩) data
        (UInt32.toNat_ofNat_of_lt' (show passed.length < UInt32.size by omega))
        (UInt32.toNat_ofNat_of_lt' (show segment.data.length < UInt32.size by omega))
      obtain ⟨s, hRest⟩ := ih
        (show (between (passed ++ segment.data) (rest.flatMap (·.data) ++ ahead)).data = _ from rfl)
        (by rw [List.length_append]; omega)
      rw [List.length_append] at hRest
      refine ⟨s, ?_⟩
      rw [descriptorsFrom_cons, List.mapM_cons]
      refine bind_eq_ok.mpr ⟨_, _, first, ?_⟩
      exact bind_eq_ok.mpr ⟨_, s, hRest, rfl⟩

/-- The bytes in front of the payloads: header, descriptors and the gap behind them. -/
def front (c : Container) : Bytes :=
  c.header.encode c.size c.segments.length
    ++ (descriptorsFrom payloadBase c.segments).flatMap Descriptor.encode ++ gap c.segments.length

/-- The payloads of up to ten segments begin at their base. Without segments the fields are all. -/
theorem length_front {c : Container} (few : c.segments.length ≤ maxSegments) :
    c.front.length = if c.segments = [] then Header.size else payloadBase := by
  rw [front, List.length_append, List.length_append, Header.length_encode,
    Descriptor.length_flatMap_encode, length_descriptorsFrom, gap]
  by_cases empty : c.segments = []
  · simp [empty]
  · have positive : c.segments.length ≠ 0 := fun zero => empty (List.length_eq_zero_iff.mp zero)
    rw [if_neg positive, if_neg empty, List.length_replicate]
    simp only [maxSegments, payloadBase, Header.size, Descriptor.recordSize] at few ⊢
    omega

theorem length_front_append_payloads {c : Container} (few : c.segments.length ≤ maxSegments) :
    (c.front ++ c.payloads).length = c.size := by
  rw [List.length_append, length_front few, size]
  by_cases empty : c.segments = []
  · simp [empty, payloads]
  · simp [empty]

/-- Writing succeeds for at most ten segments whose payloads end within 32 bits. -/
theorem serialize_eq_ok_iff {c : Container} {bytes : Bytes} :
    c.serialize = .ok bytes ↔
      c.segments.length ≤ maxSegments ∧
      (c.segments = [] ∨ payloadBase + c.payloads.length < UInt32.size) ∧
      bytes = c.front ++ c.payloads := by
  have total : (c.segments.map (·.data.length)).sum = c.payloads.length := by
    rw [payloads, List.length_flatMap]
  rw [serialize, placements]
  split
  · rename_i many
    exact ⟨nofun, fun h => absurd h.1 (by omega)⟩
  · rename_i few
    cases hPlace : place (c.segments.map (·.data.length)) with
    | error fault =>
        refine ⟨nofun, fun h => ?_⟩
        have placed := placeFrom_eq_ok_iff.mpr
          ⟨h.2.1.imp (congrArg (List.map _)) (total ▸ ·), rfl⟩
        rw [show placeFrom payloadBase _ = .error fault from hPlace] at placed
        cases placed
    | ok places =>
        obtain ⟨fits, rfl⟩ := placeFrom_eq_ok_iff.mp hPlace
        rw [List.map_eq_nil_iff, total] at fits
        change Except.ok (c.front ++ c.payloads) = _ ↔ _
        rw [Except.ok.injEq, eq_comm]
        exact ⟨fun h => ⟨by omega, fits, h⟩, fun h => h.2.2⟩

theorem digestsMatch_settled (c : Container) : c.settled.digestsMatch = true := by
  refine List.all_eq_true.mpr fun s member => ?_
  rw [Segment.digestMatches, digest_of_mem_settle member, beq_self_eq_true]

theorem size_lt {c : Container}
    (fits : c.segments = [] ∨ payloadBase + c.payloads.length < UInt32.size) :
    c.size < UInt32.size := by
  rw [size]
  rcases fits with empty | fits
  · simp [empty, Header.size, UInt32.size]
  · split
    · simp [Header.size, UInt32.size]
    · exact fits

/-- The payloads of a container are read behind its front. -/
theorem readSegments_eq_ok {c : Container} (few : c.segments.length ≤ maxSegments)
    (fits : c.segments = [] ∨ payloadBase + c.payloads.length < UInt32.size) {r : Reader}
    {ahead : Bytes} (data : r.data = c.front ++ (c.payloads ++ ahead)) :
    ∃ s, (descriptorsFrom payloadBase c.segments).mapM Descriptor.readSegment r
      = .ok (settle payloadBase c.segments) s := by
  by_cases empty : c.segments = []
  · exact ⟨r, by rw [empty]; rfl⟩
  · have base := length_front few
    rw [if_neg empty] at base
    rw [← base]
    exact mapM_readSegment c.segments data (base ▸ fits.resolve_left empty)

/-- Reading what was written, whatever follows it. -/
theorem parse_of_serialize {c : Container} {bytes : Bytes} (h : c.serialize = .ok bytes)
    (ahead : Bytes) : parse (bytes ++ ahead) = .ok c.settled := by
  obtain ⟨few, fits, rfl⟩ := serialize_eq_ok_iff.mp h
  have fileSize : (UInt32.ofNat c.size).toNat = c.size := UInt32.toNat_ofNat_of_lt' (size_lt fits)
  have count : (UInt8.ofNat c.segments.length).toNat = c.segments.length :=
    UInt8.toNat_ofNat_of_lt' (by simp only [maxSegments] at few; simp only [UInt8.size]; omega)
  have header := Header.yields_read c.header (UInt32.ofNat c.size) (UInt8.ofNat c.segments.length)
  have descriptors := Descriptor.yields_readList (descriptorsFrom payloadBase c.segments)
  rw [fileSize, count] at header
  rw [length_descriptorsFrom, ← count] at descriptors
  -- Behind the descriptors stands the gap; from there every payload is sought.
  let tables := c.header.encode c.size c.segments.length
    ++ (descriptorsFrom payloadBase c.segments).flatMap Descriptor.encode
  have data : (between tables (gap c.segments.length ++ (c.payloads ++ ahead))).data
      = c.front ++ (c.payloads ++ ahead) := by
    simp only [data_between, tables, front, List.append_assoc]
  obtain ⟨s, hSegments⟩ := readSegments_eq_ok few fits data
  have read : Container.read (ofBytes (c.front ++ c.payloads ++ ahead)) = .ok c.settled s := by
    rw [ofBytes_eq_between, front]
    simp only [List.append_assoc]
    rw [Container.read, header.bind_between, descriptors.bind_between]
    exact bind_eq_ok.mpr ⟨_, s, hSegments, rfl⟩
  rw [parse, runOn, read]

theorem settled_of_serialize {c : Container} {bytes : Bytes} (h : c.serialize = .ok bytes) :
    parse bytes = .ok c.settled := by
  simpa using parse_of_serialize h []

/-- What was written is read back: the header and every segment with its kind, address and payload.
Digests and offsets are those of the written payloads, and the declared size is the real one,
whatever the container held of them before. -/
theorem parse_serialize (c : Container) (bytes : Bytes) (h : c.serialize = .ok bytes) :
    ∃ back, parse bytes = .ok back ∧ back.header = c.header ∧
      back.segments.map (fun s => (s.kind, s.address, s.data))
        = c.segments.map (fun s => (s.kind, s.address, s.data)) ∧
      (∀ s ∈ back.segments, s.digest = sha256 s.data) ∧
      back.digestsMatch = true ∧
      (∀ (i : Nat) (inside : i < back.segments.length), (back.segments[i]).offset.toNat
        = 0x300 + ((back.segments.take i).map (·.data.length)).sum) ∧
      back.fileSize.toNat = bytes.length := by
  have read := parse_of_serialize h []
  rw [List.append_nil] at read
  obtain ⟨few, fits, rfl⟩ := serialize_eq_ok_iff.mp h
  refine ⟨c.settled, read, rfl, map_settle _ _, fun s => digest_of_mem_settle,
    digestsMatch_settled c, offset_settle fits, ?_⟩
  rw [length_front_append_payloads few]
  exact UInt32.toNat_ofNat_of_lt' (size_lt fits)

/-- A container with an unknown flag, an empty payload, and the places and digests of another
file. -/
theorem parse_serialize_stale :
    let stale : Digest := ⟨List.replicate 32 0xee, List.length_replicate⟩
    let c : Container := {
      header := { Header.default with flags := 0xa5, filterKind := 9 }
      segments := [⟨.prog0, 0x100, [1, 2, 3], 7, stale⟩, ⟨.prog1, 0, [], 0, stale⟩,
        ⟨.data, 0xffffffff, [4, 5], 0x300, stale⟩]
      fileSize := 77 }
    ∃ bytes back, c.serialize = .ok bytes ∧ parse bytes = .ok back ∧ back.header = c.header ∧
      back.segments.map (fun s => (s.kind, s.address, s.data))
        = c.segments.map (fun s => (s.kind, s.address, s.data)) ∧
      back.digestsMatch = true ∧ back.fileSize.toNat = bytes.length := by
  intro stale c
  have written : c.serialize = .ok (c.front ++ c.payloads) := rfl
  obtain ⟨back, read, header, segments, _, digests, _, fileSize⟩ := parse_serialize c _ written
  exact ⟨_, back, written, read, header, segments, digests, fileSize⟩

end DspFirmware.Container

import DspFirmware.Proofs.Container.Extent

/-!
Files whose payloads have changed behind their descriptors. What a container says about its segments is
read in front of the payloads, so that a change there is confined to the segments in whose ranges it
lies. It is found where it changes a digest, and only when digests are asked for.
-/

namespace DspFirmware.Container

/-- A segment with the bytes that a file has in its range. -/
def Segment.refill (s : Segment) (data : Bytes) : Segment :=
  { s with data := (data.drop s.offset.toNat).take s.data.length }

/-- What is read of a segment from a file in which the bytes of payloads may be others. -/
structure Segment.Reread (file other : Bytes) (original found : Segment) : Prop where
  kind : found.kind = original.kind
  address : found.address = original.address
  offset : found.offset = original.offset
  size : found.data.length = original.data.length
  /-- The digest that stands in the descriptor. -/
  digest : found.digest = original.digest
  payload : found.data = (other.drop original.offset.toNat).take original.data.length
  digestMatches_iff : found.digestMatches = true ↔ sha256 found.data = sha256 original.data
  untouched :
    (∀ p, original.offset.toNat ≤ p → p < original.offset.toNat + original.data.length →
      other[p]? = file[p]?) →
    found.data = original.data ∧ found.digestMatches = true

/-- The range of a descriptor that lies in one file is read from another one. -/
theorem Descriptor.refill_segment {d : Descriptor} {data : Bytes}
    (inside : d.offset.toNat + d.size.toNat ≤ data.length) (other : Bytes) :
    (d.segment data).refill other = d.segment other := by
  have size : ((data.drop d.offset.toNat).take d.size.toNat).length = d.size.toNat := by
    rw [List.length_take, List.length_drop]
    omega
  simp only [Segment.refill, segment, size]

/-- Files that agree on the header and the descriptors hold the same container, up to the bytes of its
payloads. -/
theorem parse_of_front {data other : Bytes} {c : Container} (h : parse data = .ok c)
    (long : data.length ≤ other.length)
    (same : ∀ p < Header.size + Descriptor.recordSize * c.segments.length, other[p]? = data[p]?) :
    parse other = .ok { c with segments := c.segments.map (·.refill other) } := by
  obtain ⟨declared, descriptors, room, hDeclared, further, length, places, inside, rfl⟩ :=
    parse_eq_ok_iff.mp h
  rw [List.length_map] at same
  refine parse_eq_ok_iff.mpr ⟨declared, descriptors, room.trans long, ?_, further.trans long, length,
    fun i bound => ?_, fun d member => (inside d member).trans long, ?_⟩
  · exact hDeclared.congr fun p low => same p (Nat.lt_add_right _ low)
  · refine (places i bound).congr fun p low => ?_
    rw [List.getElem?_drop, List.getElem?_drop]
    apply same
    simp only [Header.size, Descriptor.recordSize] at low ⊢
    omega
  · rw [List.map_map]
    congr 1
    exact List.map_congr_left fun d member => Descriptor.refill_segment (inside d member) other

/-- Each segment has the bytes of its range in the file that it was read from. -/
theorem refill_of_parse {data : Bytes} {c : Container} (h : parse data = .ok c) {s : Segment}
    (member : s ∈ c.segments) : s.refill data = s := by
  obtain ⟨_, descriptors, _, _, _, _, _, inside, rfl⟩ := parse_eq_ok_iff.mp h
  obtain ⟨d, hd, rfl⟩ := List.mem_map.mp member
  exact Descriptor.refill_segment (inside d hd) data

theorem reread_refill {file other : Bytes} {s : Segment} (same : s.refill file = s)
    (inside : s.offset.toNat + s.data.length ≤ other.length) (digest : s.digest = sha256 s.data) :
    s.Reread file other (s.refill other) := by
  have size : (s.refill other).data.length = s.data.length := by
    simp only [Segment.refill, List.length_take, List.length_drop]
    omega
  have digestMatches_iff :
      (s.refill other).digestMatches = true ↔ sha256 (s.refill other).data = sha256 s.data := by
    rw [Segment.digestMatches, beq_iff_eq, ← digest]
    rfl
  refine ⟨rfl, rfl, rfl, size, rfl, rfl, digestMatches_iff, fun untouched => ?_⟩
  have data : (s.refill other).data = s.data :=
    (Bytes.slice_congr untouched).trans (congrArg Segment.data same)
  exact ⟨data, digestMatches_iff.mpr (congrArg sha256 data)⟩

/-- A written file may change anywhere behind its first `0x300` bytes. It is still read, with the same
header, the same declared size and the same descriptors, the stored digests among them; each segment has
the bytes that its range holds now. Its digest matches as long as these bytes have the digest of the
written ones, so in particular where none of them has changed. -/
theorem parse_changedPayloads {c : Container} {file other : Bytes} (written : c.serialize = .ok file)
    (length : other.length = file.length) (front : other.take 0x300 = file.take 0x300) :
    ∃ original found, parse file = .ok original ∧ parse other = .ok found ∧
      original.segments.map (·.data) = c.segments.map (·.data) ∧
      found.header = original.header ∧ found.fileSize = original.fileSize ∧
      List.Forall₂ (Segment.Reread file other) original.segments found.segments ∧
      (found.digestsMatch = true ↔ ∀ s ∈ found.segments, s.digestMatches = true) := by
  have read : parse file = .ok c.settled := settled_of_serialize written
  obtain ⟨few, _, _⟩ := serialize_eq_ok_iff.mp written
  have payloads : c.settled.segments.map (·.data) = c.segments.map (·.data) := by
    have views := congrArg (List.map (·.2.2)) (map_settle payloadBase c.segments)
    rwa [List.map_map, List.map_map] at views
  have count : c.settled.segments.length = c.segments.length := by
    simpa using congrArg List.length payloads
  -- Ten descriptors end where the payloads begin.
  have same (p : Nat) (low : p < Header.size + Descriptor.recordSize * c.settled.segments.length) :
      other[p]? = file[p]? := by
    have early : p < 0x300 := by
      rw [count] at low
      simp only [Header.size, Descriptor.recordSize, maxSegments] at low few
      omega
    rw [← List.getElem?_take_of_lt early, front, List.getElem?_take_of_lt early]
  have reread (s : Segment) (member : s ∈ c.settled.segments) :
      s.Reread file other (s.refill other) := by
    have inside := (end_le_of_parse read).2 s member
    exact reread_refill (refill_of_parse read member) (length ▸ inside) (digest_of_mem_settle member)
  refine ⟨c.settled, _, read, parse_of_front read (Nat.le_of_eq length.symm) same, payloads, rfl, rfl,
    ?_, List.all_eq_true⟩
  exact List.forall₂_map_right_iff.mpr (List.forall₂_same.mpr reread)

/-- The first of three payloads has changed. The two others keep their bytes and their digests. -/
theorem parse_changedPayloads_first :
    let c := ((Container.empty.addSegment .prog0 0x100 [1, 2, 3]).addSegment .prog1 0 []).addSegment
      .data 0x8000 [4, 5]
    ∃ file found, c.serialize = .ok file ∧ parse (file.set 0x300 9) = .ok found ∧
      found.segments.map (·.data) = [[9, 2, 3], [], [4, 5]] ∧
      found.segments.map (·.digestMatches) = [false, true, true] ∧ found.digestsMatch = false := by
  intro c
  let file := c.front ++ c.payloads
  let other := file.set 0x300 9
  have written : c.serialize = .ok file := rfl
  have front : other.take 0x300 = file.take 0x300 := List.take_set_of_le (Nat.le_refl 0x300)
  have changed : (other.drop 0x300).take 3 = [9, 2, 3] := by decide +kernel
  have apart : sha256 [9, 2, 3] ≠ sha256 [1, 2, 3] := by decide +kernel
  have later (p : Nat) (behind : 0x300 < p) : other[p]? = file[p]? :=
    List.getElem?_set_ne (Nat.ne_of_lt behind)
  obtain ⟨original, found, readOriginal, readFound, -, -, -, reread, all⟩ :=
    parse_changedPayloads written (List.length_set : other.length = _) front
  obtain rfl : c.settled = original :=
    Except.ok.inj ((settled_of_serialize written).symm.trans readOriginal)
  have places : c.settled.segments = [
      ⟨.prog0, 0x100, [1, 2, 3], 0x300, sha256 [1, 2, 3]⟩, ⟨.prog1, 0, [], 0x303, sha256 []⟩,
      ⟨.data, 0x8000, [4, 5], 0x303, sha256 [4, 5]⟩] := rfl
  rw [places] at reread
  obtain ⟨s₀, _, first, others, segments⟩ := List.forall₂_cons_left_iff.mp reread
  obtain ⟨s₁, _, second, last, rfl⟩ := List.forall₂_cons_left_iff.mp others
  obtain ⟨s₂, _, third, end₂, rfl⟩ := List.forall₂_cons_left_iff.mp last
  obtain rfl := List.forall₂_nil_left_iff.mp end₂
  have data₀ : s₀.data = [9, 2, 3] := first.payload.trans changed
  have mismatch : s₀.digestMatches = false := by
    rw [← Bool.not_eq_true, first.digestMatches_iff, data₀]
    exact apart
  obtain ⟨data₁, match₁⟩ := second.untouched fun p low _ =>
    later p (Nat.lt_of_lt_of_le (by decide) low)
  obtain ⟨data₂, match₂⟩ := third.untouched fun p low _ =>
    later p (Nat.lt_of_lt_of_le (by decide) low)
  refine ⟨file, found, written, readFound, ?_, ?_, ?_⟩
  · rw [segments]
    simp only [List.map_cons, List.map_nil, data₀, data₁, data₂]
  · rw [segments]
    simp only [List.map_cons, List.map_nil, mismatch, match₁, match₂]
  · rw [← Bool.not_eq_true, all, segments]
    intro matching
    have first := matching s₀ List.mem_cons_self
    rw [mismatch] at first
    cases first

end DspFirmware.Container

import DspFirmware.Proofs.Container.Records

/-!
Which byte strings are containers, and what is read from them. A file is accepted when its header
and its descriptors are there, with the magic and with known kinds, and when every descriptor locates
bytes of the file. Everything else in the file is free: ranges may overlap, and bytes that no field
and no range covers have no influence.
-/

namespace DspFirmware.Container

open Read Reader

namespace Descriptor

/-- The segment that a descriptor locates in a file. -/
def segment (d : Descriptor) (data : Bytes) : Segment where
  kind := d.kind
  address := d.address
  data := (data.drop d.offset.toNat).take d.size.toNat
  offset := d.offset
  digest := d.digest

/-- A payload is read wherever the reader has been, if the file reaches its end. -/
theorem readSegment_eq_ok_iff {d : Descriptor} {r s : Reader} {found : Segment} :
    readSegment d r = .ok found s ↔
      ∃ inside : d.offset.toNat + d.size.toNat ≤ r.data.length,
        found = d.segment r.data ∧ s = r.moveTo (d.offset.toNat + d.size.toNat) inside := by
  have payload := (takes_bytes d.size.toNat).bind_pure (f := fun payload =>
    (⟨d.kind, d.address, payload, d.offset, d.digest⟩ : Segment))
  rw [readSegment, bind_eq_ok]
  constructor
  · rintro ⟨_, t, sought, read⟩
    obtain ⟨inside, rfl⟩ := seek_eq_ok_iff.mp sought
    obtain ⟨enough, ⟨_, rfl, rfl⟩, rfl⟩ := payload.mp read
    exact ⟨pos_add_le enough, rfl, ext_pos rfl rfl⟩
  · rintro ⟨inside, rfl, rfl⟩
    have start : d.offset.toNat ≤ r.data.length := by omega
    have enough : d.size.toNat ≤ (r.moveTo d.offset.toNat start).rest.length := by
      change _ ≤ (r.data.drop _).length
      rw [List.length_drop]
      omega
    exact ⟨(), _, seek_eq_ok_iff.mpr ⟨start, rfl⟩,
      payload.mpr ⟨enough, ⟨_, rfl, rfl⟩, ext_pos rfl rfl⟩⟩

/-- The payloads of several descriptors are read when each of them can be. -/
theorem mapM_readSegment_iff {descriptors : List Descriptor} {r : Reader} {found : List Segment} :
    (∃ s, descriptors.mapM readSegment r = .ok found s) ↔
      (∀ d ∈ descriptors, d.offset.toNat + d.size.toNat ≤ r.data.length) ∧
        found = descriptors.map (·.segment r.data) := by
  induction descriptors generalizing r found with
  | nil =>
      simp only [List.mapM_nil, pure_eq_ok]
      simp [eq_comm]
  | cons d others ih =>
      simp only [List.mapM_cons, bind_eq_ok, pure_eq_ok]
      constructor
      · rintro ⟨s, first, t, read, rest, u, later, rfl, rfl⟩
        obtain ⟨inside, rfl, rfl⟩ := readSegment_eq_ok_iff.mp read
        obtain ⟨further, rfl⟩ := ih.mp ⟨_, later⟩
        exact ⟨by simpa using ⟨inside, further⟩, rfl⟩
      · rintro ⟨all, rfl⟩
        have inside := all d List.mem_cons_self
        have read := readSegment_eq_ok_iff.mpr ⟨inside, rfl, rfl⟩
        obtain ⟨s, later⟩ := (@ih (r.moveTo _ inside) _).mpr
          ⟨fun other member => all other (List.mem_cons_of_mem d member), rfl⟩
        exact ⟨s, _, _, read, _, _, later, rfl, rfl⟩

end Descriptor

/-- Reading a container succeeds when the header, the descriptors and the payloads are there. -/
theorem parse_eq_ok_iff {data : Bytes} {c : Container} :
    parse data = .ok c ↔
      ∃ (declared : Header.Declared) (descriptors : List Descriptor),
        Header.size ≤ data.length ∧ declared.StandsIn data ∧
        Header.size + Descriptor.recordSize * descriptors.length ≤ data.length ∧
        descriptors.length = declared.segmentCount.toNat ∧
        (∀ (i : Nat) (h : i < descriptors.length), (descriptors[i]).StandsIn
          (data.drop (Header.size + Descriptor.recordSize * i))) ∧
        (∀ d ∈ descriptors, d.offset.toNat + d.size.toNat ≤ data.length) ∧
        c = ⟨declared.header, descriptors.map (·.segment data), declared.fileSize⟩ := by
  -- The descriptors are taken behind the header, all of them at once.
  have places (n : Nat) {descriptors : List Descriptor} (length : descriptors.length = n) :
      (∀ (i : Nat) (h : i < descriptors.length), (descriptors[i]).StandsIn
          (((data.drop Header.size).take (n * Descriptor.recordSize)).drop
            (Descriptor.recordSize * i))) ↔
        ∀ (i : Nat) (h : i < descriptors.length), (descriptors[i]).StandsIn
          (data.drop (Header.size + Descriptor.recordSize * i)) := by
    refine forall₂_congr fun i h => ?_
    rw [List.drop_take, List.drop_drop]
    apply Descriptor.standsIn_take
    simp only [Descriptor.recordSize]
    omega
  rw [parse, runOn_eq_ok_iff]
  simp only [Container.read, bind_eq_ok, pure_eq_ok]
  constructor
  · rintro ⟨s, declared, t, hHeader, descriptors, u, hList, segments, v, hSegments, rfl, rfl⟩
    obtain ⟨room, hDeclared, rfl⟩ := Header.takes_read.mp hHeader
    obtain ⟨further, ⟨length, hPlaces⟩, rfl⟩ := (Descriptor.takes_readList _).mp hList
    obtain ⟨inside, rfl⟩ := Descriptor.mapM_readSegment_iff.mp ⟨_, hSegments⟩
    refine ⟨declared, descriptors, room, Header.Declared.standsIn_take.mp hDeclared, ?_, length,
      (places _ length).mp hPlaces, inside, rfl⟩
    change Header.size ≤ data.length at room
    change _ ≤ (data.drop Header.size).length at further
    rw [List.length_drop, ← length] at further
    simp only [Header.size, Descriptor.recordSize] at room further ⊢
    omega
  · rintro ⟨declared, descriptors, room, hDeclared, further, length, hPlaces, inside, rfl⟩
    have hHeader : Header.read (ofBytes data)
        = .ok declared ((ofBytes data).advance Header.size room) :=
      Header.takes_read.mpr ⟨room, Header.Declared.standsIn_take.mpr hDeclared, rfl⟩
    have enough : declared.segmentCount.toNat * Descriptor.recordSize
        ≤ ((ofBytes data).advance Header.size room).rest.length := by
      change _ ≤ (data.drop Header.size).length
      rw [List.length_drop, ← length]
      simp only [Header.size, Descriptor.recordSize] at room further ⊢
      omega
    have hList := (Descriptor.takes_readList _).mpr
      ⟨enough, ⟨length, (places _ length).mpr hPlaces⟩, rfl⟩
    obtain ⟨s, hSegments⟩ := (@Descriptor.mapM_readSegment_iff descriptors
      (((ofBytes data).advance Header.size room).advance _ enough) _).mpr ⟨inside, rfl⟩
    exact ⟨s, _, _, hHeader, _, _, hList, _, _, hSegments, rfl, rfl⟩

/-- What a file has to be for a container to be read from it. The byte at `0x10e` is the number of
descriptors. -/
structure Readable (data : Bytes) : Prop where
  fields : 0x120 ≤ data.length
  magic : (data.drop 0x100).take 4 = [0x44, 0x53, 0x50, 0x31]
  descriptors : 0x120 + 48 * data.field 0x10e 1 ≤ data.length
  kinds : ∀ i < data.field 0x10e 1, data.field (0x120 + 48 * i + 15) 1 ≤ 2
  payloads : ∀ i < data.field 0x10e 1,
    data.field (0x120 + 48 * i) 4 + data.field (0x120 + 48 * i + 8) 4 ≤ data.length

/-- The segment is what the descriptor at a place of the file says, digest included. -/
structure Segment.ReadFrom (segment : Segment) (data : Bytes) (place : Nat) : Prop where
  offset : segment.offset.toNat = data.field place 4
  address : segment.address.toNat = data.field (place + 4) 4
  kind : segment.kind.code.toNat = data.field (place + 15) 1
  digest : segment.digest.val = (data.drop (place + 16)).take 32
  payload : segment.data = (data.drop (data.field place 4)).take (data.field (place + 8) 4)

/-- The container is what the fields and descriptors of the file say. -/
structure ReadFrom (c : Container) (data : Bytes) : Prop where
  header : c.header.StandsIn data
  fileSize : c.fileSize.toNat = data.field 0x104 4
  count : c.segments.length = data.field 0x10e 1
  segments : ∀ (i : Nat) (h : i < c.segments.length),
    (c.segments[i]).ReadFrom data (0x120 + 48 * i)

/-- The bytes of a file that its container is made of: the fields and descriptors without their unused
bytes and without the declared size, and the ranges that the descriptors locate. -/
def Covers (data : Bytes) (p : Nat) : Prop :=
  p < 0x104 ∨ 0x108 ≤ p ∧ p < 0x10a ∨ 0x10c ≤ p ∧ p < 0x118 ∨
    ∃ i < data.field 0x10e 1,
      0x120 + 48 * i ≤ p ∧ p < 0x120 + 48 * i + 12 ∨
      0x120 + 48 * i + 15 ≤ p ∧ p < 0x120 + 48 * i + 48 ∨
      data.field (0x120 + 48 * i) 4 ≤ p ∧
        p < data.field (0x120 + 48 * i) 4 + data.field (0x120 + 48 * i + 8) 4

namespace Descriptor

/-- A descriptor behind some bytes, with its fields counted from the start of the file. -/
theorem StandsIn.drop {d : Descriptor} {data : Bytes} {place : Nat}
    (h : d.StandsIn (data.drop place)) :
    d.offset.toNat = data.field place 4 ∧ d.address.toNat = data.field (place + 4) 4 ∧
      d.size.toNat = data.field (place + 8) 4 ∧ d.kind.code.toNat = data.field (place + 15) 1 ∧
      d.digest.val = (data.drop (place + 16)).take 32 := by
  obtain ⟨h₁, h₂, h₃, h₄, h₅⟩ := h
  rw [Bytes.field_drop] at h₁ h₂ h₃ h₄
  rw [List.drop_drop] at h₅
  exact ⟨h₁, h₂, h₃, h₄, h₅⟩

theorem readFrom_segment {d : Descriptor} {data : Bytes} {place : Nat}
    (h : d.StandsIn (data.drop place)) : (d.segment data).ReadFrom data place := by
  obtain ⟨offset, address, size, kind, digest⟩ := h.drop
  refine ⟨offset, address, kind, digest, ?_⟩
  rw [segment, offset, size]

/-- Enough bytes with a known kind are a descriptor. -/
theorem exists_standsIn {data : Bytes} (room : recordSize ≤ data.length)
    (known : data.field 15 1 ≤ 2) : ∃ d : Descriptor, d.StandsIn data := by
  obtain ⟨kind, hKind⟩ : ∃ kind : SegmentKind, kind.code.toNat = data.field 15 1 := by
    obtain h | h | h : data.field 15 1 = 0 ∨ data.field 15 1 = 1 ∨ data.field 15 1 = 2 := by omega
    · exact ⟨.prog0, h.symm⟩
    · exact ⟨.prog1, h.symm⟩
    · exact ⟨.data, h.symm⟩
  have digest : ((data.drop 16).take 32).length = 32 := by
    rw [List.length_take, List.length_drop]
    simp only [recordSize] at room
    omega
  exact ⟨⟨UInt32.ofNat (data.field 0 4), UInt32.ofNat (data.field 4 4),
    UInt32.ofNat (data.field 8 4), kind, ⟨_, digest⟩⟩,
    Bytes.toNat_uint32_field _ _, Bytes.toNat_uint32_field _ _, Bytes.toNat_uint32_field _ _,
    hKind, rfl⟩

end Descriptor

theorem Header.Declared.exists_standsIn {data : Bytes} (room : Header.size ≤ data.length)
    (hMagic : (data.drop 0x100).take 4 = Container.magic) :
    ∃ declared : Header.Declared, declared.StandsIn data := by
  have signature : (data.take 0x100).length = 256 := by
    rw [List.length_take]
    simp only [Header.size] at room
    omega
  exact ⟨{
    header := {
      signature := ⟨_, signature⟩
      memoryLayout := UInt16.ofNat (data.field 0x108 2)
      unknown := UInt8.ofNat (data.field 0x10c 1)
      filterKind := UInt8.ofNat (data.field 0x10d 1)
      flags := UInt8.ofNat (data.field 0x10f 1)
      filterAddress := UInt32.ofNat (data.field 0x110 4)
      filterSize := UInt32.ofNat (data.field 0x114 4) }
    fileSize := UInt32.ofNat (data.field 0x104 4)
    segmentCount := UInt8.ofNat (data.field 0x10e 1) },
    hMagic,
    ⟨rfl, Bytes.toNat_uint16_field _ _, Bytes.toNat_uint8_field _ _, Bytes.toNat_uint8_field _ _,
      Bytes.toNat_uint8_field _ _, Bytes.toNat_uint32_field _ _, Bytes.toNat_uint32_field _ _⟩,
    Bytes.toNat_uint32_field _ _, Bytes.toNat_uint8_field _ _⟩

/-- A file is accepted when it is readable. -/
theorem exists_parse_iff {data : Bytes} : (∃ c, parse data = .ok c) ↔ Readable data := by
  constructor
  · rintro ⟨c, h⟩
    obtain ⟨declared, descriptors, room, hDeclared, further, length, places, inside, -⟩ :=
      parse_eq_ok_iff.mp h
    rw [hDeclared.segmentCount] at length
    rw [length] at further
    refine ⟨room, hDeclared.magic, further, fun i hi => ?_, fun i hi => ?_⟩
    · have bound : i < descriptors.length := length ▸ hi
      obtain ⟨_, _, _, kind, _⟩ := (places i bound).drop
      change data.field (Header.size + Descriptor.recordSize * i + 15) 1 ≤ 2
      rw [← kind]
      cases (descriptors[i]).kind <;> decide
    · have bound : i < descriptors.length := length ▸ hi
      obtain ⟨offset, _, size, _, _⟩ := (places i bound).drop
      have reaches := inside _ (List.getElem_mem bound)
      rwa [offset, size] at reaches
  · intro h
    obtain ⟨declared, hDeclared⟩ := Header.Declared.exists_standsIn h.fields h.magic
    have records (i : Fin (data.field 0x10e 1)) :
        ∃ d : Descriptor, d.StandsIn (data.drop (0x120 + 48 * i)) := by
      have below := i.isLt
      have last := h.descriptors
      apply Descriptor.exists_standsIn
      · rw [List.length_drop]
        simp only [Descriptor.recordSize]
        omega
      · rw [Bytes.field_drop]
        exact h.kinds i i.isLt
    choose record hRecord using records
    have places (i : Nat) (bound : i < (List.ofFn record).length) :
        ((List.ofFn record)[i]).StandsIn (data.drop (0x120 + 48 * i)) := by
      rw [List.getElem_ofFn]
      exact hRecord ⟨i, _⟩
    refine ⟨_, parse_eq_ok_iff.mpr ⟨declared, List.ofFn record, h.fields, hDeclared, ?_, ?_, places,
      fun d member => ?_, rfl⟩⟩
    · rw [List.length_ofFn]
      exact h.descriptors
    · rw [List.length_ofFn, hDeclared.segmentCount]
    · obtain ⟨i, rfl⟩ := List.mem_ofFn.mp member
      obtain ⟨offset, _, size, _, _⟩ := (hRecord i).drop
      rw [offset, size]
      exact h.payloads i i.isLt

theorem readFrom_of_parse {data : Bytes} {c : Container} (h : parse data = .ok c) :
    c.ReadFrom data := by
  obtain ⟨declared, descriptors, _, hDeclared, _, length, places, _, rfl⟩ := parse_eq_ok_iff.mp h
  refine ⟨hDeclared.header, hDeclared.fileSize, ?_, fun i bound => ?_⟩
  · rw [List.length_map, length, hDeclared.segmentCount]
  · rw [List.length_map] at bound
    simp only [List.getElem_map]
    exact Descriptor.readFrom_segment (places i bound)

/-- Files that agree on what they cover hold the same container, up to the declared size. -/
theorem parse_of_covers {data other : Bytes} {c : Container} (h : parse data = .ok c)
    (long : data.length ≤ other.length) (same : ∀ p, Covers data p → other[p]? = data[p]?) :
    parse other = .ok { c with fileSize := UInt32.ofNat (other.field 0x104 4) } := by
  obtain ⟨declared, descriptors, room, hDeclared, further, length, places, inside, rfl⟩ :=
    parse_eq_ok_iff.mp h
  have count : descriptors.length = data.field 0x10e 1 := length.trans hDeclared.segmentCount
  have fixed (p : Nat)
      (field : p < 0x104 ∨ 0x108 ≤ p ∧ p < 0x10a ∨ 0x10c ≤ p ∧ p < 0x118) :
      other[p]? = data[p]? := by
    apply same
    unfold Covers
    tauto
  refine parse_eq_ok_iff.mpr ⟨{ declared with fileSize := UInt32.ofNat (other.field 0x104 4) },
    descriptors, room.trans long, ?_, further.trans long, length, fun i bound => ?_,
    fun d member => (inside d member).trans long, ?_⟩
  · refine ⟨?_, hDeclared.header.congr fixed, Bytes.toNat_uint32_field _ _, ?_⟩
    · rw [Bytes.slice_congr fun p _ _ => fixed p (by omega), hDeclared.magic]
    · have segmentCount : other.field 0x10e 1 = data.field 0x10e 1 :=
        Bytes.field_congr fun p _ _ => fixed p (by omega)
      rw [segmentCount]
      exact hDeclared.segmentCount
  · refine (places i bound).congr fun p field => ?_
    rw [List.getElem?_drop, List.getElem?_drop]
    refine same _ (Or.inr (Or.inr (Or.inr ⟨i, count ▸ bound, ?_⟩)))
    simp only [Header.size, Descriptor.recordSize] at field ⊢
    omega
  · congr 1
    refine List.map_congr_left fun d member => ?_
    obtain ⟨i, bound, rfl⟩ := List.getElem_of_mem member
    obtain ⟨offset, _, size, _, _⟩ := (places i bound).drop
    rw [Descriptor.segment, Descriptor.segment]
    congr 1
    refine (Bytes.slice_congr fun p low high => ?_).symm
    refine same p (Or.inr (Or.inr (Or.inr ⟨i, count ▸ bound, ?_⟩)))
    rw [offset] at low high
    rw [size] at high
    exact Or.inr (Or.inr ⟨low, high⟩)

/-- A container is read exactly from the files that have a header with the magic, descriptors of known
kinds, and all the ranges that these locate. Each segment is then what its descriptor says, with the
bytes of its range and the digest unchecked. Unused bytes, the declared size and bytes outside all
ranges have no influence on anything else. -/
theorem parse_readable (data : Bytes) :
    ((∃ c, parse data = .ok c) ↔ Readable data) ∧
    ∀ c, parse data = .ok c → c.ReadFrom data ∧
      ∀ other, data.length ≤ other.length → (∀ p, Covers data p → other[p]? = data[p]?) →
        parse other = .ok { c with fileSize := UInt32.ofNat (other.field 0x104 4) } :=
  ⟨exists_parse_iff, fun _ h => ⟨readFrom_of_parse h, fun _ => parse_of_covers h⟩⟩

/-- Two overlapping ranges, one of them in the header, with an unknown flag, a wrong size and bytes in
unused places. -/
def overlapping : Bytes :=
  List.replicate 0x100 7 ++ magic ++ [1, 0, 0, 0, 0xff, 0xff, 9, 9, 0, 5, 2, 0x81] ++
    List.replicate 8 0 ++ List.replicate 8 3 ++
    [0xfe, 0, 0, 0, 0, 1, 0, 0, 4, 0, 0, 0, 9, 9, 9, 2] ++ List.replicate 32 0xee ++
    [0xff, 0, 0, 0, 0, 2, 0, 0, 2, 0, 0, 0, 0, 0, 0, 1] ++ List.replicate 32 0xdd

/-- A byte in an unused place changes nothing. -/
theorem parse_readable_overlapping :
    ∃ c, parse overlapping = .ok c ∧ Readable overlapping ∧ c.ReadFrom overlapping ∧
      c.segments.map (fun s => (s.kind, s.address, s.data))
        = [(.data, 0x100, [7, 7, 0x44, 0x53]), (.prog1, 0x200, [7, 0x44])] ∧
      c.header.flags = 0x81 ∧
      parse (overlapping.set 0x10a 8) = .ok { c with fileSize := 1 } := by
  have evaluated : (parse overlapping).map (fun c =>
      (c.segments.map (fun s => (s.kind, s.address, s.data)), c.header.flags))
      = .ok ([(.data, 0x100, [7, 7, 0x44, 0x53]), (.prog1, 0x200, [7, 0x44])], 0x81) := by
    decide +kernel
  have unused (p : Nat) (h : Covers overlapping p) :
      (overlapping.set 0x10a 8)[p]? = overlapping[p]? := by
    have count : overlapping.field 0x10e 1 = 2 := rfl
    have early : ∀ i < 2, overlapping.field (0x120 + 48 * i) 4
        + overlapping.field (0x120 + 48 * i + 8) 4 ≤ 0x10a := by decide +kernel
    have apart : 0x10a ≠ p := by
      rintro rfl
      obtain h | h | h | ⟨i, below, h⟩ := h
      · omega
      · omega
      · omega
      · have finish := early i (count ▸ below)
        omega
    rw [List.getElem?_set_ne apart]
  cases read : parse overlapping with
  | error fault => rw [read] at evaluated; cases evaluated
  | ok c =>
      rw [read] at evaluated
      obtain ⟨segments, flags⟩ := Prod.mk.inj (Except.ok.inj evaluated)
      obtain ⟨accepted, found⟩ := parse_readable overlapping
      obtain ⟨readFrom, others⟩ := found c read
      exact ⟨c, rfl, accepted.mp ⟨c, read⟩, readFrom, segments, flags,
        others (overlapping.set 0x10a 8) (by simp) unused⟩

end DspFirmware.Container

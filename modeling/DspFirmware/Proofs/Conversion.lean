import DspFirmware.Conversion
import DspFirmware.Elf.Draft
import DspFirmware.Proofs.Container.RoundTrip
import DspFirmware.Proofs.Elf.Sections

/-!
From the bytes of an image to the bytes of a container and back: which sections are loaded, when
they fit, and what a reader of the container finds.
-/

namespace DspFirmware.Conversion

open Container Elf

/-- The first section of a name, if it holds anything. Later sections of the name do not count. -/
def firstFilled? (image : Image) (name : String) : Option Section :=
  match image.sections.find? fun s => s.name = name with
  | none => none
  | some s => if s.data = [] then none else some s

/-- The sections that are loaded, with the kind of segment each becomes. -/
def loaded (image : Image) : List (Section × SegmentKind) :=
  [(".text", SegmentKind.prog0), (".rodata", .data), (".data", .data)].filterMap
    fun source => (firstFilled? image source.1).map fun s => (s, source.2)

theorem loadable?_eq_firstFilled? (image : Image) (name : String) :
    loadable? image name = firstFilled? image name := by
  have named : (fun s : Section => s.name == name) = fun s => decide (s.name = name) := by
    funext s
    rfl
  rw [loadable?, firstFilled?, Image.sectionNamed?, named]
  cases image.sections.find? fun s => s.name = name with
  | none => rfl
  | some s => by_cases empty : s.data = [] <;> simp [Section.isEmpty, empty]

theorem mem_of_mem_loaded {image : Image} {pair : Section × SegmentKind}
    (h : pair ∈ loaded image) : pair.1 ∈ image.sections ∧ pair.1.data ≠ [] := by
  obtain ⟨source, _, found⟩ := List.mem_filterMap.mp h
  obtain ⟨s, first, rfl⟩ := Option.map_eq_some_iff.mp found
  rw [firstFilled?] at first
  split at first
  · cases first
  · rename_i t hFind
    split at first
    · cases first
    · rename_i filled
      cases first
      exact ⟨List.mem_of_find?_eq_some hFind, filled⟩

/-- The segment that a section becomes. -/
def segmentOf (target : Target) (pair : Section × SegmentKind) : Segment :=
  .ofPayload pair.2 (target.loadAddress pair.1.header.address) pair.1.data

theorem foldl_addSource (target : Target) (image : Image) (names : List (String × SegmentKind))
    (c : Container) :
    names.foldl (addSource target image) c
      = { c with segments := c.segments ++ (names.filterMap fun source =>
          (firstFilled? image source.1).map fun s => (s, source.2)).map (segmentOf target) } := by
  induction names generalizing c with
  | nil => simp
  | cons source rest ih =>
      rw [List.foldl_cons, ih, addSource, loadable?_eq_firstFilled?, List.filterMap_cons]
      cases hFirst : firstFilled? image source.1 with
      | none => simp
      | some s => simp [addSegment, segmentOf]

theorem segments_convert (target : Target) (syncLoad : Bool) (image : Image) :
    (convert target syncLoad image).segments = (loaded image).map (segmentOf target) := by
  rw [convert, foldl_addSource]
  rfl

theorem header_convert (target : Target) (syncLoad : Bool) (image : Image) :
    (convert target syncLoad image).header
      = { Header.default with flags := if syncLoad then 1 else 0 } := by
  rw [convert, foldl_addSource]
  cases syncLoad <;> rfl

/-- The payloads of a converted image take as much room as the loaded sections declare. -/
theorem length_payloads_convert {file : Bytes} {image : Image} (h : Image.parse file = .ok image)
    (target : Target) (syncLoad : Bool) :
    (convert target syncLoad image).payloads.length
      = ((loaded image).map (·.1.header.size.toNat)).sum := by
  rw [payloads, segments_convert, List.length_flatMap, List.map_map]
  congr 1
  refine List.map_congr_left fun pair member => ?_
  obtain ⟨inside, filled⟩ := mem_of_mem_loaded member
  obtain ⟨reaches, slice⟩ := Section.data_eq_slice (Image.bytes?_of_mem h inside) filled
  change pair.1.data.length = _
  rw [slice, List.length_take, List.length_drop]
  omega

/-- A conversion can be written when the loaded sections fit behind the descriptors; of those there
is always room for three. -/
theorem serialize_convert_iff {file : Bytes} {image : Image} (h : Image.parse file = .ok image)
    (target : Target) (syncLoad : Bool) :
    (∃ bytes, (convert target syncLoad image).serialize = .ok bytes) ↔
      loaded image = [] ∨
        0x300 + ((loaded image).map (·.1.header.size.toNat)).sum ≤ 0xffffffff := by
  have few : (convert target syncLoad image).segments.length ≤ maxSegments := by
    have three : (loaded image).length ≤ 3 := List.length_filterMap_le ..
    rw [segments_convert, List.length_map, maxSegments]
    omega
  simp only [serialize_eq_ok_iff, few, true_and, exists_and_left, exists_eq, and_true,
    length_payloads_convert h]
  rw [segments_convert, List.map_eq_nil_iff, Nat.lt_iff_add_one_le, UInt32.size, payloadBase]
  exact or_congr_right (by omega)

/-- From image to container and back. For each of the three names, in order, the first section of
that name is loaded if it has bytes. A conversion can be written exactly when the loaded sections fit
32 bits, and then a reader finds their kinds, load addresses and file bytes, one payload behind the
other, each with its digest. -/
theorem parse_serialize_convert (file : Bytes) (image : Image) (h : Image.parse file = .ok image)
    (syncLoad : Bool) :
    ((∃ bytes, (convert Target.teak syncLoad image).serialize = .ok bytes) ↔
      loaded image = [] ∨
        0x300 + ((loaded image).map (·.1.header.size.toNat)).sum ≤ 0xffffffff) ∧
    ∀ bytes, (convert Target.teak syncLoad image).serialize = .ok bytes →
      ∃ back, Container.parse bytes = .ok back ∧
        back.header = { Header.default with flags := if syncLoad then 1 else 0 } ∧
        back.segments.map (fun s => (s.kind, s.address, s.data))
          = (loaded image).map (fun (s, kind) => (kind, (s.header.address &&& 0xffffff) >>> 1,
              (file.drop s.header.offset.toNat).take s.header.size.toNat)) ∧
        (∀ pair ∈ loaded image,
          pair.1.header.offset.toNat + pair.1.header.size.toNat ≤ file.length) ∧
        (∀ (i : Nat) (inside : i < back.segments.length), (back.segments[i]).offset.toNat
          = 0x300 + ((back.segments.take i).map (·.data.length)).sum) ∧
        back.digestsMatch = true := by
  have slice {pair : Section × SegmentKind} (member : pair ∈ loaded image) :=
    Section.data_eq_slice (Image.bytes?_of_mem h (mem_of_mem_loaded member).1)
      (mem_of_mem_loaded member).2
  refine ⟨serialize_convert_iff h _ _, fun bytes written => ?_⟩
  have read := parse_of_serialize written []
  rw [List.append_nil] at read
  refine ⟨_, read, header_convert _ _ _, ?_, fun pair member => (slice member).1,
    offset_settle (serialize_eq_ok_iff.mp written).2.1, digestsMatch_settled _⟩
  rw [settled, map_settle, segments_convert, List.map_map]
  refine List.map_congr_left fun pair member => ?_
  change (pair.2, Target.teak.loadAddress pair.1.header.address, pair.1.data) = _
  rw [(slice member).2]
  rfl

/-- An image with a second `.text`, a `.data` without file bytes, and an address above 24 bits. -/
def repeatedNames : Bytes := Elf.Draft.encode {
  machine := 0
  entry := 0
  sections := [⟨".text", 1, 0x1000200, [0x11, 0x22, 0x33], 0, 0⟩, ⟨".data", 8, 0, [1, 2], 0, 0⟩,
    ⟨".rodata", 1, 0x10000, [7], 0, 0⟩, ⟨".text", 1, 0, [9, 9], 0, 0⟩] } .fileHeader

theorem parse_serialize_convert_repeatedNames :
    ∃ image bytes back, Image.parse repeatedNames = .ok image ∧
      (convert Target.teak true image).serialize = .ok bytes ∧ Container.parse bytes = .ok back ∧
      back.header = { Header.default with flags := 1 } ∧
      back.segments.map (fun s => (s.kind, s.address, s.data))
        = [(.prog0, 0x100, [0x11, 0x22, 0x33]), (.data, 0x8000, [7])] ∧
      back.digestsMatch = true := by
  have evaluated : (Image.parse repeatedNames).map (fun image =>
      ((loaded image).map (·.1.header.size.toNat),
        (loaded image).map fun (s, kind) => (kind, (s.header.address &&& 0xffffff) >>> 1,
          (repeatedNames.drop s.header.offset.toNat).take s.header.size.toNat)))
      = .ok ([3, 1], [(.prog0, 0x100, [0x11, 0x22, 0x33]), (.data, 0x8000, [7])]) := rfl
  cases read : Image.parse repeatedNames with
  | error fault => rw [read] at evaluated; cases evaluated
  | ok image =>
      rw [read] at evaluated
      obtain ⟨sizes, places⟩ := Prod.mk.inj (Except.ok.inj evaluated)
      obtain ⟨fits, found⟩ := parse_serialize_convert repeatedNames image read true
      obtain ⟨bytes, written⟩ := fits.mpr (Or.inr (by simp [sizes]))
      obtain ⟨back, parsed, header, segments, _, _, digests⟩ := found bytes written
      exact ⟨image, bytes, back, rfl, written, parsed, header, segments.trans places, digests⟩

end DspFirmware.Conversion

import DspFirmware.Container
import DspFirmware.Proofs.Records

/-!
The records of a container: where the fields of the header and of a descriptor stand in the bytes, and
that reading a record takes exactly the bytes in which its fields stand.
-/

namespace DspFirmware.Container

open Read Reader

/-- The fields of the header have their places at the start of the bytes. -/
structure Header.StandsIn (header : Header) (data : Bytes) : Prop where
  signature : header.signature.val = data.take 0x100
  memoryLayout : header.memoryLayout.toNat = data.field 0x108 2
  unknown : header.unknown.toNat = data.field 0x10c 1
  filterKind : header.filterKind.toNat = data.field 0x10d 1
  flags : header.flags.toNat = data.field 0x10f 1
  filterAddress : header.filterAddress.toNat = data.field 0x110 4
  filterSize : header.filterSize.toNat = data.field 0x114 4

/-- The header, and what the file says about itself, have their places in the bytes. -/
structure Header.Declared.StandsIn (declared : Header.Declared) (data : Bytes) : Prop where
  magic : (data.drop 0x100).take 4 = magic
  header : declared.header.StandsIn data
  fileSize : declared.fileSize.toNat = data.field 0x104 4
  segmentCount : declared.segmentCount.toNat = data.field 0x10e 1

/-- The fields of the descriptor have their places at the start of the bytes. -/
structure Descriptor.StandsIn (descriptor : Descriptor) (data : Bytes) : Prop where
  offset : descriptor.offset.toNat = data.field 0 4
  address : descriptor.address.toNat = data.field 4 4
  size : descriptor.size.toNat = data.field 8 4
  kind : descriptor.kind.code.toNat = data.field 15 1
  digest : descriptor.digest.val = (data.drop 16).take 32

/-- A header is the same in files that agree on the bytes of its fields. -/
theorem Header.StandsIn.congr {header : Header} {data others : Bytes}
    (same : ∀ p, p < 0x104 ∨ 0x108 ≤ p ∧ p < 0x10a ∨ 0x10c ≤ p ∧ p < 0x118 →
      others[p]? = data[p]?)
    (h : header.StandsIn data) : header.StandsIn others := by
  constructor
  · rw [Bytes.take_congr fun p _ => same p (by omega), h.signature]
  · rw [Bytes.field_congr fun p _ _ => same p (by omega), h.memoryLayout]
  · rw [Bytes.field_congr fun p _ _ => same p (by omega), h.unknown]
  · rw [Bytes.field_congr fun p _ _ => same p (by omega), h.filterKind]
  · rw [Bytes.field_congr fun p _ _ => same p (by omega), h.flags]
  · rw [Bytes.field_congr fun p _ _ => same p (by omega), h.filterAddress]
  · rw [Bytes.field_congr fun p _ _ => same p (by omega), h.filterSize]

theorem Header.Declared.StandsIn.congr {declared : Header.Declared} {data others : Bytes}
    (same : ∀ p, p < Header.size → others[p]? = data[p]?) (h : declared.StandsIn data) :
    declared.StandsIn others := by
  simp only [Header.size] at same
  refine ⟨?_, h.header.congr fun p covered => same p (by omega), ?_, ?_⟩
  · rw [Bytes.slice_congr fun p _ _ => same p (by omega), h.magic]
  · rw [Bytes.field_congr fun p _ _ => same p (by omega), h.fileSize]
  · rw [Bytes.field_congr fun p _ _ => same p (by omega), h.segmentCount]

/-- A descriptor is the same in files that agree on the bytes of its fields. -/
theorem Descriptor.StandsIn.congr {d : Descriptor} {data others : Bytes}
    (same : ∀ p, p < 12 ∨ 15 ≤ p ∧ p < recordSize → others[p]? = data[p]?)
    (h : d.StandsIn data) : d.StandsIn others := by
  simp only [recordSize] at same
  constructor
  · rw [Bytes.field_congr fun p _ _ => same p (by omega), h.offset]
  · rw [Bytes.field_congr fun p _ _ => same p (by omega), h.address]
  · rw [Bytes.field_congr fun p _ _ => same p (by omega), h.size]
  · rw [Bytes.field_congr fun p _ _ => same p (by omega), h.kind]
  · rw [Bytes.slice_congr fun p _ _ => same p (by omega), h.digest]

theorem Header.Declared.standsIn_take {declared : Header.Declared} {data : Bytes} :
    declared.StandsIn (data.take Header.size) ↔ declared.StandsIn data :=
  ⟨fun h => h.congr fun _ inside => (List.getElem?_take_of_lt inside).symm,
    fun h => h.congr fun _ inside => List.getElem?_take_of_lt inside⟩

/-- A record is all that a descriptor needs of the bytes. -/
theorem Descriptor.standsIn_take {d : Descriptor} {data : Bytes} {count : Nat}
    (enough : recordSize ≤ count) : d.StandsIn (data.take count) ↔ d.StandsIn data := by
  simp only [recordSize] at enough
  have same (p : Nat) (inside : p < 12 ∨ 15 ≤ p ∧ p < recordSize) :
      (data.take count)[p]? = data[p]? := by
    simp only [recordSize] at inside
    exact List.getElem?_take_of_lt (by omega)
  exact ⟨fun h => h.congr fun p inside => (same p inside).symm, fun h => h.congr same⟩

theorem Header.takes_read : Takes Header.read 0x120 (fun run declared => declared.StandsIn run) := by
  have refused {β : Type} (cause : Fault) (next : PUnit → Read β) :
      ∀ r answer s, ((throw cause : Read PUnit) >>= next) r ≠ .ok answer s := nofun
  have steps : Takes Header.read _ _ :=
    (takes_block 256).bind fun signature =>
    (takes_bytes 4).bind fun found =>
    Takes.guard
      (takes_uint32.bind fun fileSize =>
        takes_uint16.bind fun memoryLayout =>
        (takes_skip 2).bind fun _ =>
        takes_uint8.bind fun unknown =>
        takes_uint8.bind fun filterKind =>
        takes_uint8.bind fun segmentCount =>
        takes_uint8.bind fun flags =>
        takes_uint32.bind fun filterAddress =>
        takes_uint32.bind fun filterSize =>
        (takes_skip 8).bind_pure)
      (refused _ _)
  refine steps.congr fun run declared length => ?_
  simp only [List.drop_drop]
  constructor
  · rintro ⟨signature, hSignature, found, rfl, hMagic, fileSize, hFileSize, memoryLayout, hLayout, _, _,
      unknown, hUnknown, filterKind, hKind, count, hCount, flags, hFlags, address, hAddress, size, hSize,
      _, _, rfl⟩
    exact ⟨hMagic, ⟨hSignature, hLayout, hUnknown, hKind, hFlags, hAddress, hSize⟩, hFileSize, hCount⟩
  · intro h
    exact ⟨_, h.header.signature, _, rfl, h.magic, _, h.fileSize, _, h.header.memoryLayout, (), trivial,
      _, h.header.unknown, _, h.header.filterKind, _, h.segmentCount, _, h.header.flags,
      _, h.header.filterAddress, _, h.header.filterSize, (), trivial, rfl⟩

theorem SegmentKind.ofCode_eq_ok_iff {code : UInt8} {kind : SegmentKind} :
    SegmentKind.ofCode code = .ok kind ↔ kind.code = code := by
  constructor
  · intro h
    rw [SegmentKind.ofCode] at h
    split at h
    · rename_i found known
      cases h
      rw [SegmentKind.ofCode?] at known
      repeat' split at known
      all_goals cases known
      all_goals rw [SegmentKind.code, ‹code = _›]
    · cases h
  · rintro rfl
    rw [SegmentKind.ofCode, SegmentKind.ofCode?_code]

namespace Descriptor

theorem takes_readKind : Takes readKind 1 (fun run kind => kind.code.toNat = run.ofLittleEndian) := by
  refine Takes.congr (takes_uint8.bind fun code => (?known : Takes _ 0 fun _ kind => kind.code = code))
    fun run kind length => ?_
  case known =>
    cases known : SegmentKind.ofCode code with
    | ok kind =>
        refine (takes_pure kind).congr fun run answer _ => ?_
        rw [← SegmentKind.ofCode_eq_ok_iff, known]
        simp [eq_comm]
    | error cause =>
        have unknown (kind : SegmentKind) : kind.code ≠ code := by
          intro same
          rw [SegmentKind.ofCode_eq_ok_iff.mpr same] at known
          cases known
        intro r answer s
        have refused : (throw cause : Read SegmentKind) r ≠ .ok answer s := by
          intro answered
          cases answered
        simp [unknown, refused]
  have all : run.take 1 = run := List.take_of_length_le (Nat.le_of_eq length)
  simp [all, eq_comm]

theorem takes_read : Takes Descriptor.read recordSize (fun run d => d.StandsIn run) := by
  have steps : Takes Descriptor.read _ _ :=
    takes_uint32.bind fun offset =>
    takes_uint32.bind fun address =>
    takes_uint32.bind fun size =>
    (takes_skip 3).bind fun _ =>
    takes_readKind.bind fun kind =>
    (takes_block 32).bind_pure
  refine steps.congr fun run d length => ?_
  have whole : (run.drop 16).take 32 = run.drop 16 :=
    List.take_of_length_le (by rw [List.length_drop]; omega)
  simp only [List.drop_drop]
  constructor
  · rintro ⟨offset, hOffset, address, hAddress, size, hSize, _, _, kind, hKind, digest, hDigest, rfl⟩
    exact ⟨hOffset, hAddress, hSize, hKind, hDigest.trans whole.symm⟩
  · intro h
    exact ⟨_, h.offset, _, h.address, _, h.size, (), trivial, _, h.kind, _, h.digest.trans whole, rfl⟩

/-- Descriptors stand one behind the other. -/
theorem takes_readList (count : Nat) :
    Takes (readList count) (count * recordSize) (fun run descriptors =>
      descriptors.length = count ∧
        ∀ (i : Nat) (h : i < descriptors.length),
          (descriptors[i]).StandsIn (run.drop (recordSize * i))) := by
  induction count with
  | zero =>
      refine Takes.congr (takes_pure []) fun run descriptors _ => ?_
      constructor
      · rintro rfl
        exact ⟨rfl, nofun⟩
      · exact fun h => List.length_eq_zero_iff.mp h.1
  | succ count ih =>
      have steps : Takes (readList (count + 1)) _ _ := takes_read.bind fun d => ih.bind_pure
      have total : (count + 1) * recordSize = recordSize + count * recordSize := by
        rw [Nat.add_one_mul, Nat.add_comm]
      rw [total]
      refine steps.congr fun run descriptors _ => ?_
      have behind (i : Nat) :
          run.drop (recordSize * (i + 1)) = (run.drop recordSize).drop (recordSize * i) := by
        rw [List.drop_drop, Nat.mul_add_one, Nat.add_comm]
      constructor
      · rintro ⟨d, first, others, ⟨length, later⟩, rfl⟩
        refine ⟨by rw [List.length_cons, length], fun i h => ?_⟩
        cases i with
        | zero => exact (standsIn_take (Nat.le_refl _)).mp first
        | succ i =>
            rw [behind]
            exact later i (Nat.lt_of_succ_lt_succ h)
      · rintro ⟨length, places⟩
        cases descriptors with
        | nil => cases length
        | cons d others =>
            refine ⟨d, (standsIn_take (Nat.le_refl _)).mpr (places 0 (Nat.succ_pos _)), others,
              ⟨Nat.succ.inj length, fun i h => ?_⟩, rfl⟩
            rw [← behind]
            exact places (i + 1) (Nat.succ_lt_succ h)

end Descriptor

end DspFirmware.Container

import DspFirmware.Proofs.Elf.Sections
import DspFirmware.Proofs.Fields

/-!
What a file says about its sections, word by word, and what reading finds of it. The section headers
and the section with the names are found in the file at places that the file header gives, or that
section 0 gives where the file header has no room for them.
-/

namespace DspFirmware.Elf

open Outcome

/-- Where a file says that its section headers start, or zero if it has none. -/
def tableStart (file : Bytes) : Nat := file.field 32 4

/-- The word that stands in section header `i` of a file behind the given number of bytes. -/
def headerWord (file : Bytes) (i place : Nat) : Nat :=
  file.field (tableStart file + 40 * i + place) 4

/-- The number of sections that a file declares. Section 0 holds it if the file header says zero. -/
def declaredCount (file : Bytes) : Nat :=
  if tableStart file = 0 then 0
  else if file.field 48 2 = 0 then headerWord file 0 20
  else file.field 48 2

/-- The section that a file declares to hold the names. Section 0 knows it if the file header says
`0xffff`. -/
def declaredNames (file : Bytes) : Nat :=
  if file.field 50 2 = 0xffff then headerWord file 0 24 else file.field 50 2

/-- Where the name of section `i` starts in a file. -/
def nameStart (file : Bytes) (i : Nat) : Nat :=
  headerWord file (declaredNames file) 16 + headerWord file i 0

/-- Where the names of the sections end in a file. -/
def namesEnd (file : Bytes) : Nat :=
  headerWord file (declaredNames file) 16 + headerWord file (declaredNames file) 20

namespace SectionHeader

/-- The fields of a header, in the order in which they stand in a file. -/
def words (header : SectionHeader) : List Nat :=
  [header.nameOffset, header.kind, header.flags, header.address, header.offset, header.size,
    header.link, header.info, header.align, header.entrySize].map UInt32.toNat

/-- Section header `i` of a file. -/
def ofFile (file : Bytes) (i : Nat) : SectionHeader :=
  ofRecord (file.drop (tableStart file + recordSize * i))

section

variable (file : Bytes) (i : Nat)

/-- Each field of the header is a word of the file. -/
theorem toNat_field_ofFile (place : Nat) :
    (UInt32.ofNat (Bytes.field (file.drop (tableStart file + recordSize * i)) place 4)).toNat
      = headerWord file i place := by
  rw [Bytes.toNat_uint32_field, Bytes.field_drop]
  rfl

theorem words_ofFile :
    (ofFile file i).words = (List.range 10).map fun k => headerWord file i (4 * k) := by
  simp only [words, ofFile, ofRecord, List.map_cons, List.map_nil, toNat_field_ofFile]
  rfl

theorem toNat_nameOffset_ofFile : (ofFile file i).nameOffset.toNat = headerWord file i 0 :=
  toNat_field_ofFile file i 0

theorem toNat_kind_ofFile : (ofFile file i).kind.toNat = headerWord file i 4 :=
  toNat_field_ofFile file i 4

theorem toNat_offset_ofFile : (ofFile file i).offset.toNat = headerWord file i 16 :=
  toNat_field_ofFile file i 16

theorem toNat_size_ofFile : (ofFile file i).size.toNat = headerWord file i 20 :=
  toNat_field_ofFile file i 20

theorem toNat_link_ofFile : (ofFile file i).link.toNat = headerWord file i 24 :=
  toNat_field_ofFile file i 24

/-- The type of a section is known by its number. -/
theorem kind_ofFile_eq_iff (kind : UInt32) :
    (ofFile file i).kind = kind ↔ headerWord file i 4 = kind.toNat := by
  rw [← toNat_kind_ofFile, UInt32.toNat_inj]

end

/-- What stands behind the record does not matter. -/
theorem ofRecord_take {data : Bytes} {count : Nat} (enough : recordSize ≤ count) :
    ofRecord (data.take count) = ofRecord data := by
  have inside {place : Nat} (h : place + 4 ≤ recordSize) :
      Bytes.field (data.take count) place 4 = data.field place 4 :=
    Bytes.field_take (h.trans enough)
  simp only [ofRecord]
  congr 2 <;> exact inside (by decide)

theorem ofRecords_eq_map (count : Nat) (data : Bytes) :
    ofRecords count data
      = (List.range count).map fun i => ofRecord (data.drop (recordSize * i)) := by
  induction count generalizing data with
  | zero => rfl
  | succ count ih =>
      rw [ofRecords, ih, List.range_succ_eq_map, List.map_cons, List.map_map]
      simp [List.drop_drop, Nat.mul_succ, Nat.add_comm]

end SectionHeader

/-- Whether `count` section headers can be read from a file: they have the right size, start at a
multiple of four and lie in the file. -/
structure HeadersFit (file : Bytes) (count : Nat) : Prop where
  recordSize : file.field 46 2 = 40
  aligned : tableStart file % 4 = 0
  inside : tableStart file + 40 * count ≤ file.length

theorem HeadersFit.mono {file : Bytes} {count fewer : Nat} (h : HeadersFit file count)
    (le : fewer ≤ count) : HeadersFit file fewer where
  recordSize := h.recordSize
  aligned := h.aligned
  inside := Nat.le_trans (by omega) h.inside

namespace FileHeader

section

variable (file : Bytes)

theorem toNat_tableOffset_ofFile : (ofFile file).tableOffset.toNat = tableStart file :=
  Bytes.toNat_uint32_field file 32

theorem toNat_recordSize_ofFile : (ofFile file).recordSize.toNat = file.field 46 2 :=
  Bytes.toNat_uint16_field file 46

theorem toNat_sectionCount_ofFile : (ofFile file).sectionCount.toNat = file.field 48 2 :=
  Bytes.toNat_uint16_field file 48

theorem toNat_nameSection_ofFile : (ofFile file).nameSection.toNat = file.field 50 2 :=
  Bytes.toNat_uint16_field file 50

end

/-- A file has a header when it says in the right place what it is. -/
theorem parse_eq_ok_iff {file : Bytes} {header : FileHeader} :
    FileHeader.parse file = .ok header ↔
      file.take 4 = magic ∧ size ≤ file.length ∧
        (file.field 4 1 = 1 ∧ file.field 5 1 = 1 ∧ file.field 6 1 = 1) ∧ header = ofFile file := by
  simp only [FileHeader.parse, ↓guard_eq_ok, Bytes.holds_iff, pure_eq_ok]
  constructor
  · rintro ⟨start, _, word, order, long, version, found⟩
    exact ⟨start, long, ⟨word, order, version⟩, found⟩
  · rintro ⟨start, long, ⟨word, order, version⟩, found⟩
    exact ⟨start, Nat.le_trans (by decide) long, word, order, long, version, found⟩

/-- The headers are read when they have the right size and lie in the file at the right place. -/
theorem sectionHeaders_ofFile_eq_ok_iff {file : Bytes} {count : Nat} {misplaced : Fault}
    {table : List SectionHeader} :
    (ofFile file).sectionHeaders file count misplaced = .ok table ↔
      HeadersFit file count ∧ table = (List.range count).map (SectionHeader.ofFile file) := by
  have records : SectionHeader.ofRecords count
      ((file.drop (tableStart file)).take (count * SectionHeader.recordSize))
        = (List.range count).map (SectionHeader.ofFile file) := by
    rw [SectionHeader.ofRecords_eq_map]
    refine List.map_congr_left fun i member => ?_
    have before : i < count := List.mem_range.mp member
    rw [List.drop_take, List.drop_drop, SectionHeader.ofRecord_take, SectionHeader.ofFile]
    simp only [SectionHeader.recordSize]
    omega
  have length : count * SectionHeader.recordSize = 40 * count := Nat.mul_comm ..
  simp only [sectionHeaders, ↓guard_eq_ok, toNat_recordSize_ofFile, toNat_tableOffset_ofFile]
  cases located : file.slice? (tableStart file) (count * SectionHeader.recordSize) with
  | none =>
      have beyond := Bytes.slice?_eq_none_iff.mp located
      have outside : ¬ HeadersFit file count := by
        intro fit
        have inside := fit.inside
        omega
      simp [throw_ne_ok, outside]
  | some part =>
      obtain ⟨inside, rfl⟩ := Bytes.slice?_eq_some_iff.mp located
      simp only [guard_eq_ok, pure_eq_ok, records]
      constructor
      · rintro ⟨size, aligned, found⟩
        exact ⟨⟨size, aligned, length ▸ inside⟩, found⟩
      · rintro ⟨fit, found⟩
        exact ⟨fit.recordSize, fit.aligned, found⟩

theorem countSections_ofFile_eq_ok_iff {file : Bytes} (present : tableStart file ≠ 0) {count : Nat} :
    (ofFile file).countSections file = .ok count ↔
      (file.field 48 2 = 0 → HeadersFit file 1) ∧ count = declaredCount file := by
  have unnumbered : (ofFile file).sectionCount = 0 ↔ file.field 48 2 = 0 := by
    rw [← toNat_sectionCount_ofFile, ← UInt16.toNat_inj]
    rfl
  rw [countSections, declaredCount, if_neg present]
  by_cases extended : file.field 48 2 = 0
  · rw [if_pos (unnumbered.mpr extended), if_pos extended, bind_eq_ok]
    simp only [sectionHeaders_ofFile_eq_ok_iff, pure_eq_ok, extended, forall_const]
    constructor
    · rintro ⟨_, ⟨fit, rfl⟩, rfl⟩
      exact ⟨fit, SectionHeader.toNat_size_ofFile file 0⟩
    · rintro ⟨fit, rfl⟩
      exact ⟨_, ⟨fit, rfl⟩, (SectionHeader.toNat_size_ofFile file 0).symm⟩
  · rw [if_neg (mt unnumbered.mp extended), if_neg extended, pure_eq_ok,
      toNat_sectionCount_ofFile]
    simp [extended]

theorem sectionTable_ofFile_eq_ok_iff {file : Bytes} {table : List SectionHeader} :
    (ofFile file).sectionTable file = .ok table ↔
      (tableStart file ≠ 0 → HeadersFit file (max 1 (declaredCount file))) ∧
        table = (List.range (declaredCount file)).map (SectionHeader.ofFile file) := by
  have start : (ofFile file).tableOffset = 0 ↔ tableStart file = 0 := by
    rw [← toNat_tableOffset_ofFile, ← UInt32.toNat_inj]
    rfl
  rw [sectionTable]
  by_cases absent : tableStart file = 0
  · have undeclared : declaredCount file = 0 := if_pos absent
    simp [start.mpr absent, absent, undeclared, pure_eq_ok]
  · rw [if_neg (mt start.mp absent), bind_eq_ok]
    simp only [countSections_ofFile_eq_ok_iff absent, and_assoc, exists_and_left, exists_eq_left]
    -- Only section 0 can declare no sections, and its header has been read for that.
    by_cases empty : declaredCount file = 0
    · have extended : file.field 48 2 = 0 := by
        by_contra other
        rw [declaredCount, if_neg absent, if_neg other] at empty
        exact other empty
      simp [empty, extended, absent, pure_eq_ok]
    · have positive : max 1 (declaredCount file) = declaredCount file := by omega
      simp only [if_neg empty, sectionHeaders_ofFile_eq_ok_iff, positive, absent, ne_eq,
        not_false_eq_true, forall_const]
      constructor
      · rintro ⟨_, fit, found⟩
        exact ⟨fit, found⟩
      · rintro ⟨fit, found⟩
        exact ⟨fun _ => fit.mono (by omega), fit, found⟩

end FileHeader

namespace NameTable

/-- The name table that a file declares, if its number is that of a section. -/
def ofFile (file : Bytes) : NameTable :=
  if file.field 50 2 = 0 ∨ declaredCount file = 0 then .unnamed
  else if headerWord file (declaredNames file) 4 = 8 then .absent
  else .range (headerWord file (declaredNames file) 16) (namesEnd file)

theorem locate_ofFile_eq_ok_iff {file : Bytes} {names : NameTable} :
    locate (FileHeader.ofFile file)
        ((List.range (declaredCount file)).map (SectionHeader.ofFile file)) = .ok names ↔
      (file.field 50 2 ≠ 0 → declaredCount file ≠ 0 →
        1 ≤ declaredNames file ∧ declaredNames file < declaredCount file) ∧ names = ofFile file := by
  have number := FileHeader.toNat_nameSection_ofFile file
  have code (value : UInt16) :
      (FileHeader.ofFile file).nameSection = value ↔ file.field 50 2 = value.toNat := by
    rw [← number, UInt16.toNat_inj]
  rw [locate.eq_def, ofFile]
  cases count : declaredCount file with
  | zero => simp [pure_eq_ok]
  | succ last =>
      -- The search branches on the first entry of the table, which is that of section 0.
      obtain ⟨rest, table⟩ : ∃ rest, (List.range (last + 1)).map (SectionHeader.ofFile file)
          = SectionHeader.ofFile file 0 :: rest := by
        rw [List.range_succ_eq_map]
        exact ⟨_, rfl⟩
      have index : (if (FileHeader.ofFile file).nameSection = 0xffff
          then (SectionHeader.ofFile file 0).link.toNat
          else (FileHeader.ofFile file).nameSection.toNat) = declaredNames file := by
        simp only [code, number, SectionHeader.toNat_link_ofFile]
        rfl
      have entry (i : Nat) : ((List.range (last + 1)).map (SectionHeader.ofFile file))[i]?
          = if i < last + 1 then some (.ofFile file i) else none := by
        by_cases inside : i < last + 1 <;> simp [inside]
      rw [table] at entry ⊢
      simp only [index, entry]
      by_cases unnamed : file.field 50 2 = 0
      · simp [(code 0).mpr unnamed, unnamed, pure_eq_ok]
      · rw [if_neg (mt (code 0).mp unnamed), refuse_eq_ok]
        by_cases inside : declaredNames file < last + 1
        · have kind := SectionHeader.kind_ofFile_eq_iff file (declaredNames file) emptyType
          simp only [if_pos inside, kind, SectionHeader.toNat_offset_ofFile,
            SectionHeader.toNat_size_ofFile]
          by_cases stored : headerWord file (declaredNames file) 4 = 8
          · simp [unnamed, inside, stored, emptyType, pure_eq_ok, Nat.one_le_iff_ne_zero]
          · simp [unnamed, inside, stored, emptyType, pure_eq_ok, namesEnd, Nat.one_le_iff_ne_zero]
        · simp [unnamed, inside, throw_ne_ok]

end NameTable

end DspFirmware.Elf

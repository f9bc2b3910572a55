import DspFirmware.Elf.Image
import DspFirmware.Proofs.Outcome

/-!
What the sections of an image have to do with its file. An image that was read has one section for
each section header, in their order, and each of them holds the file bytes that its header locates.
-/

namespace DspFirmware.Elf

open Outcome

/-- A section has the header it was read from, and the bytes that this header locates. -/
theorem Section.of_parse {file : Bytes} {names : NameTable} {header : SectionHeader} {s : Section}
    (h : Section.parse file names header = .ok s) :
    s.header = header ∧ header.bytes? file = some s.data := by
  rw [Section.parse] at h
  split at h
  · cases h
  · split at h
    · cases h
    · rename_i data located
      obtain ⟨contents, hContents, built⟩ := bind_eq_ok.mp h
      cases built
      exact ⟨rfl, located.trans (congrArg some (Contents.data_ofKind hContents).symm)⟩

/-- A section with bytes has them from its place in the file, which reaches their end. -/
theorem Section.data_eq_slice {file : Bytes} {s : Section}
    (located : s.header.bytes? file = some s.data) (h : s.data ≠ []) :
    s.header.offset.toNat + s.header.size.toNat ≤ file.length ∧
      s.data = (file.drop s.header.offset.toNat).take s.header.size.toNat := by
  rw [SectionHeader.bytes?] at located
  split at located
  · exact absurd (Option.some.inj located).symm h
  · exact Bytes.slice?_eq_some_iff.mp located

namespace Image

/-- Reading an image succeeds when its file header, section headers, names and sections do. -/
theorem parse_eq_ok_iff {file : Bytes} {image : Image} :
    Image.parse file = .ok image ↔
      ∃ table names, FileHeader.parse file = .ok image.header ∧
        image.header.sectionTable file = .ok table ∧
        NameTable.locate image.header table = .ok names ∧
        List.Forall₂ (fun header s => Section.parse file names header = .ok s) table
          image.sections := by
  constructor
  · intro h
    obtain ⟨header, hHeader, h⟩ := bind_eq_ok.mp h
    obtain ⟨table, hTable, h⟩ := bind_eq_ok.mp h
    obtain ⟨names, hNames, h⟩ := bind_eq_ok.mp h
    obtain ⟨sections, hSections, built⟩ := bind_eq_ok.mp h
    cases built
    exact ⟨table, names, hHeader, hTable, hNames, mapM_eq_ok_iff.mp hSections⟩
  · rintro ⟨table, names, hHeader, hTable, hNames, hSections⟩
    exact bind_eq_ok.mpr ⟨_, hHeader, bind_eq_ok.mpr ⟨_, hTable, bind_eq_ok.mpr ⟨_, hNames,
      bind_eq_ok.mpr ⟨_, mapM_eq_ok_iff.mpr hSections, rfl⟩⟩⟩⟩

/-- Every section of an image holds what its header locates in the file. -/
theorem bytes?_of_mem {file : Bytes} {image : Image} (h : Image.parse file = .ok image)
    {s : Section} (member : s ∈ image.sections) : s.header.bytes? file = some s.data := by
  obtain ⟨table, names, _, _, _, sections⟩ := parse_eq_ok_iff.mp h
  obtain ⟨header, _, read⟩ := exists_of_mem_right sections member
  obtain ⟨same, located⟩ := Section.of_parse read
  rw [same, located]

end Image

end DspFirmware.Elf

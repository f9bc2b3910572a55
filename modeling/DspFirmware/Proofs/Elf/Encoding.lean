import DspFirmware.Elf.Draft
import DspFirmware.Proofs.Elf.Table
import DspFirmware.Proofs.Text.Names

/-!
What stands where in an encoded image. The file header has its words at fixed places. Names and
contents follow each other, so that each is found behind those of the sections before it. The section
headers come last, one record behind the other, and know these places.
-/

namespace DspFirmware.Elf

open Bytes

namespace SectionHeader

theorem length_encode (header : SectionHeader) : header.encode.length = 40 := by
  simp [encode, ofUInt32]

/-- A header is read back from its record. -/
theorem ofRecord_encode (header : SectionHeader) : ofRecord header.encode = header := by
  obtain ⟨nameOffset, kind, flags, address, offset, size, link, info, align, entrySize⟩ := header
  have word (i : Fin 10) := slice_flatMap_of_length (f := ofUInt32)
    (fun value => length_littleEndian 4 value.toNat)
    [nameOffset, kind, flags, address, offset, size, link, info, align, entrySize] i i.isLt
  have read {record : Bytes} {place : Nat} {value : UInt32}
      (found : (record.drop place).take 4 = ofUInt32 value) :
      UInt32.ofNat (record.field place 4) = value := by
    rw [field, found, ofLittleEndian_ofUInt32, UInt32.ofNat_toNat]
  simp only [ofRecord, SectionHeader.mk.injEq]
  exact ⟨read (word 0), read (word 1), read (word 2), read (word 3), read (word 4), read (word 5),
    read (word 6), read (word 7), read (word 8), read (word 9)⟩

end SectionHeader

theorem length_headersFrom (nameOffset offset : Nat) (sections : List DraftSection) :
    (headersFrom nameOffset offset sections).length = sections.length := by
  induction sections generalizing nameOffset offset with
  | nil => rfl
  | cons s rest ih => rw [headersFrom, List.length_cons, List.length_cons, ih]

namespace Draft

/-- An image that can be written and read again. -/
structure Writable (draft : Draft) (numbering : Numbering) : Prop where
  few : draft.sections.length < 65000
  names : ∀ s ∈ draft.sections, Text.Ascii s.name
  records : ∀ s ∈ draft.sections, s.kind = symbolTableType ∨ s.kind = dynamicSymbolsType →
    s.data.length % Symbol.recordSize = 0
  size : (draft.encode numbering).length < UInt32.size

/-- The names of the sections, that of section 0 and that of the last one included. -/
def sectionNames (draft : Draft) : List String :=
  "" :: draft.sections.map (·.name) ++ [".shstrtab"]

/-- Where the name of section `i` starts among the names. -/
def nameOffset (draft : Draft) (i : Nat) : Nat :=
  ((draft.sectionNames.take i).flatMap Text.terminated).length

/-- The number of sections in the file header, or zero where section 0 has it. -/
def sectionCountWord (draft : Draft) : Numbering → Nat
  | .fileHeader => draft.count
  | .sectionZero => 0

/-- The name section in the file header, or `0xffff` where section 0 knows it. -/
def nameSectionWord (draft : Draft) : Numbering → Nat
  | .fileHeader => draft.count - 1
  | .sectionZero => 0xffff

/-- What the file header says. -/
def header (draft : Draft) (numbering : Numbering) : FileHeader where
  kind := 2
  machine := draft.machine
  entry := draft.entry
  flags := 0
  tableOffset := UInt32.ofNat draft.tableOffset
  recordSize := 40
  sectionCount := UInt16.ofNat (draft.sectionCountWord numbering)
  nameSection := UInt16.ofNat (draft.nameSectionWord numbering)

section

variable (draft : Draft) (numbering : Numbering)

theorem length_fileHeader : (draft.fileHeader numbering).length = 52 := by
  simp [fileHeader, magic, ofUInt16, ofUInt32]

theorem length_headers : (draft.headers numbering).length = draft.count := by
  simp [headers, count, length_headersFrom]

/-- The image up to its section headers. -/
theorem length_front :
    (draft.fileHeader numbering ++ draft.contents ++ draft.names ++ draft.padding).length
      = draft.tableOffset := by
  simp [length_fileHeader, tableOffset, namesOffset, FileHeader.size, Nat.add_assoc]

theorem length_encode :
    (draft.encode numbering).length = draft.tableOffset + 40 * draft.count := by
  have records : ((draft.headers numbering).flatMap SectionHeader.encode).length
      = 40 * draft.count := by
    simp only [List.length_flatMap, SectionHeader.length_encode, List.map_const',
      List.sum_replicate_nat, length_headers, Nat.mul_comm]
  rw [encode, List.length_append, length_front, records]

end

section

variable {draft : Draft} {numbering : Numbering} (h : draft.Writable numbering)

include h

end

end Draft

end DspFirmware.Elf

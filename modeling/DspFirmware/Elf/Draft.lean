import DspFirmware.Elf.Image

/-!
Writing ELF images: file header, contents of the sections, section names, section headers.

The sections of a draft get the indices from 1 on. Section 0 is no section, and the last section
holds the names. Count and name section stand in the file header or, where they do not fit there, in
section 0.
-/

namespace DspFirmware.Elf

structure DraftSection where
  name : String
  kind : UInt32
  address : UInt32
  data : Bytes
  link : UInt32
  entrySize : UInt32
  deriving DecidableEq, Repr

/-- Where an image declares its number of sections and its name section. -/
inductive Numbering where
  | fileHeader
  | sectionZero
  deriving DecidableEq, Repr

structure Draft where
  machine : UInt16
  entry : UInt32
  sections : List DraftSection
  deriving DecidableEq, Repr

/-- What a section takes up in the file. -/
def DraftSection.stored (s : DraftSection) : Bytes := if s.kind = emptyType then [] else s.data

/-- The header of a section with its name and its contents at the given offsets. -/
def DraftSection.header (s : DraftSection) (nameOffset offset : Nat) : SectionHeader where
  nameOffset := UInt32.ofNat nameOffset
  kind := s.kind
  flags := 0
  address := s.address
  offset := UInt32.ofNat offset
  size := UInt32.ofNat s.data.length
  link := s.link
  info := 0
  align := if s.kind = 0 then 0 else 1
  entrySize := s.entrySize

/-- The headers of sections whose names and contents follow each other from the given offsets
on. -/
def headersFrom : (nameOffset offset : Nat) → List DraftSection → List SectionHeader
  | _, _, [] => []
  | nameOffset, offset, s :: rest =>
      s.header nameOffset offset
        :: headersFrom (nameOffset + (Text.terminated s.name).length)
          (offset + s.stored.length) rest

namespace Draft

def contents (draft : Draft) : Bytes := draft.sections.flatMap (·.stored)

/-- The names of the sections, behind an empty name. -/
def givenNames (draft : Draft) : Bytes :=
  0 :: draft.sections.flatMap fun s => Text.terminated s.name

/-- The contents of the name section, which ends with its own name. -/
def names (draft : Draft) : Bytes := draft.givenNames ++ Text.terminated ".shstrtab"

def namesOffset (draft : Draft) : Nat := FileHeader.size + draft.contents.length

/-- Zeros up to the next multiple of four. -/
def padding (draft : Draft) : Bytes :=
  List.replicate ((4 - (draft.namesOffset + draft.names.length) % 4) % 4) 0

def tableOffset (draft : Draft) : Nat :=
  draft.namesOffset + draft.names.length + draft.padding.length

def count (draft : Draft) : Nat := draft.sections.length + 2

/-- Section 0, with what it declares in place of the file header. -/
def zeroHeader (draft : Draft) : Numbering → SectionHeader
  | .fileHeader => .null
  | .sectionZero =>
      { SectionHeader.null with
        size := UInt32.ofNat draft.count
        link := UInt32.ofNat (draft.count - 1) }

def namesHeader (draft : Draft) : SectionHeader where
  nameOffset := UInt32.ofNat draft.givenNames.length
  kind := stringTableType
  flags := 0
  address := 0
  offset := UInt32.ofNat draft.namesOffset
  size := UInt32.ofNat draft.names.length
  link := 0
  info := 0
  align := 1
  entrySize := 0

def headers (draft : Draft) (numbering : Numbering) : List SectionHeader :=
  draft.zeroHeader numbering :: headersFrom 1 FileHeader.size draft.sections
    ++ [draft.namesHeader]

/-- The file header of an executable image. -/
def fileHeader (draft : Draft) (numbering : Numbering) : Bytes :=
  let (count, nameSection) : Nat × Nat :=
    match numbering with
    | .fileHeader => (draft.count, draft.count - 1)
    | .sectionZero => (0, 0xffff)
  magic ++ [1, 1, 1, 0] ++ List.replicate 8 0 ++ Bytes.littleEndian 2 2
    ++ Bytes.ofUInt16 draft.machine ++ Bytes.littleEndian 4 1 ++ Bytes.ofUInt32 draft.entry
    ++ Bytes.littleEndian 4 0 ++ Bytes.littleEndian 4 draft.tableOffset ++ Bytes.littleEndian 4 0
    ++ Bytes.littleEndian 2 FileHeader.size ++ Bytes.littleEndian 2 0 ++ Bytes.littleEndian 2 0
    ++ Bytes.littleEndian 2 SectionHeader.recordSize ++ Bytes.littleEndian 2 count
    ++ Bytes.littleEndian 2 nameSection

def encode (draft : Draft) (numbering : Numbering) : Bytes :=
  draft.fileHeader numbering ++ draft.contents ++ draft.names ++ draft.padding
    ++ (draft.headers numbering).flatMap SectionHeader.encode

end Draft

end DspFirmware.Elf

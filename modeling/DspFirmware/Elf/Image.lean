import DspFirmware.Elf.Section
import DspFirmware.Journal

/-!
Reading 32-bit little-endian ELF images.

Reading goes from the file header through the section header table and the table of section names
to the sections, in that order, and reports the first thing it finds wrong. A section is checked
completely before the next one.
-/

namespace DspFirmware.Elf

/-- The fields of the file header that say what the image is and where its sections are. -/
structure FileHeader where
  kind : UInt16
  machine : UInt16
  entry : UInt32
  flags : UInt32
  /-- Where the section header table starts, or zero if there is none. -/
  tableOffset : UInt32
  /-- The declared size of one section header. -/
  recordSize : UInt16
  /-- The number of sections, or zero if section 0 declares it. -/
  sectionCount : UInt16
  /-- The section with the section names: zero for none, `0xffff` if section 0 declares it. -/
  nameSection : UInt16
  deriving DecidableEq, Repr

/-- The first four bytes of every ELF image. -/
def magic : Bytes := [0x7f, 0x45, 0x4c, 0x46]

namespace FileHeader

def size : Nat := 52

/-- The fields at their places in a file of at least `size` bytes. -/
def ofFile (file : Bytes) : FileHeader where
  kind := UInt16.ofNat (file.field 16 2)
  machine := UInt16.ofNat (file.field 18 2)
  entry := UInt32.ofNat (file.field 24 4)
  tableOffset := UInt32.ofNat (file.field 32 4)
  flags := UInt32.ofNat (file.field 36 4)
  recordSize := UInt16.ofNat (file.field 46 2)
  sectionCount := UInt16.ofNat (file.field 48 2)
  nameSection := UInt16.ofNat (file.field 50 2)

/-- Reads the file header, after checking that the file is a 32-bit little-endian ELF image. -/
def parse (file : Bytes) : Except Fault FileHeader := do
  unless file.take 4 = magic do
    throw .notElf
  unless Bytes.holds 16 file do
    throw (.outOfBounds 0 16 file.length)
  unless file.field 4 1 = 1 do
    throw (.unsupportedElf "not a 32-bit image")
  unless file.field 5 1 = 1 do
    throw (.unsupportedElf "not little-endian")
  unless Bytes.holds size file do
    throw (.malformedElf "Invalid ELF header size or alignment")
  unless file.field 6 1 = 1 do
    throw (.malformedElf "Unsupported ELF header")
  return ofFile file

/-- The `count` section headers of the table, if their declared size is right and all of them lie
in the file at a multiple of four. -/
def sectionHeaders (header : FileHeader) (file : Bytes) (count : Nat) (misplaced : Fault) :
    Except Fault (List SectionHeader) := do
  unless header.recordSize.toNat = SectionHeader.recordSize do
    throw (.malformedElf "Invalid ELF section header entry size")
  match file.slice? header.tableOffset.toNat (count * SectionHeader.recordSize) with
  | some table =>
      unless header.tableOffset.toNat % 4 = 0 do
        throw misplaced
      return SectionHeader.ofRecords count table
  | none => throw misplaced

/-- The number of sections. A file header that says zero leaves it to the size field of
section 0. -/
def countSections (header : FileHeader) (file : Bytes) : Except Fault Nat :=
  if header.sectionCount = 0 then do
    let first ← header.sectionHeaders file 1
      (.malformedElf "Invalid ELF section header offset or size")
    return (first.headD .null).size.toNat
  else return header.sectionCount.toNat

/-- The section header table. Without an offset of the table there are no sections. -/
def sectionTable (header : FileHeader) (file : Bytes) :
    Except Fault (List SectionHeader) := do
  if header.tableOffset = 0 then
    return []
  let count ← header.countSections file
  if count = 0 then
    return []
  header.sectionHeaders file count
    (.malformedElf "Invalid ELF section header offset/size/alignment")

end FileHeader

/-- Where the section names are. -/
inductive NameTable where
  /-- The image names no sections. -/
  | unnamed
  /-- Names should exist, but their table takes up no room in the file. -/
  | absent
  /-- Names lie in the file between two offsets. -/
  | range (first last : Nat)
  deriving DecidableEq, Repr

namespace NameTable

/-- Finds the section names through the file header. -/
def locate (header : FileHeader) (table : List SectionHeader) : Except Fault NameTable :=
  match table with
  | [] => return .unnamed
  | first :: _ => do
      if header.nameSection = 0 then
        return .unnamed
      let index := if header.nameSection = 0xffff then first.link.toNat
        else header.nameSection.toNat
      if index = 0 then
        throw (.malformedElf "Missing ELF e_shstrndx")
      match table[index]? with
      | none => throw (.malformedElf "Invalid ELF e_shstrndx")
      | some names =>
          if names.kind = emptyType then
            return .absent
          return .range names.offset.toNat (names.offset.toNat + names.size.toNat)

/-- The name at an offset of the table, in bytes. Everything from there to the end of the table has
to lie in the file, with a zero byte in it. -/
def name? (names : NameTable) (file : Bytes) (offset : Nat) : Option Bytes :=
  match names with
  | unnamed => some []
  | absent => none
  | range first last =>
      if first + offset ≤ last then
        match file.slice? (first + offset) (last - (first + offset)) with
        | some bytes => if 0 ∈ bytes then some (Text.untilZero bytes) else none
        | none => none
      else none

end NameTable

/-- Reads one section: its name, then its bytes, then what its type makes of them. -/
def Section.parse (file : Bytes) (names : NameTable) (header : SectionHeader) :
    Except Fault Section := do
  match names.name? file header.nameOffset.toNat with
  | none => throw (.malformedElf "Invalid ELF section name offset")
  | some nameBytes =>
      let name := Text.latin1 nameBytes
      match header.bytes? file with
      | none => throw (.malformedElf "Invalid ELF section size or offset")
      | some data =>
          let contents ← Contents.ofKind name header.kind data
          return { name, header, contents }

/-- A 32-bit little-endian ELF image. -/
structure Image where
  header : FileHeader
  sections : List Section
  deriving DecidableEq, Repr

namespace Image

/-- Reads the sections of a table from the first to the last. -/
def readSections (file : Bytes) (names : NameTable) (table : List SectionHeader) :
    Except Fault (List Section) :=
  table.mapM (Section.parse file names)

/-- Reads an image. No part of an image with a fault is returned. -/
def parse (file : Bytes) : Except Fault Image := do
  let header ← FileHeader.parse file
  let table ← header.sectionTable file
  let names ← NameTable.locate header table
  let sections ← readSections file names table
  return { header, sections }

def sectionNamed? (image : Image) (name : String) : Option Section :=
  image.sections.find? (·.name == name)

/-- The name of a symbol, from the string table that its own table links to. -/
def symbolName (image : Image) (table : Section) (symbol : Symbol) : Except Fault String :=
  let link := table.header.link.toNat
  match image.sections[link]? with
  | none => .error (.missingSection link)
  | some target =>
      match target.stringTable? with
      | none => .error (.notAStringTable link)
      | some strings => strings.get symbol.nameOffset.toNat

/-- The symbols of one section with their names. -/
def symbolsOf (image : Image) (table : Section) : Except Fault (List (String × Symbol)) :=
  (table.symbols?.getD []).mapM fun symbol => do
    return (← image.symbolName table symbol, symbol)

/-- Every symbol of every symbol table with its name, in the order of the image. -/
def symbols (image : Image) : Except Fault (List (String × Symbol)) := do
  return (← image.sections.mapM image.symbolsOf).flatten

def sectionEvent (s : Section) : Event where
  level := .trace
  text := "section " ++ s.name ++ " type=" ++ Text.hexadecimal s.header.kind.toNat
    ++ " addr=" ++ Text.hexadecimal s.header.address.toNat
    ++ " size=" ++ Text.hexadecimal s.header.size.toNat

/-- The sections in front of the first one with a fault. -/
def soundSections (file : Bytes) (names : NameTable) (table : List SectionHeader) :
    List Section :=
  match table with
  | [] => []
  | header :: rest =>
      match Section.parse file names header with
      | .ok s => s :: soundSections file names rest
      | .error _ => []

/-- The remarks on reading an image: one on each section up to the first fault. -/
def parseJournal (file : Bytes) : Journal :=
  let sound : Except Fault (List Section) := do
    let header ← FileHeader.parse file
    let table ← header.sectionTable file
    let names ← NameTable.locate header table
    return soundSections file names table
  match sound with
  | .ok sections => sections.map sectionEvent
  | .error _ => []

end Image

end DspFirmware.Elf

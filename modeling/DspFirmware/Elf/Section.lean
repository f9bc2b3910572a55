import DspFirmware.Elf.Symbol

/-!
Sections of an ELF image: their headers, and what their type makes of their bytes.

A string table is looked up by offset, a symbol table is read into symbols, and any other section
is kept as it is. Whatever a section holds, its bytes are never lost.
-/

namespace DspFirmware.Elf

/-- The section types that matter here. -/
def symbolTableType : UInt32 := 2
def stringTableType : UInt32 := 3
/-- A section of this type takes up no room in the file. -/
def emptyType : UInt32 := 8
def dynamicSymbolsType : UInt32 := 11

/-- One entry of the section header table. -/
structure SectionHeader where
  nameOffset : UInt32
  kind : UInt32
  flags : UInt32
  address : UInt32
  offset : UInt32
  size : UInt32
  /-- The section that this one refers to, for a symbol table its string table. -/
  link : UInt32
  info : UInt32
  align : UInt32
  entrySize : UInt32
  deriving DecidableEq, Repr

namespace SectionHeader

def recordSize : Nat := 40

/-- The header in the first forty bytes of a byte string. -/
def ofRecord (record : Bytes) : SectionHeader where
  nameOffset := UInt32.ofNat (record.field 0 4)
  kind := UInt32.ofNat (record.field 4 4)
  flags := UInt32.ofNat (record.field 8 4)
  address := UInt32.ofNat (record.field 12 4)
  offset := UInt32.ofNat (record.field 16 4)
  size := UInt32.ofNat (record.field 20 4)
  link := UInt32.ofNat (record.field 24 4)
  info := UInt32.ofNat (record.field 28 4)
  align := UInt32.ofNat (record.field 32 4)
  entrySize := UInt32.ofNat (record.field 36 4)

def encode (header : SectionHeader) : Bytes :=
  [header.nameOffset, header.kind, header.flags, header.address, header.offset, header.size,
    header.link, header.info, header.align, header.entrySize].flatMap Bytes.ofUInt32

/-- The headers of `count` entries that follow each other. -/
def ofRecords : (count : Nat) → Bytes → List SectionHeader
  | 0, _ => []
  | count + 1, data => ofRecord data :: ofRecords count (data.drop recordSize)

/-- The header of section 0, which is no section. -/
def null : SectionHeader := ⟨0, 0, 0, 0, 0, 0, 0, 0, 0, 0⟩

/-- The file range of the section. It is empty for a section that takes up no room, and absent if
the file does not reach its end. -/
def bytes? (header : SectionHeader) (file : Bytes) : Option Bytes :=
  if header.kind = emptyType then some []
  else file.slice? header.offset.toNat header.size.toNat

end SectionHeader

/-- Zero-terminated strings, found by the offset of their first byte. -/
structure StringTable where
  data : Bytes
  deriving DecidableEq, Repr

/-- The string at an offset. It may begin inside a longer one. -/
def StringTable.get (table : StringTable) (offset : Nat) : Except Fault String :=
  Read.runOn (do Read.seek offset; Read.text) table.data

/-- A section full of symbol records. -/
structure SymbolTable where
  data : Bytes
  symbols : List Symbol
  deriving DecidableEq, Repr

/-- Reads the records of a table. The name only serves the fault of a table with a partial
record. -/
def SymbolTable.parse (name : String) (data : Bytes) : Except Fault SymbolTable :=
  if data.length % Symbol.recordSize = 0 then
    .ok ⟨data, Symbol.ofRecords (data.length / Symbol.recordSize) data⟩
  else .error (.symbolTableLength name data.length Symbol.recordSize)

inductive Contents where
  | generic (data : Bytes)
  | strings (table : StringTable)
  | symbols (table : SymbolTable)
  deriving DecidableEq, Repr

namespace Contents

/-- Makes of the bytes of a section what its type says. -/
def ofKind (name : String) (kind : UInt32) (data : Bytes) : Except Fault Contents :=
  if kind = stringTableType then .ok (.strings ⟨data⟩)
  else if kind = symbolTableType ∨ kind = dynamicSymbolsType then
    .symbols <$> SymbolTable.parse name data
  else .ok (.generic data)

def data : Contents → Bytes
  | generic data => data
  | strings table => table.data
  | symbols table => table.data

/-- The bytes of a section are kept, whatever its type. -/
theorem data_ofKind {name : String} {kind : UInt32} {bytes : Bytes} {contents : Contents}
    (read : ofKind name kind bytes = .ok contents) : contents.data = bytes := by
  unfold ofKind at read
  split at read
  · cases read; rfl
  · split at read
    · unfold SymbolTable.parse at read
      split at read
      · cases read; rfl
      · cases read
    · cases read; rfl

end Contents

structure Section where
  name : String
  header : SectionHeader
  contents : Contents
  deriving DecidableEq, Repr

namespace Section

def data (s : Section) : Bytes := s.contents.data

def isEmpty (s : Section) : Bool := s.data.isEmpty

def stringTable? (s : Section) : Option StringTable :=
  match s.contents with
  | .strings table => some table
  | _ => none

/-- The symbols of a symbol table. Other sections have no list of symbols, not even an empty one. -/
def symbols? (s : Section) : Option (List Symbol) :=
  match s.contents with
  | .symbols table => some table.symbols
  | _ => none

end Section

end DspFirmware.Elf

import DspFirmware.Reader

/-!
Symbol records of 32-bit ELF images: sixteen bytes each, read and written field by field.
-/

namespace DspFirmware.Elf

/-- A symbol that an image defines or refers to. -/
structure Symbol where
  /-- Where the name starts in the string table linked to the symbol's table. -/
  nameOffset : UInt32
  value : UInt32
  size : UInt32
  /-- Binding in the high four bits, kind in the low four. -/
  info : UInt8
  /-- Visibility in the low two bits. -/
  other : UInt8
  sectionIndex : UInt16
  deriving DecidableEq, Repr

namespace Symbol

def recordSize : Nat := 16

/-- The symbol in the first sixteen bytes of a byte string. -/
def ofRecord (record : Bytes) : Symbol where
  nameOffset := UInt32.ofNat (record.field 0 4)
  value := UInt32.ofNat (record.field 4 4)
  size := UInt32.ofNat (record.field 8 4)
  info := UInt8.ofNat (record.field 12 1)
  other := UInt8.ofNat (record.field 13 1)
  sectionIndex := UInt16.ofNat (record.field 14 2)

def encode (symbol : Symbol) : Bytes :=
  Bytes.ofUInt32 symbol.nameOffset ++ Bytes.ofUInt32 symbol.value ++ Bytes.ofUInt32 symbol.size
    ++ Bytes.ofUInt8 symbol.info ++ Bytes.ofUInt8 symbol.other
    ++ Bytes.ofUInt16 symbol.sectionIndex

/-- Reads a record, which has to start at a multiple of four. -/
def read : Read Symbol := ofRecord <$> Read.aligned 4 recordSize

def binding (symbol : Symbol) : UInt8 := symbol.info >>> 4
def kind (symbol : Symbol) : UInt8 := symbol.info &&& 0xf
def visibility (symbol : Symbol) : UInt8 := symbol.other &&& 3

/-- A symbol of section 0 is only referred to. -/
def isUndefined (symbol : Symbol) : Bool := symbol.sectionIndex == 0

def isLocal (symbol : Symbol) : Bool := symbol.binding == 0
def isGlobal (symbol : Symbol) : Bool := symbol.binding == 1
def isWeak (symbol : Symbol) : Bool := symbol.binding == 2

/-- The symbols of `count` records that follow each other. -/
def ofRecords : (count : Nat) → Bytes → List Symbol
  | 0, _ => []
  | count + 1, data => ofRecord data :: ofRecords count (data.drop recordSize)

end Symbol

end DspFirmware.Elf

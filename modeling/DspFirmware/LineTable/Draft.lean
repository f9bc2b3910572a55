import DspFirmware.LineTable.Instruction
import DspFirmware.Writer

/-!
Writing line programs: instructions, tables and whole programs as bytes.

A draft holds everything that a program in the file has: what reading keeps, and what it passes over.
The two length fields are not part of a draft; they follow from the rest.
-/

namespace DspFirmware.LineTable

def encodeName (name : String) : Bytes := Text.latin1Bytes name ++ [0]

/-- The encoding of a file entry, with LEB128 numbers in their shortest form. -/
def FileEntry.encode (entry : FileEntry) : Bytes :=
  encodeName entry.name ++ Bytes.uleb128 entry.directoryIndex ++ Bytes.uleb128 entry.modified
    ++ Bytes.uleb128 entry.size

/-- An extended instruction: opcode 0, the length, the extended opcode and its operand. -/
def encodeExtended (opcode : UInt8) (operand : Bytes) : Bytes :=
  0 :: Leb128.encodeUnsigned (operand.length + 1) ++ opcode :: operand

/-- The encoding of an instruction, with LEB128 operands in their shortest form. -/
def Instruction.encode : Instruction → Bytes
  | special opcode => [opcode]
  | copy => [1]
  | advanceAddress operations => 2 :: Bytes.uleb128 operations
  | advanceLine delta => 3 :: Bytes.sleb128 delta
  | setFile index => 4 :: Bytes.uleb128 index
  | setColumn column => 5 :: Bytes.uleb128 column
  | negateStatement => [6]
  | setBasicBlock => [7]
  | addConstant => [8]
  | advanceFixed delta => 9 :: Bytes.ofUInt16 delta
  | unknownStandard opcode operands => opcode :: operands.flatMap Bytes.uleb128
  | emptyExtended => [0, 0]
  | endSequence operand => encodeExtended 1 operand
  | setAddress operand => encodeExtended 2 operand
  | defineFile entry trailing => encodeExtended 3 (entry.encode ++ trailing)
  | unknownExtended opcode operand => encodeExtended opcode operand

/-- What a line program is written from. -/
structure Draft where
  version : UInt16
  minInstructionLength : UInt8
  /-- Written from version 4 on. -/
  maxOperations : UInt8
  /-- Any byte but zero makes rows statements. -/
  defaultIsStatement : UInt8
  lineBase : Int8
  lineRange : UInt8
  opcodeBase : UInt8
  operandCounts : Bytes
  directories : List String
  files : List FileEntry
  /-- What lies between the tables and the first instruction. -/
  padding : Bytes
  code : Bytes
  deriving DecidableEq, Repr

namespace Draft

/-- The fixed fields behind the prologue length. -/
def fields (draft : Draft) : Bytes :=
  [draft.minInstructionLength] ++ (if 4 ≤ draft.version then [draft.maxOperations] else [])
    ++ [draft.defaultIsStatement] ++ Bytes.ofInt8 draft.lineBase
    ++ [draft.lineRange, draft.opcodeBase] ++ draft.operandCounts

/-- The tables, each with the empty entry that ends it. -/
def tables (draft : Draft) : Bytes :=
  draft.directories.flatMap encodeName ++ [0] ++ draft.files.flatMap FileEntry.encode ++ [0]

/-- What the prologue length counts. -/
def prologue (draft : Draft) : Bytes := draft.fields ++ draft.tables ++ draft.padding

/-- What the unit length counts. -/
def unit (draft : Draft) : Bytes :=
  Bytes.ofUInt16 draft.version ++ Bytes.littleEndian 4 draft.prologue.length ++ draft.prologue
    ++ draft.code

def encode (draft : Draft) : Bytes := Bytes.littleEndian 4 draft.unit.length ++ draft.unit

end Draft

end DspFirmware.LineTable

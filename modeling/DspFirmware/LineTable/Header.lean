import DspFirmware.Reader.Gather

/-!
The fixed fields in front of a line program, and the tables of directories and files behind them.

A header is read for versions 2 to 4 of the format. The tables end with an empty entry each.
-/

namespace DspFirmware.LineTable

/-- The fixed fields of a line program. -/
structure Header where
  /-- The length of the program after this field. -/
  unitLength : UInt32
  version : UInt16
  /-- The number of bytes between this field and the first instruction. -/
  prologueLength : UInt32
  minInstructionLength : UInt8
  /-- One before version 4, which introduced the field. -/
  maxOperations : UInt8
  defaultIsStatement : Bool
  lineBase : Int8
  lineRange : UInt8
  /-- The first special opcode. -/
  opcodeBase : UInt8
  /-- The number of operands of each opcode below `opcodeBase`, from opcode 1 on. -/
  operandCounts : List UInt8
  deriving DecidableEq, Repr

namespace Header

/-- The length of the program with its length field. -/
def totalLength (header : Header) : Nat := 4 + header.unitLength.toNat

/-- Where the instructions start. The prologue begins at byte 10. -/
def programOffset (header : Header) : Nat := 10 + header.prologueLength.toNat

/-- The number of operands of a standard opcode, zero for one that the header does not describe. -/
def operandCount (header : Header) (opcode : UInt8) : UInt8 :=
  if opcode = 0 then 0 else header.operandCounts[opcode.toNat - 1]?.getD 0

def read : Read Header := do
  let unitLength ← Read.uint32
  let version ← Read.uint16
  if version < 2 ∨ 4 < version then
    throw (.unsupportedLineVersion version)
  let prologueLength ← Read.uint32
  let minInstructionLength ← Read.uint8
  let maxOperations ← if 4 ≤ version then Read.uint8 else pure 1
  let defaultIsStatement := (← Read.uint8) != 0
  let lineBase ← Read.int8
  let lineRange ← Read.uint8
  if lineRange = 0 then
    throw .zeroLineRange
  let opcodeBase ← Read.uint8
  let operandCounts ← Read.bytes (opcodeBase.toNat - 1)
  return {
    unitLength, version, prologueLength, minInstructionLength, maxOperations,
    defaultIsStatement, lineBase, lineRange, opcodeBase, operandCounts }

end Header

structure FileEntry where
  name : String
  /-- The place of the file's directory in the directory table, counted from one. -/
  directoryIndex : UInt64
  modified : UInt64
  size : UInt64
  deriving DecidableEq, Repr

namespace FileEntry

def read : Read FileEntry := do
  let name ← Read.text
  let directoryIndex ← Read.uleb128
  let modified ← Read.uleb128
  let size ← Read.uleb128
  return { name, directoryIndex, modified, size }

theorem consumes_read : Read.Consumes read :=
  Read.consumes_text.bind fun _ => Read.consumes_uleb128.forward.bind fun _ =>
    Read.consumes_uleb128.forward.bind fun _ => Read.consumes_uleb128.forward.bind fun _ =>
      Read.forward_pure _

end FileEntry

/-- The next directory, or nothing at the empty name that ends the table. -/
def nextDirectory : Read (Option String) := do
  let directory ← Read.text
  return if directory.isEmpty then none else some directory

theorem consumes_nextDirectory : Read.Consumes nextDirectory :=
  Read.consumes_text.bind fun _ => Read.forward_pure _

theorem progress_nextDirectory : Read.Progress nextDirectory := consumes_nextDirectory.progress

def readDirectories : Read (List String) := Read.list nextDirectory progress_nextDirectory

/-- The next file, or nothing at the zero byte that ends the table. -/
def nextFile : Read (Option FileEntry) := do
  if (← Read.peek) = 0 then
    Read.skip 1
    return none
  else some <$> FileEntry.read

theorem consumes_nextFile : Read.Consumes nextFile := by
  apply Read.forward_peek.bind_consumes
  intro byte
  split
  · exact (Read.consumes_skip Nat.one_pos).bind fun _ => Read.forward_pure _
  · exact FileEntry.consumes_read.map

theorem progress_nextFile : Read.Progress nextFile := consumes_nextFile.progress

def readFiles : Read (List FileEntry) := Read.list nextFile progress_nextFile

/-- What stands in front of the instructions. -/
structure Prologue where
  header : Header
  directories : List String
  files : List FileEntry
  deriving DecidableEq, Repr

/-- Reads fixed fields and tables and moves to the first instruction, over whatever the prologue
has behind its tables. The tables must not run past that place. -/
def Prologue.read : Read Prologue := do
  let header ← Header.read
  let directories ← readDirectories
  let files ← readFiles
  let tablesEnd := (← get).pos
  if header.programOffset < tablesEnd then
    throw (.prologueOverrun header.programOffset tablesEnd)
  Read.seek header.programOffset
  return { header, directories, files }

end DspFirmware.LineTable

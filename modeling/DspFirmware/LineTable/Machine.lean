import DspFirmware.LineTable.Instruction

/-!
The machine that a line program drives.

Its registers are the row it would emit next. Executing an instruction changes the registers, may
emit a row, and may add a file. Addresses and lines are 32-bit and wrap. One thing is not defined:
an address advance whose product with the instruction length exceeds 64 bits, see `Overflows`.
-/

namespace DspFirmware.LineTable

structure Row where
  address : UInt32
  /-- The place of the row's file in the file table, counted from one. -/
  file : UInt64
  line : UInt32
  column : UInt64
  isStatement : Bool
  basicBlock : Bool
  /-- The row closes a sequence. Its address is the first one behind the sequence. -/
  endSequence : Bool
  deriving DecidableEq, Repr

namespace Row

/-- The registers at the start of a sequence. -/
def initial (defaultIsStatement : Bool) : Row where
  address := 0
  file := 1
  line := 1
  column := 0
  isStatement := defaultIsStatement
  basicBlock := false
  endSequence := false

def advanceAddress (row : Row) (count : Nat) : Row :=
  { row with address := row.address + UInt32.ofNat count }

def advanceLine (row : Row) (delta : Int) : Row :=
  { row with line := UInt32.ofInt (row.line.toNat + delta) }

end Row

namespace Header

/-- The bytes that a number of operations takes. Operations that share an instruction count once,
and a header that allows none in an instruction is read as allowing one. -/
def operationBytes (header : Header) (operations : Nat) : Nat :=
  operations / max header.maxOperations.toNat 1 * header.minInstructionLength.toNat

/-- How far an opcode lies above the first special one. -/
def adjusted (header : Header) (opcode : UInt8) : UInt8 := opcode - header.opcodeBase

/-- The operations by which a special opcode advances the address. -/
def specialOperations (header : Header) (opcode : UInt8) : Nat :=
  (header.adjusted opcode / header.lineRange).toNat

/-- The lines by which a special opcode advances. -/
def specialLines (header : Header) (opcode : UInt8) : Int :=
  header.lineBase.toInt + (header.adjusted opcode % header.lineRange).toNat

end Header

/-- Whether an instruction asks for an address advance of more than 64 bits. -/
def Instruction.Overflows (header : Header) : Instruction → Prop
  | .advanceAddress operations => UInt64.size ≤ header.operationBytes operations.toNat
  | _ => False

instance (header : Header) (instruction : Instruction) :
    Decidable (instruction.Overflows header) := by
  unfold Instruction.Overflows
  split <;> infer_instance

/-- The state of a run: registers, the rows so far and the file table so far. -/
structure Machine where
  registers : Row
  rows : Array Row
  files : Array FileEntry
  deriving DecidableEq, Repr

namespace Machine

def start (header : Header) (files : List FileEntry) : Machine :=
  ⟨Row.initial header.defaultIsStatement, #[], files.toArray⟩

def update (machine : Machine) (change : Row → Row) : Machine :=
  { machine with registers := change machine.registers }

/-- Emits the registers as a row. A basic block begins with one row only. -/
def emit (machine : Machine) : Machine where
  registers := { machine.registers with basicBlock := false }
  rows := machine.rows.push machine.registers
  files := machine.files

/-- Emits the last row of a sequence and begins the next. -/
def close (machine : Machine) (header : Header) : Machine where
  registers := Row.initial header.defaultIsStatement
  rows := machine.rows.push { machine.registers with endSequence := true }
  files := machine.files

/-- The address in the first four bytes of an operand. Missing bytes are zero. -/
def addressOf (operand : Bytes) : UInt32 := UInt32.ofNat (operand.field 0 4)

def execute (header : Header) (machine : Machine) : Instruction → Machine
  | .special opcode =>
      (machine.update fun row =>
        (row.advanceAddress (header.operationBytes (header.specialOperations opcode))).advanceLine
          (header.specialLines opcode)).emit
  | .copy => machine.emit
  | .advanceAddress operations =>
      machine.update (·.advanceAddress (header.operationBytes operations.toNat))
  | .advanceLine delta => machine.update (·.advanceLine delta.toInt)
  | .setFile index => machine.update ({ · with file := index })
  | .setColumn column => machine.update ({ · with column })
  | .negateStatement => machine.update fun row => { row with isStatement := !row.isStatement }
  | .setBasicBlock => machine.update ({ · with basicBlock := true })
  | .addConstant =>
      machine.update (·.advanceAddress (header.operationBytes (header.specialOperations 255)))
  | .advanceFixed delta => machine.update (·.advanceAddress delta.toNat)
  | .unknownStandard _ _ => machine
  | .emptyExtended => machine
  | .endSequence _ => machine.close header
  | .setAddress operand => machine.update ({ · with address := addressOf operand })
  | .defineFile entry _ => { machine with files := machine.files.push entry }
  | .unknownExtended _ _ => machine

def run (header : Header) (machine : Machine) (instructions : List Instruction) : Machine :=
  instructions.foldl (execute header) machine

end Machine

end DspFirmware.LineTable

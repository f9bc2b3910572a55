import DspFirmware.LineTable.Header

/-!
The instructions of a line program, and how they are read.

Which byte sequences are instructions depends on the header: opcodes from `opcodeBase` on are
special, the others standard, and opcode 0 introduces an extended instruction with a length of its
own. Reading an instruction always moves forward, so that any byte string has a last instruction.
-/

namespace DspFirmware.LineTable

/-- One instruction, with operands it carries without using them. -/
inductive Instruction where
  /-- Advances address and line by amounts that the opcode combines, and emits a row. -/
  | special (opcode : UInt8)
  | copy
  | advanceAddress (operations : UInt64)
  | advanceLine (delta : Int64)
  | setFile (index : UInt64)
  | setColumn (column : UInt64)
  | negateStatement
  | setBasicBlock
  /-- Advances the address as the last special opcode does. -/
  | addConstant
  | advanceFixed (delta : UInt16)
  | unknownStandard (opcode : UInt8) (operands : List UInt64)
  /-- An extended instruction of length zero. -/
  | emptyExtended
  | endSequence (operand : Bytes)
  | setAddress (operand : Bytes)
  /-- A file for the table. `trailing` is what the operand has behind the entry. -/
  | defineFile (entry : FileEntry) (trailing : Bytes)
  | unknownExtended (opcode : UInt8) (operand : Bytes)
  deriving DecidableEq, Repr

namespace Instruction

/-- The beginning of an instruction, which tells its kind. -/
inductive Head where
  | special (opcode : UInt8)
  | standard (opcode : UInt8)
  | emptyExtended
  /-- An extended opcode and the length of its operand. -/
  | extended (opcode : UInt8) (operandLength : Nat)
  deriving DecidableEq, Repr

/-- Reads an opcode, with the length in front of an extended one. -/
def readHead (header : Header) : Read Head := do
  let opcode ← Read.uint8
  if header.opcodeBase ≤ opcode then
    return .special opcode
  else if opcode = 0 then
    let length ← Read.uleb128
    if length = 0 then
      return .emptyExtended
    else
      let extended ← Read.uint8
      return .extended extended (length.toNat - 1)
  else return .standard opcode

def readOperands : (count : Nat) → Read (List UInt64)
  | 0 => return []
  | count + 1 => do
      let operand ← Read.uleb128
      let others ← readOperands count
      return operand :: others

def readStandard (header : Header) (opcode : UInt8) : Read Instruction :=
  match opcode.toNat with
  | 1 => return .copy
  | 2 => .advanceAddress <$> Read.uleb128
  | 3 => .advanceLine <$> Read.sleb128
  | 4 => .setFile <$> Read.uleb128
  | 5 => .setColumn <$> Read.uleb128
  | 6 => return .negateStatement
  | 7 => return .setBasicBlock
  | 8 => return .addConstant
  | 9 => .advanceFixed <$> Read.uint16
  | _ => .unknownStandard opcode <$> readOperands (header.operandCount opcode).toNat

/-- Makes an instruction of an extended opcode and its operand. A file entry has to lie inside the
operand; its faults count offsets from there. -/
def ofExtended (opcode : UInt8) (operand : Bytes) : Except Fault Instruction :=
  match opcode.toNat with
  | 1 => .ok (.endSequence operand)
  | 2 => .ok (.setAddress operand)
  | 3 =>
      match FileEntry.read (Reader.ofBytes operand) with
      | .ok entry r => .ok (.defineFile entry r.rest)
      | .error fault _ => .error fault
  | _ => .ok (.unknownExtended opcode operand)

def readBody (header : Header) : Head → Read Instruction
  | .special opcode => return .special opcode
  | .standard opcode => readStandard header opcode
  | .emptyExtended => return .emptyExtended
  | .extended opcode operandLength => do
      let operand ← Read.bytes operandLength
      match ofExtended opcode operand with
      | .ok instruction => return instruction
      | .error fault => throw fault

def read (header : Header) : Read Instruction := do
  let head ← readHead header
  readBody header head

theorem consumes_readHead (header : Header) : Read.Consumes (readHead header) := by
  refine Read.consumes_uint8.bind fun opcode => ?_
  split
  · exact Read.forward_pure _
  · split
    · refine Read.consumes_uleb128.forward.bind fun length => ?_
      split
      · exact Read.forward_pure _
      · exact Read.consumes_uint8.forward.bind fun _ => Read.forward_pure _
    · exact Read.forward_pure _

theorem forward_readOperands (count : Nat) : Read.Forward (readOperands count) := by
  induction count with
  | zero => exact Read.forward_pure _
  | succ count ih =>
      exact Read.consumes_uleb128.forward.bind fun _ => ih.bind fun _ => Read.forward_pure _

theorem forward_readStandard (header : Header) (opcode : UInt8) :
    Read.Forward (readStandard header opcode) := by
  unfold readStandard
  split
  · exact Read.forward_pure _
  · exact Read.consumes_uleb128.forward.map
  · exact Read.consumes_sleb128.forward.map
  · exact Read.consumes_uleb128.forward.map
  · exact Read.consumes_uleb128.forward.map
  · exact Read.forward_pure _
  · exact Read.forward_pure _
  · exact Read.forward_pure _
  · exact Read.consumes_uint16.forward.map
  · exact (forward_readOperands _).map

theorem forward_readBody (header : Header) (head : Head) :
    Read.Forward (readBody header head) := by
  cases head with
  | special opcode => exact Read.forward_pure _
  | standard opcode => exact forward_readStandard header opcode
  | emptyExtended => exact Read.forward_pure _
  | extended opcode operandLength =>
      refine (Read.forward_bytes _).bind fun operand => ?_
      split
      · exact Read.forward_pure _
      · exact Read.forward_throw _

theorem consumes_read (header : Header) : Read.Consumes (read header) :=
  (consumes_readHead header).bind fun head => forward_readBody header head

/-- The next instruction, or nothing at the end of the program. -/
def next (header : Header) : Read (Option Instruction) := do
  if (← get).atEnd then
    return none
  else some <$> read header

theorem progress_next (header : Header) : Read.Progress (next header) := by
  intro r item s success
  obtain ⟨t, u, got, after⟩ := Read.bind_eq_ok.mp success
  cases got
  split at after
  · exact absurd (Read.pure_eq_ok.mp after).1 (by simp)
  · exact (consumes_read header).map after

end Instruction

end DspFirmware.LineTable

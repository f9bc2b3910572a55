import DspFirmware.LineTable.Machine
import DspFirmware.Journal

/-!
Whole line programs: from the bytes of a program to its rows.

A program is read in two steps. Its instructions are listed first, up to the end or to the first
fault, and then executed. An advance that overflows is met before a fault behind it.
-/

namespace DspFirmware.LineTable

/-- Why a program has no rows. -/
inductive DecodeError where
  | fault (cause : Fault)
  /-- An address advance does not fit 64 bits. -/
  | advanceOverflow
  deriving DecidableEq, Repr

def DecodeError.message : DecodeError → String
  | fault cause => cause.message
  | advanceOverflow => "attempt to multiply with overflow"

def listing (header : Header) (r : Reader) : Gathered Instruction :=
  r.gather (Instruction.next header) (Instruction.progress_next header)

/-- Executes what was listed, if all of it was read. -/
def execute (header : Header) (files : List FileEntry) (code : Gathered Instruction) :
    Except DecodeError Machine :=
  if code.items.any (·.Overflows header) then .error .advanceOverflow
  else
    match code.fault with
    | some cause => .error (.fault cause)
    | none => .ok ((Machine.start header files).run header code.items)

def run (header : Header) (files : List FileEntry) (code : Bytes) :
    Except DecodeError Machine :=
  execute header files (listing header (Reader.ofBytes code))

structure Program where
  header : Header
  directories : List String
  /-- The file table, with the files that instructions have added. -/
  files : List FileEntry
  rows : List Row
  deriving DecidableEq, Repr

namespace Program

/-- The program at the start of a byte string, as far as its length field says. -/
def cut (data : Bytes) : Except Fault Bytes := do
  let unitLength ← Read.runOn Read.uint32 data
  let total := 4 + unitLength.toNat
  if Bytes.holds total data then
    return data.take total
  else throw (.outOfBounds 0 total data.length)

/-- The prologue of the program at the start of a byte string, and the reader in front of its first
instruction. -/
def opened (data : Bytes) : Except Fault (Prologue × Reader) := do
  let program ← cut data
  match Prologue.read (Reader.ofBytes program) with
  | .ok prologue r => return (prologue, r)
  | .error cause _ => throw cause

/-- Reads and executes the program at the start of a byte string. What follows it is left alone. -/
def parse (data : Bytes) : Except DecodeError Program :=
  match opened data with
  | .error cause => .error (.fault cause)
  | .ok (prologue, r) => do
      let machine ← execute prologue.header prologue.files (listing prologue.header r)
      return {
        header := prologue.header
        directories := prologue.directories
        files := machine.files.toList
        rows := machine.rows.toList }

/-- The remark on an extended opcode that is passed over. -/
def skipEvent (opcode : UInt8) (operandLength : Nat) : Event where
  level := .debug
  text := "skipping extended opcode " ++ Text.hexadecimal opcode.toNat ++ " ("
    ++ Text.decimal operandLength ++ " bytes)"

/-- The remark that an instruction causes. -/
def instructionEvent? : Instruction → Option Event
  | .unknownExtended opcode operand => some (skipEvent opcode operand.length)
  | _ => none

/-- The remark that an instruction with a fault has caused already. -/
def brokenEvent? (header : Header) (r : Reader) : Option Event :=
  match Instruction.readHead header r with
  | .ok (.extended opcode operandLength) _ =>
      if opcode = 1 ∨ opcode = 2 ∨ opcode = 3 then none
      else some (skipEvent opcode operandLength)
  | _ => none

/-- The remarks on a listing: those on the instructions in front of the first overflow or fault. -/
def listingJournal (header : Header) (code : Gathered Instruction) : Journal :=
  let executed := code.items.takeWhile fun instruction => !instruction.Overflows header
  let remarks := executed.filterMap instructionEvent?
  if code.items.any (·.Overflows header) then remarks
  else remarks ++ (brokenEvent? header code.stop).toList

/-- The remarks on reading the program at the start of a byte string. -/
def parseJournal (data : Bytes) : Journal :=
  match opened data with
  | .error _ => []
  | .ok (prologue, r) => listingJournal prologue.header (listing prologue.header r)

end Program

end DspFirmware.LineTable

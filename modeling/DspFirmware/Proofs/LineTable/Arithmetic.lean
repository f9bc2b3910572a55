import DspFirmware.Proofs.LineTable.AbstractMachine
import DspFirmware.Proofs.LineTable.Listing
import DspFirmware.Proofs.LineTable.Prologue

/-!
Decoding programs with the arithmetic of machine words.

Here the sums, differences, products and quotients of headers and instructions have a value only where
a word holds it and no divisor is zero. All of them have one, with a single exception: the product of
an address advance. Addresses and lines themselves wrap and always have a value.
-/

namespace DspFirmware.LineTable

namespace Checked

def add (size a b : Nat) : Option Nat := if a + b < size then some (a + b) else none

def sub (a b : Nat) : Option Nat := if b ≤ a then some (a - b) else none

def mul (size a b : Nat) : Option Nat := if a * b < size then some (a * b) else none

def div (a b : Nat) : Option Nat := if b = 0 then none else some (a / b)

def rem (a b : Nat) : Option Nat := if b = 0 then none else some (a % b)

/-- The sum of two signed 64-bit words. -/
def addSigned (a b : Int) : Option Int :=
  if Int64.minValue.toInt ≤ a + b ∧ a + b ≤ Int64.maxValue.toInt then some (a + b) else none

end Checked

/-- An outcome, with nothing in place of an overflow. -/
def outcome? : Except DecodeError α → Option (Except Fault α)
  | .ok answer => some (.ok answer)
  | .error (.fault cause) => some (.error cause)
  | .error .advanceOverflow => none

theorem outcome?_eq_none_iff {outcome : Except DecodeError α} :
    outcome? outcome = none ↔ outcome = .error .advanceOverflow := by
  cases outcome with
  | ok answer => simp [outcome?]
  | error error => cases error <;> simp [outcome?]

namespace Header

variable {header : Header}

def totalLength? (header : Header) : Option Nat :=
  Checked.add UInt64.size 4 header.unitLength.toNat

def programOffset? (header : Header) : Option Nat :=
  Checked.add UInt64.size 10 header.prologueLength.toNat

def operationBytes? (header : Header) (operations : Nat) : Option Nat := do
  let groups ← Checked.div operations (max header.maxOperations.toNat 1)
  Checked.mul UInt64.size groups header.minInstructionLength.toNat

def specialBytes? (header : Header) (opcode : UInt8) : Option Nat := do
  let adjusted ← Checked.sub opcode.toNat header.opcodeBase.toNat
  let operations ← Checked.div adjusted header.lineRange.toNat
  header.operationBytes? operations

def specialLines? (header : Header) (opcode : UInt8) : Option Int := do
  let adjusted ← Checked.sub opcode.toNat header.opcodeBase.toNat
  let above ← Checked.rem adjusted header.lineRange.toNat
  Checked.addSigned header.lineBase.toInt above

theorem totalLength?_eq : header.totalLength? = some header.totalLength :=
  if_pos (by have := header.unitLength.toNat_lt; simp only [UInt64.size]; omega)

theorem programOffset?_eq : header.programOffset? = some header.programOffset :=
  if_pos (by have := header.prologueLength.toNat_lt; simp only [UInt64.size]; omega)

theorem operationBytes?_eq (operations : Nat) :
    header.operationBytes? operations =
      if header.operationBytes operations < UInt64.size then some (header.operationBytes operations)
      else none := by
  have divisor : max header.maxOperations.toNat 1 ≠ 0 := by omega
  rw [operationBytes?, Checked.div, if_neg divisor]
  rfl

/-- Operations that a byte counts take few bytes. -/
theorem operationBytes_lt {operations : Nat} (small : operations < 256) :
    header.operationBytes operations < UInt64.size := by
  have groups : operations / max header.maxOperations.toNat 1 ≤ 255 :=
    (Nat.div_le_self _ _).trans (by omega)
  have length : header.minInstructionLength.toNat ≤ 255 := by
    have := header.minInstructionLength.toNat_lt
    omega
  calc header.operationBytes operations ≤ 255 * 255 := Nat.mul_le_mul groups length
    _ < UInt64.size := by decide

theorem sub_opcodeBase {opcode : UInt8} (special : header.opcodeBase ≤ opcode) :
    Checked.sub opcode.toNat header.opcodeBase.toNat = some (header.adjusted opcode).toNat := by
  rw [toNat_adjusted special]
  exact if_pos (UInt8.le_iff_toNat_le.mp special)

theorem toNat_lineRange_ne_zero (range : header.lineRange ≠ 0) : header.lineRange.toNat ≠ 0 :=
  fun zero => range (UInt8.toNat_inj.mp zero)

section Special

variable {opcode : UInt8} (range : header.lineRange ≠ 0) (special : header.opcodeBase ≤ opcode)

include range special

theorem specialBytes?_eq :
    header.specialBytes? opcode
      = some (header.operationBytes (header.specialOperations opcode)) := by
  have small : header.specialOperations opcode < 256 := UInt8.toNat_lt _
  rw [specialBytes?, sub_opcodeBase special, Option.bind_eq_bind, Option.bind_some, Checked.div,
    if_neg (toNat_lineRange_ne_zero range), ← UInt8.toNat_div]
  change header.operationBytes? (header.specialOperations opcode) = _
  rw [operationBytes?_eq, if_pos (operationBytes_lt small)]

theorem specialLines?_eq : header.specialLines? opcode = some (header.specialLines opcode) := by
  have inside : Int64.minValue.toInt ≤ header.specialLines opcode
      ∧ header.specialLines opcode ≤ Int64.maxValue.toInt := by
    have low := header.lineBase.le_toInt
    have high := header.lineBase.toInt_lt
    have small := (header.adjusted opcode % header.lineRange).toNat_lt
    rw [specialLines, Int64.toInt_minValue, Int64.toInt_maxValue]
    omega
  rw [specialLines?, sub_opcodeBase special, Option.bind_eq_bind, Option.bind_some, Checked.rem,
    if_neg (toNat_lineRange_ne_zero range), ← UInt8.toNat_mod]
  exact if_pos inside

end Special

end Header

/-- The fixed fields and the tables in front of a program. -/
def Prologue.tables : Read Prologue := do
  let header ← Header.read
  let directories ← readDirectories
  let files ← readFiles
  return { header, directories, files }

/-- Moves behind the tables to where the instructions start. -/
def Prologue.enter (prologue : Prologue) (start : Nat) : Read Prologue := do
  let tablesEnd := (← get).pos
  if start < tablesEnd then
    throw (.prologueOverrun start tablesEnd)
  Read.seek start
  return prologue

def Prologue.read? (r : Reader) : Option (EStateM.Result Fault Reader Prologue) :=
  match Prologue.tables r with
  | .error cause s => some (.error cause s)
  | .ok prologue s => do
      let start ← prologue.header.programOffset?
      return prologue.enter start s

theorem Prologue.read_eq_tables_bind :
    Prologue.read
      = Prologue.tables >>= fun prologue => prologue.enter prologue.header.programOffset := by
  simp only [Prologue.read, Prologue.tables, Prologue.enter, bind_assoc, pure_bind]

theorem Prologue.read?_eq (r : Reader) : Prologue.read? r = some (Prologue.read r) := by
  rw [Prologue.read?, read_eq_tables_bind]
  change _ = some (EStateM.bind _ _ r)
  unfold EStateM.bind
  cases Prologue.tables r with
  | error cause s => rfl
  | ok prologue s =>
      dsimp only
      rw [Header.programOffset?_eq]
      rfl

namespace Machine

/-- Executes an instruction, if its arithmetic is defined. -/
def execute? (header : Header) (machine : Machine) : Instruction → Option Machine
  | .special opcode => do
      let bytes ← header.specialBytes? opcode
      let lines ← header.specialLines? opcode
      return (machine.update fun row => (row.advanceAddress bytes).advanceLine lines).emit
  | .advanceAddress operations => do
      let bytes ← header.operationBytes? operations.toNat
      return machine.update (·.advanceAddress bytes)
  | .addConstant => do
      let bytes ← header.specialBytes? 255
      return machine.update (·.advanceAddress bytes)
  | instruction => some (machine.execute header instruction)

def run? (header : Header) (machine : Machine) (instructions : List Instruction) : Option Machine :=
  instructions.foldlM (execute? header) machine

variable {header : Header}

theorem execute?_eq (range : header.lineRange ≠ 0) {instruction : Instruction}
    (admitted : instruction.AdmittedBy header) (machine : Machine) :
    execute? header machine instruction =
      if instruction.Overflows header then none else some (execute header machine instruction) := by
  cases instruction with
  | special opcode =>
      change (header.specialBytes? opcode >>= fun bytes => header.specialLines? opcode >>= _) = _
      rw [Header.specialBytes?_eq range admitted, Header.specialLines?_eq range admitted]
      rfl
  | advanceAddress operations =>
      change (header.operationBytes? operations.toNat >>= _) = _
      rw [Header.operationBytes?_eq]
      by_cases fits : header.operationBytes operations.toNat < UInt64.size
      · have inside : ¬(Instruction.advanceAddress operations).Overflows header :=
          Nat.not_le.mpr fits
        rw [if_pos fits, if_neg inside]
        rfl
      · have overflow : (Instruction.advanceAddress operations).Overflows header :=
          Nat.not_lt.mp fits
        rw [if_neg fits, if_pos overflow]
        rfl
  | addConstant =>
      change (header.specialBytes? 255 >>= _) = _
      rw [Header.specialBytes?_eq range (opcodeBase_le_last header)]
      rfl
  | _ => rfl

theorem run?_eq (range : header.lineRange ≠ 0) {instructions : List Instruction}
    (admitted : ∀ instruction ∈ instructions, instruction.AdmittedBy header) (machine : Machine) :
    run? header machine instructions =
      if instructions.any (·.Overflows header) then none
      else some (run header machine instructions) := by
  induction instructions generalizing machine with
  | nil => rfl
  | cons instruction instructions ih =>
      obtain ⟨first, rest⟩ := List.forall_mem_cons.mp admitted
      rw [run?, List.foldlM_cons, execute?_eq range first, List.any_cons]
      by_cases overflow : instruction.Overflows header
      · simp [overflow]
      · have later := ih rest (execute header machine instruction)
        rw [run?] at later
        rw [if_neg overflow, decide_eq_false overflow, Bool.false_or, Option.bind_eq_bind,
          Option.bind_some, later]
        rfl

end Machine

namespace Program

/-- Executes what was listed. A fault behind the listing comes after its arithmetic. -/
def execute? (header : Header) (files : List FileEntry) (code : Gathered Instruction) :
    Option (Except Fault Machine) := do
  let machine ← (Machine.start header files).run? header code.items
  match code.fault with
  | some cause => return .error cause
  | none => return .ok machine

def cut? (data : Bytes) : Option (Except Fault Bytes) :=
  match Read.runOn Read.uint32 data with
  | .error cause => some (.error cause)
  | .ok unitLength => do
      let total ← Checked.add UInt64.size 4 unitLength.toNat
      return if Bytes.holds total data then .ok (data.take total)
        else .error (.outOfBounds 0 total data.length)

def opened? (data : Bytes) : Option (Except Fault (Prologue × Reader)) := do
  match ← cut? data with
  | .error cause => return .error cause
  | .ok part =>
      match ← Prologue.read? (.ofBytes part) with
      | .error cause _ => return .error cause
      | .ok prologue r => return .ok (prologue, r)

def parse? (data : Bytes) : Option (Except Fault Program) := do
  match ← opened? data with
  | .error cause => return .error cause
  | .ok (prologue, r) =>
      match ← execute? prologue.header prologue.files (listing prologue.header r) with
      | .error cause => return .error cause
      | .ok machine => return .ok {
          header := prologue.header
          directories := prologue.directories
          files := machine.files.toList
          rows := machine.rows.toList }

theorem execute?_eq {header : Header} (range : header.lineRange ≠ 0) (files : List FileEntry)
    (r : Reader) :
    execute? header files (listing header r) = outcome? (execute header files (listing header r)) := by
  rw [execute?, Machine.run?_eq range (Instruction.admitted_listing header r), execute]
  split
  · rfl
  · cases (listing header r).fault <;> rfl

theorem cut?_eq (data : Bytes) : cut? data = some (cut data) := by
  rw [cut?, cut]
  cases Read.runOn Read.uint32 data with
  | error cause => rfl
  | ok unitLength =>
      have total : Checked.add UInt64.size 4 unitLength.toNat = some (4 + unitLength.toNat) :=
        if_pos (by have := unitLength.toNat_lt; simp only [UInt64.size]; omega)
      dsimp only
      rw [total]
      rfl

theorem opened?_eq (data : Bytes) : opened? data = some (opened data) := by
  rw [opened?, cut?_eq, opened]
  cases cut data with
  | error cause => rfl
  | ok part =>
      dsimp only [bind, Option.bind, Except.bind]
      rw [Prologue.read?_eq]
      cases Prologue.read (.ofBytes part) with
      | error cause s => rfl
      | ok prologue r => rfl

theorem parse?_eq (data : Bytes) : parse? data = outcome? (parse data) := by
  rw [parse?, opened?_eq, Option.bind_eq_bind, Option.bind_some, parse]
  cases hOpened : opened data with
  | error cause => rfl
  | ok both =>
      obtain ⟨prologue, r⟩ := both
      obtain ⟨range, _⟩ := of_opened hOpened
      dsimp only
      rw [execute?_eq range]
      cases execute prologue.header prologue.files (listing prologue.header r) with
      | ok machine => rfl
      | error error => cases error <;> rfl

end Program

theorem parse_eq_advanceOverflow_iff {data : Bytes} :
    Program.parse data = .error .advanceOverflow ↔
      ∃ prologue r, Program.opened data = .ok (prologue, r)
        ∧ ∃ instruction ∈ (listing prologue.header r).items,
          instruction.Overflows prologue.header := by
  rw [Program.parse]
  cases Program.opened data with
  | error cause => simp
  | ok both =>
      obtain ⟨prologue, r⟩ := both
      change (execute _ _ _ >>= fun machine => pure _) = _ ↔ _
      rw [Outcome.bind_pure_eq_error, execute_eq_advanceOverflow_iff]
      simp

end DspFirmware.LineTable

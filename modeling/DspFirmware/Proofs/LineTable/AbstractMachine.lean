import DspFirmware.Proofs.LineTable.Coding

/-!
The abstract line-number machine, and that running a program does what it does.

The abstract machine counts addresses and lines in integers, and a special opcode is known by the
quotient and the remainder it is put together from. Rows keep the lowest 32 bits of the integers.
-/

namespace DspFirmware.LineTable

/-- The registers of the abstract machine. -/
structure Registers where
  address : Int
  file : UInt64
  line : Int
  column : UInt64
  isStatement : Bool
  basicBlock : Bool

namespace Registers

/-- The registers at the start of a sequence. -/
def initial (header : Header) : Registers where
  address := 0
  file := 1
  line := 1
  column := 0
  isStatement := header.defaultIsStatement
  basicBlock := false

def advanceAddress (registers : Registers) (count : Nat) : Registers :=
  { registers with address := registers.address + count }

def advanceLine (registers : Registers) (delta : Int) : Registers :=
  { registers with line := registers.line + delta }

/-- Moves on by some operations, and by lines counted from the lowest advance. -/
def special (registers : Registers) (header : Header) (operations lines : Nat) : Registers :=
  (registers.advanceAddress (header.operationBytes operations)).advanceLine
    (header.lineBase.toInt + lines)

/-- The registers behind a row. -/
def emitted (registers : Registers) : Registers := { registers with basicBlock := false }

/-- The row that the registers stand for. -/
def row (registers : Registers) (endSequence : Bool) : Row where
  address := UInt32.ofInt registers.address
  file := registers.file
  line := UInt32.ofInt registers.line
  column := registers.column
  isStatement := registers.isStatement
  basicBlock := registers.basicBlock
  endSequence := endSequence

end Registers

/-- One instruction of the abstract machine: the registers behind it, the rows it emits and the files
it adds. -/
inductive Step (header : Header) (registers : Registers) :
    Instruction → Registers → List Row → List FileEntry → Prop where
  /-- A special opcode is put together from operations and from lines above `lineBase`. -/
  | special {opcode : UInt8} {operations lines : Nat} (below : lines < header.lineRange.toNat)
      (parts : opcode.toNat
        = header.opcodeBase.toNat + header.lineRange.toNat * operations + lines) :
      Step header registers (.special opcode)
        (registers.special header operations lines).emitted
        [(registers.special header operations lines).row false] []
  | copy : Step header registers .copy registers.emitted [registers.row false] []
  | advanceAddress (operations : UInt64) :
      Step header registers (.advanceAddress operations)
        (registers.advanceAddress (header.operationBytes operations.toNat)) [] []
  | advanceLine (delta : Int64) :
      Step header registers (.advanceLine delta) (registers.advanceLine delta.toInt) [] []
  | setFile (index : UInt64) :
      Step header registers (.setFile index) { registers with file := index } [] []
  | setColumn (column : UInt64) :
      Step header registers (.setColumn column) { registers with column } [] []
  | negateStatement :
      Step header registers .negateStatement
        { registers with isStatement := !registers.isStatement } [] []
  | setBasicBlock :
      Step header registers .setBasicBlock { registers with basicBlock := true } [] []
  /-- The address advance of opcode 255, without its lines and without a row. -/
  | addConstant {operations lines : Nat} (below : lines < header.lineRange.toNat)
      (parts : 255 = header.opcodeBase.toNat + header.lineRange.toNat * operations + lines) :
      Step header registers .addConstant
        (registers.advanceAddress (header.operationBytes operations)) [] []
  | advanceFixed (delta : UInt16) :
      Step header registers (.advanceFixed delta)
        (registers.advanceAddress delta.toNat) [] []
  | unknownStandard (opcode : UInt8) (operands : List UInt64) :
      Step header registers (.unknownStandard opcode operands) registers [] []
  | emptyExtended : Step header registers .emptyExtended registers [] []
  | endSequence (operand : Bytes) :
      Step header registers (.endSequence operand) (.initial header) [registers.row true] []
  | setAddress (operand : Bytes) :
      Step header registers (.setAddress operand)
        { registers with address := Bytes.ofLittleEndian (operand.take 4) } [] []
  | defineFile (entry : FileEntry) (trailing : Bytes) :
      Step header registers (.defineFile entry trailing) registers [] [entry]
  | unknownExtended (opcode : UInt8) (operand : Bytes) :
      Step header registers (.unknownExtended opcode operand) registers [] []

/-- Instructions one after another: the last registers, all rows and all added files in order. -/
inductive Runs (header : Header) :
    Registers → List Instruction → Registers → List Row → List FileEntry → Prop where
  | nil (registers : Registers) : Runs header registers [] registers [] []
  | cons {registers middle last : Registers} {instruction : Instruction}
      {instructions : List Instruction} {rows others : List Row} {added further : List FileEntry}
      (first : Step header registers instruction middle rows added)
      (later : Runs header middle instructions last others further) :
      Runs header registers (instruction :: instructions) last (rows ++ others) (added ++ further)

theorem ofInt_natCast (value : Nat) : UInt32.ofInt value = UInt32.ofNat value := by
  apply UInt32.toNat_inj.mp
  rw [UInt32.ofInt, UInt32.toNat_ofNat', UInt32.toNat_ofNat']
  omega

theorem row_initial (header : Header) :
    (Registers.initial header).row false = .initial header.defaultIsStatement :=
  rfl

/-- Advancing the registers advances the row, wrapped to its width. -/
theorem row_advanceAddress (registers : Registers) (count : Nat) :
    (registers.advanceAddress count).row false = (registers.row false).advanceAddress count := by
  simp [Row.advanceAddress, Registers.advanceAddress, Registers.row, ofInt_natCast]

theorem row_advanceLine (registers : Registers) (delta : Int) :
    (registers.advanceLine delta).row false = (registers.row false).advanceLine delta := by
  simp [Row.advanceLine, Registers.advanceLine, Registers.row, ofInt_natCast]

theorem toNat_adjusted {header : Header} {opcode : UInt8} (special : header.opcodeBase ≤ opcode) :
    (header.adjusted opcode).toNat = opcode.toNat - header.opcodeBase.toNat :=
  UInt8.toNat_sub_of_le _ _ special

/-- The last opcode is special, whatever the first one is. -/
theorem opcodeBase_le_last (header : Header) : header.opcodeBase ≤ 255 :=
  UInt8.le_iff_toNat_le.mpr (Nat.le_of_lt_succ header.opcodeBase.toNat_lt)

theorem specialOperations_eq {header : Header} {opcode : UInt8} (special : header.opcodeBase ≤ opcode) :
    header.specialOperations opcode
      = (opcode.toNat - header.opcodeBase.toNat) / header.lineRange.toNat := by
  rw [Header.specialOperations, UInt8.toNat_div, toNat_adjusted special]

theorem specialLines_eq {header : Header} {opcode : UInt8} (special : header.opcodeBase ≤ opcode) :
    header.specialLines opcode = header.lineBase.toInt
      + ((opcode.toNat - header.opcodeBase.toNat) % header.lineRange.toNat : Nat) := by
  rw [Header.specialLines, UInt8.toNat_mod, toNat_adjusted special]

/-- The parts of a special opcode are what division finds. -/
theorem eq_of_parts {header : Header} {opcode : UInt8} {operations lines : Nat}
    (below : lines < header.lineRange.toNat)
    (parts : opcode.toNat
      = header.opcodeBase.toNat + header.lineRange.toNat * operations + lines) :
    header.specialOperations opcode = operations
      ∧ header.specialLines opcode = header.lineBase.toInt + lines := by
  have special : header.opcodeBase ≤ opcode := UInt8.le_iff_toNat_le.mpr (by omega)
  have split : opcode.toNat - header.opcodeBase.toNat
      = lines + header.lineRange.toNat * operations := by omega
  constructor
  · rw [specialOperations_eq special, split, Nat.add_mul_div_left _ _ (by omega),
      Nat.div_eq_of_lt below, Nat.zero_add]
  · rw [specialLines_eq special, split, Nat.add_mul_mod_self_left, Nat.mod_eq_of_lt below]

/-- With a line range, every opcode above the first special one has its parts. -/
theorem exists_parts {header : Header} {opcode : UInt8} (hRange : header.lineRange ≠ 0)
    (special : header.opcodeBase ≤ opcode) :
    ∃ operations lines, lines < header.lineRange.toNat ∧ opcode.toNat
      = header.opcodeBase.toNat + header.lineRange.toNat * operations + lines := by
  have above : header.opcodeBase.toNat ≤ opcode.toNat := special
  have positive : 0 < header.lineRange.toNat :=
    Nat.pos_of_ne_zero fun zero => hRange (UInt8.toNat_inj.mp zero)
  have whole := Nat.div_add_mod (opcode.toNat - header.opcodeBase.toNat) header.lineRange.toNat
  refine ⟨(opcode.toNat - header.opcodeBase.toNat) / header.lineRange.toNat, _,
    Nat.mod_lt (opcode.toNat - header.opcodeBase.toNat) positive, ?_⟩
  omega

/-- Executing an instruction is a step of the abstract machine. -/
theorem Step.execute {header : Header} {registers after : Registers} {instruction : Instruction}
    {rows : List Row} {added : List FileEntry}
    (step : Step header registers instruction after rows added)
    (past : Array Row) (files : Array FileEntry) :
    Machine.execute header ⟨registers.row false, past, files⟩ instruction
      = ⟨after.row false, past ++ rows.toArray, files ++ added.toArray⟩ := by
  cases step with
  | @special opcode operations lines below parts =>
      obtain ⟨hOperations, hLines⟩ := eq_of_parts below parts
      have moved : (registers.special header operations lines).row false
          = ((registers.row false).advanceAddress
              (header.operationBytes (header.specialOperations opcode))).advanceLine
              (header.specialLines opcode) := by
        rw [Registers.special, row_advanceLine, row_advanceAddress, hOperations, hLines]
      simp only [Machine.execute, Machine.update, Machine.emit, ← moved]
      simp [Registers.emitted, Registers.row]
  | copy => simp [Machine.execute, Machine.emit, Registers.emitted, Registers.row]
  | advanceAddress operations => simp [Machine.execute, Machine.update, row_advanceAddress]
  | advanceLine delta => simp [Machine.execute, Machine.update, row_advanceLine]
  | setFile index => simp [Machine.execute, Machine.update, Registers.row]
  | setColumn column => simp [Machine.execute, Machine.update, Registers.row]
  | negateStatement => simp [Machine.execute, Machine.update, Registers.row]
  | setBasicBlock => simp [Machine.execute, Machine.update, Registers.row]
  | @addConstant operations lines below parts =>
      obtain ⟨hOperations, _⟩ := eq_of_parts below (show (255 : UInt8).toNat = _ from parts)
      simp [Machine.execute, Machine.update, row_advanceAddress, hOperations]
  | advanceFixed delta => simp [Machine.execute, Machine.update, row_advanceAddress]
  | unknownStandard opcode operands => simp [Machine.execute]
  | emptyExtended => simp [Machine.execute]
  | endSequence operand =>
      rw [row_initial]
      simp [Machine.execute, Machine.close, Registers.row]
  | setAddress operand =>
      simp [Machine.execute, Machine.update, Machine.addressOf, Bytes.field, Registers.row,
        ofInt_natCast]
  | defineFile entry trailing => simp [Machine.execute]
  | unknownExtended opcode operand => simp [Machine.execute]

/-- Executing instructions is a run of the abstract machine. -/
theorem Runs.run {header : Header} {registers last : Registers} {instructions : List Instruction}
    {rows : List Row} {added : List FileEntry}
    (runs : Runs header registers instructions last rows added)
    (past : Array Row) (files : Array FileEntry) :
    Machine.run header ⟨registers.row false, past, files⟩ instructions
      = ⟨last.row false, past ++ rows.toArray, files ++ added.toArray⟩ := by
  induction runs generalizing past files with
  | nil registers => simp [Machine.run]
  | @cons registers middle last instruction instructions rows others added further first later ih =>
      have step := first.execute past files
      have rest := ih (past ++ rows.toArray) (files ++ added.toArray)
      rw [Machine.run] at rest ⊢
      rw [List.foldl_cons, step, rest]
      simp [Array.append_assoc]

/-- The abstract machine executes every instruction that the header describes. -/
theorem exists_step {header : Header} {instruction : Instruction} (hRange : header.lineRange ≠ 0)
    (described : instruction.Described header) (registers : Registers) :
    ∃ after rows added, Step header registers instruction after rows added := by
  cases instruction with
  | special opcode =>
      obtain ⟨operations, lines, below, parts⟩ := exists_parts hRange described
      exact ⟨_, _, _, .special below parts⟩
  | copy => exact ⟨_, _, _, .copy⟩
  | advanceAddress operations => exact ⟨_, _, _, .advanceAddress operations⟩
  | advanceLine delta => exact ⟨_, _, _, .advanceLine delta⟩
  | setFile index => exact ⟨_, _, _, .setFile index⟩
  | setColumn column => exact ⟨_, _, _, .setColumn column⟩
  | negateStatement => exact ⟨_, _, _, .negateStatement⟩
  | setBasicBlock => exact ⟨_, _, _, .setBasicBlock⟩
  | addConstant =>
      have special : header.opcodeBase ≤ 255 :=
        UInt8.le_iff_toNat_le.mpr (Nat.le_of_lt_succ header.opcodeBase.toNat_lt)
      obtain ⟨operations, lines, below, parts⟩ := exists_parts hRange special
      exact ⟨_, _, _, .addConstant below parts⟩
  | advanceFixed delta => exact ⟨_, _, _, .advanceFixed delta⟩
  | unknownStandard opcode operands => exact ⟨_, _, _, .unknownStandard opcode operands⟩
  | emptyExtended => exact ⟨_, _, _, .emptyExtended⟩
  | endSequence operand => exact ⟨_, _, _, .endSequence operand⟩
  | setAddress operand => exact ⟨_, _, _, .setAddress operand⟩
  | defineFile entry trailing => exact ⟨_, _, _, .defineFile entry trailing⟩
  | unknownExtended opcode operand => exact ⟨_, _, _, .unknownExtended opcode operand⟩

theorem exists_runs {header : Header} {instructions : List Instruction}
    (hRange : header.lineRange ≠ 0)
    (described : ∀ instruction ∈ instructions, instruction.Described header)
    (registers : Registers) :
    ∃ last rows added, Runs header registers instructions last rows added := by
  induction instructions generalizing registers with
  | nil => exact ⟨_, _, _, .nil registers⟩
  | cons instruction instructions ih =>
      obtain ⟨middle, rows, added, first⟩ :=
        exists_step hRange (described instruction (by simp)) registers
      obtain ⟨last, others, further, later⟩ :=
        ih (fun other member => described other (by simp [member])) middle
      exact ⟨_, _, _, .cons first later⟩

/-- Running a byte string in which instructions stand, numbers in any form, gives the rows and the
files of the abstract machine. What `encode` writes is such a byte string. The bound on the length
is that of the bytes in a machine's memory. -/
theorem run_forms {header : Header} {instructions : List Instruction} (files : List FileEntry)
    (hRange : header.lineRange ≠ 0)
    (described : ∀ instruction ∈ instructions, instruction.Described header)
    (fits : ∀ instruction ∈ instructions, ¬instruction.Overflows header) :
    Forms Instruction.Form instructions (instructions.flatMap Instruction.encode)
      ∧ ∀ code, Forms Instruction.Form instructions code → code.length < UInt64.size →
        ∃ machine, run header files code = .ok machine
          ∧ ∀ rows added,
            (∃ last, Runs header (.initial header) instructions last rows added)
              ↔ rows = machine.rows.toList ∧ files ++ added = machine.files.toList := by
  refine ⟨forms_flatMap fun instruction member =>
    Instruction.form_encode (described instruction member), ?_⟩
  intro code forms size
  have ran : run header files code
      = .ok ((Machine.start header files).run header instructions) := by
    rw [run, Reader.ofBytes_eq_between, listing_forms forms described size, execute]
    simpa using fits
  have meaning {last : Registers} {rows : List Row} {added : List FileEntry}
      (runs : Runs header (.initial header) instructions last rows added) :
      (Machine.start header files).run header instructions
        = ⟨last.row false, rows.toArray, files.toArray ++ added.toArray⟩ := by
    simpa [Machine.start, row_initial] using runs.run #[] files.toArray
  refine ⟨_, ran, fun rows added => ⟨?_, ?_⟩⟩
  · rintro ⟨last, runs⟩
    rw [meaning runs]
    simp
  · rintro ⟨hRows, hFiles⟩
    obtain ⟨last, others, further, runs⟩ := exists_runs hRange described (.initial header)
    rw [meaning runs] at hRows hFiles
    obtain rfl : rows = others := by simpa using hRows
    obtain rfl : added = further := by simpa using hFiles
    exact ⟨last, runs⟩

/-- A header with ten standard opcodes, the last of them with one operand. -/
def sampleHeader : Header where
  unitLength := 0
  version := 4
  prologueLength := 0
  minInstructionLength := 2
  maxOperations := 1
  defaultIsStatement := true
  lineBase := -3
  lineRange := 12
  opcodeBase := 11
  operandCounts := [0, 1, 1, 1, 1, 0, 0, 0, 1, 1]

/-- Four operations fill an instruction, and the last opcode has three operands. -/
def packedHeader : Header :=
  { sampleHeader with
    maxOperations := 4
    operandCounts := [0, 1, 1, 1, 1, 0, 0, 0, 1, 3] }

/-- Five and six operations, of which each advance drops what does not fill an instruction, and between
them an opcode that nobody knows, with all of its operands. Two numbers have more bytes than they need. -/
theorem run_forms_padded :
    run packedHeader [] [2, 0x85, 0x80, 0, 10, 7, 0xac, 2, 0x80, 0, 90, 0, 1, 1] = .ok {
        registers := .initial true
        rows := #[⟨4, 1, 5, 0, true, false, false⟩, ⟨4, 1, 5, 0, true, false, true⟩]
        files := #[] }
      ∧ ∃ last, Runs packedHeader (.initial packedHeader)
          [.advanceAddress 5, .unknownStandard 10 [7, 300, 0], .special 90, .endSequence []] last
          [⟨4, 1, 5, 0, true, false, false⟩, ⟨4, 1, 5, 0, true, false, true⟩] [] := by
  have five : Leb128.Unsigned (Leb128.group 0x85 + 128 * (Leb128.group 0x80 + 128 * Leb128.group 0))
      [0x85, 0x80, 0] := .more (by decide) (.more (by decide) (.last (by decide)))
  have seven : Leb128.Unsigned (Leb128.group 7) [7] := .last (by decide)
  have many : Leb128.Unsigned (Leb128.group 0xac + 128 * Leb128.group 2) [0xac, 2] :=
    .more (by decide) (.last (by decide))
  have zero : Leb128.Unsigned (Leb128.group 0x80 + 128 * Leb128.group 0) [0x80, 0] :=
    .more (by decide) (.last (by decide))
  have one : Leb128.Unsigned (Leb128.group 1) [1] := .last (by decide)
  have operands : Forms (fun operand : UInt64 => Leb128.Unsigned operand.toNat) [7, 300, 0]
      ([7] ++ ([0xac, 2] ++ ([0x80, 0] ++ []))) :=
    .cons (show Leb128.Unsigned (7 : UInt64).toNat [7] from seven)
      (.cons (show Leb128.Unsigned (300 : UInt64).toNat [0xac, 2] from many)
        (.cons (show Leb128.Unsigned (0 : UInt64).toNat [0x80, 0] from zero) .nil))
  have last : Instruction.Form (.endSequence []) [0, 1, 1] :=
    .endSequence (show Leb128.Unsigned (([] : Bytes).length + 1) [1] from one)
  have forms : Forms Instruction.Form
      [.advanceAddress 5, .unknownStandard 10 [7, 300, 0], .special 90, .endSequence []]
      ([2, 0x85, 0x80, 0] ++ ([10, 7, 0xac, 2, 0x80, 0] ++ ([90] ++ ([0, 1, 1] ++ [])))) :=
    .cons (.advanceAddress five) (.cons (.unknownStandard 10 operands)
      (.cons (.special 90) (.cons last .nil)))
  have evaluated : run packedHeader [] [2, 0x85, 0x80, 0, 10, 7, 0xac, 2, 0x80, 0, 90, 0, 1, 1] = .ok {
      registers := .initial true
      rows := #[⟨4, 1, 5, 0, true, false, false⟩, ⟨4, 1, 5, 0, true, false, true⟩]
      files := #[] } := by decide +kernel
  obtain ⟨machine, ran, meaning⟩ :=
    (run_forms [] (show packedHeader.lineRange ≠ 0 by decide) (by decide) (by decide)).2 _ forms
      (by decide)
  cases ran.symm.trans evaluated
  exact ⟨evaluated, (meaning _ _).mpr ⟨rfl, rfl⟩⟩

end DspFirmware.LineTable

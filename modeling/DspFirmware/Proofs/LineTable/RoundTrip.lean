import DspFirmware.Proofs.LineTable.Coding
import DspFirmware.Proofs.LineTable.Listing
import DspFirmware.Proofs.Outcome

/-!
Programs that were written are read back: fields, tables and what the code does. What the prologue
has behind its tables and what follows the program are not looked at.
-/

namespace DspFirmware.LineTable

open Read Reader

theorem encodeName_eq_cons {name : String} (h : Text.Nameable name) (filled : name ≠ "") :
    ∃ byte rest, encodeName name = byte :: rest ∧ byte ≠ 0 := by
  cases bytes : Text.latin1Bytes name with
  | nil =>
      have empty : name = "" := by
        rw [← Text.latin1_latin1Bytes h, bytes]
        rfl
      exact absurd empty filled
  | cons byte rest =>
      refine ⟨byte, rest ++ [0], by simp [encodeName, bytes], ?_⟩
      rintro rfl
      exact Text.zero_notMem_latin1Bytes h (by simp [bytes])

theorem yields_nextDirectory {directory : String} (h : Text.Nameable directory)
    (filled : directory ≠ "") : Yields nextDirectory (encodeName directory) (some directory) := by
  have found : directory.isEmpty = false := by simpa using filled
  apply (yields_encodeName h).bind_nil
  rw [found]
  exact yields_pure _

theorem yields_nextDirectory_last : Yields nextDirectory [0] none := by
  have read : Yields text ([] ++ [0]) "" := yields_text (by simp)
  exact read.bind_nil (yields_pure none)

/-- A file entry does not begin with the byte that ends its table. -/
theorem yields_nextFile_of_cons {entry : FileEntry} {byte : UInt8} {run : Bytes}
    (read : Yields FileEntry.read (byte :: run) entry) (filled : byte ≠ 0) :
    Yields nextFile (byte :: run) (some entry) := by
  intro passed ahead
  refine bind_eq_ok.mpr ⟨byte, _, peek_between passed (run ++ ahead) byte, ?_⟩
  rw [if_neg filled]
  exact map_eq_ok.mpr ⟨entry, read passed ahead, rfl⟩

theorem yields_nextFile {entry : FileEntry} (h : Text.Nameable entry.name)
    (filled : entry.name ≠ "") : Yields nextFile entry.encode (some entry) := by
  obtain ⟨byte, rest, first, positive⟩ := encodeName_eq_cons h filled
  have read := (FileEntry.form_encode h).yields_read
  rw [FileEntry.encode, first] at read ⊢
  exact yields_nextFile_of_cons read positive

theorem yields_nextFile_last : Yields nextFile [0] none := by
  intro passed ahead
  refine bind_eq_ok.mpr ⟨0, _, peek_between passed ahead 0, ?_⟩
  rw [if_pos rfl]
  exact (yields_skip (show ([0] : Bytes).length = 1 from rfl)).bind_pure passed ahead

namespace Draft

/-- The header that reading a written draft gives. -/
def header (draft : Draft) : Header where
  unitLength := UInt32.ofNat draft.unit.length
  version := draft.version
  prologueLength := UInt32.ofNat draft.prologue.length
  minInstructionLength := draft.minInstructionLength
  maxOperations := if 4 ≤ draft.version then draft.maxOperations else 1
  defaultIsStatement := draft.defaultIsStatement != 0
  lineBase := draft.lineBase
  lineRange := draft.lineRange
  opcodeBase := draft.opcodeBase
  operandCounts := draft.operandCounts

/-- What makes a draft a program: fields within their limits, and names that end no table. -/
structure Writable (draft : Draft) : Prop where
  version : 2 ≤ draft.version ∧ draft.version ≤ 4
  lineRange : draft.lineRange ≠ 0
  operandCounts : draft.operandCounts.length = draft.opcodeBase.toNat - 1
  directories : ∀ directory ∈ draft.directories, directory ≠ "" ∧ Text.Nameable directory
  files : ∀ entry ∈ draft.files, entry.name ≠ "" ∧ Text.Nameable entry.name
  size : draft.unit.length < UInt32.size

/-- The bytes in front of the tables. -/
def fixed (draft : Draft) : Bytes :=
  Bytes.littleEndian 4 draft.unit.length ++ Bytes.ofUInt16 draft.version
    ++ Bytes.littleEndian 4 draft.prologue.length ++ draft.fields

variable {draft : Draft}

theorem yields_maxOperations (draft : Draft) :
    Yields (if 4 ≤ draft.version then uint8 else pure 1)
      (if 4 ≤ draft.version then [draft.maxOperations] else [])
      (if 4 ≤ draft.version then draft.maxOperations else 1) := by
  split
  · exact yields_uint8 _
  · exact yields_pure _

theorem length_unit (draft : Draft) :
    draft.unit.length = 6 + draft.prologue.length + draft.code.length := by
  simp [unit, Bytes.ofUInt16]
  omega

theorem yields_header (h : draft.Writable) : Yields Header.read draft.fixed draft.header := by
  have unit := h.size
  have prologue : draft.prologue.length < UInt32.size := by
    rw [length_unit] at unit
    omega
  have known : ¬(draft.version < 2 ∨ 4 < draft.version) := by
    have bounds := h.version
    grind
  have pair : [draft.lineRange, draft.opcodeBase] = [draft.lineRange] ++ [draft.opcodeBase] := rfl
  simp only [fixed, fields, pair, List.append_assoc]
  refine (yields_uint32_ofNat unit).bind ?_
  refine (yields_uint16 _).bind ?_
  rw [if_neg known]
  refine (yields_uint32_ofNat prologue).bind ?_
  refine (yields_uint8 _).bind ?_
  refine Yields.ite_bind ((yields_maxOperations draft).bind ?_)
  refine (yields_uint8 _).bind ?_
  refine (yields_int8 _).bind ?_
  refine (yields_uint8 _).bind ?_
  rw [if_neg h.lineRange]
  refine (yields_uint8 _).bind ?_
  exact (yields_bytes h.operandCounts).bind_pure

theorem yields_directories (h : draft.Writable) :
    Yields readDirectories (draft.directories.flatMap encodeName ++ [0]) draft.directories := by
  refine yields_list (forms_flatMap fun directory member => ?_) yields_nextDirectory_last
  obtain ⟨filled, nameable⟩ := h.directories directory member
  exact yields_nextDirectory nameable filled

theorem yields_files (h : draft.Writable) :
    Yields readFiles (draft.files.flatMap FileEntry.encode ++ [0]) draft.files := by
  refine yields_list (forms_flatMap fun entry member => ?_) yields_nextFile_last
  obtain ⟨filled, nameable⟩ := h.files entry member
  exact yields_nextFile nameable filled

/-- What lies in front of the code. -/
def front (draft : Draft) : Bytes := draft.fixed ++ draft.tables ++ draft.padding

theorem encode_eq_front (draft : Draft) : draft.encode = draft.front ++ draft.code := by
  simp [encode, unit, prologue, front, fixed]

theorem programOffset_header (h : draft.Writable) :
    draft.header.programOffset = draft.front.length := by
  have fits := h.size
  have length := length_unit draft
  have declared : draft.header.prologueLength.toNat = draft.prologue.length :=
    UInt32.toNat_ofNat_of_lt' (by omega)
  rw [Header.programOffset, declared]
  simp [prologue, front, fixed, Bytes.ofUInt16]
  omega

theorem read_encode (h : draft.Writable) :
    Prologue.read (ofBytes draft.encode)
      = .ok ⟨draft.header, draft.directories, draft.files⟩ (between draft.front draft.code) := by
  have parts : draft.encode = draft.fixed ++ ((draft.directories.flatMap encodeName ++ [0])
      ++ ((draft.files.flatMap FileEntry.encode ++ [0]) ++ (draft.padding ++ draft.code))) := by
    simp [encode_eq_front, front, tables]
  rw [parts, ofBytes_eq_between, Prologue.read, (yields_header h).bind_between,
    (yields_directories h).bind_between, (yields_files h).bind_between]
  have passed : [] ++ draft.fixed ++ (draft.directories.flatMap encodeName ++ [0])
      ++ (draft.files.flatMap FileEntry.encode ++ [0]) = draft.fixed ++ draft.tables := by
    simp [tables]
  have offset := programOffset_header h
  have inside : ¬draft.header.programOffset < (draft.fixed ++ draft.tables).length := by
    rw [offset]
    simp [front]
  rw [passed]
  refine bind_eq_ok.mpr ⟨_, _, rfl, ?_⟩
  rw [pos_between, if_neg inside, offset]
  refine bind_eq_ok.mpr ⟨(), between draft.front draft.code, ?_, rfl⟩
  apply seek_between
  simp [front]

/-- What follows the program is cut off. -/
theorem cut_encode (h : draft.Writable) (trailing : Bytes) :
    Program.cut (draft.encode ++ trailing) = .ok draft.encode := by
  have read : runOn uint32 (draft.encode ++ trailing) = .ok (UInt32.ofNat draft.unit.length) := by
    rw [encode, List.append_assoc]
    exact (yields_uint32_ofNat h.size).runOn (draft.unit ++ trailing)
  have declared : (UInt32.ofNat draft.unit.length).toNat = draft.unit.length :=
    UInt32.toNat_ofNat_of_lt' h.size
  have total : draft.encode.length = 4 + draft.unit.length := by simp [encode]
  have enough : Bytes.holds (4 + draft.unit.length) (draft.encode ++ trailing) := by
    rw [Bytes.holds_iff, ← total, List.length_append]
    omega
  refine Outcome.bind_eq_ok.mpr ⟨UInt32.ofNat draft.unit.length, read, ?_⟩
  rw [declared, if_pos enough, ← total, List.take_left]
  rfl

theorem opened_encode (h : draft.Writable) (trailing : Bytes) :
    Program.opened (draft.encode ++ trailing)
      = .ok (⟨draft.header, draft.directories, draft.files⟩, between draft.front draft.code) := by
  refine Outcome.bind_eq_ok.mpr ⟨draft.encode, cut_encode h trailing, ?_⟩
  rw [read_encode h]
  rfl

/-- Reading a written program, with anything behind it, succeeds where its code runs from its own
files. The code adds its files to those, and the rows are what it emits. -/
theorem parse_encode (h : draft.Writable) (trailing : Bytes) (program : Program) :
    Program.parse (draft.encode ++ trailing) = .ok program ↔
      ∃ machine, run draft.header draft.files draft.code = .ok machine
        ∧ machine.files.toList = draft.files
          ++ (listing draft.header (ofBytes draft.code)).items.filterMap Instruction.definedFile?
        ∧ program
          = ⟨draft.header, draft.directories, machine.files.toList, machine.rows.toList⟩ := by
  have same : (between draft.front draft.code).rest = (ofBytes draft.code).rest := rfl
  rw [Program.parse, opened_encode h]
  constructor
  · intro success
    obtain ⟨machine, ran, made⟩ := Outcome.bind_eq_ok.mp success
    have alone := (execute_listing_eq_ok_iff same).mp ran
    obtain ⟨_, _, finished⟩ := execute_eq_ok_iff.mp alone
    refine ⟨machine, alone, ?_, (Except.ok.inj made).symm⟩
    rw [finished, files_run, Machine.start]
  · rintro ⟨machine, alone, _, rfl⟩
    have ran := (execute_listing_eq_ok_iff same).mpr alone
    exact Outcome.bind_eq_ok.mpr ⟨machine, ran, rfl⟩

/-- A program with a padded prologue, whose code adds a file. -/
def sample : Draft where
  version := 3
  minInstructionLength := 2
  maxOperations := 9
  defaultIsStatement := 5
  lineBase := -3
  lineRange := 12
  opcodeBase := 10
  operandCounts := [0, 1, 1, 1, 1, 0, 0, 0, 1]
  directories := ["src"]
  files := [⟨"a.c", 1, 0, 300⟩]
  padding := [0xee]
  code := [.defineFile ⟨"b.c", 1, 0, 0⟩ [9], .special 90, .endSequence []].flatMap Instruction.encode

theorem parse_encode_sample :
    sample.Writable
      ∧ Program.parse (sample.encode ++ [7]) = .ok {
          header := sample.header
          directories := ["src"]
          files := [⟨"a.c", 1, 0, 300⟩, ⟨"b.c", 1, 0, 0⟩]
          rows := [⟨12, 1, 6, 0, true, false, false⟩, ⟨12, 1, 6, 0, true, false, true⟩] } := by
  have writable : sample.Writable :=
    ⟨by decide, by decide, by decide, by decide, by decide, by decide +kernel⟩
  have ran : run sample.header sample.files sample.code = .ok {
      registers := .initial true
      rows := #[⟨12, 1, 6, 0, true, false, false⟩, ⟨12, 1, 6, 0, true, false, true⟩]
      files := #[⟨"a.c", 1, 0, 300⟩, ⟨"b.c", 1, 0, 0⟩] } := by decide +kernel
  exact ⟨writable, (parse_encode writable [7] _).mpr ⟨_, ran, by decide +kernel, rfl⟩⟩

end Draft

end DspFirmware.LineTable

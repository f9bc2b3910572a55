import DspFirmware.Proofs.Leb128
import DspFirmware.Proofs.Text.Names
import DspFirmware.LineTable.Draft
import DspFirmware.LineTable.Program

/-!
The byte strings that stand for instructions, and that reading finds the instructions.

Numbers may stand in any LEB128 form. What `encode` writes is one of the byte strings of an
instruction, the one with the shortest numbers.
-/

namespace DspFirmware.LineTable

open Leb128

theorem yields_encodeName {name : String} (h : Text.Nameable name) :
    Read.Yields Read.text (encodeName name) name := by
  have read := Read.yields_text (Text.zero_notMem_latin1Bytes h)
  rwa [Text.latin1_latin1Bytes h] at read

/-- The byte strings that stand for a file entry. -/
inductive FileEntry.Form : FileEntry → Bytes → Prop where
  | mk {name : String} {directoryIndex modified size : UInt64} {first second third : Bytes}
      (hName : Text.Nameable name) (hFirst : Unsigned directoryIndex.toNat first)
      (hSecond : Unsigned modified.toNat second) (hThird : Unsigned size.toNat third) :
      Form ⟨name, directoryIndex, modified, size⟩
        (encodeName name ++ first ++ second ++ third)

theorem FileEntry.form_encode {entry : FileEntry} (h : Text.Nameable entry.name) :
    entry.Form entry.encode :=
  .mk h (unsigned_encodeUnsigned _) (unsigned_encodeUnsigned _) (unsigned_encodeUnsigned _)

theorem FileEntry.Form.yields_read {entry : FileEntry} {bytes : Bytes} (form : entry.Form bytes) :
    Read.Yields FileEntry.read bytes entry := by
  obtain ⟨hName, hFirst, hSecond, hThird⟩ := form
  rw [List.append_assoc, List.append_assoc]
  exact (yields_encodeName hName).bind ((Read.yields_uleb128 hFirst).bind
    ((Read.yields_uleb128 hSecond).bind (Read.yields_uleb128 hThird).bind_pure))

namespace Instruction

/-- The byte strings that stand for an instruction, whichever header they are read with. -/
inductive Form : Instruction → Bytes → Prop where
  | special (opcode : UInt8) : Form (.special opcode) [opcode]
  | copy : Form .copy [1]
  | advanceAddress {operations : UInt64} {operand : Bytes}
      (h : Unsigned operations.toNat operand) : Form (.advanceAddress operations) (2 :: operand)
  | advanceLine {delta : Int64} {operand : Bytes} (h : Signed delta.toInt operand) :
      Form (.advanceLine delta) (3 :: operand)
  | setFile {index : UInt64} {operand : Bytes} (h : Unsigned index.toNat operand) :
      Form (.setFile index) (4 :: operand)
  | setColumn {column : UInt64} {operand : Bytes} (h : Unsigned column.toNat operand) :
      Form (.setColumn column) (5 :: operand)
  | negateStatement : Form .negateStatement [6]
  | setBasicBlock : Form .setBasicBlock [7]
  | addConstant : Form .addConstant [8]
  | advanceFixed (delta : UInt16) : Form (.advanceFixed delta) (9 :: Bytes.ofUInt16 delta)
  | unknownStandard (opcode : UInt8) {operands : List UInt64} {bytes : Bytes}
      (h : Forms (fun operand => Unsigned operand.toNat) operands bytes) :
      Form (.unknownStandard opcode operands) (opcode :: bytes)
  | emptyExtended {length : Bytes} (h : Unsigned 0 length) : Form .emptyExtended (0 :: length)
  | endSequence {operand length : Bytes} (h : Unsigned (operand.length + 1) length) :
      Form (.endSequence operand) (0 :: length ++ 1 :: operand)
  | setAddress {operand length : Bytes} (h : Unsigned (operand.length + 1) length) :
      Form (.setAddress operand) (0 :: length ++ 2 :: operand)
  | defineFile {entry : FileEntry} {bytes trailing length : Bytes} (hEntry : entry.Form bytes)
      (h : Unsigned ((bytes ++ trailing).length + 1) length) :
      Form (.defineFile entry trailing) (0 :: length ++ 3 :: (bytes ++ trailing))
  | unknownExtended (opcode : UInt8) {operand length : Bytes}
      (h : Unsigned (operand.length + 1) length) :
      Form (.unknownExtended opcode operand) (0 :: length ++ opcode :: operand)

/-- Whether a header leaves an instruction its opcode, and its operands their number. -/
def Described (header : Header) : Instruction → Prop
  | .special opcode => header.opcodeBase ≤ opcode
  | .copy => 1 < header.opcodeBase
  | .advanceAddress _ => 2 < header.opcodeBase
  | .advanceLine _ => 3 < header.opcodeBase
  | .setFile _ => 4 < header.opcodeBase
  | .setColumn _ => 5 < header.opcodeBase
  | .negateStatement => 6 < header.opcodeBase
  | .setBasicBlock => 7 < header.opcodeBase
  | .addConstant => 8 < header.opcodeBase
  | .advanceFixed _ => 9 < header.opcodeBase
  | .unknownStandard opcode operands =>
      10 ≤ opcode ∧ opcode < header.opcodeBase
        ∧ operands.length = (header.operandCount opcode).toNat
  | .emptyExtended => 0 < header.opcodeBase
  | .endSequence _ => 0 < header.opcodeBase
  | .setAddress _ => 0 < header.opcodeBase
  | .defineFile entry _ => 0 < header.opcodeBase ∧ Text.Nameable entry.name
  | .unknownExtended opcode _ =>
      0 < header.opcodeBase ∧ opcode ≠ 1 ∧ opcode ≠ 2 ∧ opcode ≠ 3

instance (header : Header) : (instruction : Instruction) → Decidable (instruction.Described header)
  | .special opcode => inferInstanceAs (Decidable (header.opcodeBase ≤ opcode))
  | .copy | .advanceAddress _ | .advanceLine _ | .setFile _ | .setColumn _ | .negateStatement
  | .setBasicBlock | .addConstant | .advanceFixed _ | .emptyExtended | .endSequence _
  | .setAddress _ => inferInstanceAs (Decidable (_ < header.opcodeBase))
  | .unknownStandard _ _ | .defineFile _ _ | .unknownExtended _ _ => instDecidableAnd

theorem form_encode {header : Header} {instruction : Instruction}
    (h : instruction.Described header) : instruction.Form instruction.encode := by
  cases instruction with
  | special opcode => exact .special opcode
  | copy => exact .copy
  | advanceAddress operations => exact .advanceAddress (unsigned_encodeUnsigned _)
  | advanceLine delta => exact .advanceLine (signed_encodeSigned _)
  | setFile index => exact .setFile (unsigned_encodeUnsigned _)
  | setColumn column => exact .setColumn (unsigned_encodeUnsigned _)
  | negateStatement => exact .negateStatement
  | setBasicBlock => exact .setBasicBlock
  | addConstant => exact .addConstant
  | advanceFixed delta => exact .advanceFixed delta
  | unknownStandard opcode operands =>
      exact .unknownStandard opcode (forms_flatMap fun _ _ => unsigned_encodeUnsigned _)
  | emptyExtended => exact .emptyExtended (show Unsigned (group 0) [0] from .last (by decide))
  | endSequence operand => exact .endSequence (unsigned_encodeUnsigned _)
  | setAddress operand => exact .setAddress (unsigned_encodeUnsigned _)
  | defineFile entry trailing =>
      exact .defineFile (FileEntry.form_encode h.2) (unsigned_encodeUnsigned _)
  | unknownExtended opcode operand => exact .unknownExtended opcode (unsigned_encodeUnsigned _)

theorem yields_readHead_special {header : Header} {opcode : UInt8}
    (h : header.opcodeBase ≤ opcode) :
    Read.Yields (readHead header) [opcode] (.special opcode) := by
  apply (Read.yields_uint8 opcode).bind_nil
  rw [if_pos h]
  exact Read.yields_pure _

theorem yields_readHead_standard {header : Header} {opcode : UInt8}
    (h : opcode < header.opcodeBase) (hZero : opcode ≠ 0) :
    Read.Yields (readHead header) [opcode] (.standard opcode) := by
  apply (Read.yields_uint8 opcode).bind_nil
  rw [if_neg (UInt8.not_le.mpr h), if_neg hZero]
  exact Read.yields_pure _

theorem yields_readHead_empty {header : Header} {length : Bytes} (h : 0 < header.opcodeBase)
    (hLength : Unsigned 0 length) :
    Read.Yields (readHead header) ([0] ++ length) .emptyExtended := by
  apply (Read.yields_uint8 0).bind
  rw [if_neg (UInt8.not_le.mpr h), if_pos rfl]
  have read : Read.Yields Read.uleb128 length 0 := Read.yields_uleb128 hLength
  apply read.bind_nil
  rw [if_pos rfl]
  exact Read.yields_pure _

theorem yields_readHead_extended {header : Header} {opcode : UInt8} {count : Nat} {length : Bytes}
    (h : 0 < header.opcodeBase) (hLength : Unsigned (count + 1) length)
    (fits : count + 1 < UInt64.size) :
    Read.Yields (readHead header) ([0] ++ (length ++ [opcode])) (.extended opcode count) := by
  apply (Read.yields_uint8 0).bind
  rw [if_neg (UInt8.not_le.mpr h), if_pos rfl]
  have value : (UInt64.ofNat (count + 1)).toNat = count + 1 := UInt64.toNat_ofNat_of_lt' fits
  have read : Read.Yields Read.uleb128 length (UInt64.ofNat (count + 1)) :=
    Read.yields_uleb128 (value.symm ▸ hLength)
  have positive : UInt64.ofNat (count + 1) ≠ 0 := by
    intro zero
    rw [zero] at value
    exact absurd value (by simp)
  apply read.bind
  rw [if_neg positive, value]
  exact (Read.yields_uint8 opcode).bind_pure

theorem yields_readOperands {operands : List UInt64} {bytes : Bytes}
    (forms : Forms (fun operand => Unsigned operand.toNat) operands bytes) :
    Read.Yields (readOperands operands.length) bytes operands := by
  induction forms with
  | nil => exact Read.yields_pure []
  | cons first others ih => exact (Read.yields_uleb128 first).bind ih.bind_pure

/-- A standard instruction is its opcode and what the operands of the opcode are read from. -/
theorem yields_read_standard {header : Header} {opcode : UInt8} {operands : Bytes}
    {instruction : Instruction} (h : opcode < header.opcodeBase) (hZero : opcode ≠ 0)
    (read : Read.Yields (readStandard header opcode) operands instruction) :
    Read.Yields (Instruction.read header) (opcode :: operands) instruction :=
  (yields_readHead_standard h hZero).bind read

/-- An extended instruction is its frame and an operand that it can be made of. -/
theorem yields_read_extended {header : Header} {opcode : UInt8} {operand length : Bytes}
    {instruction : Instruction} (h : 0 < header.opcodeBase)
    (hLength : Unsigned (operand.length + 1) length) (fits : operand.length + 1 < UInt64.size)
    (made : ofExtended opcode operand = .ok instruction) :
    Read.Yields (Instruction.read header) (0 :: length ++ opcode :: operand) instruction := by
  have body : Read.Yields (readBody header (.extended opcode operand.length)) operand
      instruction := by
    apply (Read.yields_bytes rfl).bind_nil
    rw [made]
    exact Read.yields_pure _
  have head : Read.Yields (readHead header) ([0] ++ (length ++ [opcode]))
      (.extended opcode operand.length) := yields_readHead_extended h hLength fits
  have whole : Read.Yields (Instruction.read header) _ instruction := head.bind body
  simpa using whole

theorem readStandard_of_le {header : Header} {opcode : UInt8} (h : 10 ≤ opcode) :
    readStandard header opcode
      = .unknownStandard opcode <$> readOperands (header.operandCount opcode).toNat := by
  have high : 10 ≤ opcode.toNat := h
  unfold readStandard
  split <;> first | omega | rfl

theorem ofExtended_unknown {opcode : UInt8} (hEnd : opcode ≠ 1) (hAddress : opcode ≠ 2)
    (hFile : opcode ≠ 3) (operand : Bytes) :
    ofExtended opcode operand = .ok (.unknownExtended opcode operand) := by
  unfold ofExtended
  split
  · exact absurd (UInt8.toNat_inj.mp ‹_›) hEnd
  · exact absurd (UInt8.toNat_inj.mp ‹_›) hAddress
  · exact absurd (UInt8.toNat_inj.mp ‹_›) hFile
  · rfl

theorem ofExtended_defineFile {entry : FileEntry} {bytes : Bytes} (form : entry.Form bytes)
    (trailing : Bytes) : ofExtended 3 (bytes ++ trailing) = .ok (.defineFile entry trailing) := by
  have read : FileEntry.read (.ofBytes (bytes ++ trailing)) = .ok entry (.between bytes trailing) :=
    form.yields_read [] trailing
  simp [ofExtended, read]

/-- Reading finds the instruction of a form. The bound on the length is that of the bytes in a
machine's memory; an extended instruction could not announce a longer operand. -/
theorem Form.yields_read {header : Header} {instruction : Instruction} {bytes : Bytes}
    (form : instruction.Form bytes) (described : instruction.Described header)
    (fits : bytes.length < UInt64.size) :
    Read.Yields (Instruction.read header) bytes instruction := by
  cases form with
  | special opcode =>
      exact (yields_readHead_special described).bind_nil (Read.yields_pure _)
  | copy => exact yields_read_standard described (by decide) (Read.yields_pure _)
  | advanceAddress h =>
      exact yields_read_standard described (by decide) (Read.yields_uleb128 h).map
  | advanceLine h => exact yields_read_standard described (by decide) (Read.yields_sleb128 h).map
  | setFile h => exact yields_read_standard described (by decide) (Read.yields_uleb128 h).map
  | setColumn h => exact yields_read_standard described (by decide) (Read.yields_uleb128 h).map
  | negateStatement => exact yields_read_standard described (by decide) (Read.yields_pure _)
  | setBasicBlock => exact yields_read_standard described (by decide) (Read.yields_pure _)
  | addConstant => exact yields_read_standard described (by decide) (Read.yields_pure _)
  | advanceFixed delta =>
      exact yields_read_standard described (by decide) (Read.yields_uint16 delta).map
  | unknownStandard opcode h =>
      obtain ⟨high, below, count⟩ := described
      have operands := (yields_readOperands h).map (f := Instruction.unknownStandard opcode)
      rw [count, ← readStandard_of_le high] at operands
      refine yields_read_standard below ?_ operands
      rintro rfl
      exact absurd high (by decide)
  | emptyExtended h => exact (yields_readHead_empty described h).bind_nil (Read.yields_pure _)
  | @endSequence operand length h =>
      exact yields_read_extended described h (by simp at fits; omega) rfl
  | @setAddress operand length h =>
      exact yields_read_extended described h (by simp at fits; omega) rfl
  | defineFile hEntry h =>
      exact yields_read_extended described.1 h (by simp at fits ⊢; omega)
        (ofExtended_defineFile hEntry _)
  | unknownExtended opcode h =>
      obtain ⟨zero, hEnd, hAddress, hFile⟩ := described
      exact yields_read_extended zero h (by simp at fits; omega)
        (ofExtended_unknown hEnd hAddress hFile _)

/-- What an instruction is read from is not empty, so that the end is not met in front of it. -/
theorem yields_next {header : Header} {instruction : Instruction} {bytes : Bytes}
    (read : Read.Yields (Instruction.read header) bytes instruction) :
    Read.Yields (next header) bytes (some instruction) := by
  intro passed ahead
  have success := read passed ahead
  have further := (consumes_read header success).2
  have filled : (Reader.between passed (bytes ++ ahead)).atEnd = false := by
    rw [Reader.atEnd, Reader.rest_between, List.isEmpty_eq_false_iff]
    intro empty
    obtain ⟨rfl, _⟩ := List.append_eq_nil_iff.mp empty
    simp at further
  refine Read.bind_eq_ok.mpr ⟨_, _, rfl, ?_⟩
  rw [filled]
  exact Read.map_eq_ok.mpr ⟨instruction, success, rfl⟩

theorem next_between_nil (header : Header) (passed : Bytes) :
    next header (.between passed []) = .ok none (.between passed []) :=
  rfl

end Instruction

/-- The listing of code that is a run for each of its instructions, whatever lies in front of it. -/
theorem listing_of_reads {header : Header} {instructions : List Instruction} {code : Bytes}
    (reads : Forms (fun instruction run => Read.Yields (Instruction.read header) run instruction)
      instructions code) (passed : Bytes) :
    listing header (.between passed code) = ⟨instructions, .between (passed ++ code) [], none⟩ := by
  have steps : Forms (fun instruction run =>
      Read.Yields (Instruction.next header) run (some instruction)) instructions code :=
    reads.imp fun _ _ _ => Instruction.yields_next
  have walked : (Reader.between passed (code ++ [])).gather _ (Instruction.progress_next header)
      = _ := Read.gather_forms steps passed []
  rw [List.append_nil] at walked
  rw [listing, walked, Reader.gather_of_none (Instruction.next_between_nil header _)]
  simp [Gathered.prepend]

/-- The listing of a sequence of forms, whatever lies in front of it. -/
theorem listing_forms {header : Header} {instructions : List Instruction} {code : Bytes}
    (forms : Forms Instruction.Form instructions code)
    (described : ∀ instruction ∈ instructions, instruction.Described header)
    (fits : code.length < UInt64.size) (passed : Bytes) :
    listing header (.between passed code) = ⟨instructions, .between (passed ++ code) [], none⟩ := by
  apply listing_of_reads
  induction forms with
  | nil => exact .nil
  | @cons instruction instructions run code first others ih =>
      rw [List.length_append] at fits
      have here := first.yields_read (described instruction (by simp)) (by omega)
      have later := ih (fun other member => described other (by simp [member])) (by omega)
      exact .cons here later

end DspFirmware.LineTable

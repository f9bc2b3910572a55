import DspFirmware.Proofs.Exactness
import DspFirmware.Proofs.LineTable.Advances
import DspFirmware.Proofs.LineTable.Arithmetic

/-!
Opcodes that combine advances. A special opcode stands for an advance of the address, an advance of the
line and the emission of a row, and the opcode that adds a constant stands for an advance of the address.
Code in which any of them are written out runs as the code did.
-/

namespace DspFirmware.LineTable

open Read

namespace Instruction

/-- What may stand in code for an instruction and the bytes that it is read from: these bytes, or the
advances that the instruction combines, in any form of their operands. -/
inductive Expands (header : Header) : Instruction × Bytes → Bytes → Prop where
  | kept (piece : Instruction × Bytes) : Expands header piece piece.2
  | special {opcode : UInt8} {run bytes : Bytes} {operations : UInt64} {delta : Int64}
      (hOperations : operations.toNat
        = (opcode.toNat - header.opcodeBase.toNat) / header.lineRange.toNat)
      (hDelta : delta.toInt = header.lineBase.toInt
        + ((opcode.toNat - header.opcodeBase.toNat) % header.lineRange.toNat : Nat))
      (forms : Forms Form [.advanceAddress operations, .advanceLine delta, .copy] bytes) :
      Expands header (.special opcode, run) bytes
  | addConstant {run bytes : Bytes} {operations : UInt64}
      (hOperations : operations.toNat
        = (255 - header.opcodeBase.toNat) / header.lineRange.toNat)
      (form : (advanceAddress operations).Form bytes) : Expands header (.addConstant, run) bytes

/-- Code in pieces, each with the instruction that is read from it. -/
structure Pieces (header : Header) (pieces : List (Instruction × Bytes)) (code : Bytes) : Prop where
  whole : code = pieces.flatMap (·.2)
  reads : ∀ piece ∈ pieces, Yields (Instruction.read header) piece.2 piece.1

/-- Bytes that the instructions are read from, one behind the other. -/
def ReadFrom (header : Header) : List Instruction → Bytes → Prop :=
  Forms fun instruction run => Yields (Instruction.read header) run instruction

variable {header : Header}

theorem readFrom_iff_exists_pieces {instructions : List Instruction} {code : Bytes} :
    ReadFrom header instructions code ↔
      ∃ pieces, Pieces header pieces code ∧ pieces.map (·.1) = instructions := by
  constructor
  · intro reads
    induction reads with
    | nil => exact ⟨[], ⟨rfl, by simp⟩, rfl⟩
    | @cons instruction instructions run code first others ih =>
        obtain ⟨pieces, ⟨rfl, reads⟩, rfl⟩ := ih
        exact ⟨(instruction, run) :: pieces, ⟨rfl, List.forall_mem_cons.mpr ⟨first, reads⟩⟩, rfl⟩
  · rintro ⟨pieces, ⟨rfl, reads⟩, rfl⟩
    induction pieces with
    | nil => exact .nil
    | cons piece pieces ih =>
        obtain ⟨first, others⟩ := List.forall_mem_cons.mp reads
        exact .cons first (ih others)

/-- Code that is listed without a fault is a run of bytes for each of its instructions. -/
theorem readFrom_listing {code : Bytes} (clean : (listing header (.ofBytes code)).fault = none) :
    ReadFrom header (listing header (.ofBytes code)).items code := by
  -- The step that a listing repeats is to read an instruction unless the end is met.
  have progress : Progress (untilEnd (Instruction.read header)) := progress_next header
  have reads : ((Reader.between [] code).gather _ progress).fault = none → _ :=
    (straight_read header).isExact.gather
  exact reads clean

section Expands

variable {operations : UInt64} {delta : Int64} {bytes : Bytes}

theorem equivalent_special {opcode : UInt8}
    (hOperations : operations.toNat = header.specialOperations opcode)
    (hDelta : delta.toInt = header.specialLines opcode) :
    Equivalent header [.special opcode] [.advanceAddress operations, .advanceLine delta, .copy] where
  run_eq machine := by
    simp only [Machine.run, List.foldl_cons, List.foldl_nil, Machine.execute, hOperations, hDelta]
    rfl
  overflows_iff := by
    have fits : header.operationBytes operations.toNat < UInt64.size :=
      Header.operationBytes_lt (hOperations ▸ UInt8.toNat_lt _)
    simp [Overflows, fits]

theorem equivalent_addConstant (hOperations : operations.toNat = header.specialOperations 255) :
    Equivalent header [.addConstant] [.advanceAddress operations] where
  run_eq machine := by
    simp only [Machine.run, List.foldl_cons, List.foldl_nil, Machine.execute, hOperations]
  overflows_iff := by
    have fits : header.operationBytes operations.toNat < UInt64.size :=
      Header.operationBytes_lt (hOperations ▸ UInt8.toNat_lt _)
    simp [Overflows, fits]

/-- The numbers that a special opcode combines have operands. -/
theorem expands_special (header : Header) (opcode : UInt8) (run : Bytes) :
    Expands header (.special opcode, run)
      ([.advanceAddress (UInt64.ofNat
          ((opcode.toNat - header.opcodeBase.toNat) / header.lineRange.toNat)),
        .advanceLine (Int64.ofInt (header.lineBase.toInt
          + ((opcode.toNat - header.opcodeBase.toNat) % header.lineRange.toNat : Nat))),
        .copy].flatMap encode) := by
  have above : opcode.toNat - header.opcodeBase.toNat < 256 :=
    Nat.lt_of_le_of_lt (Nat.sub_le _ _) opcode.toNat_lt
  have groups := Nat.div_le_self (opcode.toNat - header.opcodeBase.toNat) header.lineRange.toNat
  have lines := Nat.mod_le (opcode.toNat - header.opcodeBase.toNat) header.lineRange.toNat
  have low := header.lineBase.le_toInt
  have high := header.lineBase.toInt_lt
  apply Expands.special
  · exact UInt64.toNat_ofNat_of_lt' (by simp only [UInt64.size]; omega)
  · exact Int64.toInt_ofInt_of_le (by omega) (by omega)
  · apply forms_flatMap
    simp only [List.forall_mem_cons]
    exact ⟨.advanceAddress (Leb128.unsigned_encodeUnsigned _),
      .advanceLine (Leb128.signed_encodeSigned _), .copy, by simp⟩

variable (standard : 3 < header.opcodeBase)

include standard

theorem yields_advanceAddress (form : (advanceAddress operations).Form bytes) :
    Yields (Instruction.read header) bytes (.advanceAddress operations) := by
  have described : 2 < header.opcodeBase := UInt8.lt_trans (by decide) standard
  cases form with
  | advanceAddress h => exact yields_read_standard described (by decide) (yields_uleb128 h).map

theorem yields_advanceLine (form : (advanceLine delta).Form bytes) :
    Yields (Instruction.read header) bytes (.advanceLine delta) := by
  cases form with
  | advanceLine h => exact yields_read_standard standard (by decide) (yields_sleb128 h).map

theorem yields_copy (form : copy.Form bytes) :
    Yields (Instruction.read header) bytes .copy := by
  have described : 1 < header.opcodeBase := UInt8.lt_trans (by decide) standard
  cases form with
  | copy => exact yields_read_standard described (by decide) (yields_pure _)

/-- What stands for an instruction is read as instructions that do what it does. -/
theorem Expands.equivalent {instruction : Instruction} {run : Bytes}
    (expands : Expands header (instruction, run) bytes)
    (reads : Yields (Instruction.read header) run instruction) :
    ∃ instructions, ReadFrom header instructions bytes
      ∧ Equivalent header [instruction] instructions := by
  cases expands with
  | kept => exact ⟨[instruction], .singleton reads, .refl _⟩
  | special hOperations hDelta forms =>
      have special : header.opcodeBase ≤ _ := admitted_read header (reads [] [])
      rw [← specialOperations_eq special] at hOperations
      rw [← specialLines_eq special] at hDelta
      refine ⟨_, forms.imp fun item member run form => ?_, equivalent_special hOperations hDelta⟩
      simp only [List.mem_cons, List.not_mem_nil, or_false] at member
      rcases member with rfl | rfl | rfl
      · exact yields_advanceAddress standard form
      · exact yields_advanceLine standard form
      · exact yields_copy standard form
  | addConstant hOperations form =>
      have last : (255 : UInt8).toNat - header.opcodeBase.toNat = 255 - header.opcodeBase.toNat := rfl
      rw [← last, ← specialOperations_eq (opcodeBase_le_last header)] at hOperations
      exact ⟨_, .singleton (yields_advanceAddress standard form), equivalent_addConstant hOperations⟩

theorem Pieces.equivalent {pieces : List (Instruction × Bytes)} {others : List Bytes}
    (reads : ∀ piece ∈ pieces, Yields (Instruction.read header) piece.2 piece.1)
    (expanded : List.Forall₂ (Expands header) pieces others) :
    ∃ instructions, ReadFrom header instructions others.flatten
      ∧ Equivalent header (pieces.map (·.1)) instructions := by
  induction expanded with
  | nil => exact ⟨[], .nil, .refl []⟩
  | @cons piece bytes pieces others first _ ih =>
      obtain ⟨read, reads⟩ := List.forall_mem_cons.mp reads
      obtain ⟨front, readsFront, sameFront⟩ := first.equivalent standard read
      obtain ⟨back, readsBack, sameBack⟩ := ih reads
      exact ⟨front ++ back, readsFront.append readsBack, sameFront.append sameBack⟩

end Expands

end Instruction

open Instruction

/-- Code that runs is cut into a piece for each of its instructions. However it is cut, it runs to the
same registers, rows and files when any of its special opcodes and constant advances are written out.
All that is asked of the header is that it has standard opcodes for the advances and for the row. -/
theorem run_expanded {header : Header} {files : List FileEntry} {code : Bytes} {machine : Machine}
    (standard : 3 < header.opcodeBase) (ran : run header files code = .ok machine) :
    (∃ pieces, Pieces header pieces code
        ∧ pieces.map (·.1) = (listing header (.ofBytes code)).items)
      ∧ ∀ pieces others, Pieces header pieces code →
          List.Forall₂ (Expands header) pieces others →
          run header files others.flatten = .ok machine := by
  have clean : (listing header (.ofBytes code)).fault = none := (execute_eq_ok_iff.mp ran).2.1
  refine ⟨readFrom_iff_exists_pieces.mp (readFrom_listing clean), ?_⟩
  intro pieces others cut expanded
  have reads : ReadFrom header (pieces.map (·.1)) code :=
    readFrom_iff_exists_pieces.mpr ⟨pieces, cut, rfl⟩
  obtain ⟨instructions, readsOthers, same⟩ := Pieces.equivalent standard cut.reads expanded
  have before : listing header (.ofBytes code) = _ := listing_of_reads reads []
  have after : listing header (.ofBytes others.flatten) = _ := listing_of_reads readsOthers []
  have faults : (listing header (.ofBytes code)).fault
      = (listing header (.ofBytes others.flatten)).fault := by rw [before, after]
  have alike : Equivalent header (listing header (.ofBytes code)).items
      (listing header (.ofBytes others.flatten)).items := by
    rw [before, after]
    exact same
  have outcome := alike.unplaced_execute_eq (congrArg (Option.map Fault.unplaced) faults) files
  have executed : execute header files (listing header (.ofBytes code)) = .ok machine := ran
  rw [executed] at outcome
  exact Outcome.mapError_eq_ok_iff.mp outcome.symm

/-- A constant advance written out with an operand longer than it has to be, and a special opcode. The
row of the opcode begins the basic block. -/
theorem run_expanded_padded :
    run sampleHeader [] [7, 8, 90, 0, 1, 1] = .ok {
        registers := .initial true
        rows := #[⟨52, 1, 5, 0, true, true, false⟩, ⟨52, 1, 5, 0, true, false, true⟩]
        files := #[] }
      ∧ run sampleHeader [] [7, 2, 0x94, 0, 2, 6, 3, 4, 1, 0, 1, 1]
        = run sampleHeader [] [7, 8, 90, 0, 1, 1] := by
  have ran : run sampleHeader [] [7, 8, 90, 0, 1, 1] = .ok {
        registers := .initial true
        rows := #[⟨52, 1, 5, 0, true, true, false⟩, ⟨52, 1, 5, 0, true, false, true⟩]
        files := #[] } := by decide +kernel
  have one : Leb128.Unsigned (Leb128.group 1) [1] := .last (by decide)
  have twenty : Leb128.Unsigned (Leb128.group 0x94 + 128 * Leb128.group 0) [0x94, 0] :=
    .more (by decide) (.last (by decide))
  have last : (endSequence []).Form [0, 1, 1] :=
    .endSequence (show Leb128.Unsigned (([] : Bytes).length + 1) [1] from one)
  have cut : Pieces sampleHeader [(setBasicBlock, [7]), (addConstant, [8]), (special 90, [90]),
      (endSequence [], [0, 1, 1])] [7, 8, 90, 0, 1, 1] := by
    refine ⟨rfl, ?_⟩
    simp only [List.forall_mem_cons]
    exact ⟨Form.setBasicBlock.yields_read (by decide) (by decide),
      Form.addConstant.yields_read (by decide) (by decide),
      (Form.special 90).yields_read (by decide) (by decide),
      last.yields_read (by decide) (by decide), by simp⟩
  have constant : Expands sampleHeader (addConstant, [8]) [2, 0x94, 0] :=
    .addConstant (show (20 : UInt64).toNat = _ by decide) (.advanceAddress twenty)
  have opcode : Expands sampleHeader (special 90, [90]) [2, 6, 3, 4, 1] := by
    have written := expands_special sampleHeader 90 [90]
    rwa [show List.flatMap encode _ = [2, 6, 3, 4, 1] by decide +kernel] at written
  have same := (run_expanded (by decide) ran).2 _ _ cut
    (.cons (.kept _) (.cons constant (.cons opcode (.cons (.kept _) .nil))))
  exact ⟨ran, same.trans ran.symm⟩

end DspFirmware.LineTable

import DspFirmware.Proofs.LineTable.Concatenation
import DspFirmware.Proofs.LineTable.Prologue
import DspFirmware.Proofs.LineTable.RoundTrip

/-!
Address advances in two parts. Each advance counts the instructions that its operations fill and drops
the operations left over, so that two advances fall short of one advance by both where what they leave
over fills an instruction together. Otherwise the one stands for the two in any program.
-/

namespace DspFirmware.LineTable

namespace Header

variable {header : Header}

/-- The number of operations that fill an instruction. -/
def groupSize (header : Header) : Nat := max header.maxOperations.toNat 1

/-- What two advances leave over does not fill an instruction, or instructions take no bytes. -/
def Splits (header : Header) (first second : Nat) : Prop :=
  first % header.groupSize + second % header.groupSize < header.groupSize
    ∨ header.minInstructionLength = 0

instance (header : Header) (first second : Nat) : Decidable (header.Splits first second) :=
  inferInstanceAs (Decidable (_ ∨ _))

/-- The bytes by which two advances fall short of one. -/
def shortfall (header : Header) (first second : Nat) : Nat :=
  if header.Splits first second then 0 else header.minInstructionLength.toNat

theorem shortfall_eq_zero_iff {first second : Nat} :
    header.shortfall first second = 0 ↔ header.Splits first second := by
  rw [shortfall]
  split
  · simp_all
  · rename_i apart
    exact iff_of_false (fun zero => apart (.inr (UInt8.toNat_inj.mp zero))) apart

theorem shortfall_lt (header : Header) (first second : Nat) :
    header.shortfall first second < 256 := by
  have length := header.minInstructionLength.toNat_lt
  rw [shortfall]
  split <;> omega

theorem operationBytes_add (header : Header) (first second : Nat) :
    header.operationBytes (first + second)
      = header.operationBytes first + header.operationBytes second
        + header.shortfall first second := by
  have positive : 0 < header.groupSize := Nat.lt_of_lt_of_le Nat.one_pos (Nat.le_max_right _ _)
  have groups := Nat.add_div positive (a := first) (b := second)
  change (first + second) / header.groupSize * header.minInstructionLength.toNat
    = first / header.groupSize * _ + second / header.groupSize * _ + _
  rw [groups, Nat.add_mul, Nat.add_mul, shortfall]
  congr 1
  by_cases fills : header.groupSize ≤ first % header.groupSize + second % header.groupSize
  · by_cases zero : header.minInstructionLength = 0
    · simp [zero]
    · simp [Splits, fills, zero]
  · simp [Splits, fills, Nat.not_le.mp fills]

theorem operationBytes_mono (header : Header) {first second : Nat} (h : first ≤ second) :
    header.operationBytes first ≤ header.operationBytes second :=
  Nat.mul_le_mul_right _ (Nat.div_le_div_right h)

/-- Before the fourth version an operation fills an instruction, and nothing is left over. -/
theorem splits_of_read {r s : Reader} (read : Header.read r = .ok header s)
    (older : header.version < 4) (first second : Nat) : header.Splits first second := by
  obtain ⟨_, _, single⟩ := of_read read
  have one : header.groupSize = 1 := by rw [groupSize, single older]; rfl
  exact .inl (by rw [one, Nat.mod_one, Nat.mod_one]; decide)

end Header

namespace Instruction

/-- Instructions that leave the same machine behind them, whatever they find, and that overflow where
the others do. -/
structure Equivalent (header : Header) (first second : List Instruction) : Prop where
  run_eq (machine : Machine) : machine.run header first = machine.run header second
  overflows_iff : (∃ instruction ∈ first, instruction.Overflows header)
    ↔ ∃ instruction ∈ second, instruction.Overflows header

namespace Equivalent

variable {header : Header} {first second others rest : List Instruction}

theorem refl (instructions : List Instruction) : Equivalent header instructions instructions :=
  ⟨fun _ => rfl, Iff.rfl⟩

theorem append (front : Equivalent header first second) (back : Equivalent header others rest) :
    Equivalent header (first ++ others) (second ++ rest) where
  run_eq machine := by
    rw [Machine.run_append, Machine.run_append, front.run_eq, back.run_eq]
  overflows_iff := by
    simp only [List.mem_append, or_and_right, exists_or, front.overflows_iff, back.overflows_iff]

/-- What is equivalent may stand for each other between other instructions. -/
theorem between (h : Equivalent header first second) (before after : List Instruction) :
    Equivalent header (before ++ first ++ after) (before ++ second ++ after) :=
  ((refl before).append h).append (refl after)

/-- Code that is equivalent and faults alike runs to the same machine, or to the same error up to the
place that it names. -/
theorem unplaced_execute_eq {code other : Gathered Instruction} (h : Equivalent header code.items other.items)
    (faults : code.fault.map Fault.unplaced = other.fault.map Fault.unplaced) (files : List FileEntry) :
    (execute header files code).mapError DecodeError.unplaced
      = (execute header files other).mapError DecodeError.unplaced := by
  have overflows : code.items.any (·.Overflows header) = other.items.any (·.Overflows header) := by
    rw [Bool.eq_iff_iff]
    simpa using h.overflows_iff
  rw [execute, execute, overflows]
  split
  · rfl
  · cases here : code.fault with
    | none =>
        have there := (Fault.eq_none_iff_of_unplaced faults).mp here
        rw [there, h.run_eq]
    | some cause =>
        rw [here] at faults
        obtain ⟨elsewhere, there, same⟩ := Option.map_eq_some_iff.mp faults.symm
        rw [there]
        exact congrArg (fun unplaced => Except.error (DecodeError.fault unplaced)) same.symm

end Equivalent

end Instruction

namespace Row

/-- Advances one behind the other add their bytes. -/
theorem advanceAddress_advanceAddress (row : Row) (first second : Nat) :
    (row.advanceAddress first).advanceAddress second = row.advanceAddress (first + second) := by
  simp [advanceAddress, UInt32.add_assoc]

theorem address_advanceAddress_eq_iff {row : Row} {count : Nat} (small : count < UInt32.size) :
    (row.advanceAddress count).address = row.address ↔ count = 0 := by
  rw [advanceAddress, UInt32.add_eq_left, ← UInt32.toNat_inj, UInt32.toNat_ofNat_of_lt' small]
  rfl

end Row

section Split

variable {header : Header} {first second : UInt64}

theorem toNat_operations_add (sum : first.toNat + second.toNat < UInt64.size) :
    (first + second).toNat = first.toNat + second.toNat := by
  rw [UInt64.toNat_add, Nat.mod_eq_of_lt sum]

/-- The parts of an advance that fits fit as well. -/
theorem not_overflows_of_add (sum : first.toNat + second.toNat < UInt64.size)
    (fits : ¬(Instruction.advanceAddress (first + second)).Overflows header) :
    ¬(Instruction.advanceAddress first).Overflows header
      ∧ ¬(Instruction.advanceAddress second).Overflows header := by
  have whole : header.operationBytes (first.toNat + second.toNat) < UInt64.size :=
    toNat_operations_add sum ▸ Nat.not_le.mp fits
  have left := header.operationBytes_mono (Nat.le_add_right first.toNat second.toNat)
  have right := header.operationBytes_mono (Nat.le_add_left second.toNat first.toNat)
  exact ⟨Nat.not_le.mpr (left.trans_lt whole), Nat.not_le.mpr (right.trans_lt whole)⟩

/-- One advance is its two parts and what they fall short of it. -/
theorem run_advance_add (sum : first.toNat + second.toNat < UInt64.size) (machine : Machine) :
    machine.run header [.advanceAddress (first + second)]
      = (machine.run header [.advanceAddress first, .advanceAddress second]).update
          (·.advanceAddress (header.shortfall first.toNat second.toNat)) := by
  change machine.update (·.advanceAddress (header.operationBytes (first + second).toNat)) = _
  rw [toNat_operations_add sum, Header.operationBytes_add]
  simp only [← Row.advanceAddress_advanceAddress]
  rfl

theorem equivalent_of_splits (sum : first.toNat + second.toNat < UInt64.size)
    (fits : ¬(Instruction.advanceAddress (first + second)).Overflows header)
    (splits : header.Splits first.toNat second.toNat) :
    Instruction.Equivalent header [.advanceAddress first, .advanceAddress second]
      [.advanceAddress (first + second)] where
  run_eq machine := by
    rw [run_advance_add sum, Header.shortfall_eq_zero_iff.mpr splits]
    simp [Machine.update, Row.advanceAddress]
  overflows_iff := by
    obtain ⟨left, right⟩ := not_overflows_of_add sum fits
    simp [left, right, fits]

/-- An advance that fits, next to the same advance in two parts, which then fit as well. The parts fall
short of it by one instruction where what they leave over fills one, and by nothing otherwise. If they
do not fall short, the bytes of the one may stand for those of the other behind any code that can be
listed and in front of any bytes: both run to the same machine, or to the same error up to the place that
it names, which counts the bytes in front of it. No parts fall short under a header before the fourth
version. -/
theorem run_split_advance (sum : first.toNat + second.toNat < UInt64.size)
    (fits : ¬(Instruction.advanceAddress (first + second)).Overflows header) :
    (¬(Instruction.advanceAddress first).Overflows header
        ∧ ¬(Instruction.advanceAddress second).Overflows header)
      ∧ (∀ machine : Machine,
        (machine.run header [.advanceAddress (first + second)]).registers.address
            = (machine.run header [.advanceAddress first, .advanceAddress second]).registers.address
              + UInt32.ofNat (header.shortfall first.toNat second.toNat)
          ∧ ((machine.run header [.advanceAddress first, .advanceAddress second]).registers.address
              = (machine.run header [.advanceAddress (first + second)]).registers.address
            ↔ header.Splits first.toNat second.toNat))
      ∧ (header.Splits first.toNat second.toNat →
        ∀ (files : List FileEntry) (before parts joined rest : Bytes),
          (listing header (.ofBytes before)).fault = none →
          (listing header (.ofBytes parts)).fault = none →
          (listing header (.ofBytes parts)).items = [.advanceAddress first, .advanceAddress second] →
          (listing header (.ofBytes joined)).fault = none →
          (listing header (.ofBytes joined)).items = [.advanceAddress (first + second)] →
          (run header files (before ++ parts ++ rest)).mapError DecodeError.unplaced
            = (run header files (before ++ joined ++ rest)).mapError DecodeError.unplaced)
      ∧ ∀ r s, Header.read r = .ok header s → header.version < 4 →
          header.Splits first.toNat second.toNat := by
  have small : header.shortfall first.toNat second.toNat < UInt32.size :=
    (header.shortfall_lt _ _).trans (by decide)
  refine ⟨not_overflows_of_add sum fits, fun machine => ?_, ?_,
    fun r s read older => Header.splits_of_read read older _ _⟩
  · rw [run_advance_add sum]
    refine ⟨rfl, ?_⟩
    rw [← Header.shortfall_eq_zero_iff, ← Row.address_advanceAddress_eq_iff small, eq_comm]
    rfl
  · intro splits files before parts joined rest listed clean items cleanJoined itemsJoined
    obtain ⟨apart, faults⟩ := listing_between listed clean rest
    obtain ⟨whole, faultsJoined⟩ := listing_between listed cleanJoined rest
    have equivalent := (equivalent_of_splits sum fits splits).between
      (listing header (.ofBytes before)).items (listing header (.ofBytes rest)).items
    rw [← items, ← itemsJoined, ← apart, ← whole] at equivalent
    exact equivalent.unplaced_execute_eq (faults.trans faultsJoined.symm) files

end Split

/-- Four operations fill an instruction of two bytes. The same four operations are advanced by in two
parts and in one. -/
def Draft.bundled : Draft where
  version := 4
  minInstructionLength := 2
  maxOperations := 4
  defaultIsStatement := 1
  lineBase := -3
  lineRange := 12
  opcodeBase := 10
  operandCounts := [0, 1, 1, 1, 1, 0, 0, 0, 1]
  directories := ["src"]
  files := [⟨"a.c", 1, 0, 0⟩]
  padding := []
  code := [.advanceAddress 2, .advanceAddress 2, .copy, .endSequence [],
    .advanceAddress 4, .copy, .endSequence []].flatMap Instruction.encode

/-- Five and two operations leave one and two over, too few to fill an instruction. In front of an advance
without its operand both forms end in the same error, two bytes apart. -/
theorem run_split_advance_bundled :
    let header := Draft.bundled.header
    ((5 : UInt64).toNat + (2 : UInt64).toNat < UInt64.size
        ∧ ¬(Instruction.advanceAddress (5 + 2)).Overflows header
        ∧ header.Splits (5 : UInt64).toNat (2 : UInt64).toNat)
      ∧ ((Machine.start header []).run header [.advanceAddress 5, .advanceAddress 2]).registers.address
        = ((Machine.start header []).run header [.advanceAddress (5 + 2)]).registers.address
      ∧ run header [] [7, 2, 5, 2, 2, 1, 5, 3] = .ok {
          registers := ⟨2, 1, 1, 3, true, false, false⟩
          rows := #[⟨2, 1, 1, 0, true, true, false⟩]
          files := #[] }
      ∧ (run header [] [7, 2, 5, 2, 2, 1, 5, 3]).mapError DecodeError.unplaced
        = (run header [] [7, 2, 7, 1, 5, 3]).mapError DecodeError.unplaced
      ∧ run header [] [7, 2, 5, 2, 2, 2] = .error (.fault (.outOfBounds 6 1 6))
      ∧ run header [] [7, 2, 7, 2] = .error (.fault (.outOfBounds 4 1 4))
      ∧ (run header [] [7, 2, 5, 2, 2, 2]).mapError DecodeError.unplaced
        = (run header [] [7, 2, 7, 2]).mapError DecodeError.unplaced := by
  intro header
  have sum : (5 : UInt64).toNat + (2 : UInt64).toNat < UInt64.size := by decide
  have fits : ¬(Instruction.advanceAddress (5 + 2)).Overflows header := by decide +kernel
  have splits : header.Splits (5 : UInt64).toNat (2 : UInt64).toNat := by decide +kernel
  obtain ⟨_, address, program, _⟩ := run_split_advance sum fits
  have same (rest : Bytes) := program splits [] [7] [2, 5, 2, 2] [2, 7] rest (by decide +kernel)
    (by decide +kernel) (by decide +kernel) (by decide +kernel) (by decide +kernel)
  exact ⟨⟨sum, fits, splits⟩, (address _).2.mpr splits, by decide +kernel, same [1, 5, 3],
    by decide +kernel, by decide +kernel, same [2]⟩

/-- Two and two operations leave so many over that their sum fills an instruction. Neither part does,
and the row behind them stays at the start. -/
theorem split_advance_shorter :
    Read.runOn Header.read Draft.bundled.encode = .ok Draft.bundled.header
      ∧ (2 : UInt64).toNat + (2 : UInt64).toNat < UInt64.size
      ∧ ¬(Instruction.advanceAddress 2).Overflows Draft.bundled.header
      ∧ ¬(Instruction.advanceAddress (2 + 2)).Overflows Draft.bundled.header
      ∧ ((Machine.start Draft.bundled.header []).run Draft.bundled.header
          [.advanceAddress 2, .advanceAddress 2]).registers.address
        ≠ ((Machine.start Draft.bundled.header []).run Draft.bundled.header
          [.advanceAddress (2 + 2)]).registers.address
      ∧ (Program.parse Draft.bundled.encode).map (·.rows.map (·.address)) = .ok [0, 0, 2, 2] := by
  decide +kernel

end DspFirmware.LineTable

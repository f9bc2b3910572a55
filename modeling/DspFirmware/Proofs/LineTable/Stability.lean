import DspFirmware.Proofs.LineTable.RoundTrip
import DspFirmware.Proofs.LineTable.Sequences

/-!
Asking again at the address of an answer.

Several rows may share an address. Of these a question for the address itself takes the first, and a
question for an address behind it takes the one in front of the next address. The second question
therefore gives the answer of the first wherever the two rows have one position, and from then on
nothing changes.
-/

namespace DspFirmware.LineTable

/-- Rows for one place in the source. -/
def Row.SamePosition (row other : Row) : Prop :=
  row.file = other.file ∧ row.line = other.line ∧ row.column = other.column

instance (row other : Row) : Decidable (row.SamePosition other) :=
  inferInstanceAs (Decidable (_ ∧ _ ∧ _))

namespace Program

variable {program : Program} {row other : Row} {outcome : Except Fault (Option Location)}

theorem resolves_iff : program.Resolves row outcome ↔ outcome = some <$> program.locate row := by
  constructor
  · intro resolved
    rw [locate, file]
    cases resolved with
    | position hFile hEntry hIndex hDirectory =>
        rw [oneBased?_eq_some_iff.mpr ⟨hFile, hEntry⟩]
        change _ = some <$> (program.directory _ >>= _)
        rw [directory, oneBased?_eq_some_iff.mpr ⟨hIndex, hDirectory⟩]
        rfl
    | noFile h =>
        rw [oneBased?_eq_none_iff.mpr h]
        rfl
    | noDirectory hFile hEntry h =>
        rw [oneBased?_eq_some_iff.mpr ⟨hFile, hEntry⟩]
        change _ = some <$> (program.directory _ >>= _)
        rw [directory, oneBased?_eq_none_iff.mpr h]
        rfl
  · rintro rfl
    exact resolves_locate program row

/-- Only the position and the address of a row show in its outcome. -/
theorem Resolves.of_samePosition (resolved : program.Resolves row outcome)
    (same : other.SamePosition row) (here : other.address = row.address) :
    program.Resolves other outcome := by
  obtain ⟨hFile, hLine, hColumn⟩ := same
  rw [resolves_iff] at resolved ⊢
  rw [resolved, locate, locate, hFile, hLine, hColumn, here]

/-- The row is the first instruction at the address. -/
def FirstAt (program : Program) (address : UInt32) (row : Row) : Prop :=
  ∃ before after, program.rows = before ++ row :: after ∧ row.endSequence = false
    ∧ row.address = address
    ∧ ∀ other ∈ before, other.endSequence = false → other.address ≠ address

theorem FirstAt.rowForAddress_eq {address : UInt32} (h : program.FirstAt address row) :
    program.rowForAddress address = some row := by
  obtain ⟨before, after, hRows, instruction, here, earlier⟩ := h
  exact rowForAddress_of_first hRows instruction here earlier

theorem exists_firstAt {address : UInt32} (member : row ∈ program.rows)
    (instruction : row.endSequence = false) (here : row.address = address) :
    ∃ first, program.FirstAt address first := by
  obtain ⟨first, found⟩ := exists_find?_eq_some
    (p := fun row => !row.endSequence && row.address == address) member (by simp [instruction, here])
  obtain ⟨holds, before, after, hRows, earlier⟩ := List.find?_eq_some_iff_append.mp found
  rw [Bool.and_eq_true, Bool.not_eq_true', beq_iff_eq] at holds
  refine ⟨first, before, after, hRows, holds.1, holds.2, fun other inside others same => ?_⟩
  have := earlier other inside
  simp [others, same] at this

/-- A row that answers is the first at the address, or lies below it in front of a row above. -/
theorem firstAt_or_of_rowForAddress {address : UInt32}
    (h : program.rowForAddress address = some row) :
    program.FirstAt address row
      ∨ ∃ next, (row, next) ∈ neighbours program.rows ∧ row.address < address
        ∧ address < next.address := by
  obtain ⟨member, instruction, here | ⟨next, adjacent, covers⟩⟩ := of_rowForAddress h
  · obtain ⟨first, hFirst⟩ := exists_firstAt member instruction here
    have same : row = first := Option.some.inj (h.symm.trans hFirst.rowForAddress_eq)
    exact .inl (same ▸ hFirst)
  · obtain ⟨_, below, above, _⟩ := coversAddress_iff.mp covers
    exact .inr ⟨next, adjacent, below, above⟩

/-- Asking again at the address of an answer. It is never left open: the first instruction there
answers, with the same answer exactly where the tables make of it what they made of the row that
answered first, and so wherever the two have one position. Asking a third time changes nothing. -/
theorem lookupAddress_again {address : UInt32} {location : Location}
    (answered : program.lookupAddress address = .ok (some location)) :
    ∃ row first, program.rowForAddress address = some row
      ∧ program.Resolves row (.ok (some location))
      ∧ (program.FirstAt address row ∨ ∃ next, (row, next) ∈ neighbours program.rows
        ∧ row.address < address ∧ address < next.address)
      ∧ program.FirstAt location.address first
      ∧ program.Resolves first (program.lookupAddress location.address)
      ∧ (program.lookupAddress location.address = .ok (some location)
        ↔ program.Resolves first (.ok (some location)))
      ∧ (first.SamePosition row → program.lookupAddress location.address = .ok (some location))
      ∧ ∀ again, program.lookupAddress location.address = .ok (some again) →
        again.address = location.address ∧ program.lookupAddress again.address = .ok (some again) := by
  cases hRow : program.rowForAddress address with
  | none =>
      rw [lookupAddress_of_none hRow] at answered
      cases answered
  | some row =>
      have resolved := lookupAddress_of_some hRow
      rw [answered] at resolved
      have here : row.address = location.address := by cases resolved; rfl
      obtain ⟨member, instruction, _⟩ := of_rowForAddress hRow
      obtain ⟨first, hFirst⟩ := exists_firstAt member instruction here
      have second := lookupAddress_of_some hFirst.rowForAddress_eq
      have firstHere : first.address = location.address := by
        obtain ⟨_, _, _, _, there, _⟩ := hFirst
        exact there
      have stable : program.lookupAddress location.address = .ok (some location)
          ↔ program.Resolves first (.ok (some location)) := by
        rw [resolves_iff, ← resolves_iff.mp second]
        exact eq_comm
      refine ⟨row, first, rfl, resolved, firstAt_or_of_rowForAddress hRow, hFirst, second, stable,
        fun same => stable.mpr (resolved.of_samePosition same (firstHere.trans here.symm)),
        fun again answer => ?_⟩
      rw [answer] at second
      have same : again.address = location.address := by cases second; exact firstHere
      exact ⟨same, same ▸ answer⟩

end Program

/-- Two addresses with two rows each, of different lines and of one line. -/
def Draft.repeated : Draft where
  version := 2
  minInstructionLength := 1
  maxOperations := 1
  defaultIsStatement := 1
  lineBase := -3
  lineRange := 12
  opcodeBase := 10
  operandCounts := [0, 1, 1, 1, 1, 0, 0, 0, 1]
  directories := ["src"]
  files := [⟨"a.c", 1, 0, 0⟩]
  padding := []
  code := [.setAddress [0x10, 0, 0, 0], .copy, .advanceLine 1, .copy, .advanceAddress 16,
    .endSequence [], .setAddress [0x40, 0, 0, 0], .advanceLine 4, .copy, .negateStatement, .copy,
    .advanceAddress 16, .endSequence []].flatMap Instruction.encode

namespace Program

def repeated : Program where
  header := Draft.repeated.header
  directories := ["src"]
  files := [⟨"a.c", 1, 0, 0⟩]
  rows := [
    ⟨0x10, 1, 1, 0, true, false, false⟩, ⟨0x10, 1, 2, 0, true, false, false⟩,
    ⟨0x20, 1, 2, 0, true, false, true⟩,
    ⟨0x40, 1, 5, 0, true, false, false⟩, ⟨0x40, 1, 5, 0, false, false, false⟩,
    ⟨0x50, 1, 5, 0, false, false, true⟩]

/-- Rows of one line give one answer, although it is not the first of them that answers behind the
address. -/
theorem lookupAddress_again_repeated :
    repeated.lookupAddress 0x48 = .ok (some ⟨0x40, "src", "a.c", 5, 0⟩)
      ∧ repeated.lookupAddress 0x40 = .ok (some ⟨0x40, "src", "a.c", 5, 0⟩)
      ∧ repeated.rowForAddress 0x48 ≠ repeated.rowForAddress 0x40 := by
  have answered : repeated.lookupAddress 0x48 = .ok (some ⟨0x40, "src", "a.c", 5, 0⟩) := by
    decide +kernel
  obtain ⟨row, first, chosen, _, _, hFirst, _, _, stable, _⟩ := lookupAddress_again answered
  have last : repeated.rowForAddress 0x48 = some ⟨0x40, 1, 5, 0, false, false, false⟩ := by
    decide +kernel
  have front : repeated.rowForAddress 0x40 = some ⟨0x40, 1, 5, 0, true, false, false⟩ := by
    decide +kernel
  have same : first.SamePosition row := by
    rw [Option.some.inj (chosen.symm.trans last),
      Option.some.inj (hFirst.rowForAddress_eq.symm.trans front)]
    decide
  exact ⟨answered, stable same, by rw [last, front]; decide⟩

/-- Rows of different lines give different answers, the one of the last row once and then the one of
the first. -/
theorem lookupAddress_differs_repeated :
    Program.parse Draft.repeated.encode = .ok repeated
      ∧ repeated.lookupAddress 0x18 = .ok (some ⟨0x10, "src", "a.c", 2, 0⟩)
      ∧ repeated.lookupAddress 0x10 = .ok (some ⟨0x10, "src", "a.c", 1, 0⟩) := by
  decide +kernel

end Program

end DspFirmware.LineTable

import DspFirmware.Proofs.LineTable.RoundTrip
import DspFirmware.Proofs.LineTable.Sequences

/-!
What a question for a line of a file answers. A row for the line itself answers first. Otherwise a row
closely before the line answers, but only where the row behind it is one of the same file beyond the
line; of such rows the nearest is taken. A row that is nearer and followed by anything else is passed
over.
-/

namespace DspFirmware.LineTable

namespace Program

variable {program : Program} {query : String} {line : UInt32}

/-- A name by which a query may ask for a file of the table: its own, or its path. -/
inductive Names (program : Program) (index : UInt64) : String → Prop where
  | bare {entry : FileEntry} (hFile : index ≠ 0)
      (hEntry : program.files[index.toNat - 1]? = some entry) : Names program index entry.name
  | joined {entry : FileEntry} {directory : String} (hFile : index ≠ 0)
      (hEntry : program.files[index.toNat - 1]? = some entry) (hIndex : entry.directoryIndex ≠ 0)
      (hDirectory : program.directories[entry.directoryIndex.toNat - 1]? = some directory) :
      Names program index (joinPath directory entry.name)

theorem file_eq_ok_iff {index : UInt64} {entry : FileEntry} :
    program.file index = .ok entry ↔
      index ≠ 0 ∧ program.files[index.toNat - 1]? = some entry := by
  rw [← oneBased?_eq_some_iff, file]
  cases oneBased? program.files index <;> simp

theorem directory_eq_ok_iff {index : UInt64} {name : String} :
    program.directory index = .ok name ↔
      index ≠ 0 ∧ program.directories[index.toNat - 1]? = some name := by
  rw [← oneBased?_eq_some_iff, directory]
  cases oneBased? program.directories index <;> simp

theorem fileMatches_iff {index : UInt64} :
    program.fileMatches index query ↔ program.Names index query := by
  constructor
  · intro h
    rw [fileMatches] at h
    split at h
    · cases h
    · rename_i entry found
      obtain ⟨hFile, hEntry⟩ := file_eq_ok_iff.mp found
      rcases Bool.or_eq_true_iff.mp h with own | path
      · exact eq_of_beq own ▸ .bare hFile hEntry
      · split at path
        · cases path
        · rename_i directory known
          obtain ⟨hIndex, hDirectory⟩ := directory_eq_ok_iff.mp known
          exact eq_of_beq path ▸ .joined hFile hEntry hIndex hDirectory
  · rintro (⟨hFile, hEntry⟩ | ⟨hFile, hEntry, hIndex, hDirectory⟩)
    · exact (fileMatches_of_getElem? hFile hEntry).1
    · exact (fileMatches_of_getElem? hFile hEntry).2 _ hIndex hDirectory

instance (index : UInt64) (query : String) : Decidable (program.Names index query) :=
  decidable_of_iff _ fileMatches_iff

/-- The row is an instruction of the queried file. -/
def InFile (program : Program) (query : String) (row : Row) : Prop :=
  row.endSequence = false ∧ program.Names row.file query

instance (query : String) (row : Row) : Decidable (program.InFile query row) :=
  inferInstanceAs (Decidable (_ ∧ _))

theorem rowInFile_iff {row : Row} : program.rowInFile query row ↔ program.InFile query row := by
  rw [rowInFile, Bool.and_eq_true, Bool.not_eq_true', fileMatches_iff]
  rfl

/-- The row is for a line of the queried file closely before the one asked for. -/
def Precedes (program : Program) (query : String) (line : UInt32) (row : Row) : Prop :=
  program.InFile query row ∧ row.line < line ∧ line.toNat < row.line.toNat + 8

instance (query : String) (line : UInt32) (row : Row) :
    Decidable (program.Precedes query line row) :=
  inferInstanceAs (Decidable (_ ∧ _))

/-- The row behind one that precedes the line belongs to the same file and lies beyond the line. -/
def Brackets (program : Program) (query : String) (line : UInt32) (row next : Row) : Prop :=
  program.Precedes query line row ∧ next.file = row.file ∧ line < next.line

instance (query : String) (line : UInt32) (row next : Row) :
    Decidable (program.Brackets query line row next) :=
  inferInstanceAs (Decidable (_ ∧ _))

theorem rowInFile_and_coversLine_iff {row next : Row} :
    (program.rowInFile query row && coversLine line row next) = true
      ↔ program.Brackets query line row next := by
  rw [Bool.and_eq_true, rowInFile_iff, coversLine, Brackets, Precedes, lineBound]
  simp only [Bool.and_eq_true, beq_iff_eq, decide_eq_true_eq]
  constructor
  · rintro ⟨inFile, ⟨⟨same, below⟩, above⟩, near⟩
    have := UInt32.lt_iff_toNat_lt.mp below
    exact ⟨⟨inFile, below, by omega⟩, same, above⟩
  · rintro ⟨⟨inFile, below, near⟩, same, above⟩
    have := UInt32.lt_iff_toNat_lt.mp below
    exact ⟨inFile, ⟨⟨same, below⟩, above⟩, by omega⟩

/-- No instruction of the queried file is for the line itself. -/
def Skips (program : Program) (query : String) (line : UInt32) : Prop :=
  ∀ row ∈ program.rows, program.InFile query row → row.line ≠ line

instance (query : String) (line : UInt32) : Decidable (program.Skips query line) :=
  inferInstanceAs (Decidable (∀ row ∈ program.rows, _))

/-- What answers a question for a line: the first row for it, else the nearest row that precedes it and
brackets it with the row behind, the first of equally near ones, else nothing. -/
inductive Located (program : Program) (query : String) (line : UInt32) : Option UInt32 → Prop where
  | first {before after : List Row} {row : Row} (hRows : program.rows = before ++ row :: after)
      (inFile : program.InFile query row) (here : row.line = line)
      (earlier : ∀ other ∈ before, program.InFile query other → other.line ≠ line) :
      Located program query line (some row.address)
  | nearest {before after : List (Row × Row)} {row next : Row} (skips : program.Skips query line)
      (hPairs : neighbours program.rows = before ++ (row, next) :: after)
      (brackets : program.Brackets query line row next)
      (nearer : ∀ pair ∈ before, program.Brackets query line pair.1 pair.2 →
        pair.1.line < row.line)
      (asNear : ∀ pair ∈ after, program.Brackets query line pair.1 pair.2 →
        pair.1.line ≤ row.line) :
      Located program query line (some row.address)
  | nowhere (skips : program.Skips query line)
      (apart : ∀ pair ∈ neighbours program.rows, ¬program.Brackets query line pair.1 pair.2) :
      Located program query line none

/-- Of the elements that pass a test, the first of those whose images are smallest. -/
theorem exists_append_of_minOn?_filter {p : α → Bool} {g : α → β} {f : β → Nat} {xs : List α} {y : β}
    (h : ((xs.filter p).map g).minOn? f = some y) :
    ∃ before x after, xs = before ++ x :: after ∧ p x ∧ g x = y
      ∧ (∀ other ∈ before, p other → f y < f (g other))
      ∧ ∀ other ∈ after, p other → f y ≤ f (g other) := by
  obtain ⟨earlier, later, hSplit, nearer, asNear⟩ := eq_append_of_minOn? h
  obtain ⟨passing, rest, hPassing, hEarlier, hRest⟩ := List.map_eq_append_iff.mp hSplit
  obtain ⟨x, behind, rfl, image, hLater⟩ := List.map_eq_cons_iff.mp hRest
  obtain ⟨front, back, rfl, hFront, hBack⟩ := List.filter_eq_append_iff.mp hPassing
  obtain ⟨skipped, after, rfl, failing, passes, hAfter⟩ := List.filter_eq_cons_iff.mp hBack
  refine ⟨front ++ skipped, x, after, (List.append_assoc ..).symm, passes, image, ?_, ?_⟩
  · intro other member holds
    rcases List.mem_append.mp member with inFront | inSkipped
    · refine nearer _ (hEarlier ▸ List.mem_map_of_mem ?_)
      exact hFront ▸ List.mem_filter.mpr ⟨inFront, holds⟩
    · exact absurd holds (failing other inSkipped)
  · intro other member holds
    refine asNear _ (hLater ▸ List.mem_map_of_mem ?_)
    exact hAfter ▸ List.mem_filter.mpr ⟨member, holds⟩

theorem located_lookupLocation (program : Program) (query : String) (line : UInt32) :
    program.Located query line (program.lookupLocation query line) := by
  rw [lookupLocation]
  split
  · rename_i row found
    obtain ⟨sought, before, after, hRows, earlier⟩ := List.find?_eq_some_iff_append.mp found
    rw [Bool.and_eq_true, rowInFile_iff, beq_iff_eq] at sought
    refine .first hRows sought.1 sought.2 fun other member inFile here => ?_
    have := earlier other member
    simp [rowInFile_iff.mpr inFile, here] at this
  · rename_i absent
    have skips : program.Skips query line := fun row member inFile here =>
      List.find?_eq_none.mp absent row member (by simp [rowInFile_iff.mpr inFile, here])
    cases nearest : (((neighbours program.rows).filter fun pair =>
        program.rowInFile query pair.1 && coversLine line pair.1 pair.2).map (·.1)).minOn?
          fun row => line.toNat - row.line.toNat with
    | none =>
        refine .nowhere skips fun pair member brackets => ?_
        have inside := List.mem_filter_of_mem (p := fun pair : Row × Row =>
          program.rowInFile query pair.1 && coversLine line pair.1 pair.2) member
          (rowInFile_and_coversLine_iff.mpr brackets)
        have := List.isSome_minOn?_of_mem (f := fun row => line.toNat - row.line.toNat)
          (List.mem_map_of_mem (f := (·.1)) inside)
        rw [nearest] at this
        cases this
    | some row =>
        obtain ⟨before, ⟨_, next⟩, after, hPairs, covers, rfl, nearer, asNear⟩ :=
          exists_append_of_minOn?_filter nearest
        have brackets := rowInFile_and_coversLine_iff.mp covers
        have below := UInt32.lt_iff_toNat_lt.mp brackets.1.2.1
        refine .nearest skips hPairs brackets (fun pair member others => ?_)
          fun pair member others => ?_
        · have gap := nearer pair member (rowInFile_and_coversLine_iff.mpr others)
          exact UInt32.lt_iff_toNat_lt.mpr (by omega)
        · have gap := asNear pair member (rowInFile_and_coversLine_iff.mpr others)
          have otherBelow := UInt32.lt_iff_toNat_lt.mp others.1.2.1
          exact UInt32.le_iff_toNat_le.mpr (by omega)

/-- The row precedes the line, and no other row that does is for a later line. -/
def NearestBefore (program : Program) (query : String) (line : UInt32) (row : Row) : Prop :=
  row ∈ program.rows ∧ program.Precedes query line row
    ∧ ∀ other ∈ program.rows, program.Precedes query line other → other.line ≤ row.line

instance (query : String) (line : UInt32) (row : Row) :
    Decidable (program.NearestBefore query line row) :=
  inferInstanceAs (Decidable (_ ∧ _ ∧ _))

/-- No row is for the line, and none of the rows nearest before it answers. -/
def PassesOver (program : Program) (query : String) (line : UInt32) : Prop :=
  program.Skips query line ∧ (∃ row ∈ program.rows, program.NearestBefore query line row)
    ∧ ∀ row ∈ program.rows, program.NearestBefore query line row →
      program.lookupLocation query line ≠ some row.address

instance (query : String) (line : UInt32) : Decidable (program.PassesOver query line) :=
  inferInstanceAs (Decidable (_ ∧ _ ∧ _))

/-- The row stands in front of one that it brackets the line with. -/
def Bracketed (program : Program) (query : String) (line : UInt32) (row : Row) : Prop :=
  ∃ pair ∈ neighbours program.rows, pair.1 = row ∧ program.Brackets query line row pair.2

instance (query : String) (line : UInt32) (row : Row) :
    Decidable (program.Bracketed query line row) :=
  inferInstanceAs (Decidable (∃ pair ∈ neighbours program.rows, _))

theorem Bracketed.mem {row : Row} (h : program.Bracketed query line row) : row ∈ program.rows := by
  obtain ⟨pair, member, rfl, _⟩ := h
  exact fst_mem_of_mem_neighbours member

theorem Bracketed.precedes {row : Row} (h : program.Bracketed query line row) :
    program.Precedes query line row := by
  obtain ⟨_, _, _, brackets⟩ := h
  exact brackets.1

/-- Where no row is for the line, a latest of the rows that bracket it answers. -/
theorem Located.of_skips {answer : Option UInt32} (h : program.Located query line answer)
    (skips : program.Skips query line) :
    (answer = none ∧ ∀ row, ¬program.Bracketed query line row)
      ∨ ∃ row, answer = some row.address ∧ program.Bracketed query line row
        ∧ ∀ other, program.Bracketed query line other → other.line ≤ row.line := by
  cases h with
  | first hRows inFile here _ =>
      exact absurd here (skips _ (hRows ▸ List.mem_append_cons_self) inFile)
  | nowhere _ apart =>
      refine .inl ⟨rfl, ?_⟩
      rintro row ⟨pair, member, rfl, brackets⟩
      exact apart pair member brackets
  | @nearest before after row next _ hPairs brackets nearer asNear =>
      refine .inr ⟨row, rfl, ⟨(row, next), hPairs ▸ List.mem_append_cons_self, rfl, brackets⟩, ?_⟩
      rintro other ⟨pair, member, rfl, others⟩
      rw [hPairs, List.mem_append, List.mem_cons] at member
      rcases member with front | rfl | behind
      · exact UInt32.le_of_lt (nearer pair front others)
      · exact UInt32.le_refl _
      · exact asNear pair behind others

/-- What a question for a line answers. If no row is for the line itself, it is the address of a row
nearest before it wherever one such row is bracketed. Where none of them is, it is the address of a
row farther off, or there is no answer. -/
theorem lookupLocation_located (program : Program) (query : String) (line : UInt32) :
    program.Located query line (program.lookupLocation query line)
      ∧ (program.Skips query line → ∀ row, program.NearestBefore query line row →
        (∀ other, program.NearestBefore query line other → program.Bracketed query line other →
            ∃ found, program.NearestBefore query line found
              ∧ program.lookupLocation query line = some found.address)
          ∧ ((∀ other, program.NearestBefore query line other →
                ¬program.Bracketed query line other) →
              program.lookupLocation query line = none
                ∨ ∃ farther, program.Precedes query line farther ∧ farther.line < row.line
                  ∧ program.lookupLocation query line = some farther.address)) := by
  have located := located_lookupLocation program query line
  refine ⟨located, fun skips row ⟨_, _, greatest⟩ => ⟨?_, fun unbracketed => ?_⟩⟩
  · intro other ⟨_, _, otherGreatest⟩ bracketed
    rcases located.of_skips skips with ⟨_, apart⟩ | ⟨found, answer, foundBracketed, latest⟩
    · exact absurd bracketed (apart other)
    · refine ⟨found, ⟨foundBracketed.mem, foundBracketed.precedes, fun rival member precedes => ?_⟩,
        answer⟩
      exact UInt32.le_trans (otherGreatest rival member precedes) (latest other bracketed)
  · rcases located.of_skips skips with ⟨answer, _⟩ | ⟨farther, answer, bracketed, _⟩
    · exact .inl answer
    · refine .inr ⟨farther, bracketed.precedes, UInt32.not_le.mp fun asNear => ?_, answer⟩
      refine unbracketed farther ⟨bracketed.mem, bracketed.precedes, ?_⟩ bracketed
      exact fun rival member precedes =>
        UInt32.le_trans (greatest rival member precedes) asNear

end Program

/-- The lines of two files in turns, back and forth, and of a sequence that is left open. -/
def Draft.interleaved : Draft where
  version := 2
  minInstructionLength := 1
  maxOperations := 1
  defaultIsStatement := 1
  lineBase := -3
  lineRange := 12
  opcodeBase := 10
  operandCounts := [0, 1, 1, 1, 1, 0, 0, 0, 1]
  directories := ["src"]
  files := [⟨"a.c", 1, 0, 0⟩, ⟨"b.c", 1, 0, 0⟩]
  padding := []
  code := [.setAddress [0, 1, 0, 0], .advanceLine 9, .copy,
    .advanceAddress 4, .setFile 2, .advanceLine 2, .copy,
    .advanceAddress 4, .setFile 1, .advanceLine 18, .copy,
    .advanceAddress 4, .advanceLine (-5), .copy,
    .advanceAddress 4, .advanceLine 25, .copy, .advanceAddress 4, .endSequence [],
    .setAddress [0, 2, 0, 0], .advanceLine 69, .copy].flatMap Instruction.encode

def interleaved : Program where
  header := Draft.interleaved.header
  directories := ["src"]
  files := [⟨"a.c", 1, 0, 0⟩, ⟨"b.c", 1, 0, 0⟩]
  rows := [
    ⟨0x100, 1, 10, 0, true, false, false⟩, ⟨0x104, 2, 12, 0, true, false, false⟩,
    ⟨0x108, 1, 30, 0, true, false, false⟩, ⟨0x10c, 1, 25, 0, true, false, false⟩,
    ⟨0x110, 1, 50, 0, true, false, false⟩, ⟨0x114, 1, 50, 0, true, false, true⟩,
    ⟨0x200, 1, 70, 0, true, false, false⟩]

namespace Program

/-- The line 28 has the rows of the lines 25 and 50 around it, and the line 31 has them too, although
the row of the line 30 is nearer. -/
theorem lookupLocation_located_interleaved :
    (∃ found, interleaved.NearestBefore "src/a.c" 28 found
        ∧ interleaved.lookupLocation "src/a.c" 28 = some found.address)
      ∧ (interleaved.lookupLocation "a.c" 31 = none
        ∨ ∃ farther, interleaved.Precedes "a.c" 31 farther ∧ farther.line < 30
          ∧ interleaved.lookupLocation "a.c" 31 = some farther.address)
      ∧ interleaved.lookupLocation "src/a.c" 28 = some 0x10c
      ∧ interleaved.lookupLocation "a.c" 31 = some 0x10c := by
  have nearest : interleaved.NearestBefore "src/a.c" 28 ⟨0x10c, 1, 25, 0, true, false, false⟩ := by
    decide +kernel
  have passed : interleaved.NearestBefore "a.c" 31 ⟨0x108, 1, 30, 0, true, false, false⟩ := by
    decide +kernel
  have found := ((lookupLocation_located interleaved "src/a.c" 28).2 (by decide +kernel) _
    nearest).1 _ nearest (by decide +kernel)
  have unbracketed : ∀ other ∈ interleaved.rows, interleaved.NearestBefore "a.c" 31 other →
      ¬interleaved.Bracketed "a.c" 31 other := by decide +kernel
  have farther := ((lookupLocation_located interleaved "a.c" 31).2 (by decide +kernel) _ passed).2
    fun other near => unbracketed other near.1 near
  exact ⟨found, farther, by decide +kernel⟩

/-- Behind the rows nearest before these lines stand a row of another file, one of an earlier line, the
end of a sequence, and nothing. -/
theorem lookupLocation_unbracketed :
    Program.parse Draft.interleaved.encode = .ok interleaved
      ∧ interleaved.PassesOver "a.c" 11 ∧ interleaved.PassesOver "a.c" 31
      ∧ interleaved.PassesOver "a.c" 51 ∧ interleaved.PassesOver "a.c" 71
      ∧ [11, 31, 51, 71].map (interleaved.lookupLocation "a.c") = [none, some 0x10c, none, none] := by
  decide +kernel

end Program

end DspFirmware.LineTable

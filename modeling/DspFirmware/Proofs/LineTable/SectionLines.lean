import DspFirmware.Proofs.LineTable.SourceLines

/-!
What a section answers when it is asked for a line of a file. The address comes from the first program
that has one, and in it from a row of that file, for the line itself or closely before it. No answer
means that the whole section was decoded and that no row of it is for the line.
-/

namespace DspFirmware.LineTable

namespace Program

variable {program : Program} {query : String} {line : UInt32}

/-- The row is the first instruction of the queried file that is for the line. -/
def FirstFor (program : Program) (query : String) (line : UInt32) (row : Row) : Prop :=
  ∃ before after, program.rows = before ++ row :: after ∧ program.InFile query row ∧ row.line = line
    ∧ ∀ other ∈ before, program.InFile query other → other.line ≠ line

/-- The row of an answer is at the line or closely before it. -/
theorem Located.exists_row {address : UInt32} (h : program.Located query line (some address)) :
    ∃ row ∈ program.rows, program.InFile query row ∧ row.address = address ∧ row.line ≤ line
      ∧ line.toNat < row.line.toNat + 8 := by
  cases h with
  | @first before after row hRows inFile here earlier =>
      have member : row ∈ program.rows := hRows ▸ List.mem_append_cons_self
      exact ⟨row, member, inFile, rfl, UInt32.le_of_eq here, by rw [here]; omega⟩
  | @nearest before after row next skips hPairs brackets nearer asNear =>
      have pair : (row, next) ∈ neighbours program.rows := hPairs ▸ List.mem_append_cons_self
      obtain ⟨inFile, below, near⟩ := brackets.1
      exact ⟨row, fst_mem_of_mem_neighbours pair, inFile, rfl, UInt32.le_of_lt below, near⟩

/-- Where the line itself has a row, the first such row answers. -/
theorem Located.firstFor {answer : Option UInt32} (h : program.Located query line answer)
    (here : ∃ row ∈ program.rows, program.InFile query row ∧ row.line = line) :
    ∃ row, program.FirstFor query line row ∧ answer = some row.address := by
  obtain ⟨other, member, otherInFile, otherHere⟩ := here
  cases h with
  | @first before after row hRows inFile here earlier =>
      exact ⟨row, ⟨before, after, hRows, inFile, here, earlier⟩, rfl⟩
  | nearest skips _ _ _ _ => exact absurd otherHere (skips other member otherInFile)
  | nowhere skips _ => exact absurd otherHere (skips other member otherInFile)

theorem Located.skips (h : program.Located query line none) : program.Skips query line := by
  cases h with
  | nowhere skips _ => exact skips

end Program

/-- Programs that are all decoded fill their section. -/
theorem length_eq_of_programs_eq {data : Bytes} {decoded : List Program}
    (h : programs data = decoded.map .ok) :
    data.length = (decoded.map (·.header.totalLength)).sum := by
  induction data using section_induction generalizing decoded with
  | nil =>
      rw [programs_nil] at h
      rw [List.map_eq_nil_iff.mp h.symm]
      rfl
  | error data cause filled read =>
      rw [programs_of_error filled read] at h
      cases decoded with
      | nil => cases h
      | cons program decoded => cases (List.cons.inj h).1
  | ok data program read ih =>
      rw [programs_of_ok read] at h
      cases decoded with
      | nil => cases h
      | cons first decoded =>
          obtain ⟨same, behind⟩ := List.cons.inj h
          cases same
          have inside := Program.totalLength_le read
          have rest := ih behind
          rw [List.length_drop] at rest
          rw [List.map_cons, List.sum_cons, ← rest, Nat.add_sub_of_le inside]

/-- Asking a section for a line of a file. The address that it answers is that of a row of the file in
the first program that has an answer, a row for the line or for one of the seven lines before it, and
that of the first row for the line wherever the program has one. Without an answer all of the section
is programs, and none of them has a row for the line. -/
theorem lookupLocation_rows (data : Bytes) (query : String) (line : UInt32) :
    (∀ address, lookupLocation data query line = .ok (some address) →
        ∃ (earlier : List Program) (program : Program) (later : List (Except DecodeError Program)),
          programs data = earlier.map .ok ++ .ok program :: later
          ∧ (∀ other ∈ earlier, other.lookupLocation query line = none)
          ∧ program.lookupLocation query line = some address
          ∧ (∃ row ∈ program.rows, program.InFile query row ∧ row.address = address
            ∧ row.line ≤ line ∧ line.toNat < row.line.toNat + 8)
          ∧ ((∃ row ∈ program.rows, program.InFile query row ∧ row.line = line) →
            ∃ row, program.FirstFor query line row ∧ row.address = address))
      ∧ (lookupLocation data query line = .ok none →
        ∃ decoded : List Program, programs data = decoded.map .ok
          ∧ data.length = (decoded.map (·.header.totalLength)).sum
          ∧ ∀ program ∈ decoded, program.Skips query line) := by
  constructor
  · intro address answered
    obtain ⟨earlier, program, later, walked, passed, found⟩ := firstAnswer_eq_some_iff.mp answered
    have silent : ∀ other ∈ earlier, other.lookupLocation query line = none := fun other member =>
      Except.ok.inj (passed other member)
    have here : program.lookupLocation query line = some address := Except.ok.inj found
    have located := Program.located_lookupLocation program query line
    rw [here] at located
    refine ⟨earlier, program, later, walked, silent, here, located.exists_row, fun sought => ?_⟩
    obtain ⟨row, first, same⟩ := located.firstFor sought
    exact ⟨row, first, (Option.some.inj same).symm⟩
  · intro unanswered
    obtain ⟨decoded, walked, passed⟩ := firstAnswer_eq_none_iff.mp unanswered
    refine ⟨decoded, walked, length_eq_of_programs_eq walked, fun program member => ?_⟩
    have located := Program.located_lookupLocation program query line
    rw [Except.ok.inj (passed program member)] at located
    exact located.skips

/-- The first program leaves the line 27 open, the second has the line 25 closely before it. Neither has
a row for the third line of the other file. -/
theorem lookupLocation_rows_interleaved :
    let data := Draft.sample.encode ++ Draft.interleaved.encode
    lookupLocation data "src/a.c" 27 = .ok (some 0x10c)
      ∧ lookupLocation data "b.c" 3 = .ok none
      ∧ (∃ earlier program later, programs data = earlier ++ .ok program :: later
        ∧ ∃ row ∈ program.rows, program.InFile "src/a.c" row ∧ row.address = 0x10c ∧ row.line ≤ 27)
      ∧ ∃ decoded : List Program, programs data = decoded.map .ok
        ∧ ∀ program ∈ decoded, program.Skips "b.c" 3 := by
  intro data
  have near : lookupLocation data "src/a.c" 27 = .ok (some 0x10c) := by decide +kernel
  have nowhere : lookupLocation data "b.c" 3 = .ok none := by decide +kernel
  obtain ⟨earlier, program, later, walked, _, _, ⟨row, member, inFile, address, before, _⟩, _⟩ :=
    (lookupLocation_rows data "src/a.c" 27).1 _ near
  obtain ⟨decoded, all, _, skips⟩ := (lookupLocation_rows data "b.c" 3).2 nowhere
  exact ⟨near, nowhere, ⟨_, program, later, walked, row, member, inFile, address, before⟩,
    decoded, all, skips⟩

end DspFirmware.LineTable

import DspFirmware.Elf.Section
import DspFirmware.Proofs.Reading

/-!
What a string table has at an offset: the bytes up to the first zero behind it. An offset behind the end is
one fault, and no zero between an offset and the end is another. An offset inside a name finds the end of
the name.
-/

namespace DspFirmware.Elf.StringTable

/-- The bytes from an offset on begin with a name, which a zero ends. -/
def Holds (table : StringTable) (offset : Nat) (name : String) : Prop :=
  ∃ run rest, table.data.drop offset = run ++ 0 :: rest ∧ 0 ∉ run ∧ name = Text.latin1 run

variable {table : StringTable} {offset : Nat}

theorem exists_holds_iff : (∃ name, table.Holds offset name) ↔ 0 ∈ table.data.drop offset := by
  constructor
  · rintro ⟨_, run, rest, split, _, _⟩
    simp [split]
  · intro found
    obtain ⟨run, rest, split, nonzero⟩ := List.eq_append_cons_of_mem found
    exact ⟨_, run, rest, split, nonzero, rfl⟩

theorem get_of_beyond (beyond : table.data.length < offset) :
    table.get offset = .error (.outOfBounds offset 0 table.data.length) := by
  have refused : Read.seek offset (.ofBytes table.data)
      = .error (.outOfBounds offset 0 table.data.length) (.ofBytes table.data) := Read.seek_of_lt beyond
  rw [get, Read.runOn, Read.bind_of_error refused]

theorem get_of_inside (inside : offset ≤ table.data.length) :
    table.get offset =
      if 0 ∈ table.data.drop offset then .ok (Text.latin1 (Text.untilZero (table.data.drop offset)))
      else .error (.unterminatedString offset) := by
  obtain ⟨s, sought, ahead, here⟩ : ∃ s, Read.seek offset (.ofBytes table.data) = .ok () s
      ∧ s.rest = table.data.drop offset ∧ s.pos = offset := ⟨_, Read.seek_of_le inside, rfl, rfl⟩
  rw [get, Read.runOn, Read.bind_of_ok sought, ← ahead]
  by_cases found : 0 ∈ s.rest
  · have read : Read.text s = .ok (Text.latin1 (Text.untilZero s.rest)) _ := dif_pos found
    rw [if_pos found, read]
  · have refused : Read.text s = .error (.unterminatedString s.pos) s := dif_neg found
    rw [if_neg found, refused, here]

/-- A name is found where the table holds one. -/
theorem get_eq_ok_iff {name : String} : table.get offset = .ok name ↔ table.Holds offset name := by
  constructor
  · intro found
    by_cases inside : offset ≤ table.data.length
    · rw [get_of_inside inside] at found
      split at found
      · rename_i terminated
        cases found
        obtain ⟨run, rest, split, nonzero⟩ := List.eq_append_cons_of_mem terminated
        exact ⟨run, rest, split, nonzero, by rw [split, Text.untilZero_append nonzero]⟩
      · cases found
    · rw [get_of_beyond (Nat.lt_of_not_le inside)] at found
      cases found
  · rintro ⟨run, rest, split, nonzero, rfl⟩
    have inside : offset ≤ table.data.length := Nat.le_of_not_lt fun beyond => by
      rw [List.drop_eq_nil_of_le (Nat.le_of_lt beyond)] at split
      simp at split
    rw [get_of_inside inside, split, if_pos (by simp), Text.untilZero_append nonzero]

theorem get_eq_error_iff {cause : Fault} :
    table.get offset = .error cause ↔
      table.data.length < offset ∧ cause = .outOfBounds offset 0 table.data.length
      ∨ offset ≤ table.data.length ∧ 0 ∉ table.data.drop offset ∧ cause = .unterminatedString offset := by
  by_cases inside : offset ≤ table.data.length
  · rw [get_of_inside inside]
    by_cases found : 0 ∈ table.data.drop offset
    · simp [found, Nat.not_lt.mpr inside]
    · simp [found, inside, Nat.not_lt.mpr inside, eq_comm]
  · have beyond := Nat.lt_of_not_le inside
    rw [get_of_beyond beyond]
    simp [inside, beyond, eq_comm]

/-- A table holds a name where the bytes of its characters stand, none of them zero, with a zero behind
them. -/
theorem holds_iff {name : String} :
    table.Holds offset name ↔
      offset + name.length < table.data.length ∧ Text.Nameable name
        ∧ (table.data.drop offset).take name.length = Text.latin1Bytes name
        ∧ table.data[offset + name.length]? = some 0 := by
  rw [← List.getElem?_drop]
  constructor
  · rintro ⟨run, rest, split, nonzero, rfl⟩
    have total := congrArg List.length split
    simp only [List.length_drop, List.length_append, List.length_cons] at total
    rw [Text.length_latin1, Text.latin1Bytes_latin1, split]
    refine ⟨by omega, Text.nameable_latin1 nonzero, by simp, by simp⟩
  · rintro ⟨inside, nameable, here, terminator⟩
    obtain ⟨further, ends⟩ := List.getElem?_eq_some_iff.mp terminator
    refine ⟨Text.latin1Bytes name, (table.data.drop offset).drop (name.length + 1), ?_,
      Text.zero_notMem_latin1Bytes nameable, (Text.latin1_latin1Bytes nameable).symm⟩
    rw [← here, ← ends, ← List.drop_eq_getElem_cons further, List.take_append_drop]

/-- Inside a name, or at the zero behind it, the table holds what is left of the name. -/
theorem Holds.drop {name : String} (h : table.Holds offset name) {count : Nat}
    (within : count ≤ name.length) :
    table.Holds (offset + count) (String.ofList (name.toList.drop count)) := by
  obtain ⟨run, rest, split, nonzero, rfl⟩ := h
  rw [Text.length_latin1] at within
  refine ⟨run.drop count, rest, ?_, fun member => nonzero (List.mem_of_mem_drop member),
    Text.ofList_drop_latin1 run count⟩
  rw [← List.drop_drop, split, List.drop_append_of_le_length within]

/-- What a string table answers for an offset. It is a name exactly where the bytes of its characters,
none of them zero, stand in front of a zero inside the table. Otherwise the fault tells an offset behind
the end, which is out of bounds, from one up to the end with no zero ahead. Further inside a name, what
is left of it is found, so that names share their ends. -/
theorem get_exact (table : StringTable) (offset : Nat) :
    (∀ name, table.get offset = .ok name ↔
        offset + name.length < table.data.length ∧ Text.Nameable name
          ∧ (table.data.drop offset).take name.length = Text.latin1Bytes name
          ∧ table.data[offset + name.length]? = some 0)
      ∧ ((¬∃ name, table.get offset = .ok name) →
        (table.data.length < offset →
            table.get offset = .error (.outOfBounds offset 0 table.data.length))
          ∧ (offset ≤ table.data.length → table.get offset = .error (.unterminatedString offset)))
      ∧ (table.data.length ≤ offset → ¬∃ name, table.get offset = .ok name)
      ∧ ∀ name, table.get offset = .ok name → ∀ count ≤ name.length,
          table.get (offset + count) = .ok (String.ofList (name.toList.drop count)) := by
  simp only [get_eq_ok_iff]
  refine ⟨fun name => holds_iff, ?refused, ?behind, ?further⟩
  case refused =>
    intro missing
    rw [exists_holds_iff] at missing
    constructor
    · intro beyond
      exact get_of_beyond beyond
    · intro inside
      rw [get_of_inside inside, if_neg missing]
  case behind =>
    intro beyond
    rw [exists_holds_iff, List.drop_eq_nil_of_le beyond]
    exact List.not_mem_nil
  case further =>
    intro name held count within
    exact held.drop within

/-- The end of a name is found, and its terminator as an empty name, but nothing at the end. -/
example :
    [5, 10, 11, 12].map (StringTable.mk (Text.latin1Bytes ".rela.text" ++ [0])).get
      = [.ok ".text", .ok "", .error (.unterminatedString 11), .error (.outOfBounds 12 0 11)] := by
  rfl

end DspFirmware.Elf.StringTable

import DspFirmware.Proofs.LineTable.Arithmetic
import DspFirmware.Proofs.LineTable.Section

/-!
Asking programs and sections with the arithmetic of machine words.

A search takes a distance only behind the comparisons that make it one, and no offset of a program
leaves its section. Questions are therefore answered as if numbers had no bounds, wherever they meet
no program that has an overflow.
-/

namespace DspFirmware.LineTable

section Search

/-- The rows that pass the guard with the ones behind them at a distance below the bound, each with
its distance. -/
def gaps? (guard : Row → Row → Bool) (distance : Row → Option Nat) (bound : Nat) (rows : List Row) :
    Option (List (Nat × Row)) :=
  (neighbours rows).filterMapM fun pair =>
    if guard pair.1 pair.2 then do
      let gap ← distance pair.1
      return if gap < bound then some (gap, pair.1) else none
    else return none

def nearest? (guard : Row → Row → Bool) (distance : Row → Option Nat) (bound : Nat)
    (rows : List Row) : Option (Option Row) := do
  let near ← gaps? guard distance bound rows
  return (near.minOn? (·.1)).map (·.2)

variable {guard : Row → Row → Bool} {distance : Row → Option Nat} {f : Row → Nat}

theorem gaps?_eq (defined : ∀ row next, guard row next → distance row = some (f row)) (bound : Nat)
    (rows : List Row) :
    gaps? guard distance bound rows =
      some ((((neighbours rows).filter fun pair => guard pair.1 pair.2 && f pair.1 < bound).map
        (·.1)).map fun row => (f row, row)) := by
  rw [gaps?]
  induction neighbours rows with
  | nil => rfl
  | cons pair pairs ih =>
      rw [List.filterMapM_cons, ih, List.filter_cons]
      by_cases passes : guard pair.1 pair.2
      · rw [if_pos passes, defined _ _ passes]
        by_cases near : f pair.1 < bound <;> simp [passes, near]
      · simp [passes]

theorem minOn?_map (g : α → β) (k : β → Nat) (xs : List α) :
    (xs.map g).minOn? k = (xs.minOn? (k ∘ g)).map g := by
  induction xs with
  | nil => rfl
  | cons x xs ih =>
      rw [List.map_cons, List.minOn?_cons, List.minOn?_cons, ih]
      cases xs.minOn? (k ∘ g) with
      | none => rfl
      | some y =>
          have chosen : minOn k (g x) (g y) = g (minOn (k ∘ g) x y) := (apply_ite g _ _ _).symm
          exact congrArg some chosen

/-- A search is defined where each distance that it takes is. -/
theorem nearest?_eq (defined : ∀ row next, guard row next → distance row = some (f row))
    (bound : Nat) (rows : List Row) :
    nearest? guard distance bound rows =
      some ((((neighbours rows).filter fun pair => guard pair.1 pair.2 && f pair.1 < bound).map
        (·.1)).minOn? f) := by
  rw [nearest?, gaps?_eq defined, Option.bind_eq_bind, Option.bind_some, minOn?_map, Option.map_map]
  exact congrArg some Option.map_id'

end Search

namespace Program

/-- Whether an address lies between a row and the one behind it, at whatever distance. -/
def aroundAddress (address : UInt32) (row next : Row) : Bool :=
  !row.endSequence && row.address < address && address < next.address

def addressGap? (address : UInt32) (row : Row) : Option Nat :=
  Checked.sub address.toNat row.address.toNat

def rowForAddress? (program : Program) (address : UInt32) : Option (Option Row) :=
  match program.rows.find? fun row => !row.endSequence && row.address == address with
  | some row => some (some row)
  | none => nearest? (aroundAddress address) (addressGap? address) addressBound program.rows

def lookupAddress? (program : Program) (address : UInt32) :
    Option (Except Fault (Option Location)) := do
  match ← program.rowForAddress? address with
  | none => return .ok none
  | some row => return some <$> program.locate row

/-- Whether a line of the queried file lies between a row and the one behind it, at whatever
distance. -/
def aroundLine (program : Program) (query : String) (line : UInt32) (row next : Row) : Bool :=
  program.rowInFile query row && next.file == row.file && row.line < line && line < next.line

def lineGap? (line : UInt32) (row : Row) : Option Nat := Checked.sub line.toNat row.line.toNat

def lookupLocation? (program : Program) (query : String) (line : UInt32) :
    Option (Option UInt32) :=
  match program.rows.find? fun row => program.rowInFile query row && row.line == line with
  | some row => some (some row.address)
  | none => do
      let row ← nearest? (program.aroundLine query line) (lineGap? line) lineBound program.rows
      return row.map (·.address)

variable (program : Program)

theorem rowForAddress?_eq (address : UInt32) :
    program.rowForAddress? address = some (program.rowForAddress address) := by
  rw [rowForAddress?, rowForAddress]
  cases program.rows.find? fun row => !row.endSequence && row.address == address with
  | some row => rfl
  | none =>
      refine nearest?_eq (fun row next around => if_pos ?_) addressBound program.rows
      simp only [aroundAddress, Bool.and_eq_true, decide_eq_true_eq] at around
      exact UInt32.le_iff_toNat_le.mp (UInt32.le_of_lt around.1.2)

theorem lookupAddress?_eq (address : UInt32) :
    program.lookupAddress? address = some (program.lookupAddress address) := by
  rw [lookupAddress?, rowForAddress?_eq, lookupAddress]
  cases program.rowForAddress address <;> rfl

theorem lookupLocation?_eq (query : String) (line : UInt32) :
    program.lookupLocation? query line = some (program.lookupLocation query line) := by
  have defined : ∀ row next, program.aroundLine query line row next →
      lineGap? line row = some (line.toNat - row.line.toNat) := by
    intro row next around
    simp only [aroundLine, Bool.and_eq_true, decide_eq_true_eq] at around
    exact if_pos (UInt32.le_iff_toNat_le.mp (UInt32.le_of_lt around.1.2))
  rw [lookupLocation?, lookupLocation]
  cases program.rows.find? fun row => program.rowInFile query row && row.line == line with
  | some row => rfl
  | none =>
      dsimp only
      rw [nearest?_eq defined]
      simp only [aroundLine, coversLine, Bool.and_assoc]
      rfl

end Program

/-- Where the next program of a section starts. -/
def nextOffset? (offset : Nat) (header : Header) : Option Nat := do
  let total ← header.totalLength?
  Checked.add UInt64.size offset total

theorem nextOffset?_eq (offset : Nat) (header : Header) :
    nextOffset? offset header =
      if offset + header.totalLength < UInt64.size then some (offset + header.totalLength)
      else none := by
  rw [nextOffset?, Header.totalLength?_eq]
  rfl

theorem lt_of_nextOffset? {offset next : Nat} {header : Header}
    (h : nextOffset? offset header = some next) : offset < next := by
  rw [nextOffset?_eq, Option.ite_none_right_eq_some] at h
  have total : 4 ≤ header.totalLength := Nat.le_add_right 4 _
  obtain ⟨_, same⟩ := h
  have := Option.some.inj same
  omega

/-- The programs of a section from an offset on, the last of them possibly undefined. -/
def programsFrom? (data : Bytes) (offset : Nat) : List (Option (Except Fault Program)) :=
  if offset < data.length then
    match Program.parse? (data.drop offset) with
    | none => [none]
    | some (.error cause) => [some (.error cause)]
    | some (.ok program) =>
        match _advanced : nextOffset? offset program.header with
        | none => [none]
        | some next => some (.ok program) :: programsFrom? data next
  else []
termination_by data.length - offset
decreasing_by
  have := lt_of_nextOffset? _advanced
  omega

def firstAnswer? (ask : Program → Option (Except Fault (Option α))) :
    List (Option (Except Fault Program)) → Option (Except Fault (Option α))
  | [] => some (.ok none)
  | none :: _ => none
  | some (.error cause) :: _ => some (.error cause)
  | some (.ok program) :: rest =>
      match ask program with
      | some (.ok none) => firstAnswer? ask rest
      | outcome => outcome

def lookupAddress? (data : Bytes) (address : UInt32) : Option (Except Fault (Option Location)) :=
  firstAnswer? (·.lookupAddress? address) (programsFrom? data 0)

def lookupLocation? (data : Bytes) (query : String) (line : UInt32) :
    Option (Except Fault (Option UInt32)) :=
  firstAnswer? (fun program => Except.ok <$> program.lookupLocation? query line)
    (programsFrom? data 0)

theorem programsFrom?_eq {data : Bytes} (small : data.length < UInt64.size) (offset : Nat) :
    programsFrom? data offset = (programs (data.drop offset)).map outcome? := by
  induction rest : data.drop offset using section_induction generalizing offset with
  | nil =>
      have behind : ¬offset < data.length := Nat.not_lt.mpr (List.drop_eq_nil_iff.mp rest)
      rw [programsFrom?, if_neg behind, programs_nil, List.map_nil]
  | error _ error filled read =>
      have inside : offset < data.length := by
        by_contra behind
        exact filled (rest ▸ List.drop_eq_nil_of_le (Nat.not_lt.mp behind))
      rw [programsFrom?, if_pos inside, rest, Program.parse?_eq, read,
        programs_of_error filled read]
      cases error <;> rfl
  | ok _ program read ih =>
      have total := Program.totalLength_le read
      have positive : 4 ≤ program.header.totalLength := Nat.le_add_right 4 _
      rw [← rest, List.length_drop] at total
      -- The next offset is still inside the section, whose length is a word.
      have advanced : nextOffset? offset program.header
          = some (offset + program.header.totalLength) := by
        rw [nextOffset?_eq, if_pos (by omega)]
      have later := ih (offset + program.header.totalLength) (by rw [← List.drop_drop, rest])
      rw [programsFrom?, if_pos (by omega), rest, Program.parse?_eq, read, programs_of_ok read,
        List.map_cons, ← later]
      dsimp only [outcome?]
      split
      · rename_i impossible
        rw [advanced] at impossible
        cases impossible
      · rename_i next same
        rw [advanced] at same
        cases same
        rfl

theorem firstAnswer?_eq (ask : Program → Except Fault (Option α))
    {ask? : Program → Option (Except Fault (Option α))}
    (defined : ∀ program, ask? program = some (ask program))
    (items : List (Except DecodeError Program)) :
    firstAnswer? ask? (items.map outcome?) = outcome? (firstAnswer ask items) := by
  induction items with
  | nil => rfl
  | cons item items ih =>
      cases item with
      | error error => cases error <;> rfl
      | ok program =>
          rw [List.map_cons, firstAnswer]
          change (match ask? program with | some (.ok none) => _ | outcome => outcome) = _
          rw [defined]
          cases ask program with
          | error cause => rfl
          | ok answer =>
              cases answer with
              | none => exact ih
              | some answer => rfl

theorem firstAnswer?_ne_none {ask : Program → Option (Except Fault (Option α))}
    (defined : ∀ program, ask program ≠ none) {items : List (Option (Except Fault Program))}
    (decoded : none ∉ items) : firstAnswer? ask items ≠ none := by
  induction items with
  | nil => simp [firstAnswer?]
  | cons item items ih =>
      rw [List.mem_cons, not_or] at decoded
      obtain ⟨first, rest⟩ := decoded
      cases item with
      | none => exact absurd rfl first
      | some outcome =>
          cases outcome with
          | error cause => simp [firstAnswer?]
          | ok program =>
              rw [firstAnswer?]
              split
              · exact ih rest
              · exact defined program

/-- With words in place of numbers, decoding and asking come to the same. Nothing is left undefined
but a program with an address advance whose product is too large for its word, and a question is
answered wherever it meets no such program. -/
theorem checked_eq (data : Bytes) (small : data.length < UInt64.size) :
    Program.parse? data = outcome? (Program.parse data)
      ∧ programsFrom? data 0 = (programs data).map outcome?
      ∧ (∀ address, lookupAddress? data address = outcome? (lookupAddress data address))
      ∧ (∀ query line,
          lookupLocation? data query line = outcome? (lookupLocation data query line))
      ∧ (Program.parse? data = none ↔ ∃ prologue r, Program.opened data = .ok (prologue, r)
          ∧ ∃ instruction ∈ (listing prologue.header r).items,
            instruction.Overflows prologue.header)
      ∧ (none ∉ programsFrom? data 0 → (∀ address, lookupAddress? data address ≠ none)
          ∧ ∀ query line, lookupLocation? data query line ≠ none) := by
  have decoded : programsFrom? data 0 = (programs data).map outcome? := by
    rw [programsFrom?_eq small, List.drop_zero]
  refine ⟨Program.parse?_eq data, decoded, fun address => ?_, fun query line => ?_, ?_,
    fun clean => ⟨fun address => ?_, fun query line => ?_⟩⟩
  · rw [lookupAddress?, decoded,
      firstAnswer?_eq (·.lookupAddress address) fun program => program.lookupAddress?_eq address]
    rfl
  · have defined : ∀ program : Program, Except.ok (ε := Fault) <$> program.lookupLocation? query line
        = some (.ok (program.lookupLocation query line)) := by
      intro program
      rw [program.lookupLocation?_eq]
      rfl
    rw [lookupLocation?, decoded, firstAnswer?_eq _ defined]
    rfl
  · rw [Program.parse?_eq, outcome?_eq_none_iff, parse_eq_advanceOverflow_iff]
  · exact firstAnswer?_ne_none (fun program => by rw [program.lookupAddress?_eq]; simp) clean
  · exact firstAnswer?_ne_none (fun program => by rw [program.lookupLocation?_eq]; simp) clean

/-- A program whose single instruction advances the address by the largest number of operations, in
instructions of two bytes. -/
def Draft.overflowing : Draft where
  version := 2
  minInstructionLength := 2
  maxOperations := 1
  defaultIsStatement := 1
  lineBase := -5
  lineRange := 14
  opcodeBase := 13
  operandCounts := [0, 1, 1, 1, 1, 0, 0, 0, 1, 0, 0, 1]
  directories := ["/src"]
  files := [⟨"fileA.c", 1, 0, 0⟩]
  padding := []
  code := (Instruction.advanceAddress 18446744073709551615).encode

/-- One program is decoded and answers. The other is well formed, but has an undefined product. -/
theorem checked_eq_overflowing :
    Draft.sample.encode.length < UInt64.size
      ∧ lookupAddress? Draft.sample.encode 12 = some (.ok (some ⟨12, "src", "a.c", 6, 0⟩))
      ∧ none ∉ programsFrom? Draft.sample.encode 0
      ∧ lookupLocation? Draft.sample.encode "a.c" 7 ≠ none
      ∧ Program.parse? Draft.overflowing.encode = none := by
  have small : Draft.sample.encode.length < UInt64.size := by decide +kernel
  obtain ⟨_, decoded, addresses, _, _, defined⟩ := checked_eq Draft.sample.encode small
  obtain ⟨parsed, _⟩ := checked_eq Draft.overflowing.encode (by decide +kernel)
  have clean : none ∉ programsFrom? Draft.sample.encode 0 := by
    rw [decoded]
    decide +kernel
  refine ⟨small, ?_, clean, (defined clean).2 "a.c" 7, ?_⟩
  · rw [addresses]
    decide +kernel
  · rw [parsed]
    decide +kernel

/-- No question to the well-formed program has an answer, not even a fault. -/
theorem overflowing_undefined :
    Program.parse? Draft.overflowing.encode = none
      ∧ programsFrom? Draft.overflowing.encode 0 = [none]
      ∧ lookupAddress? Draft.overflowing.encode 0 = none
      ∧ lookupLocation? Draft.overflowing.encode "fileA.c" 1 = none := by
  decide +kernel

end DspFirmware.LineTable

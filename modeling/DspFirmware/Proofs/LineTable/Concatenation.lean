import DspFirmware.Proofs.LineTable.AbstractMachine
import DspFirmware.Proofs.LineTable.Listing

/-!
Code in front of other code. Instructions that are complete without what follows them are the same in
front of it, and where the last of them ends a sequence, nothing of them is left to what follows but
the file table.
-/

namespace DspFirmware.LineTable

open Read Reader

namespace Instruction

/-- No sequence is left open behind the instructions. -/
def Closed (instructions : List Instruction) : Prop :=
  ∀ last ∈ instructions.getLast?, ∃ operand, last = .endSequence operand

end Instruction

/-- Code that can be listed is listed first in front of other code, which is listed as it is alone, with
its faults at other places. -/
theorem listing_append {header : Header} {first : Bytes}
    (clean : (listing header (ofBytes first)).fault = none) (second : Bytes) :
    (listing header (ofBytes (first ++ second))).items
        = (listing header (ofBytes first)).items ++ (listing header (ofBytes second)).items
      ∧ (listing header (ofBytes (first ++ second))).fault.map Fault.unplaced
        = (listing header (ofBytes second)).fault.map Fault.unplaced := by
  have longer : (ofBytes first).ExtendedBy (ofBytes (first ++ second)) :=
    ⟨List.prefix_append first second, rfl⟩
  obtain ⟨t, data, pos, whole⟩ := (Instruction.straight_read header).isStreaming.gather longer clean
  have behind : t.rest = (ofBytes second).rest := by
    rw [t.rest_eq, data, pos]
    exact List.drop_left
  obtain ⟨items, _, faults⟩ := (Instruction.local_next header).gather behind
  -- The step that a listing repeats is to read an instruction unless the end is met.
  have joined : listing header (ofBytes (first ++ second))
      = (listing header t).prepend (listing header (ofBytes first)).items := whole
  rw [joined]
  exact ⟨congrArg (_ ++ ·) items, faults⟩

/-- Code that can be listed between other code is listed between what is listed of it. -/
theorem listing_between {header : Header} {before code : Bytes}
    (front : (listing header (ofBytes before)).fault = none)
    (clean : (listing header (ofBytes code)).fault = none) (rest : Bytes) :
    (listing header (ofBytes (before ++ code ++ rest))).items
        = (listing header (ofBytes before)).items ++ (listing header (ofBytes code)).items
          ++ (listing header (ofBytes rest)).items
      ∧ (listing header (ofBytes (before ++ code ++ rest))).fault.map Fault.unplaced
        = (listing header (ofBytes rest)).fault.map Fault.unplaced := by
  obtain ⟨items, faults⟩ := listing_append front code
  have joined : (listing header (ofBytes (before ++ code))).fault = none :=
    (Fault.eq_none_iff_of_unplaced faults).mpr clean
  rw [← items]
  exact listing_append joined rest

namespace Machine

/-- The machine with other rows in front of its own. -/
def behind (machine : Machine) (rows : Array Row) : Machine :=
  { machine with rows := rows ++ machine.rows }

theorem execute_behind (header : Header) (machine : Machine) (rows : Array Row)
    (instruction : Instruction) :
    execute header (machine.behind rows) instruction
      = (execute header machine instruction).behind rows := by
  cases instruction <;> simp [execute, update, emit, close, behind]

/-- Rows are emitted and not looked at. -/
theorem run_behind (header : Header) (machine : Machine) (rows : Array Row)
    (instructions : List Instruction) :
    (machine.behind rows).run header instructions
      = (machine.run header instructions).behind rows := by
  induction instructions generalizing machine with
  | nil => rfl
  | cons instruction instructions ih =>
      rw [run, run, List.foldl_cons, List.foldl_cons, execute_behind]
      exact ih _

theorem run_append (header : Header) (machine : Machine) (first second : List Instruction) :
    machine.run header (first ++ second) = (machine.run header first).run header second :=
  List.foldl_append

/-- Behind closed sequences the registers are those of a start. -/
theorem run_start_of_closed {header : Header} {files : List FileEntry}
    {instructions : List Instruction} (closed : Instruction.Closed instructions) {machine : Machine}
    (ran : machine = (start header files).run header instructions) :
    machine = (start header machine.files.toList).behind machine.rows := by
  have registers : machine.registers = Row.initial header.defaultIsStatement := by
    rw [ran]
    rcases List.eq_nil_or_concat instructions with rfl | ⟨earlier, last, rfl⟩
    · rfl
    · rw [List.concat_eq_append] at closed ⊢
      obtain ⟨operand, rfl⟩ := closed last List.getLast?_concat
      rw [run_append]
      rfl
  have begun : (start header machine.files.toList).behind machine.rows
      = { machine with registers := Row.initial header.defaultIsStatement } := by
    simp [start, behind]
  rw [begun, ← registers]

/-- A run goes on behind closed sequences as if it began there, with the files and behind the rows that
they leave. -/
theorem run_start_append {header : Header} {files : List FileEntry} {first : List Instruction}
    (closed : Instruction.Closed first) {machine : Machine}
    (ran : machine = (start header files).run header first) (second : List Instruction) :
    (start header files).run header (first ++ second)
      = ((start header machine.files.toList).run header second).behind machine.rows := by
  rw [run_append, ← ran, ← run_behind, ← run_start_of_closed closed ran]

end Machine

/-- An error without the place where it was met. -/
def DecodeError.unplaced : DecodeError → DecodeError
  | .fault cause => .fault cause.unplaced
  | .advanceOverflow => .advanceOverflow

/-- Code that ends with the end of a sequence has no influence on what follows it but through the file
table. What follows runs where it runs by itself with that table, and its rows come behind the ones
that are there. Otherwise it ends with the same error, met at another place. -/
theorem run_append_of_closed {header : Header} {files : List FileEntry} {first : Bytes}
    {machine : Machine} (ran : run header files first = .ok machine)
    (closed : Instruction.Closed (listing header (ofBytes first)).items) (second : Bytes) :
    (∀ whole, run header files (first ++ second) = .ok whole ↔
      ∃ rest, run header machine.files.toList second = .ok rest ∧
        whole = { rest with rows := machine.rows ++ rest.rows }) ∧
    ∀ error, run header machine.files.toList second = .error error →
      ∃ other, run header files (first ++ second) = .error other ∧ other.unplaced = error.unplaced := by
  obtain ⟨fits, clean, ranItems⟩ := execute_eq_ok_iff.mp ran
  obtain ⟨items, faults⟩ := listing_append clean second
  have onward := Machine.run_start_append closed ranItems (listing header (ofBytes second)).items
  rw [← items] at onward
  have fitting : (∀ instruction ∈ (listing header (ofBytes (first ++ second))).items,
        ¬instruction.Overflows header)
      ↔ ∀ instruction ∈ (listing header (ofBytes second)).items, ¬instruction.Overflows header := by
    rw [items, List.forall_mem_append]
    exact and_iff_right fits
  refine ⟨fun whole => ?_, fun error failed => ?_⟩
  · simp only [run, execute_eq_ok_iff, fitting, Fault.eq_none_iff_of_unplaced faults, onward]
    constructor
    · rintro ⟨small, read, rfl⟩
      exact ⟨_, ⟨small, read, rfl⟩, rfl⟩
    · rintro ⟨_, ⟨small, read, rfl⟩, rfl⟩
      exact ⟨small, read, rfl⟩
  · cases error with
    | advanceOverflow =>
        obtain ⟨instruction, member, overflows⟩ := execute_eq_advanceOverflow_iff.mp failed
        refine ⟨.advanceOverflow, execute_eq_advanceOverflow_iff.mpr ⟨instruction, ?_, overflows⟩, rfl⟩
        rw [items]
        exact List.mem_append_right _ member
    | fault cause =>
        obtain ⟨small, hFault⟩ := execute_eq_fault_iff.mp failed
        rw [hFault] at faults
        obtain ⟨other, hOther, same⟩ := Option.map_eq_some_iff.mp faults
        exact ⟨.fault other, execute_eq_fault_iff.mpr ⟨fitting.mpr small, hOther⟩,
          congrArg DecodeError.fault same⟩

/-- A file and a sequence whose end has two bytes too many, in front of code that runs and of code whose
last operand is missing. -/
theorem run_append_of_closed_trailing :
    let first : Bytes := [0, 6, 3, 0x66, 0, 1, 0, 0, 90, 0, 3, 1, 7, 7]
    (listing sampleHeader (ofBytes first)).items
        = [.defineFile ⟨"f", 1, 0, 0⟩ [], .special 90, .endSequence [7, 7]] ∧
      run sampleHeader [] (first ++ [5, 2, 1]) = .ok {
        registers := ⟨0, 1, 1, 2, true, false, false⟩
        rows := #[⟨12, 1, 5, 0, true, false, false⟩, ⟨12, 1, 5, 0, true, false, true⟩,
          ⟨0, 1, 1, 2, true, false, false⟩]
        files := #[⟨"f", 1, 0, 0⟩] } ∧
      ∃ error, run sampleHeader [] (first ++ [5, 2, 2]) = .error error ∧
        error.unplaced = .fault (.outOfBounds 0 1 0) := by
  intro first
  have listed : (listing sampleHeader (ofBytes first)).items
      = [.defineFile ⟨"f", 1, 0, 0⟩ [], .special 90, .endSequence [7, 7]] := by decide +kernel
  have ran : run sampleHeader [] first = .ok {
      registers := .initial true
      rows := #[⟨12, 1, 5, 0, true, false, false⟩, ⟨12, 1, 5, 0, true, false, true⟩]
      files := #[⟨"f", 1, 0, 0⟩] } := by decide +kernel
  have closed : Instruction.Closed (listing sampleHeader (ofBytes first)).items := by
    rw [listed]
    intro last same
    cases same
    exact ⟨_, rfl⟩
  have runs : run sampleHeader [⟨"f", 1, 0, 0⟩] [5, 2, 1] = .ok {
      registers := ⟨0, 1, 1, 2, true, false, false⟩
      rows := #[⟨0, 1, 1, 2, true, false, false⟩]
      files := #[⟨"f", 1, 0, 0⟩] } := by decide +kernel
  have fails : run sampleHeader [⟨"f", 1, 0, 0⟩] [5, 2, 2]
      = .error (.fault (.outOfBounds 3 1 3)) := by decide +kernel
  exact ⟨listed, ((run_append_of_closed ran closed [5, 2, 1]).1 _).mpr ⟨_, runs, rfl⟩,
    (run_append_of_closed ran closed [5, 2, 2]).2 _ fails⟩

end DspFirmware.LineTable

import DspFirmware.Proofs.Answers
import DspFirmware.Proofs.Streaming
import DspFirmware.LineTable.Program

/-!
What a listing depends on, what it holds, and what executing it comes to. The bytes in front of the
code have no influence on its instructions, only on the places that a fault names. A special opcode
is listed only where the header has it for one.
-/

namespace DspFirmware.LineTable

namespace Instruction

theorem straight_readHead (header : Header) : Read.Straight (readHead header) := by
  refine Read.Straight.uint8.bind fun opcode => ?_
  split
  · exact .pure _
  · split
    · refine Read.Straight.uleb128.bind fun length => ?_
      split
      · exact .pure _
      · exact Read.Straight.uint8.bind fun _ => .pure _
    · exact .pure _

theorem straight_readOperands (count : Nat) : Read.Straight (readOperands count) := by
  induction count with
  | zero => exact .pure _
  | succ count ih => exact Read.Straight.uleb128.bind fun _ => ih.bind fun _ => .pure _

theorem straight_readStandard (header : Header) (opcode : UInt8) :
    Read.Straight (readStandard header opcode) := by
  unfold readStandard
  split
  · exact .pure _
  · exact Read.Straight.uleb128.map
  · exact Read.Straight.sleb128.map
  · exact Read.Straight.uleb128.map
  · exact Read.Straight.uleb128.map
  · exact .pure _
  · exact .pure _
  · exact .pure _
  · exact Read.Straight.uint16.map
  · exact (straight_readOperands _).map

theorem straight_readBody (header : Header) (head : Head) :
    Read.Straight (readBody header head) := by
  cases head with
  | special opcode => exact .pure _
  | standard opcode => exact straight_readStandard header opcode
  | emptyExtended => exact .pure _
  | extended opcode operandLength =>
      refine (Read.Straight.bytes _).bind fun operand => ?_
      split
      · exact .pure _
      · exact .throw _

theorem straight_read (header : Header) : Read.Straight (Instruction.read header) :=
  (straight_readHead header).bind fun head => straight_readBody header head

theorem local_next (header : Header) : Read.Local (next header) :=
  Read.local_atEnd (Read.local_pure _) (straight_read header).map.isLocal

/-- A special opcode is one for its header. -/
def AdmittedBy (header : Header) : Instruction → Prop
  | special opcode => header.opcodeBase ≤ opcode
  | _ => True

def Head.AdmittedBy (header : Header) : Head → Prop
  | special opcode => header.opcodeBase ≤ opcode
  | _ => True

theorem admitted_readHead (header : Header) :
    Read.Ensures (Head.AdmittedBy header) (readHead header) := by
  refine Read.ensures_bind fun opcode => ?_
  split
  · rename_i special
    exact Read.ensures_pure special
  · split
    · refine Read.ensures_bind fun length => ?_
      split
      · exact Read.ensures_pure trivial
      · exact Read.ensures_bind fun _ => Read.ensures_pure trivial
    · exact Read.ensures_pure trivial

theorem admitted_readStandard (header : Header) (opcode : UInt8) :
    Read.Ensures (AdmittedBy header) (readStandard header opcode) := by
  unfold readStandard
  split
  all_goals first
    | exact Read.ensures_pure trivial
    | exact Read.ensures_map fun _ => trivial

theorem admitted_ofExtended {header : Header} {opcode : UInt8} {operand : Bytes}
    {instruction : Instruction} (h : ofExtended opcode operand = .ok instruction) :
    instruction.AdmittedBy header := by
  unfold ofExtended at h
  split at h
  · cases h; trivial
  · cases h; trivial
  · split at h <;> cases h
    trivial
  · cases h; trivial

theorem admitted_readBody {header : Header} {head : Head} (h : head.AdmittedBy header) :
    Read.Ensures (AdmittedBy header) (readBody header head) := by
  cases head with
  | special opcode => exact Read.ensures_pure h
  | standard opcode => exact admitted_readStandard header opcode
  | emptyExtended => exact Read.ensures_pure trivial
  | extended opcode operandLength =>
      refine Read.ensures_bind fun operand => ?_
      split
      · rename_i made
        exact Read.ensures_pure (admitted_ofExtended made)
      · exact Read.ensures_throw _

theorem admitted_read (header : Header) :
    Read.Ensures (AdmittedBy header) (Instruction.read header) :=
  (admitted_readHead header).bind fun _ => admitted_readBody

theorem admitted_listing (header : Header) (r : Reader) :
    ∀ instruction ∈ (listing header r).items, instruction.AdmittedBy header := by
  refine Read.Ensures.gather ?_ r
  refine Read.ensures_bind fun _ => ?_
  split
  · exact Read.ensures_pure (by simp)
  · intro s answer t success
    obtain ⟨instruction, read, rfl⟩ := Read.map_eq_ok.mp success
    intro item same
    cases same
    exact admitted_read header read

/-- The file that an instruction adds to the table. -/
def definedFile? : Instruction → Option FileEntry
  | defineFile entry _ => some entry
  | _ => none

end Instruction

/-- Executing succeeds where everything was read and no advance overflows. -/
theorem execute_eq_ok_iff {header : Header} {files : List FileEntry} {code : Gathered Instruction}
    {machine : Machine} :
    execute header files code = .ok machine ↔
      (∀ instruction ∈ code.items, ¬instruction.Overflows header) ∧ code.fault = none
        ∧ machine = (Machine.start header files).run header code.items := by
  rw [execute]
  by_cases overflow : code.items.any (·.Overflows header)
  · rw [if_pos overflow]
    constructor
    · intro impossible
      cases impossible
    · rintro ⟨fits, _⟩
      obtain ⟨instruction, member, exceeds⟩ := List.any_eq_true.mp overflow
      exact absurd (of_decide_eq_true exceeds) (fits instruction member)
  · have fits : ∀ instruction ∈ code.items, ¬instruction.Overflows header := by
      simpa using overflow
    rw [if_neg overflow]
    cases code.fault with
    | some cause => simp
    | none =>
        rw [Except.ok.injEq]
        exact ⟨fun ran => ⟨fits, rfl, ran.symm⟩, fun both => both.2.2.symm⟩

/-- An advance that overflows is met before a fault behind it. -/
theorem execute_eq_advanceOverflow_iff {header : Header} {files : List FileEntry}
    {code : Gathered Instruction} :
    execute header files code = .error .advanceOverflow ↔
      ∃ instruction ∈ code.items, instruction.Overflows header := by
  rw [execute]
  by_cases overflow : code.items.any (·.Overflows header)
  · rw [if_pos overflow, eq_self_iff_true, true_iff]
    simpa using overflow
  · have fits : ¬∃ instruction ∈ code.items, instruction.Overflows header := by
      simpa using overflow
    rw [if_neg overflow, iff_false_right fits]
    cases code.fault <;> exact fun impossible => nomatch impossible

/-- A fault is what ends the execution if no advance overflows in front of it. -/
theorem execute_eq_fault_iff {header : Header} {files : List FileEntry} {code : Gathered Instruction}
    {cause : Fault} :
    execute header files code = .error (.fault cause) ↔
      (∀ instruction ∈ code.items, ¬instruction.Overflows header) ∧ code.fault = some cause := by
  rw [execute]
  by_cases overflow : code.items.any (·.Overflows header)
  · rw [if_pos overflow]
    obtain ⟨instruction, member, exceeds⟩ := List.any_eq_true.mp overflow
    exact ⟨nofun, fun h => absurd (of_decide_eq_true exceeds) (h.1 instruction member)⟩
  · have fits : ∀ instruction ∈ code.items, ¬instruction.Overflows header := by
      simpa using overflow
    rw [if_neg overflow]
    cases code.fault with
    | none => exact ⟨nofun, nofun⟩
    | some other =>
        rw [Except.error.injEq, DecodeError.fault.injEq, Option.some.injEq]
        exact ⟨fun same => ⟨fits, same⟩, fun h => h.2⟩

/-- Code runs behind other bytes as it runs alone. -/
theorem execute_listing_eq_ok_iff {header : Header} {files : List FileEntry} {r s : Reader}
    (same : r.rest = s.rest) {machine : Machine} :
    execute header files (listing header r) = .ok machine
      ↔ execute header files (listing header s) = .ok machine := by
  obtain ⟨items, _, faults⟩ : (listing header r).items = (listing header s).items ∧ _ :=
    (Instruction.local_next header).gather same
  have clean : (listing header r).fault = none ↔ (listing header s).fault = none :=
    Fault.eq_none_iff_of_unplaced faults
  rw [execute_eq_ok_iff, execute_eq_ok_iff, items, clean]

theorem files_execute (header : Header) (machine : Machine) (instruction : Instruction) :
    (Machine.execute header machine instruction).files.toList
      = machine.files.toList ++ instruction.definedFile?.toList := by
  cases instruction <;>
    simp [Machine.execute, Machine.update, Machine.emit, Machine.close, Instruction.definedFile?]

/-- A run keeps the files it is given and adds those that instructions define, in order. -/
theorem files_run (header : Header) (machine : Machine) (instructions : List Instruction) :
    (machine.run header instructions).files.toList
      = machine.files.toList ++ instructions.filterMap Instruction.definedFile? := by
  induction instructions generalizing machine with
  | nil => simp [Machine.run]
  | cons instruction instructions ih =>
      have later := ih (Machine.execute header machine instruction)
      rw [Machine.run, List.foldl_cons, ← Machine.run, later, files_execute, List.append_assoc]
      cases added : instruction.definedFile? <;> simp [added]

end DspFirmware.LineTable

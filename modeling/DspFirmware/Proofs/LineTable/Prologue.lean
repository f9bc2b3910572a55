import DspFirmware.LineTable.Program
import DspFirmware.Proofs.Outcome
import DspFirmware.Proofs.Reading

/-!
What reading a program has found out when it succeeds: where the program ends, and which headers it
accepts. A program is a beginning of the bytes it is read from, and nothing else of them matters.
-/

namespace DspFirmware

namespace Read

theorem runOn_uint32_eq_ok_iff {data : Bytes} {value : UInt32} :
    runOn uint32 data = .ok value ↔
      4 ≤ data.length ∧ value = UInt32.ofNat (Bytes.ofLittleEndian (data.take 4)) := by
  rw [runOn_eq_ok_iff]
  constructor
  · rintro ⟨s, success⟩
    obtain ⟨number, t, read, hValue⟩ := bind_eq_ok.mp success
    obtain ⟨run, u, hBytes, hNumber⟩ := bind_eq_ok.mp read
    obtain ⟨rfl, hData, hPos⟩ := bytes_eq_ok hBytes
    have inside := u.pos_le
    rw [hData, hPos] at inside
    refine ⟨by simpa [Reader.ofBytes] using inside, ?_⟩
    rw [← (pure_eq_ok.mp hValue).1, ← (pure_eq_ok.mp hNumber).1]
    rfl
  · rintro ⟨enough, rfl⟩
    refine ⟨(Reader.ofBytes data).advance 4 enough, ?_⟩
    refine bind_eq_ok.mpr ⟨_, _, bind_eq_ok.mpr ⟨data.take 4, _, ?_, rfl⟩, rfl⟩
    exact bytes_of_le enough

/-- A choice in front of a sequence, as the sequence has it behind either branch. -/
theorem ite_bind_eq_ok {c : Prop} [Decidable c] {first second : Read α} {next : α → Read β}
    {r s : Reader} {answer : β}
    (h : (if c then first >>= next else second >>= next) r = .ok answer s) :
    ∃ middle t, (¬c → second r = .ok middle t) ∧ next middle t = .ok answer s := by
  split at h
  · rename_i chosen
    obtain ⟨middle, t, _, after⟩ := bind_eq_ok.mp h
    exact ⟨middle, t, absurd chosen, after⟩
  · obtain ⟨middle, t, taken, after⟩ := bind_eq_ok.mp h
    exact ⟨middle, t, fun _ => taken, after⟩

end Read

namespace LineTable

open Read

/-- What a program is cut to: a beginning of the bytes that is as long as it says itself. -/
theorem cut_eq_ok_iff {data part : Bytes} :
    Program.cut data = .ok part ↔
      part <+: data ∧ ∃ unitLength, runOn uint32 part = .ok unitLength
        ∧ part.length = 4 + unitLength.toNat := by
  constructor
  · intro h
    obtain ⟨unitLength, read, h⟩ := Outcome.bind_eq_ok.mp h
    obtain ⟨_, hUnit⟩ := runOn_uint32_eq_ok_iff.mp read
    dsimp only at h
    split at h
    · rename_i enough
      cases h
      have total : (data.take (4 + unitLength.toNat)).length = 4 + unitLength.toNat :=
        List.length_take_of_le (Bytes.holds_iff.mp enough)
      refine ⟨List.take_prefix _ _, unitLength, runOn_uint32_eq_ok_iff.mpr ⟨by omega, ?_⟩, total⟩
      rw [hUnit, List.take_take]
      congr 3
      omega
    · cases h
  · rintro ⟨⟨trailing, rfl⟩, unitLength, read, total⟩
    obtain ⟨enough, hUnit⟩ := runOn_uint32_eq_ok_iff.mp read
    refine Outcome.bind_eq_ok.mpr ⟨unitLength, runOn_uint32_eq_ok_iff.mpr ⟨?_, ?_⟩, ?_⟩
    · rw [List.length_append]
      omega
    · rw [hUnit, List.take_append_of_le_length enough]
    · rw [← total, if_pos (by simp), List.take_left]
      rfl

/-- Reading a header begins with its unit length, and refuses a line range of zero. Before the fourth
version an operation fills an instruction. -/
theorem Header.of_read {r s : Reader} {header : Header} (h : Header.read r = .ok header s) :
    (∃ t, uint32 r = .ok header.unitLength t) ∧ header.lineRange ≠ 0
      ∧ (header.version < 4 → header.maxOperations = 1) := by
  obtain ⟨unitLength, _, hUnit, h⟩ := bind_eq_ok.mp h
  obtain ⟨version, _, _, h⟩ := bind_eq_ok.mp h
  split at h
  · obtain ⟨_, _, refused, _⟩ := bind_eq_ok.mp h
    cases refused
  obtain ⟨prologueLength, _, _, h⟩ := bind_eq_ok.mp h
  obtain ⟨minInstructionLength, _, _, h⟩ := bind_eq_ok.mp h
  obtain ⟨maxOperations, _, single, h⟩ := ite_bind_eq_ok h
  obtain ⟨defaultIsStatement, _, _, h⟩ := bind_eq_ok.mp h
  obtain ⟨lineBase, _, _, h⟩ := bind_eq_ok.mp h
  obtain ⟨lineRange, _, _, h⟩ := bind_eq_ok.mp h
  split at h
  · obtain ⟨_, _, refused, _⟩ := bind_eq_ok.mp h
    cases refused
  · rename_i positive
    obtain ⟨opcodeBase, _, _, h⟩ := bind_eq_ok.mp h
    obtain ⟨operandCounts, _, _, h⟩ := bind_eq_ok.mp h
    obtain ⟨rfl, _⟩ := pure_eq_ok.mp h
    exact ⟨⟨_, hUnit⟩, positive,
      fun older => (pure_eq_ok.mp (single (UInt16.not_le.mpr older))).1.symm⟩

theorem Prologue.header_of_read {r s : Reader} {prologue : Prologue}
    (h : Prologue.read r = .ok prologue s) : ∃ t, Header.read r = .ok prologue.header t := by
  obtain ⟨header, t, hHeader, h⟩ := bind_eq_ok.mp h
  obtain ⟨directories, _, _, h⟩ := bind_eq_ok.mp h
  obtain ⟨files, _, _, h⟩ := bind_eq_ok.mp h
  obtain ⟨reader, _, _, h⟩ := bind_eq_ok.mp h
  dsimp only at h
  split at h
  · obtain ⟨_, _, refused, _⟩ := bind_eq_ok.mp h
    cases refused
  · obtain ⟨_, _, _, h⟩ := bind_eq_ok.mp h
    obtain ⟨rfl, _⟩ := pure_eq_ok.mp h
    exact ⟨t, hHeader⟩

namespace Program

theorem opened_eq_ok_iff {data : Bytes} {prologue : Prologue} {r : Reader} :
    opened data = .ok (prologue, r) ↔
      ∃ part, cut data = .ok part ∧ Prologue.read (.ofBytes part) = .ok prologue r := by
  rw [opened, Outcome.bind_eq_ok]
  refine exists_congr fun part => and_congr_right fun _ => ?_
  cases Prologue.read (.ofBytes part) with
  | ok other s => simp [pure, Except.pure]
  | error cause s => simp [throw, throwThe, MonadExceptOf.throw]

theorem parse_eq_ok_iff {data : Bytes} {program : Program} :
    parse data = .ok program ↔
      ∃ prologue r machine, opened data = .ok (prologue, r)
        ∧ execute prologue.header prologue.files (listing prologue.header r) = .ok machine
        ∧ program = ⟨prologue.header, prologue.directories, machine.files.toList,
            machine.rows.toList⟩ := by
  rw [parse]
  cases opened data with
  | error cause => simp
  | ok both =>
      obtain ⟨prologue, r⟩ := both
      constructor
      · intro h
        obtain ⟨machine, ran, made⟩ := Outcome.bind_eq_ok.mp h
        exact ⟨prologue, r, machine, rfl, ran, (Except.ok.inj made).symm⟩
      · rintro ⟨_, _, machine, ⟨rfl, rfl⟩, ran, rfl⟩
        exact Outcome.bind_eq_ok.mpr ⟨machine, ran, rfl⟩

/-- A program that was opened has a line range, and is as long as its header says. -/
theorem of_opened {data : Bytes} {prologue : Prologue} {r : Reader}
    (h : opened data = .ok (prologue, r)) :
    prologue.header.lineRange ≠ 0
      ∧ ∃ part, cut data = .ok part ∧ part.length = prologue.header.totalLength := by
  obtain ⟨part, hCut, read⟩ := opened_eq_ok_iff.mp h
  obtain ⟨s, hHeader⟩ := Prologue.header_of_read read
  obtain ⟨⟨t, hUnit⟩, positive, _⟩ := Header.of_read hHeader
  obtain ⟨_, unitLength, hLength, total⟩ := cut_eq_ok_iff.mp hCut
  rw [runOn_eq_ok_iff.mpr ⟨t, hUnit⟩, Except.ok.injEq] at hLength
  exact ⟨positive, part, hCut, by rw [total, ← hLength, Header.totalLength]⟩

/-- What follows a program has no influence on it. -/
theorem opened_append {data : Bytes} {opening : Prologue × Reader} (h : opened data = .ok opening)
    (trailing : Bytes) : opened (data ++ trailing) = .ok opening := by
  obtain ⟨part, hCut, read⟩ := opened_eq_ok_iff.mp h
  obtain ⟨beginning, declared⟩ := cut_eq_ok_iff.mp hCut
  have longer : cut (data ++ trailing) = .ok part :=
    cut_eq_ok_iff.mpr ⟨beginning.trans (List.prefix_append _ _), declared⟩
  exact opened_eq_ok_iff.mpr ⟨part, longer, read⟩

theorem parse_append {data : Bytes} {program : Program} (h : parse data = .ok program)
    (trailing : Bytes) : parse (data ++ trailing) = .ok program := by
  obtain ⟨prologue, r, machine, hOpened, ran, made⟩ := parse_eq_ok_iff.mp h
  exact parse_eq_ok_iff.mpr ⟨prologue, r, machine, opened_append hOpened trailing, ran, made⟩

/-- A program lies inside the bytes it is read from. -/
theorem totalLength_le {data : Bytes} {program : Program} (h : parse data = .ok program) :
    program.header.totalLength ≤ data.length := by
  obtain ⟨prologue, r, machine, hOpened, _, rfl⟩ := parse_eq_ok_iff.mp h
  obtain ⟨_, part, hCut, total⟩ := of_opened hOpened
  rw [← total]
  exact (cut_eq_ok_iff.mp hCut).1.length_le

end Program

end LineTable

end DspFirmware

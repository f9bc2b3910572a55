import DspFirmware.Proofs.Exactness
import DspFirmware.Proofs.LineTable.Arithmetic
import DspFirmware.Proofs.LineTable.RoundTrip
import DspFirmware.Proofs.Records

/-!
Which bytes of a program matter. The fixed fields and the tables are read from the beginning of it, its
instructions from where the header says that they start, and neither what lies between them nor what
lies behind the program is looked at. Cut off anywhere, it is found to be out of bounds.
-/

namespace DspFirmware

namespace Read

open Reader

theorem peek_eq_ok {r s : Reader} {byte : UInt8} (success : peek r = .ok byte s) :
    s = r ∧ ∃ rest, r.rest = byte :: rest := by
  rw [peek] at success
  split at success
  · cases success
  · rename_i ahead
    cases success
    exact ⟨rfl, _, ahead⟩

/-- A text is empty only in front of its terminator. -/
theorem ne_empty_of_text {r s : Reader} {name : String} {byte : UInt8} {rest : Bytes}
    (success : text r = .ok name s) (ahead : r.rest = byte :: rest) (filled : byte ≠ 0) :
    name ≠ "" := by
  rw [text] at success
  split at success
  · cases success
    intro empty
    have nothing : Text.untilZero r.rest = [] := Text.latin1_injective empty
    rw [ahead] at nothing
    simp [Text.untilZero, filled] at nothing
  · cases success

end Read

namespace LineTable

open Read

/-- The fields take at least fifteen bytes. -/
theorem Header.exact_read : Exact 15 Header.read := by
  -- The widths of the fields in their order, without the one that came with the fourth version.
  change Exact (4 + (2 + (4 + (1 + (0 + (1 + (1 + (1 + (1 + 0))))))))) Header.read
  apply exact_uint32.bind
  intro unitLength
  apply exact_uint16.bind
  intro version
  apply Exact.refuse
  apply exact_uint32.bind
  intro prologueLength
  apply exact_uint8.bind
  intro minInstructionLength
  apply Exact.ite_bind (exact_uint8.mono (Nat.zero_le 1)) (exact_pure 1)
  intro maxOperations
  apply exact_uint8.bind
  intro defaultIsStatement
  apply exact_int8.bind
  intro lineBase
  apply exact_uint8.bind
  intro lineRange
  apply Exact.refuse
  apply exact_uint8.bind
  intro opcodeBase
  exact ((exact_bytes _).mono (Nat.zero_le _)).bind fun operandCounts => exact_pure _

theorem exact_nextDirectory : Exact 1 nextDirectory := exact_text.bind fun _ => exact_pure _

theorem FileEntry.exact_read : Exact 1 FileEntry.read :=
  exact_text.bind fun _ => exact_uleb128.bind fun _ => exact_uleb128.bind fun _ =>
    exact_uleb128.bind fun _ => exact_pure _

/-- The byte in front of the reader tells a file entry from the end of the table. -/
theorem nextFile_eq_ok {r s : Reader} {answer : Option FileEntry}
    (success : nextFile r = .ok answer s) :
    ∃ byte rest, r.rest = byte :: rest ∧ if byte = 0 then answer = none
      else ∃ entry, answer = some entry ∧ FileEntry.read r = .ok entry s := by
  obtain ⟨byte, t, peeked, after⟩ := bind_eq_ok.mp success
  obtain ⟨rfl, rest, ahead⟩ := peek_eq_ok peeked
  refine ⟨byte, rest, ahead, ?_⟩
  split
  · rename_i zero
    rw [if_pos zero] at after
    obtain ⟨_, _, _, ended⟩ := bind_eq_ok.mp after
    exact (pure_eq_ok.mp ended).1.symm
  · rename_i filled
    rw [if_neg filled] at after
    obtain ⟨entry, read, same⟩ := map_eq_ok.mp after
    exact ⟨entry, same.symm, read⟩

theorem exact_nextFile : Exact 1 nextFile := by
  apply exact_of_yields
  intro passed ahead answer s success
  obtain ⟨byte, rest, rfl, found⟩ := nextFile_eq_ok success
  split at found
  · rename_i zero
    exact ⟨[0], rest, none, by rw [zero]; rfl, Nat.le_refl 1, yields_nextFile_last⟩
  · rename_i filled
    obtain ⟨entry, _, read⟩ := found
    obtain ⟨run, behind, whole, enough, rfl, reads⟩ := FileEntry.exact_read read
    cases run with
    | nil => cases enough
    | cons first run =>
        cases whole
        exact ⟨byte :: run, behind, some entry, rfl, enough, yields_nextFile_of_cons reads filled⟩

/-- The tables end behind the fifteen bytes of the fields and the two bytes that close the tables. -/
theorem exact_tables : Exact 17 Prologue.tables :=
  Header.exact_read.bind fun _ => exact_nextDirectory.list.bind fun _ =>
    exact_nextFile.list.bind fun _ => exact_pure _

theorem ensures_nextDirectory :
    Ensures (∀ directory ∈ ·, directory ≠ "") nextDirectory := by
  apply ensures_bind
  intro directory
  apply ensures_pure
  split
  · simp
  · rename_i filled
    simpa using filled

theorem ensures_nextFile : Ensures (∀ entry ∈ ·, entry.name ≠ "") nextFile := by
  intro r answer s success entry member
  obtain ⟨byte, rest, ahead, found⟩ := nextFile_eq_ok success
  split at found
  · rw [found] at member
    cases member
  · rename_i filled
    obtain ⟨other, rfl, read⟩ := found
    cases member
    obtain ⟨name, t, hName, read⟩ := bind_eq_ok.mp read
    obtain ⟨_, _, _, read⟩ := bind_eq_ok.mp read
    obtain ⟨_, _, _, read⟩ := bind_eq_ok.mp read
    obtain ⟨_, _, _, read⟩ := bind_eq_ok.mp read
    obtain ⟨rfl, _⟩ := pure_eq_ok.mp read
    exact ne_empty_of_text hName ahead filled

/-- The entries of both tables have names. -/
theorem ensures_tables :
    Ensures (fun prologue => (∀ directory ∈ prologue.directories, directory ≠ "")
      ∧ ∀ entry ∈ prologue.files, entry.name ≠ "") Prologue.tables :=
  ensures_bind fun _ => ensures_nextDirectory.list.bind fun _ directories =>
    ensures_nextFile.list.bind fun _ files => ensures_pure ⟨directories, files⟩

theorem Prologue.enter_eq_ok_iff {prologue answer : Prologue} {start : Nat} {r s : Reader} :
    prologue.enter start r = .ok answer s ↔ answer = prologue ∧ r.pos ≤ start
      ∧ ∃ inside : start ≤ r.data.length, s = r.moveTo start inside := by
  have entered : prologue.enter start r
      = (if start < r.pos then throw (.prologueOverrun start r.pos) >>= fun _ : Unit => _
          else seek start >>= fun _ => pure prologue : Read Prologue) r := rfl
  rw [entered]
  by_cases overrun : start < r.pos
  · rw [if_pos overrun]
    constructor
    · intro impossible
      cases impossible
    · rintro ⟨_, before, _⟩
      exact absurd before (Nat.not_le.mpr overrun)
  · rw [if_neg overrun, bind_eq_ok]
    constructor
    · rintro ⟨_, t, moved, made⟩
      obtain ⟨rfl, rfl⟩ := pure_eq_ok.mp made
      exact ⟨rfl, Nat.not_lt.mp overrun, seek_eq_ok_iff.mp moved⟩
    · rintro ⟨rfl, _, moved⟩
      exact ⟨(), s, seek_eq_ok_iff.mpr moved, rfl⟩

/-- Reading a prologue is reading its tables, and moving on to where the instructions start. -/
theorem Prologue.read_eq_ok_iff {prologue : Prologue} {r s : Reader} :
    Prologue.read r = .ok prologue s ↔
      ∃ t, Prologue.tables r = .ok prologue t ∧ t.pos ≤ prologue.header.programOffset
        ∧ ∃ inside : prologue.header.programOffset ≤ t.data.length,
          s = t.moveTo prologue.header.programOffset inside := by
  rw [read_eq_tables_bind, bind_eq_ok]
  constructor
  · rintro ⟨other, t, read, entered⟩
    obtain ⟨rfl, before, moved⟩ := enter_eq_ok_iff.mp entered
    exact ⟨t, read, before, moved⟩
  · rintro ⟨t, read, before, moved⟩
    exact ⟨prologue, t, read, enter_eq_ok_iff.mpr ⟨rfl, before, moved⟩⟩

/-- What was cut off for a program that was opened is as long as its header says. -/
theorem Program.cut_of_opened {data : Bytes} {prologue : Prologue} {r : Reader}
    (h : opened data = .ok (prologue, r)) :
    cut data = .ok (data.take prologue.header.totalLength) := by
  obtain ⟨_, part, hCut, total⟩ := of_opened h
  rw [hCut, ← total, ← List.prefix_iff_eq_take.mp (cut_eq_ok_iff.mp hCut).1]

/-- The parts that a program is read from: the tables at its beginning and the instructions from where
they start to where the program ends. -/
structure Program.Parts (data : Bytes) (prologue : Prologue) (tables : Bytes) (machine : Machine) :
    Prop where
  inside : prologue.header.totalLength ≤ data.length
  front : tables <+: data.take prologue.header.totalLength
  reads : Yields Prologue.tables tables prologue
  least : 17 ≤ tables.length
  before : tables.length ≤ prologue.header.programOffset
  starts : prologue.header.programOffset ≤ prologue.header.totalLength
  runs : run prologue.header prologue.files
      ((data.take prologue.header.totalLength).drop prologue.header.programOffset) = .ok machine

theorem Program.Parts.opened {data tables : Bytes} {prologue : Prologue} {machine : Machine}
    (h : Parts data prologue tables machine) :
    ∃ r, opened data = .ok (prologue, r)
      ∧ r.rest = (data.take prologue.header.totalLength).drop prologue.header.programOffset := by
  obtain ⟨rest, whole⟩ := h.front
  have length : (tables ++ rest).length = prologue.header.totalLength := by
    rw [whole]
    exact List.length_take_of_le h.inside
  have starts : prologue.header.programOffset ≤ (Reader.between tables rest).data.length :=
    h.starts.trans (Nat.le_of_eq length.symm)
  have read : Prologue.read (.ofBytes (tables ++ rest)) = .ok prologue _ :=
    Prologue.read_eq_ok_iff.mpr ⟨_, h.reads [] rest, h.before, starts, rfl⟩
  obtain ⟨t, hHeader⟩ := Prologue.header_of_read read
  obtain ⟨⟨u, hUnit⟩, _⟩ := Header.of_read hHeader
  have cut : cut data = .ok (tables ++ rest) :=
    cut_eq_ok_iff.mpr ⟨whole ▸ List.take_prefix _ _, _, runOn_eq_ok_iff.mpr ⟨u, hUnit⟩, length⟩
  refine ⟨_, opened_eq_ok_iff.mpr ⟨_, cut, read⟩, ?_⟩
  rw [← whole]
  rfl

theorem Program.exists_parts {data : Bytes} {prologue : Prologue} {r : Reader} {machine : Machine}
    (h : opened data = .ok (prologue, r))
    (ran : execute prologue.header prologue.files (listing prologue.header r) = .ok machine) :
    ∃ tables, Parts data prologue tables machine := by
  obtain ⟨part, hCut, read⟩ := opened_eq_ok_iff.mp h
  obtain ⟨s, hTables, before, starts, rfl⟩ := Prologue.read_eq_ok_iff.mp read
  rw [Reader.ofBytes_eq_between] at hTables
  obtain ⟨tables, rest, rfl, least, rfl, reads⟩ := exact_tables hTables
  have whole : tables ++ rest = data.take prologue.header.totalLength :=
    Except.ok.inj (hCut.symm.trans (cut_of_opened h))
  have inside : prologue.header.totalLength ≤ data.length := by
    obtain ⟨_, part, hPart, total⟩ := of_opened h
    rw [← total]
    exact (cut_eq_ok_iff.mp hPart).1.length_le
  have same : ((Reader.between _ rest).moveTo _ starts).rest
      = (Reader.ofBytes ((data.take prologue.header.totalLength).drop
          prologue.header.programOffset)).rest := by
    rw [← whole]
    rfl
  exact ⟨tables, {
    inside
    front := ⟨rest, whole⟩
    reads
    least
    before
    starts := starts.trans ((congrArg List.length whole).trans_le (List.length_take_le _ _))
    runs := (execute_listing_eq_ok_iff same).mp ran }⟩

theorem Program.parse_eq_ok_iff_parts {data : Bytes} {program : Program} :
    parse data = .ok program ↔ ∃ prologue tables machine, Parts data prologue tables machine
      ∧ program = ⟨prologue.header, prologue.directories, machine.files.toList,
          machine.rows.toList⟩ := by
  rw [parse_eq_ok_iff]
  constructor
  · rintro ⟨prologue, r, machine, hOpened, ran, made⟩
    obtain ⟨tables, parts⟩ := exists_parts hOpened ran
    exact ⟨prologue, tables, machine, parts, made⟩
  · rintro ⟨prologue, tables, machine, parts, made⟩
    obtain ⟨r, hOpened, rest⟩ := parts.opened
    have same : r.rest = (Reader.ofBytes _).rest := rest
    exact ⟨prologue, r, machine, hOpened, (execute_listing_eq_ok_iff same).mpr parts.runs, made⟩

/-- A program cut off in front of its end is out of bounds: its length field does not lie inside the
bytes, or the length does not. -/
theorem Program.parse_of_short {data part : Bytes} {unitLength : UInt32}
    (read : runOn uint32 data = .ok unitLength) (beginning : part <+: data)
    (short : part.length < 4 + unitLength.toNat) :
    ∃ offset count, parse part = .error (.fault (.outOfBounds offset count part.length)) := by
  have failed : ∃ offset count, cut part = .error (.outOfBounds offset count part.length) := by
    rcases Straight.uint32.isStreaming.runOn beginning with same | ⟨offset, count, _, fault⟩
    · have missing : ¬Bytes.holds (4 + unitLength.toNat) part := fun held =>
        absurd (Bytes.holds_iff.mp held) (Nat.not_le.mpr short)
      refine ⟨0, 4 + unitLength.toNat, ?_⟩
      rw [cut, same, read]
      exact if_neg missing
    · exact ⟨offset, count, by rw [cut, fault]; rfl⟩
  obtain ⟨offset, count, fault⟩ := failed
  refine ⟨offset, count, ?_⟩
  rw [parse, opened, fault]
  rfl

/-- What a parsed program says about its bytes. Its tables end behind seventeen bytes at least, its
instructions start there or later, and the program ends where they start or later and inside the bytes.
Entries of the tables have names. Other bytes that agree on the tables and on the instructions are
parsed to the same program, and those of the program without its last ones are out of bounds. -/
theorem Program.parse_extent {data : Bytes} {program : Program} (h : parse data = .ok program) :
    let header := program.header
    let unit := data.take header.totalLength
    ∃ prologue s, Prologue.tables (.ofBytes unit) = .ok prologue s
      ∧ prologue.header = header ∧ prologue.directories = program.directories
      ∧ prologue.files <+: program.files
      ∧ (17 ≤ s.pos ∧ s.pos ≤ header.programOffset ∧ header.programOffset ≤ header.totalLength
        ∧ header.totalLength ≤ data.length)
      ∧ (∀ directory ∈ program.directories, directory ≠ "")
      ∧ (∀ entry ∈ prologue.files, entry.name ≠ "")
      ∧ (∀ other : Bytes, header.totalLength ≤ other.length → other.take s.pos = data.take s.pos →
          (other.take header.totalLength).drop header.programOffset
            = unit.drop header.programOffset →
          parse other = .ok program)
      ∧ ∀ part, part <+: unit → part ≠ unit →
          ∃ offset count, parse part = .error (.fault (.outOfBounds offset count part.length)) := by
  obtain ⟨prologue, tables, machine, parts, rfl⟩ := parse_eq_ok_iff_parts.mp h
  intro header unit
  obtain ⟨rest, whole⟩ := parts.front
  have total : unit.length = header.totalLength := List.length_take_of_le parts.inside
  have read : Prologue.tables (.ofBytes unit) = .ok prologue (.between tables rest) := by
    rw [show unit = tables ++ rest from whole.symm]
    exact parts.reads [] rest
  obtain ⟨directories, files⟩ := ensures_tables read
  refine ⟨prologue, _, read, rfl, rfl, ?added,
    ⟨parts.least, parts.before, parts.starts, parts.inside⟩, directories, files, ?agree, ?short⟩
  case added =>
    obtain ⟨_, _, rfl⟩ := execute_eq_ok_iff.mp parts.runs
    change prologue.files <+: ((Machine.start prologue.header prologue.files).run _ _).files.toList
    rw [files_run]
    exact List.prefix_append prologue.files _
  case agree =>
    intro other inside front code
    have inner : tables.length ≤ header.totalLength := parts.before.trans parts.starts
    have begins : tables <+: other.take header.totalLength := by
      have same : other.take tables.length = data.take tables.length := front
      have here := List.prefix_iff_eq_take.mp parts.front
      rw [List.take_take, Nat.min_eq_left inner] at here
      rw [List.prefix_iff_eq_take, List.take_take, Nat.min_eq_left inner, same]
      exact here
    refine parse_eq_ok_iff_parts.mpr ⟨prologue, tables, machine, { parts with
      inside, front := begins, runs := ?_ }, rfl⟩
    rw [code]
    exact parts.runs
  case short =>
    intro part beginning proper
    obtain ⟨unitLength, hUnit, length⟩ : ∃ unitLength, runOn uint32 unit = .ok unitLength
        ∧ unit.length = 4 + unitLength.toNat := by
      obtain ⟨r, hOpened, _⟩ := parts.opened
      exact (cut_eq_ok_iff.mp (cut_of_opened hOpened)).2
    apply parse_of_short hUnit beginning
    rw [← length]
    exact Nat.lt_of_le_of_ne beginning.length_le fun same =>
      proper (beginning.eq_of_length same)

/-- Another byte behind the tables and other bytes behind the program make no difference. -/
theorem Program.parse_extent_padding :
    Program.parse Draft.sample.encode = .ok {
        header := Draft.sample.header
        directories := ["src"]
        files := [⟨"a.c", 1, 0, 300⟩, ⟨"b.c", 1, 0, 0⟩]
        rows := [⟨12, 1, 6, 0, true, false, false⟩, ⟨12, 1, 6, 0, true, false, true⟩] }
      ∧ Program.parse ({ Draft.sample with padding := [0x11] }.encode ++ [7, 7])
        = Program.parse Draft.sample.encode
      ∧ ∃ offset count, Program.parse (Draft.sample.encode.take 20)
        = .error (.fault (.outOfBounds offset count 20)) := by
  have parsed : Program.parse Draft.sample.encode = .ok {
      header := Draft.sample.header
      directories := ["src"]
      files := [⟨"a.c", 1, 0, 300⟩, ⟨"b.c", 1, 0, 0⟩]
      rows := [⟨12, 1, 6, 0, true, false, false⟩, ⟨12, 1, 6, 0, true, false, true⟩] } := by
    decide +kernel
  obtain ⟨prologue, s, read, _, _, _, _, _, _, agree, short⟩ := parse_extent parsed
  let position : Read Nat := do
    let _ ← Prologue.tables
    return (← get).pos
  have ends : runOn position (Draft.sample.encode.take Draft.sample.header.totalLength) = .ok 38 := by
    decide +kernel
  have here : position (.ofBytes (Draft.sample.encode.take Draft.sample.header.totalLength))
      = .ok s.pos s := bind_eq_ok.mpr ⟨prologue, s, read, rfl⟩
  rw [runOn, here] at ends
  rw [Except.ok.inj ends] at agree
  refine ⟨parsed, ?_, short _ ?_ ?_⟩
  · rw [parsed]
    exact agree _ (by decide +kernel) (by decide +kernel) (by decide +kernel)
  · exact List.prefix_take_iff.mpr ⟨List.take_prefix _ _, by decide +kernel⟩
  · decide +kernel

end LineTable

end DspFirmware

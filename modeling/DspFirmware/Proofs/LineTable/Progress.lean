import DspFirmware.Proofs.LineTable.Extent
import DspFirmware.Proofs.LineTable.Section

/-!
Bounds on the work of decoding. What is repeated moves forward with every item, so that no list is longer
than the bytes it is read from. An instruction adds a row or a file at most, and what a program holds fits
into its length. A walk over a section takes one step for each of its programs, and ends.
-/

namespace DspFirmware

namespace Read

/-- Where a repeated step stops, it is at least as many bytes behind its start as it has delivered items. -/
theorem exists_stop {step : Read (Option α)} (progress : Progress step) (r : Reader) :
    ∃ s : Reader, s.data = r.data ∧ r.pos + (r.gather step progress).items.length ≤ s.pos
      ∧ ((r.gather step progress).fault = none → step s = .ok none (r.gather step progress).stop) := by
  -- What lies ahead gets shorter with every item.
  induction length : r.rest.length using Nat.strongRecOn generalizing r with
  | _ size ih =>
      cases taken : step r with
      | error cause s =>
          rw [Reader.gather_of_error taken]
          exact ⟨r, rfl, Nat.le_refl _, nofun⟩
      | ok delivered s =>
          cases delivered with
          | none =>
              rw [Reader.gather_of_none taken]
              exact ⟨r, rfl, Nat.le_refl _, fun _ => taken⟩
          | some item =>
              obtain ⟨same, further⟩ := progress taken
              have shorter : s.rest.length < size := length ▸ Reader.length_rest_lt same further
              obtain ⟨t, inside, behind, stopped⟩ := ih _ shorter s rfl
              rw [Reader.gather_of_some taken]
              refine ⟨t, inside.trans same, ?_, stopped⟩
              change r.pos + ((s.gather step progress).items.length + 1) ≤ t.pos
              omega

/-- There are no more items than bytes, with a fault or without. -/
theorem length_gather_le {step : Read (Option α)} (progress : Progress step) (r : Reader) :
    (r.gather step progress).items.length ≤ r.rest.length := by
  obtain ⟨s, same, behind, _⟩ := exists_stop progress r
  have inside := s.pos_le
  rw [Reader.length_rest]
  rw [same] at inside
  omega

/-- A list takes a byte for each item, and one for what ends it. -/
theorem Consumes.list {step : Read (Option α)} {progress : Progress step} (h : Consumes step)
    {r s : Reader} {items : List α} (success : list step progress r = .ok items s) :
    r.pos + items.length < s.pos := by
  obtain ⟨t, _, behind, stopped⟩ := exists_stop progress r
  rw [list_eq_ok.mp success] at behind stopped
  exact Nat.lt_of_le_of_lt behind (h (stopped rfl)).2

end Read

namespace LineTable

open Read

/-- The fields take fifteen bytes, and each table takes a byte for each entry and one for its end. -/
theorem Prologue.length_of_yields {tables : Bytes} {prologue : Prologue}
    (reads : Yields Prologue.tables tables prologue) :
    17 + prologue.directories.length + prologue.files.length ≤ tables.length := by
  obtain ⟨header, r, hHeader, read⟩ := bind_eq_ok.mp (reads [] [])
  obtain ⟨run, rest, _, fields, rfl, _⟩ := Header.exact_read hHeader
  obtain ⟨directories, s, hDirectories, read⟩ := bind_eq_ok.mp read
  obtain ⟨files, t, hFiles, read⟩ := bind_eq_ok.mp read
  obtain ⟨rfl, rfl⟩ := pure_eq_ok.mp read
  have first := consumes_nextDirectory.list hDirectories
  have second := consumes_nextFile.list hFiles
  simp only [Reader.pos_between, List.nil_append] at first second
  dsimp only
  omega

namespace Machine

/-- The rows and files that a machine holds. -/
def entries (machine : Machine) : Nat := machine.rows.size + machine.files.size

theorem entries_execute_le (header : Header) (machine : Machine) (instruction : Instruction) :
    (machine.execute header instruction).entries ≤ machine.entries + 1 := by
  cases instruction <;> simp [entries, execute, update, emit, close] <;> omega

theorem entries_run_le (header : Header) (machine : Machine) (instructions : List Instruction) :
    (machine.run header instructions).entries ≤ machine.entries + instructions.length := by
  induction instructions generalizing machine with
  | nil => exact Nat.le_refl _
  | cons instruction instructions ih =>
      have first := entries_execute_le header machine instruction
      have others := ih (machine.execute header instruction)
      rw [List.length_cons]
      change (run header (machine.execute header instruction) instructions).entries ≤ _
      omega

end Machine

/-- Code adds an entry for each of its bytes at most. -/
theorem entries_le_of_run {header : Header} {files : List FileEntry} {code : Bytes} {machine : Machine}
    (ran : run header files code = .ok machine) : machine.entries ≤ files.length + code.length := by
  obtain ⟨_, _, rfl⟩ := execute_eq_ok_iff.mp ran
  have held := (Machine.start header files).entries_run_le header (listing header (.ofBytes code)).items
  have start : (Machine.start header files).entries = files.length := Nat.zero_add _
  have few : (listing header (.ofBytes code)).items.length ≤ code.length :=
    length_gather_le (Instruction.progress_next header) (.ofBytes code)
  omega

/-- The rows of a program and the entries of both tables, with the files that instructions have added. -/
def Program.entries (program : Program) : Nat :=
  program.rows.length + program.directories.length + program.files.length

/-- Seventeen bytes of a program are neither instructions nor entries. -/
theorem Program.entries_add_le {data : Bytes} {program : Program} (h : parse data = .ok program) :
    17 + program.entries ≤ program.header.totalLength := by
  obtain ⟨prologue, tables, machine, parts, rfl⟩ := parse_eq_ok_iff_parts.mp h
  have front := Prologue.length_of_yields parts.reads
  have before := parts.before
  have starts := parts.starts
  have held := entries_le_of_run parts.runs
  rw [List.length_drop, List.length_take_of_le parts.inside] at held
  simp only [Machine.entries] at held
  simp only [entries, Array.length_toList]
  omega

/-- The programs of a section that are decoded share its bytes. A failure comes last. -/
theorem exists_decoded (data : Bytes) :
    ∃ (decoded : List Program) (failure : Option DecodeError),
      programs data = decoded.map .ok ++ failure.toList.map .error
        ∧ 17 * decoded.length + (decoded.map Program.entries).sum ≤ data.length := by
  induction data using section_induction with
  | nil => exact ⟨[], none, programs_nil, Nat.le_refl _⟩
  | error data cause filled read =>
      exact ⟨[], some cause, programs_of_error filled read, Nat.zero_le _⟩
  | ok data program read ih =>
      obtain ⟨decoded, failure, behind, held⟩ := ih
      have inside := Program.totalLength_le read
      have first := Program.entries_add_le read
      refine ⟨program :: decoded, failure, by rw [programs_of_ok read, behind]; rfl, ?_⟩
      rw [List.length_drop] at held
      rw [List.map_cons, List.sum_cons, List.length_cons]
      omega

/-- How far a walk over a section has come, and whether it has met a program that cannot be decoded. -/
structure Walk where
  offset : Nat
  failed : Bool

namespace Walk

variable {data : Bytes}

def start : Walk := ⟨0, false⟩

/-- The item at the offset, and the walk behind it. A walk that has failed is over. -/
def next (data : Bytes) (walk : Walk) : Option (Except DecodeError Program × Walk) :=
  if walk.failed ∨ data.length ≤ walk.offset then none
  else
    match Program.parse (data.drop walk.offset) with
    | .ok program => some (.ok program, { walk with offset := walk.offset + program.header.totalLength })
    | .error error => some (.error error, { walk with failed := true })

/-- What a walk has still to come to. -/
def ahead (data : Bytes) (walk : Walk) : List (Except DecodeError Program) :=
  if walk.failed then [] else programs (data.drop walk.offset)

/-- Taking steps, a walk passes some items. -/
inductive Passes (data : Bytes) : Walk → List (Except DecodeError Program) → Walk → Prop where
  | nil (walk : Walk) : Passes data walk [] walk
  | cons {walk later last : Walk} {item : Except DecodeError Program}
      {items : List (Except DecodeError Program)} (first : walk.next data = some (item, later))
      (others : Passes data later items last) : Passes data walk (item :: items) last

/-- A walk is over where nothing lies ahead of it. -/
theorem ahead_of_next_eq_none {walk : Walk} (h : walk.next data = none) : walk.ahead data = [] := by
  rw [next] at h
  split at h
  · rename_i ended
    rw [ahead]
    split
    · rfl
    · rename_i running
      rw [List.drop_eq_nil_of_le (ended.resolve_left running), programs_nil]
  · split at h <;> cases h

/-- A step passes the first item ahead. Behind a program it is at a later offset, and inside the section
in any case. -/
theorem of_next_eq_some {walk later : Walk} {item : Except DecodeError Program}
    (h : walk.next data = some (item, later)) :
    walk.ahead data = item :: later.ahead data ∧ later.offset ≤ data.length
      ∧ ∀ program, item = .ok program → walk.offset < later.offset := by
  rw [next] at h
  split at h
  · cases h
  · rename_i running
    obtain ⟨sound, inside⟩ := not_or.mp running
    rw [ahead, if_neg sound]
    split at h
    · rename_i program read
      cases h
      have least := Program.entries_add_le read
      have bound := Program.totalLength_le read
      rw [List.length_drop] at bound
      refine ⟨?_, by dsimp only; omega, fun _ _ => by dsimp only; omega⟩
      rw [programs_of_ok read, List.drop_drop, ahead, if_neg sound]
    · rename_i error read
      cases h
      have filled : data.drop walk.offset ≠ [] := by
        rw [Ne, List.drop_eq_nil_iff]
        exact inside
      refine ⟨?_, Nat.le_of_not_le inside, nofun⟩
      rw [programs_of_error filled read]
      rfl

/-- What a walk has passed is what was ahead of it less what still is. -/
theorem Passes.ahead {walk last : Walk} {items : List (Except DecodeError Program)}
    (h : Passes data walk items last) : walk.ahead data = items ++ last.ahead data := by
  induction h with
  | nil walk => rfl
  | cons first others ih => rw [(of_next_eq_some first).1, ih, List.cons_append]

/-- A walk never leaves the section. -/
theorem Passes.offset_le {walk last : Walk} {items : List (Except DecodeError Program)}
    (h : Passes data walk items last) (inside : walk.offset ≤ data.length) :
    last.offset ≤ data.length := by
  induction h with
  | nil walk => exact inside
  | cons first others ih => exact ih (of_next_eq_some first).2.1

/-- A walk that goes on passes all that is ahead of it, and then is over. -/
theorem exists_passes_ahead (walk : Walk) :
    ∃ last, Passes data walk (walk.ahead data) last ∧ last.next data = none := by
  induction items : walk.ahead data generalizing walk with
  | nil =>
      refine ⟨walk, .nil walk, ?_⟩
      cases taken : walk.next data with
      | none => rfl
      | some step =>
          have more := (of_next_eq_some taken).1
          rw [items] at more
          cases more
  | cons item others ih =>
      cases taken : walk.next data with
      | none =>
          have spent := ahead_of_next_eq_none taken
          rw [items] at spent
          cases spent
      | some step =>
          obtain ⟨first, later⟩ := step
          have more := (of_next_eq_some taken).1
          rw [items] at more
          obtain ⟨rfl, behind⟩ := List.cons.inj more
          obtain ⟨last, passes, ended⟩ := ih later behind.symm
          exact ⟨last, .cons taken passes, ended⟩

end Walk

/-- The work of decoding a section is bounded by its bytes. There is an item for every seventeen of them at
most and one more, and only the last can be a failure, be it a fault or an advance that overflows. Rows,
directories and files of all programs together are no more than the bytes that are left. A walk step by
step passes these items and ends. Wherever it is stopped, it has passed the first of them and is inside the
section, and the next program moves it on. What is repeated for the instructions and for either table takes
a byte at least every time. -/
theorem programs_bounded (data : Bytes) :
    (∃ (decoded : List Program) (failure : Option DecodeError),
        programs data = decoded.map .ok ++ failure.toList.map .error
          ∧ 17 * decoded.length + (decoded.map Program.entries).sum ≤ data.length)
      ∧ (programs data).length ≤ data.length / 17 + 1
      ∧ (∃ last, Walk.Passes data .start (programs data) last ∧ last.next data = none)
      ∧ (∀ items walk, Walk.Passes data .start items walk →
        items <+: programs data ∧ walk.offset ≤ data.length
          ∧ ∀ program later, walk.next data = some (.ok program, later) → walk.offset < later.offset)
      ∧ Consumes nextDirectory ∧ Consumes nextFile ∧ ∀ header, Consumes (Instruction.read header) := by
  have whole : Walk.ahead data .start = programs data := rfl
  refine ⟨exists_decoded data, ?_, Walk.exists_passes_ahead .start, ?_, consumes_nextDirectory,
    consumes_nextFile, Instruction.consumes_read⟩
  · obtain ⟨decoded, failure, items, held⟩ := exists_decoded data
    have last : failure.toList.length ≤ 1 := by cases failure <;> simp
    rw [items, List.length_append, List.length_map, List.length_map]
    omega
  · intro items walk passes
    refine ⟨⟨walk.ahead data, whole ▸ passes.ahead.symm⟩, passes.offset_le (Nat.zero_le _), ?_⟩
    intro program later taken
    exact (Walk.of_next_eq_some taken).2.2 program rfl

/-- Seventeen bytes are enough for a program, and a byte behind them for another item. -/
example :
    (programs [13, 0, 0, 0, 2, 0, 7, 0, 0, 0, 1, 1, 0, 1, 1, 0, 0, 9]).length = 18 / 17 + 1 := by
  decide +kernel

end LineTable

end DspFirmware

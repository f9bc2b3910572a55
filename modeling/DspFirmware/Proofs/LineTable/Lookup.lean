import DspFirmware.Proofs.LineTable.Section

/-!
What the rows and the tables of a program have to do with the answers it gives, and that the two
questions agree: a source position that was an answer has an address, and an address that was an
answer has a source position, unless its row names what is not in the tables.
-/

namespace DspFirmware.LineTable

theorem fst_mem_of_mem_neighbours {rows : List Row} {pair : Row × Row}
    (h : pair ∈ neighbours rows) : pair.1 ∈ rows :=
  (List.of_mem_zip h).1

/-- A nearest row stands in front of one that it was found with. -/
theorem exists_of_minOn?_neighbours {rows : List Row} {near : Row × Row → Bool} {f : Row → Nat}
    {row : Row} (h : (((neighbours rows).filter near).map (·.1)).minOn? f = some row) :
    ∃ next, (row, next) ∈ neighbours rows ∧ near (row, next) := by
  obtain ⟨⟨first, next⟩, inside, rfl⟩ := List.mem_map.mp (List.minOn?_mem h)
  exact ⟨next, List.mem_filter.mp inside⟩

theorem exists_find?_eq_some {xs : List α} {p : α → Bool} {x : α} (member : x ∈ xs) (h : p x) :
    ∃ found, xs.find? p = some found :=
  Option.isSome_iff_exists.mp (List.find?_isSome.mpr ⟨x, member, h⟩)

theorem oneBased?_eq_some_iff {entries : List α} {index : UInt64} {entry : α} :
    oneBased? entries index = some entry ↔
      index ≠ 0 ∧ entries[index.toNat - 1]? = some entry := by
  rw [oneBased?]
  split
  · simp_all
  · simp_all

theorem oneBased?_eq_none_iff {entries : List α} {index : UInt64} :
    oneBased? entries index = none ↔ index = 0 ∨ entries.length < index.toNat := by
  rw [oneBased?]
  split
  · simp_all
  · rename_i positive
    have : index.toNat ≠ 0 := fun zero => positive (UInt64.toNat_inj.mp zero)
    rw [List.getElem?_eq_none_iff]
    simp only [positive, false_or]
    omega

namespace Program

variable {program : Program}

/-- What the tables of a program make of a row: its position, with the names that its file has there,
or the index that is not in them. Both tables count from one. -/
inductive Resolves (program : Program) (row : Row) : Except Fault (Option Location) → Prop where
  | position {entry : FileEntry} {directory : String} (hFile : row.file ≠ 0)
      (hEntry : program.files[row.file.toNat - 1]? = some entry)
      (hIndex : entry.directoryIndex ≠ 0)
      (hDirectory : program.directories[entry.directoryIndex.toNat - 1]? = some directory) :
      Resolves program row
        (.ok (some ⟨row.address, directory, entry.name, row.line, row.column⟩))
  | noFile (h : row.file = 0 ∨ program.files.length < row.file.toNat) :
      Resolves program row (.error (.invalidFileIndex row.file))
  | noDirectory {entry : FileEntry} (hFile : row.file ≠ 0)
      (hEntry : program.files[row.file.toNat - 1]? = some entry)
      (h : entry.directoryIndex = 0
        ∨ program.directories.length < entry.directoryIndex.toNat) :
      Resolves program row (.error (.invalidDirectoryIndex entry.directoryIndex))

theorem resolves_locate (program : Program) (row : Row) :
    program.Resolves row (some <$> program.locate row) := by
  rw [locate, file]
  cases hEntry : oneBased? program.files row.file with
  | none => exact .noFile (oneBased?_eq_none_iff.mp hEntry)
  | some entry =>
      obtain ⟨hFile, hEntry⟩ := oneBased?_eq_some_iff.mp hEntry
      change program.Resolves row (some <$> (program.directory entry.directoryIndex >>= _))
      rw [directory]
      cases hDirectory : oneBased? program.directories entry.directoryIndex with
      | none => exact .noDirectory hFile hEntry (oneBased?_eq_none_iff.mp hDirectory)
      | some name =>
          obtain ⟨hIndex, hName⟩ := oneBased?_eq_some_iff.mp hDirectory
          exact .position hFile hEntry hIndex hName

theorem lookupAddress_of_some {address : UInt32} {row : Row}
    (h : program.rowForAddress address = some row) :
    program.Resolves row (program.lookupAddress address) := by
  rw [lookupAddress, h]
  exact resolves_locate program row

theorem lookupAddress_of_none {address : UInt32} (h : program.rowForAddress address = none) :
    program.lookupAddress address = .ok none := by
  rw [lookupAddress, h]

/-- An address that is not left open has a position, or a row that names what is not in the tables. -/
theorem lookupAddress_of_settled {address : UInt32} (h : program.lookupAddress address ≠ .ok none) :
    (∃ location, program.lookupAddress address = .ok (some location))
      ∨ (∃ index, program.lookupAddress address = .error (.invalidFileIndex index))
      ∨ ∃ index, program.lookupAddress address = .error (.invalidDirectoryIndex index) := by
  cases hRow : program.rowForAddress address with
  | none => exact absurd (lookupAddress_of_none hRow) h
  | some row =>
      have resolved := lookupAddress_of_some hRow
      generalize program.lookupAddress address = outcome at resolved ⊢
      cases resolved with
      | position => exact .inl ⟨_, rfl⟩
      | noFile => exact .inr (.inl ⟨_, rfl⟩)
      | noDirectory => exact .inr (.inr ⟨_, rfl⟩)

/-- The row that answers is an instruction, either at the address or below it and in front of a row
above it. -/
theorem of_rowForAddress {address : UInt32} {row : Row}
    (h : program.rowForAddress address = some row) :
    row ∈ program.rows ∧ row.endSequence = false
      ∧ (row.address = address ∨ ∃ next, (row, next) ∈ neighbours program.rows
        ∧ coversAddress address row next) := by
  rw [rowForAddress] at h
  split at h
  · rename_i exact found
    cases h
    have sought := List.find?_some found
    rw [Bool.and_eq_true, Bool.not_eq_true', beq_iff_eq] at sought
    exact ⟨List.mem_of_find?_eq_some found, sought.1, .inl sought.2⟩
  · obtain ⟨next, member, covers⟩ := exists_of_minOn?_neighbours h
    refine ⟨fst_mem_of_mem_neighbours member, ?_, .inr ⟨next, member, covers⟩⟩
    simp only [coversAddress, Bool.and_eq_true, Bool.not_eq_true'] at covers
    exact covers.1.1.1

/-- An instruction at the address is enough for an answer from there. -/
theorem rowForAddress_of_mem {address : UInt32} {row : Row} (member : row ∈ program.rows)
    (instruction : row.endSequence = false) (here : row.address = address) :
    ∃ found, program.rowForAddress address = some found ∧ found.address = address := by
  obtain ⟨found, hFound⟩ := exists_find?_eq_some
    (p := fun row => !row.endSequence && row.address == address) member (by simp [instruction, here])
  have holds := List.find?_some hFound
  rw [Bool.and_eq_true, beq_iff_eq] at holds
  refine ⟨found, ?_, holds.2⟩
  rw [rowForAddress, hFound]

/-- A file matches its own name, and its path where the path is known. -/
theorem fileMatches_of_getElem? {index : UInt64} {entry : FileEntry} (hFile : index ≠ 0)
    (hEntry : program.files[index.toNat - 1]? = some entry) :
    program.fileMatches index entry.name
      ∧ ∀ directory, entry.directoryIndex ≠ 0 →
        program.directories[entry.directoryIndex.toNat - 1]? = some directory →
        program.fileMatches index (joinPath directory entry.name) := by
  have found : program.file index = .ok entry := by
    rw [file, oneBased?_eq_some_iff.mpr ⟨hFile, hEntry⟩]
  constructor
  · simp [fileMatches, found]
  · intro directory hIndex hDirectory
    have known : program.directory entry.directoryIndex = .ok directory := by
      rw [Program.directory, oneBased?_eq_some_iff.mpr ⟨hIndex, hDirectory⟩]
    simp [fileMatches, found, known]

/-- An instruction of a queried file at the line is enough for an answer. -/
theorem lookupLocation_of_mem {query : String} {row : Row} (member : row ∈ program.rows)
    (instruction : row.endSequence = false) (matching : program.fileMatches row.file query) :
    ∃ found, program.lookupLocation query row.line = some found := by
  obtain ⟨found, hFound⟩ := exists_find?_eq_some
    (p := fun other => program.rowInFile query other && other.line == row.line) member
    (by simp [rowInFile, instruction, matching])
  refine ⟨found.address, ?_⟩
  rw [lookupLocation, hFound]

/-- The address of a line is that of an instruction. -/
theorem of_lookupLocation {query : String} {line address : UInt32}
    (h : program.lookupLocation query line = some address) :
    ∃ row ∈ program.rows, row.endSequence = false ∧ row.address = address := by
  rw [lookupLocation] at h
  split at h
  · rename_i row found
    cases h
    have sought := List.find?_some found
    rw [Bool.and_eq_true, rowInFile, Bool.and_eq_true, Bool.not_eq_true'] at sought
    exact ⟨row, List.mem_of_find?_eq_some found, sought.1.1, rfl⟩
  · obtain ⟨row, nearest, rfl⟩ := Option.map_eq_some_iff.mp h
    obtain ⟨next, member, covers⟩ := exists_of_minOn?_neighbours nearest
    rw [Bool.and_eq_true, rowInFile, Bool.and_eq_true, Bool.not_eq_true'] at covers
    exact ⟨row, fst_mem_of_mem_neighbours member, covers.1.1, rfl⟩

/-- A source position that answers an address has an address, by the name of its file and by its
path. -/
theorem lookupLocation_of_lookupAddress {address : UInt32} {location : Location}
    (h : program.lookupAddress address = .ok (some location)) :
    (∃ found, program.lookupLocation location.file location.line = some found)
      ∧ ∃ found, program.lookupLocation location.path location.line = some found := by
  cases hRow : program.rowForAddress address with
  | none =>
      rw [lookupAddress_of_none hRow] at h
      cases h
  | some row =>
      have resolved := lookupAddress_of_some hRow
      rw [h] at resolved
      obtain ⟨member, instruction, _⟩ := of_rowForAddress hRow
      cases resolved with
      | position hFile hEntry hIndex hDirectory =>
          obtain ⟨byName, byPath⟩ := fileMatches_of_getElem? hFile hEntry
          exact ⟨lookupLocation_of_mem member instruction byName,
            lookupLocation_of_mem member instruction (byPath _ hIndex hDirectory)⟩

/-- An address that answers a source position has a row at it. -/
theorem rowForAddress_of_lookupLocation {query : String} {line address : UInt32}
    (h : program.lookupLocation query line = some address) :
    ∃ row, program.rowForAddress address = some row ∧ row.address = address := by
  obtain ⟨row, member, instruction, here⟩ := of_lookupLocation h
  exact rowForAddress_of_mem member instruction here

end Program

/-- A question has the answer of a program behind others that leave it open. -/
theorem firstAnswer_eq_some_iff {ask : Program → Except Fault (Option α)}
    {items : List (Except DecodeError Program)} {answer : α} :
    firstAnswer ask items = .ok (some answer) ↔
      ∃ (earlier : List Program) (program : Program) (later : List (Except DecodeError Program)),
        items = earlier.map .ok ++ .ok program :: later
        ∧ (∀ other ∈ earlier, ask other = .ok none) ∧ ask program = .ok (some answer) := by
  induction items with
  | nil => simp [firstAnswer]
  | cons item items ih =>
      constructor
      · intro h
        cases item with
        | error error => cases h
        | ok program =>
            rw [firstAnswer] at h
            split at h
            · cases h
            · rename_i found answered
              cases h
              exact ⟨[], program, items, rfl, by simp, answered⟩
            · rename_i unanswered
              obtain ⟨earlier, other, later, rfl, passed, answered⟩ := ih.mp h
              exact ⟨program :: earlier, other, later, rfl,
                List.forall_mem_cons.mpr ⟨unanswered, passed⟩, answered⟩
      · rintro ⟨earlier, program, later, hItems, passed, answered⟩
        cases earlier with
        | nil =>
            obtain ⟨rfl, rfl⟩ := List.cons.inj hItems
            rw [firstAnswer, answered]
        | cons first earlier =>
            obtain ⟨rfl, rfl⟩ := List.cons.inj hItems
            obtain ⟨unanswered, passed⟩ := List.forall_mem_cons.mp passed
            rw [firstAnswer, unanswered]
            exact ih.mpr ⟨earlier, program, later, rfl, passed, answered⟩

theorem firstAnswer_eq_none_iff {ask : Program → Except Fault (Option α)}
    {items : List (Except DecodeError Program)} :
    firstAnswer ask items = .ok none ↔
      ∃ decoded : List Program, items = decoded.map .ok ∧ ∀ program ∈ decoded, ask program = .ok none := by
  induction items with
  | nil => exact iff_of_true rfl ⟨[], rfl, by simp⟩
  | cons item items ih =>
      constructor
      · intro h
        cases item with
        | error error => cases h
        | ok program =>
            rw [firstAnswer] at h
            split at h
            · cases h
            · cases h
            · rename_i unanswered
              obtain ⟨decoded, rfl, passed⟩ := ih.mp h
              exact ⟨program :: decoded, rfl, List.forall_mem_cons.mpr ⟨unanswered, passed⟩⟩
      · rintro ⟨decoded, hItems, passed⟩
        cases decoded with
        | nil => cases hItems
        | cons program decoded =>
            obtain ⟨rfl, rfl⟩ := List.cons.inj hItems
            obtain ⟨unanswered, passed⟩ := List.forall_mem_cons.mp passed
            rw [firstAnswer, unanswered]
            exact ih.mpr ⟨decoded, rfl, passed⟩

/-- A program that does not leave a question open ends it, if none of the programs in front of it
does so earlier. -/
theorem exists_firstAnswer_eq (ask : Program → Except Fault (Option α)) (earlier : List Program)
    {program : Program} (later : List (Except DecodeError Program))
    (settled : ask program ≠ .ok none) :
    ∃ other, ask other ≠ .ok none
      ∧ firstAnswer ask (earlier.map .ok ++ .ok program :: later)
          = (ask other).mapError .fault := by
  induction earlier with
  | nil =>
      refine ⟨program, settled, ?_⟩
      rw [List.map_nil, List.nil_append, firstAnswer]
      cases answered : ask program with
      | error cause => rfl
      | ok answer =>
          cases answer with
          | none => exact absurd answered settled
          | some answer => rfl
  | cons first earlier ih =>
      rw [List.map_cons, List.cons_append, firstAnswer]
      cases answered : ask first with
      | error cause => exact ⟨first, by simp [answered], by rw [answered]; rfl⟩
      | ok answer =>
          cases answer with
          | none => exact ih
          | some answer => exact ⟨first, by simp [answered], by rw [answered]; rfl⟩

/-- The two questions agree. What answers an address can be asked for again, by name and by path.
What answers a source position is never left open nor a fault of reading when asked for again: only
its row may name what is not in the tables. In the program that answered, the way back ends at the
address itself. -/
theorem lookups_agree (data : Bytes) :
    (∀ address location, lookupAddress data address = .ok (some location) →
      (∃ found, lookupLocation data location.file location.line = .ok (some found))
        ∧ ∃ found, lookupLocation data location.path location.line = .ok (some found))
      ∧ ∀ query line address, lookupLocation data query line = .ok (some address) →
        ((∃ location, lookupAddress data address = .ok (some location))
          ∨ (∃ index, lookupAddress data address = .error (.fault (.invalidFileIndex index)))
          ∨ ∃ index, lookupAddress data address = .error (.fault (.invalidDirectoryIndex index)))
        ∧ ∃ (earlier : List Program) (program : Program)
            (later : List (Except DecodeError Program)),
          programs data = earlier.map .ok ++ .ok program :: later
          ∧ (∀ other ∈ earlier, other.lookupLocation query line = none)
          ∧ program.lookupLocation query line = some address
          ∧ ∀ location, program.lookupAddress address = .ok (some location) →
            location.address = address := by
  constructor
  · intro address location h
    obtain ⟨earlier, program, later, walked, _, answered⟩ := firstAnswer_eq_some_iff.mp h
    have again {query : String}
        (h : ∃ found, program.lookupLocation query location.line = some found) :
        ∃ found, lookupLocation data query location.line = .ok (some found) := by
      obtain ⟨found, hFound⟩ := h
      have settled : (.ok (program.lookupLocation query location.line) : Except Fault _)
          ≠ .ok none := by simp [hFound]
      obtain ⟨other, otherSettled, outcome⟩ := exists_firstAnswer_eq
        (fun program => .ok (program.lookupLocation query location.line)) earlier later settled
      rw [lookupLocation, walked, outcome]
      cases hOther : other.lookupLocation query location.line with
      | none => exact absurd (congrArg Except.ok hOther) otherSettled
      | some found => exact ⟨found, rfl⟩
    obtain ⟨byName, byPath⟩ := Program.lookupLocation_of_lookupAddress answered
    exact ⟨again byName, again byPath⟩
  · intro query line address h
    obtain ⟨earlier, program, later, walked, passed, answered⟩ := firstAnswer_eq_some_iff.mp h
    have found : program.lookupLocation query line = some address := Except.ok.inj answered
    obtain ⟨row, hRow, here⟩ := Program.rowForAddress_of_lookupLocation found
    have resolved := Program.lookupAddress_of_some hRow
    refine ⟨?_, earlier, program, later, walked,
      fun other member => Except.ok.inj (passed other member), found, ?_⟩
    · have settled : program.lookupAddress address ≠ .ok none := by
        intro unanswered
        rw [unanswered] at resolved
        cases resolved
      obtain ⟨other, otherSettled, outcome⟩ :=
        exists_firstAnswer_eq (·.lookupAddress address) earlier later settled
      rw [lookupAddress, walked, outcome]
      rcases Program.lookupAddress_of_settled otherSettled with
        ⟨location, known⟩ | ⟨index, unknown⟩ | ⟨index, unknown⟩
      · exact .inl ⟨location, by rw [known]; rfl⟩
      · exact .inr (.inl ⟨index, by rw [unknown]; rfl⟩)
      · exact .inr (.inr ⟨index, by rw [unknown]; rfl⟩)
    · intro location answer
      rw [answer] at resolved
      cases resolved
      exact here

/-- The address of a row and its position, each from the other, behind the address itself. -/
theorem lookups_agree_sample :
    lookupAddress Draft.sample.encode 12 = .ok (some ⟨12, "src", "a.c", 6, 0⟩)
      ∧ (∃ found, lookupLocation Draft.sample.encode "src/a.c" 6 = .ok (some found))
      ∧ lookupLocation Draft.sample.encode "a.c" 6 = .ok (some 12)
      ∧ ∃ (earlier : List Program) (program : Program)
          (later : List (Except DecodeError Program)),
        programs Draft.sample.encode = earlier.map .ok ++ .ok program :: later
          ∧ program.lookupLocation "a.c" 6 = some 12 := by
  have position : lookupAddress Draft.sample.encode 12 = .ok (some ⟨12, "src", "a.c", 6, 0⟩) := by
    decide +kernel
  have address : lookupLocation Draft.sample.encode "a.c" 6 = .ok (some 12) := by decide +kernel
  obtain ⟨byAddress, byLocation⟩ := lookups_agree Draft.sample.encode
  obtain ⟨_, earlier, program, later, walked, _, answered, _⟩ := byLocation "a.c" 6 12 address
  exact ⟨position, (byAddress 12 _ position).2, address, earlier, program, later, walked, answered⟩

end DspFirmware.LineTable

import DspFirmware.Elf.Draft
import DspFirmware.Proofs.Elf.Acceptance
import DspFirmware.Proofs.Elf.Strings

/-!
The symbols of an image with their names. A name is looked up in the string table that the symbol's own
table links to. All symbols are listed, in the order of sections and of records in them, or the first one
whose name is not there decides what is reported.
-/

namespace DspFirmware.Elf

open Outcome

theorem Symbol.length_ofRecords (count : Nat) (data : Bytes) : (ofRecords count data).length = count := by
  induction count generalizing data with
  | zero => rfl
  | succ count ih => rw [ofRecords, List.length_cons, ih]

namespace Image

/-- The symbols of an image, each with the section that has it. -/
def entries (image : Image) : List (Section × Symbol) :=
  image.sections.flatMap fun table => (table.symbols?.getD []).map (table, ·)

/-- The table of a symbol links to a string table with a zero at the symbol's offset or behind it. -/
def Named (image : Image) (entry : Section × Symbol) : Prop :=
  ∃ target strings, image.sections[entry.1.header.link.toNat]? = some target
    ∧ target.stringTable? = some strings ∧ 0 ∈ strings.data.drop entry.2.nameOffset.toNat

/-- What is there in front of the zero. -/
def Names (image : Image) (entry : Section × Symbol) (name : String) : Prop :=
  ∃ target strings, image.sections[entry.1.header.link.toNat]? = some target
    ∧ target.stringTable? = some strings ∧ strings.Holds entry.2.nameOffset.toNat name

/-- Why a symbol of a table has no name. -/
inductive Offends (image : Image) (entry : Section × Symbol) : Fault → Prop where
  | missing (h : image.sections.length ≤ entry.1.header.link.toNat) :
      Offends image entry (.missingSection entry.1.header.link.toNat)
  | other {target : Section} (h : image.sections[entry.1.header.link.toNat]? = some target)
      (unlike : target.stringTable? = none) :
      Offends image entry (.notAStringTable entry.1.header.link.toNat)
  | beyond {target : Section} {strings : StringTable}
      (h : image.sections[entry.1.header.link.toNat]? = some target)
      (found : target.stringTable? = some strings)
      (past : strings.data.length < entry.2.nameOffset.toNat) :
      Offends image entry (.outOfBounds entry.2.nameOffset.toNat 0 strings.data.length)
  | unterminated {target : Section} {strings : StringTable}
      (h : image.sections[entry.1.header.link.toNat]? = some target)
      (found : target.stringTable? = some strings)
      (inside : entry.2.nameOffset.toNat ≤ strings.data.length)
      (unended : 0 ∉ strings.data.drop entry.2.nameOffset.toNat) :
      Offends image entry (.unterminatedString entry.2.nameOffset.toNat)

variable {image : Image} {entry : Section × Symbol}

theorem symbolName_eq_ok_iff {name : String} :
    image.symbolName entry.1 entry.2 = .ok name ↔ image.Names entry name := by
  rw [symbolName, Names]
  cases image.sections[entry.1.header.link.toNat]? with
  | none => simp
  | some target =>
      cases found : target.stringTable? with
      | none => simp [found]
      | some strings => simp [found, StringTable.get_eq_ok_iff]

theorem named_iff : image.Named entry ↔ ∃ name, image.Names entry name := by
  simp only [Named, Names, ← StringTable.exists_holds_iff]
  constructor
  · rintro ⟨target, strings, located, found, name, held⟩
    exact ⟨name, target, strings, located, found, held⟩
  · rintro ⟨name, target, strings, located, found, held⟩
    exact ⟨target, strings, located, found, name, held⟩

theorem symbolName_eq_error_iff {cause : Fault} :
    image.symbolName entry.1 entry.2 = .error cause ↔ image.Offends entry cause := by
  rw [symbolName]
  cases located : image.sections[entry.1.header.link.toNat]? with
  | none =>
      constructor
      · intro failed
        cases failed
        exact .missing (List.getElem?_eq_none_iff.mp located)
      · intro offends
        cases offends with
        | missing _ => rfl
        | other h _ | beyond h _ _ | unterminated h _ _ _ => cases located.symm.trans h
  | some target =>
      have inside := (List.getElem?_eq_some_iff.mp located).1
      cases found : target.stringTable? with
      | none =>
          simp only [found]
          constructor
          · intro failed
            cases failed
            exact .other located found
          · intro offends
            cases offends with
            | missing h => omega
            | other _ _ => rfl
            | beyond h strings _ | unterminated h strings _ _ =>
                cases located.symm.trans h
                cases found.symm.trans strings
      | some strings =>
          simp only [found]
          refine StringTable.get_eq_error_iff.trans ⟨?_, ?_⟩
          · rintro (⟨past, rfl⟩ | ⟨inside, unended, rfl⟩)
            · exact .beyond located found past
            · exact .unterminated located found inside unended
          · intro offends
            cases offends with
            | missing h => omega
            | other h unlike =>
                cases located.symm.trans h
                cases found.symm.trans unlike
            | beyond h other past =>
                cases located.symm.trans h
                cases found.symm.trans other
                exact .inl ⟨past, rfl⟩
            | unterminated h other inside unended =>
                cases located.symm.trans h
                cases found.symm.trans other
                exact .inr ⟨inside, unended, rfl⟩

/-- A symbol with the name that its table has for it. -/
def nameEntry (image : Image) (entry : Section × Symbol) : Except Fault (String × Symbol) := do
  return (← image.symbolName entry.1 entry.2, entry.2)

theorem nameEntry_eq_ok_iff {item : String × Symbol} :
    image.nameEntry entry = .ok item ↔ image.Names entry item.1 ∧ item.2 = entry.2 := by
  rw [nameEntry, bind_eq_ok]
  simp only [pure_eq_ok, symbolName_eq_ok_iff]
  constructor
  · rintro ⟨name, named, rfl⟩
    exact ⟨named, rfl⟩
  · rintro ⟨named, same⟩
    exact ⟨item.1, named, Prod.ext rfl same⟩

theorem exists_nameEntry_eq_ok_iff : (∃ item, image.nameEntry entry = .ok item) ↔ image.Named entry := by
  rw [named_iff]
  constructor
  · rintro ⟨item, done⟩
    exact ⟨item.1, (nameEntry_eq_ok_iff.mp done).1⟩
  · rintro ⟨name, named⟩
    exact ⟨(name, entry.2), nameEntry_eq_ok_iff.mpr ⟨named, rfl⟩⟩

theorem nameEntry_eq_error_iff {cause : Fault} :
    image.nameEntry entry = .error cause ↔ image.Offends entry cause :=
  bind_pure_eq_error.trans symbolName_eq_error_iff

/-- Listing all symbols is naming one after the other. -/
theorem symbols_eq_mapM (image : Image) : image.symbols = image.entries.mapM image.nameEntry := by
  rw [symbols, entries, mapM_flatMap]
  simp only [List.mapM_map]
  rfl

/-- The image with other links of its empty symbol tables. -/
def relinkEmpty (image : Image) (links : Section → UInt32) : Image where
  header := image.header
  sections := image.sections.map fun s =>
    if s.symbols? = some [] then { s with header := { s.header with link := links s } } else s

theorem entries_relinkEmpty (image : Image) (links : Section → UInt32) :
    (image.relinkEmpty links).entries = image.entries := by
  rw [entries, entries, relinkEmpty, List.flatMap_map]
  congr 1
  funext s
  by_cases empty : s.symbols? = some []
  · have relinked :
        ({ s with header := { s.header with link := links s } } : Section).symbols? = some [] := empty
    rw [if_pos empty, empty, relinked]
    rfl
  · rw [if_neg empty]

theorem symbolName_relinkEmpty (image : Image) (links : Section → UInt32) (table : Section)
    (symbol : Symbol) : (image.relinkEmpty links).symbolName table symbol = image.symbolName table symbol := by
  rw [symbolName, symbolName, relinkEmpty]
  simp only [List.getElem?_map]
  cases image.sections[table.header.link.toNat]? with
  | none => rfl
  | some target =>
      by_cases empty : target.symbols? = some []
      · simp only [Option.map_some, if_pos empty]
        rfl
      · simp only [Option.map_some, if_neg empty]

/-- In an image that was read, the records of a symbol table take up all of its bytes. -/
theorem length_data_of_parse {file : Bytes} {image : Image} (read : Image.parse file = .ok image)
    {s : Section} (member : s ∈ image.sections) {symbols : List Symbol}
    (found : s.symbols? = some symbols) : s.data.length = Symbol.recordSize * symbols.length := by
  obtain ⟨accepted, rfl⟩ := parse_eq_ok_iff_ofFile.mp read
  obtain ⟨i, before, rfl⟩ := List.mem_map.mp member
  have fits := accepted.contents i (List.mem_range.mp before)
  have here := Section.readFrom_ofFile fits
  rw [here.symbols] at found
  split at found
  · rename_i kind
    cases found
    have whole := fits.records kind
    rw [Symbol.length_ofRecords, Section.data_ofFile, length_storedBytes kind fits.inside,
      Symbol.recordSize]
    omega
  · cases found

/-- The number of symbols is told by the sizes of the symbol tables. -/
theorem length_entries_of_parse {file : Bytes} {image : Image} (read : Image.parse file = .ok image) :
    image.entries.length
      = ((image.sections.filter (·.symbols?.isSome)).map (·.data.length)).sum / Symbol.recordSize := by
  have sizes (sections : List Section) (members : ∀ s ∈ sections, s ∈ image.sections) :
      ((sections.filter (·.symbols?.isSome)).map (·.data.length)).sum
        = Symbol.recordSize
          * (sections.flatMap fun table => (table.symbols?.getD []).map (table, ·)).length := by
    induction sections with
    | nil => rfl
    | cons s rest ih =>
        obtain ⟨member, others⟩ := List.forall_mem_cons.mp members
        rw [List.flatMap_cons, List.length_append, List.length_map, Nat.mul_add, ← ih others]
        cases found : s.symbols? with
        | none => simp [found]
        | some symbols => simp [found, length_data_of_parse read member found]
  rw [sizes image.sections fun _ member => member, entries,
    Nat.mul_div_cancel_left _ (by decide : 0 < Symbol.recordSize)]

/-- The symbols of an image that was read are listed if each of them is named, and then all of them are,
in the order of sections and records, with their names. Otherwise the first one that is not named tells
why. The links of tables without symbols do not matter. -/
theorem symbols_outcome {file : Bytes} {image : Image} (read : Image.parse file = .ok image) :
    ((∃ found, image.symbols = .ok found) ↔ ∀ entry ∈ image.entries, image.Named entry)
    ∧ (∀ found, image.symbols = .ok found →
        List.Forall₂ (fun entry item => image.Names entry item.1 ∧ item.2 = entry.2) image.entries found
        ∧ found.length = ((image.sections.filter (·.symbols?.isSome)).map (·.data.length)).sum / 16)
    ∧ (∀ cause, image.symbols = .error cause ↔ ∃ front entry behind,
        image.entries = front ++ entry :: behind ∧ (∀ earlier ∈ front, image.Named earlier)
          ∧ image.Offends entry cause)
    ∧ ∀ links, (image.relinkEmpty links).symbols = image.symbols := by
  refine ⟨?listed, ?items, ?refused, ?relinked⟩
  case listed =>
    rw [symbols_eq_mapM, exists_mapM_eq_ok_iff]
    exact forall₂_congr fun entry _ => exists_nameEntry_eq_ok_iff
  case items =>
    intro found done
    rw [symbols_eq_mapM, mapM_eq_ok_iff] at done
    refine ⟨done.imp fun _ _ named => nameEntry_eq_ok_iff.mp named, ?_⟩
    rw [← done.length_eq]
    exact length_entries_of_parse read
  case refused =>
    intro cause
    rw [symbols_eq_mapM, mapM_eq_error_iff]
    simp only [exists_nameEntry_eq_ok_iff, nameEntry_eq_error_iff]
  case relinked =>
    intro links
    rw [symbols_eq_mapM, symbols_eq_mapM, entries_relinkEmpty]
    congr 1
    funext entry
    rw [nameEntry, nameEntry, symbolName_relinkEmpty]

/-- Two symbols, one with the end of the other's name, in front of the strings they link to, and an empty
table that links to nothing. -/
def sharing : Draft where
  machine := 0xf3
  entry := 0
  sections :=
    [⟨".symtab", symbolTableType, 0, [1, 2].flatMap fun place =>
        Symbol.encode ⟨place, 0, 0, 0x12, 0, 1⟩, 3, 16⟩,
      ⟨".dynsym", dynamicSymbolsType, 0, [], 99, 16⟩, ⟨".strtab", stringTableType, 0, [0, 0x61, 0x62, 0], 0, 0⟩]

theorem symbols_outcome_sharing :
    ∃ image found, Image.parse (sharing.encode .fileHeader) = .ok image ∧ image.symbols = .ok found
      ∧ found.map Prod.fst = ["ab", "b"] ∧ (∀ entry ∈ image.entries, image.Named entry)
      ∧ found.length = ((image.sections.filter (·.symbols?.isSome)).map (·.data.length)).sum / 16
      ∧ (image.relinkEmpty fun _ => 1000).symbols = .ok found := by
  have evaluated : ((Image.parse (sharing.encode .fileHeader)).bind fun image =>
      image.symbols.map (·.map Prod.fst)) = .ok ["ab", "b"] := rfl
  cases read : Image.parse (sharing.encode .fileHeader) with
  | error cause => rw [read] at evaluated; cases evaluated
  | ok image =>
      rw [read] at evaluated
      obtain ⟨listed, items, _, relinked⟩ := symbols_outcome read
      cases done : image.symbols with
      | error cause =>
          change image.symbols.map _ = _ at evaluated
          rw [done] at evaluated
          cases evaluated
      | ok found =>
          change image.symbols.map _ = _ at evaluated
          rw [done] at evaluated
          exact ⟨image, found, rfl, done, Except.ok.inj evaluated, listed.mp ⟨found, done⟩,
            (items found done).2, (relinked _).trans done⟩

end Image

end DspFirmware.Elf

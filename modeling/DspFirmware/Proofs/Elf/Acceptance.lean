import DspFirmware.Proofs.Elf.Table
import DspFirmware.Proofs.Text.Names

/-!
Which byte strings are images, and what is read from them. Every number in a file is the file's own
claim about itself, so that acceptance comes down to ranges that have to lie in the file. An accepted
file determines its image.
-/

namespace DspFirmware.Elf

open Outcome

namespace Contents

/-- What the type of a section says about bytes that are whole records where it asks for records. -/
def typed (kind : UInt32) (data : Bytes) : Contents :=
  if kind = stringTableType then .strings ⟨data⟩
  else if kind = symbolTableType ∨ kind = dynamicSymbolsType then
    .symbols ⟨data, Symbol.ofRecords (data.length / Symbol.recordSize) data⟩
  else .generic data

theorem ofKind_eq_ok_iff {name : String} {kind : UInt32} {data : Bytes} {contents : Contents} :
    ofKind name kind data = .ok contents ↔
      (kind = symbolTableType ∨ kind = dynamicSymbolsType → data.length % Symbol.recordSize = 0) ∧
        contents = typed kind data := by
  rw [ofKind, typed]
  by_cases strings : kind = stringTableType
  · simp [strings, stringTableType, symbolTableType, dynamicSymbolsType, eq_comm]
  · rw [if_neg strings, if_neg strings]
    by_cases symbols : kind = symbolTableType ∨ kind = dynamicSymbolsType
    · rw [if_pos symbols, if_pos symbols, SymbolTable.parse]
      by_cases whole : data.length % Symbol.recordSize = 0
      · simp [whole, eq_comm]
      · simp [symbols, whole]
    · simp [symbols, eq_comm]

end Contents

/-- The name of section `i` can be read from a file: from its start to the end of the names all bytes
lie in the file, and one of them is zero. -/
structure NameFits (file : Bytes) (i : Nat) : Prop where
  stored : headerWord file (declaredNames file) 4 ≠ 8
  start : nameStart file i ≤ namesEnd file
  inside : namesEnd file ≤ file.length
  terminated : 0 ∈ (file.drop (nameStart file i)).take (namesEnd file - nameStart file i)

/-- The bytes of section `i` can be read from a file, as symbols if they are some. -/
structure ContentsFit (file : Bytes) (i : Nat) : Prop where
  inside : headerWord file i 4 ≠ 8 →
    headerWord file i 16 + headerWord file i 20 ≤ file.length
  records : headerWord file i 4 = 2 ∨ headerWord file i 4 = 11 → headerWord file i 20 % 16 = 0

/-- What a file has to be for an image to be read from it. -/
structure Acceptable (file : Bytes) : Prop where
  magic : file.take 4 = [0x7f, 0x45, 0x4c, 0x46]
  fields : 52 ≤ file.length
  identification : file.field 4 1 = 1 ∧ file.field 5 1 = 1 ∧ file.field 6 1 = 1
  /-- Where section 0 gives the number of sections, its header is read even if there are none. -/
  headers : tableStart file ≠ 0 → HeadersFit file (max 1 (declaredCount file))
  names : file.field 50 2 ≠ 0 → declaredCount file ≠ 0 →
    (1 ≤ declaredNames file ∧ declaredNames file < declaredCount file) ∧
      ∀ i < declaredCount file, NameFits file i
  contents : ∀ i < declaredCount file, ContentsFit file i

/-- The name of section `i` in a file, empty in a file without names. -/
def nameBytes (file : Bytes) (i : Nat) : Bytes :=
  if file.field 50 2 = 0 then [] else Text.untilZero (file.drop (nameStart file i))

/-- The bytes of section `i` in a file. -/
def storedBytes (file : Bytes) (i : Nat) : Bytes :=
  if headerWord file i 4 = 8 then []
  else (file.drop (headerWord file i 16)).take (headerWord file i 20)

/-- Section `i` as a file has it. -/
def Section.ofFile (file : Bytes) (i : Nat) : Section where
  name := Text.latin1 (nameBytes file i)
  header := .ofFile file i
  contents := .typed (SectionHeader.ofFile file i).kind (storedBytes file i)

def Image.ofFile (file : Bytes) : Image where
  header := .ofFile file
  sections := (List.range (declaredCount file)).map (Section.ofFile file)

namespace NameTable

/-- A name is read between its start and the end of all names. -/
theorem name?_range_eq_some_iff {file name : Bytes} {first last offset : Nat} :
    (NameTable.range first last).name? file offset = some name ↔
      (first + offset ≤ last ∧ last ≤ file.length ∧
        0 ∈ (file.drop (first + offset)).take (last - (first + offset))) ∧
      name = Text.untilZero (file.drop (first + offset)) := by
  rw [name?]
  generalize first + offset = start
  by_cases before : start ≤ last
  · rw [if_pos before]
    cases located : file.slice? start (last - start) with
    | none =>
        have beyond := Bytes.slice?_eq_none_iff.mp located
        have outside : ¬ last ≤ file.length := by omega
        simp [outside]
    | some part =>
        obtain ⟨enough, rfl⟩ := Bytes.slice?_eq_some_iff.mp located
        have inside : last ≤ file.length := by omega
        by_cases found : 0 ∈ (file.drop start).take (last - start)
        · simp [found, before, inside, Text.untilZero_take found, eq_comm]
        · simp [found]
  · simp [before]

theorem name?_ofFile_eq_some_iff {file : Bytes} (sections : declaredCount file ≠ 0)
    {i : Nat} {name : Bytes} :
    (NameTable.ofFile file).name? file (headerWord file i 0) = some name ↔
      (file.field 50 2 ≠ 0 → NameFits file i) ∧ name = nameBytes file i := by
  rw [NameTable.ofFile, nameBytes]
  by_cases unnamed : file.field 50 2 = 0
  · simp [unnamed, name?, eq_comm]
  · simp only [unnamed, sections, or_self, if_false, ne_eq, not_false_eq_true, forall_const]
    by_cases absent : headerWord file (declaredNames file) 4 = 8
    · have unreadable : ¬ NameFits file i := fun fits => fits.stored absent
      simp [absent, name?, unreadable]
    · rw [if_neg absent, name?_range_eq_some_iff]
      refine and_congr_left fun _ => ?_
      constructor
      · rintro ⟨start, inside, terminated⟩
        exact ⟨absent, start, inside, terminated⟩
      · intro fits
        exact ⟨fits.start, fits.inside, fits.terminated⟩

end NameTable

theorem SectionHeader.bytes?_ofFile_eq_some_iff {file data : Bytes} {i : Nat} :
    (SectionHeader.ofFile file i).bytes? file = some data ↔
      (headerWord file i 4 ≠ 8 → headerWord file i 16 + headerWord file i 20 ≤ file.length) ∧
        data = storedBytes file i := by
  have kind := kind_ofFile_eq_iff file i emptyType
  rw [bytes?, storedBytes, toNat_offset_ofFile, toNat_size_ofFile]
  by_cases empty : headerWord file i 4 = 8
  · simp [kind.mpr empty, empty, eq_comm]
  · rw [if_neg (mt kind.mp empty), if_neg empty, Bytes.slice?_eq_some_iff]
    simp [empty]

/-- A section is read when its name, its bytes and what its type makes of them are. -/
theorem Section.parse_eq_ok_iff {file : Bytes} {names : NameTable} {header : SectionHeader}
    {s : Section} :
    Section.parse file names header = .ok s ↔
      ∃ name data contents, names.name? file header.nameOffset.toNat = some name ∧
        header.bytes? file = some data ∧
        Contents.ofKind (Text.latin1 name) header.kind data = .ok contents ∧
        s = ⟨Text.latin1 name, header, contents⟩ := by
  rw [Section.parse]
  cases names.name? file header.nameOffset.toNat with
  | none => simp [throw_ne_ok]
  | some name =>
      cases header.bytes? file with
      | none => simp [throw_ne_ok]
      | some data =>
          simp only [bind_eq_ok, pure_eq_ok]
          simp

/-- A section of symbols has bytes, as many as its header says. -/
theorem length_storedBytes {file : Bytes} {i : Nat}
    (symbols : headerWord file i 4 = 2 ∨ headerWord file i 4 = 11)
    (inside : headerWord file i 4 ≠ 8 → headerWord file i 16 + headerWord file i 20 ≤ file.length) :
    (storedBytes file i).length = headerWord file i 20 := by
  have stored : headerWord file i 4 ≠ 8 := by omega
  have enough := inside stored
  rw [storedBytes, if_neg stored]
  apply List.length_take_of_le
  rw [List.length_drop]
  omega

theorem records_storedBytes_iff {file : Bytes} {i : Nat}
    (inside : headerWord file i 4 ≠ 8 → headerWord file i 16 + headerWord file i 20 ≤ file.length) :
    ((SectionHeader.ofFile file i).kind = symbolTableType ∨
        (SectionHeader.ofFile file i).kind = dynamicSymbolsType →
        (storedBytes file i).length % Symbol.recordSize = 0) ↔
      (headerWord file i 4 = 2 ∨ headerWord file i 4 = 11 → headerWord file i 20 % 16 = 0) := by
  simp only [SectionHeader.kind_ofFile_eq_iff]
  refine imp_congr_right fun symbols => ?_
  rw [length_storedBytes symbols inside, Symbol.recordSize]

/-- A section is read when its name and its bytes can be. -/
theorem Section.parse_ofFile_eq_ok_iff {file : Bytes} (sections : declaredCount file ≠ 0) {i : Nat}
    {s : Section} :
    Section.parse file (.ofFile file) (.ofFile file i) = .ok s ↔
      ((file.field 50 2 ≠ 0 → NameFits file i) ∧ ContentsFit file i) ∧ s = .ofFile file i := by
  simp only [Section.parse_eq_ok_iff, SectionHeader.toNat_nameOffset_ofFile,
    NameTable.name?_ofFile_eq_some_iff sections, SectionHeader.bytes?_ofFile_eq_some_iff,
    Contents.ofKind_eq_ok_iff]
  constructor
  · rintro ⟨_, _, _, ⟨named, rfl⟩, ⟨inside, rfl⟩, ⟨records, rfl⟩, rfl⟩
    exact ⟨⟨named, inside, (records_storedBytes_iff inside).mp records⟩, rfl⟩
  · rintro ⟨⟨named, fits⟩, rfl⟩
    exact ⟨_, _, _, ⟨named, rfl⟩, ⟨fits.inside, rfl⟩,
      ⟨(records_storedBytes_iff fits.inside).mpr fits.records, rfl⟩, rfl⟩

/-- Headers are read into sections when each of them is. -/
theorem forall₂_parse_iff {file : Bytes} {sections : List Section} :
    List.Forall₂ (fun header s => Section.parse file (.ofFile file) header = .ok s)
        ((List.range (declaredCount file)).map (SectionHeader.ofFile file)) sections ↔
      (∀ i < declaredCount file, (file.field 50 2 ≠ 0 → NameFits file i) ∧ ContentsFit file i) ∧
        sections = (List.range (declaredCount file)).map (Section.ofFile file) := by
  cases count : declaredCount file with
  | zero => simp
  | succ last =>
      -- The name table is only there if a section is.
      have declared : declaredCount file ≠ 0 := by omega
      simp only [List.forall₂_map_left_iff, Section.parse_ofFile_eq_ok_iff declared,
        List.forall₂_and_left, List.mem_range]
      refine and_congr_right fun _ => ?_
      rw [forall₂_eq_map]

namespace Image

/-- An accepted file determines its image. -/
theorem parse_eq_ok_iff_ofFile {file : Bytes} {image : Image} :
    Image.parse file = .ok image ↔ Acceptable file ∧ image = .ofFile file := by
  rw [parse_eq_ok_iff]
  simp only [FileHeader.parse_eq_ok_iff]
  constructor
  · rintro ⟨table, names, ⟨start, long, marks, header⟩, hTable, hNames, hSections⟩
    rw [header] at hTable hNames
    obtain ⟨headers, rfl⟩ := FileHeader.sectionTable_ofFile_eq_ok_iff.mp hTable
    obtain ⟨index, rfl⟩ := NameTable.locate_ofFile_eq_ok_iff.mp hNames
    obtain ⟨each, sections⟩ := forall₂_parse_iff.mp hSections
    refine ⟨⟨start, long, marks, headers, fun named declared => ⟨index named declared, fun i h =>
      (each i h).1 named⟩, fun i h => (each i h).2⟩, ?_⟩
    cases image
    cases header
    cases sections
    rfl
  · rintro ⟨accepted, rfl⟩
    refine ⟨_, _, ⟨accepted.magic, accepted.fields, accepted.identification, rfl⟩,
      FileHeader.sectionTable_ofFile_eq_ok_iff.mpr ⟨accepted.headers, rfl⟩,
      NameTable.locate_ofFile_eq_ok_iff.mpr ⟨fun named declared => (accepted.names named declared).1, rfl⟩,
      forall₂_parse_iff.mpr ⟨fun i h => ⟨fun named => ?_, accepted.contents i h⟩, rfl⟩⟩
    exact (accepted.names named (by omega)).2 i h

end Image

/-- A section is what a file says about its section `i`, whatever its type makes of it. -/
structure Section.ReadFrom (s : Section) (file : Bytes) (i : Nat) : Prop where
  header : s.header.words = (List.range 10).map fun k => headerWord file i (4 * k)
  data : s.data = if headerWord file i 4 = 8 then []
    else (file.drop (headerWord file i 16)).take (headerWord file i 20)
  name : s.name = if file.field 50 2 = 0 then ""
    else Text.latin1 (Text.untilZero (file.drop (nameStart file i)))
  strings : s.stringTable? = if headerWord file i 4 = 3 then some ⟨s.data⟩ else none
  symbols : s.symbols? = if headerWord file i 4 = 2 ∨ headerWord file i 4 = 11
    then some (Symbol.ofRecords (headerWord file i 20 / 16) s.data) else none

/-- An image is what a file says. -/
structure Image.ReadFrom (image : Image) (file : Bytes) : Prop where
  kind : image.header.kind.toNat = file.field 16 2
  machine : image.header.machine.toNat = file.field 18 2
  entry : image.header.entry.toNat = file.field 24 4
  flags : image.header.flags.toNat = file.field 36 4
  count : image.sections.length = declaredCount file
  sections : ∀ (i : Nat) (h : i < image.sections.length), (image.sections[i]).ReadFrom file i

namespace Section

section

variable {s : Section} {kind : UInt32} {data : Bytes} (typed : s.contents = .typed kind data)

include typed

theorem data_of_typed : s.data = data := by
  rw [Section.data, typed, Contents.typed]
  split
  · rfl
  · split <;> rfl

theorem stringTable?_of_typed :
    s.stringTable? = if kind = stringTableType then some ⟨data⟩ else none := by
  rw [stringTable?, typed, Contents.typed]
  by_cases strings : kind = stringTableType
  · simp [strings]
  · by_cases symbols : kind = symbolTableType ∨ kind = dynamicSymbolsType <;> simp [strings, symbols]

theorem symbols?_of_typed :
    s.symbols? = if kind = symbolTableType ∨ kind = dynamicSymbolsType
      then some (Symbol.ofRecords (data.length / Symbol.recordSize) data) else none := by
  rw [symbols?, typed, Contents.typed]
  by_cases strings : kind = stringTableType
  · simp [strings, stringTableType, symbolTableType, dynamicSymbolsType]
  · by_cases symbols : kind = symbolTableType ∨ kind = dynamicSymbolsType <;> simp [strings, symbols]

end

theorem contents_ofFile (file : Bytes) (i : Nat) : (Section.ofFile file i).contents
    = .typed (SectionHeader.ofFile file i).kind (storedBytes file i) :=
  rfl

theorem data_ofFile (file : Bytes) (i : Nat) :
    (Section.ofFile file i).data = storedBytes file i :=
  data_of_typed (contents_ofFile file i)

theorem readFrom_ofFile {file : Bytes} {i : Nat} (fits : ContentsFit file i) :
    (Section.ofFile file i).ReadFrom file i := by
  have typed := contents_ofFile file i
  have data := data_ofFile file i
  refine ⟨SectionHeader.words_ofFile file i, data, ?name, ?strings, ?symbols⟩
  case name =>
    change Text.latin1 (nameBytes file i) = _
    rw [nameBytes]
    split <;> rfl
  case strings =>
    simp only [stringTable?_of_typed typed, SectionHeader.kind_ofFile_eq_iff, data]
    rfl
  case symbols =>
    simp only [symbols?_of_typed typed, SectionHeader.kind_ofFile_eq_iff, data]
    refine ite_congr rfl (fun symbols => ?_) fun _ => rfl
    rw [length_storedBytes symbols fits.inside, Symbol.recordSize]

end Section

namespace Image

/-- Reading succeeds on acceptable files and on no others, and what is read is what the file says:
its sections are as many as it declares, and each has the ten words of its header, the bytes these
locate, and its name. -/
theorem parse_acceptable (file : Bytes) :
    ((∃ image, Image.parse file = .ok image) ↔ Acceptable file) ∧
      ∀ image, Image.parse file = .ok image → image.ReadFrom file := by
  simp only [parse_eq_ok_iff_ofFile, exists_and_left, exists_eq, and_true, true_and]
  rintro _ ⟨accepted, rfl⟩
  refine ⟨Bytes.toNat_uint16_field file 16, Bytes.toNat_uint16_field file 18,
    Bytes.toNat_uint32_field file 24, Bytes.toNat_uint32_field file 36, by simp [Image.ofFile], ?_⟩
  intro i h
  have before : i < declaredCount file := by simpa [Image.ofFile] using h
  simpa [Image.ofFile] using Section.readFrom_ofFile (accepted.contents i before)

/-- An image whose only section is the whole file, its own name included. -/
def selfContained : Bytes :=
  [0x7f, 0x45, 0x4c, 0x46, 1, 1, 1, 0] ++ List.replicate 24 0 ++ [52, 0, 0, 0]
    ++ List.replicate 10 0 ++ [40, 0, 2, 0, 1, 0] ++ SectionHeader.null.encode
    ++ SectionHeader.encode { SectionHeader.null with nameOffset := 1, kind := 1, size := 132 }

theorem parse_acceptable_selfContained :
    ∃ image, Image.parse selfContained = .ok image ∧ Acceptable selfContained ∧
      image.ReadFrom selfContained ∧ image.sections.map (fun s => (s.name, s.data))
        = [("\x7fELF\x01\x01\x01", []), ("ELF\x01\x01\x01", selfContained)] := by
  have evaluated : (Image.parse selfContained).map
      (fun image => image.sections.map fun s => (s.name, s.data))
      = .ok [("\x7fELF\x01\x01\x01", []), ("ELF\x01\x01\x01", selfContained)] := rfl
  cases read : Image.parse selfContained with
  | error fault => rw [read] at evaluated; cases evaluated
  | ok image =>
      rw [read] at evaluated
      obtain ⟨accepted, found⟩ := parse_acceptable selfContained
      exact ⟨image, rfl, accepted.mp ⟨image, read⟩, found image read, Except.ok.inj evaluated⟩

end Image

end DspFirmware.Elf

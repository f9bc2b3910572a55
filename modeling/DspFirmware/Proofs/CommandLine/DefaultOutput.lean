import DspFirmware.Proofs.CommandLine.Writes
import DspFirmware.Proofs.Text.Paths

/-!
Where a container goes that no place is given for: next to the input, under its stem. That is another path
unless the input has the extension of a container itself. As no two names of a directory lead to one file
here, what is written under the one path is not found under the other.
-/

namespace DspFirmware.CommandLine

open Text

namespace Directory

variable {files : Directory} {key : String}

/-- Empty components and dots keep to a directory. -/
theorem walk_of_idle {idle : List (List Char)} (empty : Path.Idle idle) (position : Position) :
    files.walk (.directory position) idle = .directory position := by
  induction idle with
  | nil => rfl
  | cons component rest ih =>
      obtain ⟨first, later⟩ := List.forall_mem_cons.mp empty
      rw [walk, if_pos first, ih later]

/-- A walk that ends at a place for a file has found it under its name in a directory. -/
theorem exists_key_eq_of_holds_walk {position : Position} {front idle : List (List Char)} {name : List Char}
    (isName : Path.IsName name) (empty : Path.Idle idle)
    (holds : (files.walk (.directory position) (front ++ name :: idle)).Holds key) :
    ∃ names, files.walk (.directory position) front = .directory (.inside names)
      ∧ path (names ++ [name]) = key := by
  rw [walk_append] at holds
  generalize files.walk (.directory position) front = reached at holds ⊢
  cases reached with
  | directory inner =>
      simp only [walk, isName.nonempty, isName.ne_dot, isName.ne_dots, or_self, if_false] at holds
      split at holds
      · cases idle <;> cases holds
      have other (deeper : Position) : files.enter inner name ≠ .directory deeper := by
        intro entered
        rw [entered, walk_of_idle empty] at holds
        cases holds
      obtain rfl := eq_nil_of_holds_walk other holds
      cases inner with
      | inside names => exact ⟨names, rfl, (holds_at?_iff.mp holds).1⟩
      | above => cases holds
      | system names => exact absurd holds (not_holds_atSystem _)
  | _ => cases holds

theorem origin_append {parent name behind : List Char} (isName : Path.IsName name) :
    origin (parent ++ name ++ behind) = origin parent := by
  cases parent with
  | cons c parent => rfl
  | nil =>
      cases name with
      | nil => exact absurd rfl isName.nonempty
      | cons c name =>
          have slash : c ≠ '/' := fun same => isName.slashless (same ▸ List.mem_cons_self)
          simp [origin, slash]

/-- What a path to a place for a file has in front of its name leads to a directory, and the file has this
name there. -/
theorem exists_key_eq {path : String} {parent name : List Char}
    (split : Path.split? path.toList = some (parent, name)) (holds : (files.place path).Holds key) :
    ∃ names, files.walk (.directory (origin parent)) (pieces '/' parent).dropLast = .directory (.inside names)
      ∧ Directory.path (names ++ [name]) = key := by
  obtain ⟨isParent, isName, behind, trailing, whole⟩ := Path.exists_split?_eq split
  obtain ⟨idle, empty, cut⟩ := Path.exists_pieces_append isParent isName.slashless trailing
  by_cases long : pathLimit ≤ (utf8 path).length
  · rw [place_of_overlong long] at holds
    cases holds
  · rw [place_eq_walk (Nat.not_le.mp long), whole, cut, origin_append isName] at holds
    exact exists_key_eq_of_holds_walk isName empty holds

theorem intercalate_append_singleton_inj {names : List (List Char)} {name other : List Char}
    (same : ['/'].intercalate (names ++ [name]) = ['/'].intercalate (names ++ [other])) : name = other := by
  induction names with
  | nil => simpa using same
  | cons first rest ih =>
      have nonempty (last : List Char) : rest ++ [last] ≠ [] := by simp
      rw [List.cons_append, List.cons_append, List.intercalate_cons_of_ne_nil (nonempty name),
        List.intercalate_cons_of_ne_nil (nonempty other)] at same
      exact ih (List.append_cancel_left same)

/-- Paths with one parent and different names lead to different files, as no name is a link. -/
theorem ne_of_holds_place {path sibling other : String} {parent name renamed : List Char}
    (split : Path.split? path.toList = some (parent, name))
    (split' : Path.split? sibling.toList = some (parent, renamed)) (apart : name ≠ renamed)
    (holds : (files.place path).Holds key) (holds' : (files.place sibling).Holds other) : key ≠ other := by
  obtain ⟨names, walked, rfl⟩ := exists_key_eq split holds
  obtain ⟨others, again, rfl⟩ := exists_key_eq split' holds'
  cases walked.symm.trans again
  exact fun same => apart (intercalate_append_singleton_inj (String.ofList_injective same))

/-- Nothing is written to a path that ends in two dots. -/
theorem not_holds_place_of_parent_dots {path : String} {parent : List Char} (isParent : Path.IsParent parent)
    (whole : path.toList = parent ++ ['.', '.']) : ¬(files.place path).Holds key := by
  have cut : pieces '/' path.toList = (pieces '/' parent).dropLast ++ [['.', '.']] := by
    rw [whole, isParent.pieces_append]
    rfl
  exact not_holds_place_of_dots (.inr rfl) cut

/-- What opens as an image is a file, as no device has an image to read. -/
theorem exists_place_eq_file {path : String} {input : Bytes} {image : Elf.Image}
    (opened : files.openFile path = .contents input) (read : Elf.Image.parse input = .ok image) :
    ∃ name, files.place path = .file name input := by
  rw [openFile] at opened
  cases place : files.place path with
  | file name data =>
      rw [place] at opened
      cases opened
      exact ⟨name, rfl⟩
  | device device =>
      rw [place] at opened
      cases device with
      | zeros =>
          cases opened
          cases read
      | _ => cases opened
  | _ =>
      rw [place] at opened
      cases opened

end Directory

section

variable {arguments : List String} {config : Config} {parent name : List Char}

/-- A run leaves the input as it was if the output is no place for the same file. -/
theorem openFile_run_of_ne {files : Directory} (accepted : Arguments.parse arguments = .ok config)
    (apart : ∀ input output, (files.place config.input).Holds input →
      (files.place config.outputPath).Holds output → input ≠ output) :
    (run arguments files).2.openFile config.input = files.openFile config.input := by
  rw [files_run]
  cases found : writes arguments files with
  | nil => rfl
  | cons write others =>
      have member : (write.1, write.2) ∈ writes arguments files := found ▸ List.mem_cons_self
      obtain ⟨other, converts, -⟩ := mem_writes_iff.mp member
      cases accepted.symm.trans converts.accepted
      obtain ⟨input, image, opened, read, -⟩ := converts.converted
      obtain ⟨file, place⟩ := Directory.exists_place_eq_file opened read
      rw [← found, converts.writes_eq, List.foldl_cons, List.foldl_nil]
      by_cases put : ∃ key, (files.target config.outputPath).Holds key
      · obtain ⟨key, holds⟩ := put
        have there := Directory.holds_place_of_target holds
        rw [receive_of_holds holds, Directory.openFile, Directory.openFile, place,
          Directory.place_put_of_ne write.2 there place (apart file key (place ▸ .file input) there)]
      · rw [receive_of_not_holds fun key holds => put ⟨key, holds⟩]

/-- Without a place given for it, the container goes next to the input. -/
theorem outputPath_of_unset (unset : config.output = none) :
    config.outputPath.toList = Path.withExtension config.input.toList Config.containerExtension := by
  rw [Config.outputPath, unset, Option.getD_none, String.toList_ofList]

/-- The output next to an input keeps the parent and the stem. -/
theorem split?_outputPath (unset : config.output = none)
    (named : Path.split? config.input.toList = some (parent, name))
    (regular : ¬Path.EndsInDots config.input.toList) :
    Path.split? config.outputPath.toList
      = some (parent, (Path.cutName name).1 ++ '.' :: Config.containerExtension) := by
  rw [outputPath_of_unset unset]
  exact Path.split?_withExtension named regular (by decide) (by decide)

/-- A container that no place is given for goes next to the image it is made of: its path has the parent and
the stem of the input and the extension of containers, if the input does not end in two dots and an extension.
Unless the input has the extension of containers itself, this is another path. It does not matter which
arguments have asked for the conversion. -/
theorem outputPath_default (unset : config.output = none)
    (named : Path.split? config.input.toList = some (parent, name)) :
    (¬Path.EndsInDots config.input.toList →
      (∃ renamed, Path.split? config.outputPath.toList = some (parent, renamed)) ∧
      Path.stem? config.outputPath.toList = Path.stem? config.input.toList ∧
      Path.extension? config.outputPath.toList = some Config.containerExtension ∧
      (Path.components config.outputPath.toList = Path.components config.input.toList ↔
        Path.extension? config.input.toList = some Config.containerExtension)) ∧
    (Path.extension? config.input.toList ≠ some Config.containerExtension →
      Path.components config.outputPath.toList ≠ Path.components config.input.toList) := by
  obtain ⟨-, isName, -⟩ := Path.exists_split?_eq named
  obtain ⟨stem, -⟩ := Path.stem_of_isName isName
  have cut : Path.cutName ((Path.cutName name).1 ++ '.' :: Config.containerExtension)
      = ((Path.cutName name).1, some Config.containerExtension) := Path.cutName_append stem (by decide)
  have same (regular : ¬Path.EndsInDots config.input.toList) :
      Path.components config.outputPath.toList = Path.components config.input.toList ↔
        Path.extension? config.input.toList = some Config.containerExtension := by
    rw [Path.components_eq_iff (split?_outputPath unset named regular) named, eq_comm,
      Path.eq_stem_append_iff, Path.extension?_eq named]
  refine ⟨fun regular => ⟨⟨_, split?_outputPath unset named regular⟩, ?stem, ?extension, same regular⟩,
    fun other => ?apart⟩
  case stem => rw [Path.stem?_eq (split?_outputPath unset named regular), Path.stem?_eq named, cut]
  case extension => rw [Path.extension?_eq (split?_outputPath unset named regular), cut]
  case apart =>
    by_cases ends : Path.EndsInDots config.input.toList
    · rw [outputPath_of_unset unset]
      exact Path.components_withExtension_ne_of_endsInDots ends _
    · exact fun components => other ((same ends).mp components)

/-- A path through another directory, to a name with two dots in it. -/
theorem outputPath_default_twoDots :
    Arguments.parse ["-s", "out/../fw.v1.elf"] = .ok ⟨"out/../fw.v1.elf", none, true, none, none, "info"⟩ ∧
    Config.outputPath ⟨"out/../fw.v1.elf", none, true, none, none, "info"⟩ = "out/../fw.v1.cdc" ∧
    (∃ renamed, Path.split? "out/../fw.v1.cdc".toList = some ("out/../".toList, renamed)) ∧
    Path.stem? "out/../fw.v1.cdc".toList = Path.stem? "out/../fw.v1.elf".toList ∧
    Path.extension? "out/../fw.v1.cdc".toList = some ['c', 'd', 'c'] ∧
    Path.components "out/../fw.v1.cdc".toList ≠ Path.components "out/../fw.v1.elf".toList := by
  have accepted : Arguments.parse ["-s", "out/../fw.v1.elf"]
      = .ok ⟨"out/../fw.v1.elf", none, true, none, none, "info"⟩ := by decide +kernel
  have output : Config.outputPath ⟨"out/../fw.v1.elf", none, true, none, none, "info"⟩
      = "out/../fw.v1.cdc" := by decide +kernel
  have named : Path.split? "out/../fw.v1.elf".toList = some ("out/../".toList, "fw.v1.elf".toList) := by
    decide +kernel
  have regular : ¬Path.EndsInDots "out/../fw.v1.elf".toList := by
    intro ends
    obtain ⟨old, dots⟩ := ends.exists_name_eq named
    exact absurd (congrArg List.head? dots) (show some 'f' ≠ some '.' by decide)
  have other : Path.extension? "out/../fw.v1.elf".toList ≠ some Config.containerExtension := by decide +kernel
  have unset : Config.output ⟨"out/../fw.v1.elf", none, true, none, none, "info"⟩ = none := rfl
  obtain ⟨next, apart⟩ := outputPath_default unset named
  obtain ⟨parent, stem, extension, -⟩ := next regular
  have different := apart other
  rw [output] at parent stem extension different
  exact ⟨accepted, output, parent, stem, extension, different⟩

/-- Without a place given for the container, a run leaves the input reading as before, whatever the files
are, unless the input has the extension of containers itself. This takes the directory as it is modelled,
where no two names lead to one file. -/
theorem openFile_run_default (accepted : Arguments.parse arguments = .ok config)
    (unset : config.output = none) (named : Path.split? config.input.toList = some (parent, name))
    (other : Path.extension? config.input.toList ≠ some Config.containerExtension) (files : Directory) :
    (run arguments files).2.openFile config.input = files.openFile config.input := by
  apply openFile_run_of_ne accepted
  intro input output holds holds'
  by_cases ends : Path.EndsInDots config.input.toList
  · obtain ⟨front, old, isParent, -, -, -, dots⟩ :=
      Path.withExtension_of_endsInDots ends Config.containerExtension
    have whole := (outputPath_of_unset unset).trans dots
    exact absurd holds' (Directory.not_holds_place_of_parent_dots isParent whole)
  · refine Directory.ne_of_holds_place named (split?_outputPath unset named ends) ?_ holds holds'
    intro kept
    apply other
    rw [Path.extension?_eq named]
    exact Path.eq_stem_append_iff.mp kept

end

/-- The sample image can be converted, and the container is not the image. -/
theorem exists_converts_sample {arguments : List String} {files : Directory} {config : Config}
    (accepted : Arguments.parse arguments = .ok config) (unasked : config.isQuery = false)
    (filter : LogFilter.check config.logLevel = .ok ())
    (opened : files.openFile config.input = .contents sampleImage) :
    ∃ data, Converts arguments files config data ∧ data ≠ sampleImage := by
  have sizes : (Elf.Image.parse sampleImage).map
      (fun image => (Conversion.loaded image).map (·.1.header.size.toNat)) = .ok [3] := rfl
  cases read : Elf.Image.parse sampleImage with
  | error fault =>
      rw [read] at sizes
      cases sizes
  | ok image =>
      rw [read] at sizes
      have sizes : (Conversion.loaded image).map (·.1.header.size.toNat) = [3] := Except.ok.inj sizes
      have fits := (Conversion.serialize_convert_iff read Target.teak config.syncLoad).mpr
        (.inr (by rw [sizes]; decide))
      obtain ⟨data, written⟩ := fits
      refine ⟨data, ⟨accepted, isQuery_eq_false_iff.mp unasked, filter, _, image, opened, read, written⟩, ?_⟩
      rintro rfl
      obtain ⟨few, -, whole⟩ := Container.serialize_eq_ok_iff.mp written
      have size := congrArg List.length whole
      have short : sampleImage.length < Container.Header.size := by decide +kernel
      rw [Container.length_front_append_payloads few, Container.size] at size
      split at size
      · omega
      · rw [Container.Header.size] at short
        rw [Container.payloadBase] at size
        omega

/-- An image under a name with the extension of containers is lost: the container takes its place. And of a
path that ends in two dots and an extension nothing is left but the dots. -/
theorem outputPath_default_collides :
    (∃ config data, Arguments.parse ["fw.cdc"] = .ok config ∧ config.output = none ∧
      Path.split? config.input.toList = some ([], "fw.cdc".toList) ∧ config.outputPath = config.input ∧
      (run ["fw.cdc"] [("fw.cdc", sampleImage)]).2 = [("fw.cdc", data)] ∧ data ≠ sampleImage) ∧
    (∃ config, Arguments.parse ["..a"] = .ok config ∧ config.output = none ∧
      Path.split? config.input.toList = some ([], "..a".toList) ∧ config.outputPath = ".." ∧
      Path.stem? config.outputPath.toList ≠ Path.stem? config.input.toList) := by
  constructor
  · have accepted : Arguments.parse ["fw.cdc"] = .ok ⟨"fw.cdc", none, false, none, none, "info"⟩ := by
      decide +kernel
    have output : Config.outputPath ⟨"fw.cdc", none, false, none, none, "info"⟩ = "fw.cdc" := by
      decide +kernel
    have opened : Directory.openFile [("fw.cdc", sampleImage)] "fw.cdc" = .contents sampleImage := by rfl
    obtain ⟨data, converts, changed⟩ := exists_converts_sample accepted rfl (by rfl) opened
    have place : Directory.target [("fw.cdc", sampleImage)] "fw.cdc" = .file "fw.cdc" sampleImage := by rfl
    have holds : (Directory.target [("fw.cdc", sampleImage)] "fw.cdc").Holds "fw.cdc" := by
      rw [place]
      exact .file sampleImage
    refine ⟨_, data, accepted, rfl, by decide +kernel, output, ?_, changed⟩
    rw [files_run, converts.writes_eq, output, List.foldl_cons, List.foldl_nil, receive_of_holds holds]
    rfl
  · refine ⟨⟨"..a", none, false, none, none, "info"⟩, ?_⟩
    decide +kernel

end DspFirmware.CommandLine

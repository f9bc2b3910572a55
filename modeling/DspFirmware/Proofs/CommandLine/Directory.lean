import DspFirmware.CommandLine.Directory

/-!
What writing a file does to a directory. One name gets new contents, and all others keep theirs; whatever
path led to the name before leads to the new file.
-/

namespace DspFirmware.CommandLine.Directory

section

variable (files : Directory) (key : String) (data : Bytes)

theorem lookup_cons_eq_ite (file : String × Bytes) (name : String) :
    List.lookup name (file :: files) = if name = file.1 then some file.2 else files.lookup name := by
  rw [List.lookup_cons]
  by_cases same : name = file.1
  · rw [if_pos same, same, beq_self_eq_true]
  · rw [if_neg same, beq_false_of_ne same]

/-- A file is found under its name, the others as before. -/
theorem lookup_put (name : String) :
    (files.put key data).lookup name = if name = key then some data else files.lookup name := by
  have replaced : (files.map fun file => if file.1 = key then (key, data) else file).lookup name
      = if name = key then (files.lookup key).map fun _ => data else files.lookup name := by
    induction files with
    | nil => simp
    | cons file rest ih =>
        simp only [List.map_cons, lookup_cons_eq_ite, ih]
        by_cases here : file.1 = key
        · by_cases asked : name = key <;> simp [here, asked]
        · by_cases asked : name = key <;> simp [asked, here, Ne.symm here]
  rw [put]
  cases found : files.lookup key with
  | some old =>
      rw [found] at replaced
      simpa using replaced
  | none =>
      have added : List.lookup name [(key, data)] = if name = key then some data else none :=
        lookup_cons_eq_ite [] (key, data) name
      rw [if_neg (by simp), List.lookup_append, added]
      by_cases asked : name = key
      · simp [asked, found]
      · simp [asked]

/-- No name is lost. -/
theorem any_put {p : String → Bool} (held : files.any (fun file => p file.1) = true) :
    (files.put key data).any (fun file => p file.1) = true := by
  obtain ⟨file, member, holds⟩ := List.any_eq_true.mp held
  rw [List.any_eq_true, put]
  split
  · refine ⟨_, List.mem_map_of_mem member, ?_⟩
    by_cases here : file.1 = key <;> simp_all
  · exact ⟨file, List.mem_append_left _ member, holds⟩

end

variable {files : Directory} {key : String}

/-- A place that a file can be written to: a file that is there, or a name that is free. -/
inductive Place.Holds (key : String) : Place → Prop where
  | file (data : Bytes) : Place.Holds key (.file key data)
  | vacant : Place.Holds key (.vacant key)

theorem at?_eq_directory_iff {names : List (List Char)} {position : Position} :
    files.at? names = .directory position ↔ files.lookup (path names) = none
      ∧ files.any (·.1.startsWith (path names ++ "/")) = true ∧ position = .inside names := by
  rw [at?]
  cases files.lookup (path names) with
  | some old => simp
  | none =>
      by_cases below : files.any (·.1.startsWith (path names ++ "/")) = true
      · rw [if_pos below]
        simp [below, eq_comm]
      · simp [below]

theorem at?_eq_file_iff {names : List (List Char)} {data : Bytes} :
    files.at? names = .file key data ↔ path names = key ∧ files.lookup key = some data := by
  rw [at?]
  cases found : files.lookup (path names) with
  | some old =>
      constructor
      · rintro ⟨⟩
        exact ⟨rfl, found⟩
      · rintro ⟨rfl, contents⟩
        rw [Option.some.inj (found.symm.trans contents)]
  | none =>
      constructor
      · intro file
        dsimp only at file
        split at file <;> cases file
      · rintro ⟨rfl, contents⟩
        cases found.symm.trans contents

/-- Under some names there is a place for a file if they are no directory. -/
theorem holds_at?_iff {names : List (List Char)} : (files.at? names).Holds key ↔
    path names = key ∧ ∀ position, files.at? names ≠ .directory position := by
  rw [at?]
  cases files.lookup (path names) with
  | some old =>
      constructor
      · rintro ⟨⟩
        exact ⟨rfl, nofun⟩
      · rintro ⟨rfl, -⟩
        exact .file old
  | none =>
      by_cases below : files.any (·.1.startsWith (path names ++ "/")) = true
      · simp only [if_pos below]
        exact ⟨nofun, fun free => absurd rfl (free.2 _)⟩
      · simp only [if_neg below]
        constructor
        · rintro ⟨⟩
          exact ⟨rfl, nofun⟩
        · rintro ⟨rfl, -⟩
          exact .vacant

/-- What is written to one place leaves the directories as they are. -/
theorem at?_put_of_directory {names others : List (List Char)} {position : Position} (data : Bytes)
    (holds : (files.at? names).Holds key) (directory : files.at? others = .directory position) :
    (files.put key data).at? others = .directory position := by
  obtain ⟨rfl, free⟩ := holds_at?_iff.mp holds
  obtain ⟨unnamed, below, rfl⟩ := at?_eq_directory_iff.mp directory
  have apart : path others ≠ path names := by
    intro same
    rw [same] at unnamed below
    exact free _ (at?_eq_directory_iff.mpr ⟨unnamed, below, rfl⟩)
  refine at?_eq_directory_iff.mpr ⟨?_, ?_, rfl⟩
  · rw [lookup_put, if_neg apart, unnamed]
  · exact any_put files (path names) data (p := (·.startsWith (path others ++ "/"))) below

theorem at?_put_of_holds {names : List (List Char)} (data : Bytes)
    (holds : (files.at? names).Holds key) : (files.put key data).at? names = .file key data := by
  obtain ⟨rfl, -⟩ := holds_at?_iff.mp holds
  exact at?_eq_file_iff.mpr ⟨rfl, by rw [lookup_put, if_pos rfl]⟩

/-- Where it ends, a walk can be taken up again. -/
theorem walk_append (place : Place) (front rest : List (List Char)) :
    files.walk place (front ++ rest) = files.walk (files.walk place front) rest := by
  induction front generalizing place with
  | nil => rfl
  | cons component front ih =>
      cases place with
      | directory position =>
          simp only [List.cons_append, walk]
          split
          · exact ih _
          split
          · exact ih _
          split
          · cases rest <;> rfl
          · exact ih _
      | _ => cases rest <;> rfl

/-- Only a directory is gone through. -/
theorem eq_nil_of_holds_walk {place : Place} {components : List (List Char)}
    (other : ∀ position, place ≠ .directory position)
    (holds : (files.walk place components).Holds key) : components = [] := by
  cases components with
  | nil => rfl
  | cons component rest =>
      cases place with
      | directory position => exact absurd rfl (other position)
      | _ => cases holds

theorem not_holds_atSystem (names : List (List Char)) : ¬(atSystem names).Holds key := by
  rw [atSystem]
  split
  · nofun
  · nofun
  · nofun
  · split <;> nofun

/-- A path that leads to a place for a file ends under names inside the working directory, and it does so
in every working directory that has the same directories. -/
theorem exists_walk_eq_at? {position : Position} {components : List (List Char)}
    (holds : (files.walk (.directory position) components).Holds key) :
    ∃ names, (files.at? names).Holds key ∧ ∀ grown : Directory,
      (∀ others position, files.at? others = .directory position →
        grown.at? others = .directory position) →
      grown.walk (.directory position) components = grown.at? names := by
  induction components generalizing position with
  | nil => cases holds
  | cons component rest ih =>
      simp only [walk] at holds ⊢
      by_cases same : component = [] ∨ component = ['.']
      · simp only [if_pos same] at holds ⊢
        exact ih holds
      by_cases up : component = ['.', '.']
      · simp only [if_neg same, if_pos up] at holds ⊢
        exact ih holds
      by_cases long : nameLimit < (Text.utf8 (String.ofList component)).length
      · simp only [if_neg same, if_neg up, if_pos long] at holds
        cases holds
      simp only [if_neg same, if_neg up, if_neg long] at holds ⊢
      by_cases further : ∃ inner, files.enter position component = .directory inner
      · obtain ⟨inner, entered⟩ := further
        rw [entered] at holds
        obtain ⟨names, held, ends⟩ := ih holds
        refine ⟨names, held, fun grown kept => ?_⟩
        have again : grown.enter position component = .directory inner := by
          cases position with
          | inside front => exact kept _ _ entered
          | above => exact entered
          | system front => exact entered
        rw [again]
        exact ends grown kept
      · obtain rfl : rest = [] :=
          eq_nil_of_holds_walk (fun inner entered => further ⟨inner, entered⟩) holds
        cases position with
        | inside front => exact ⟨front ++ [component], holds, fun grown kept => rfl⟩
        | above => cases holds
        | system front => exact absurd holds (not_holds_atSystem _)

/-- The directory that the first component of a path is looked up in. -/
def origin (path : List Char) : Position := if path.head? = some '/' then .system [] else .inside []

/-- A path leads on from its origin over all its components, an empty one in front of a slash being none. -/
theorem place_eq_walk {path : String} (short : (Text.utf8 path).length < pathLimit) :
    files.place path = files.walk (.directory (origin path.toList)) (Text.pieces '/' path.toList) := by
  rw [place, if_neg (Nat.not_le.mpr short)]
  split
  · rename_i rest split
    rw [split, Text.pieces, if_pos rfl]
    simp [origin, walk]
  · rename_i relative
    rw [origin, if_neg]
    intro slash
    obtain ⟨rest, split⟩ := List.head?_eq_some_iff.mp slash
    exact relative rest split

theorem place_of_overlong {path : String} (long : pathLimit ≤ (Text.utf8 path).length) :
    files.place path = .overlong :=
  if_pos long

/-- Where a path leads to a place for a file, it stands for names inside the working directory. -/
theorem exists_place_eq_at? {path : String} (holds : (files.place path).Holds key) :
    ∃ names, (files.at? names).Holds key ∧ ∀ grown : Directory,
      (∀ others position, files.at? others = .directory position →
        grown.at? others = .directory position) →
      grown.place path = grown.at? names := by
  by_cases long : pathLimit ≤ (Text.utf8 path).length
  · rw [place_of_overlong long] at holds
    cases holds
  · have short := Nat.not_le.mp long
    rw [place_eq_walk short] at holds
    obtain ⟨names, held, ends⟩ := exists_walk_eq_at? holds
    exact ⟨names, held, fun grown kept => (place_eq_walk short).trans (ends grown kept)⟩

/-- Where a path leads to a place for a file, what is put there is found under the path. -/
theorem place_put {path : String} (data : Bytes) (holds : (files.place path).Holds key) :
    (files.put key data).place path = .file key data := by
  obtain ⟨names, held, ends⟩ := exists_place_eq_at? holds
  rw [ends _ fun _ _ directory => at?_put_of_directory data held directory]
  exact at?_put_of_holds data held

/-- A path to another file leads there as before. -/
theorem place_put_of_ne {path other name : String} {old : Bytes} (data : Bytes)
    (holds : (files.place path).Holds key) (file : files.place other = .file name old) (apart : name ≠ key) :
    (files.put key data).place other = .file name old := by
  obtain ⟨names, held, -⟩ := exists_place_eq_at? holds
  have there : (files.place other).Holds name := file ▸ .file old
  obtain ⟨others, -, ends⟩ := exists_place_eq_at? there
  obtain ⟨named, contents⟩ := at?_eq_file_iff.mp
    ((ends files fun _ _ directory => directory).symm.trans file)
  rw [ends _ fun _ _ directory => at?_put_of_directory data held directory]
  exact at?_eq_file_iff.mpr ⟨named, by rw [lookup_put, if_neg apart, contents]⟩

/-- Dots at the end of a path ask for a directory. -/
theorem not_holds_walk_dots {last : List Char} (dots : last = ['.'] ∨ last = ['.', '.']) (place : Place)
    (components : List (List Char)) : ¬(files.walk place (components ++ [last])).Holds key := by
  rw [walk_append]
  cases files.walk place components with
  | directory position => rcases dots with rfl | rfl <;> exact nofun
  | _ => exact nofun

/-- The path of the directory that holds a name is the part of the path up to its last slash, and a dot. -/
theorem exists_pieces_holder_eq (path : String) :
    ∃ front, Text.pieces '/' (holder path).toList = front ++ [['.']] := by
  rw [holder, String.toList_ofList]
  cases cut : (path.toList.reverse.dropWhile (· == '/')).dropWhile (· != '/') with
  | nil => exact ⟨[], rfl⟩
  | cons c rest =>
      have slash : c = '/' := by
        have first := List.head?_dropWhile_not (· != '/')
          (path.toList.reverse.dropWhile (· == '/'))
        simpa [cut] using first
      refine ⟨Text.pieces '/' rest.reverse, ?_⟩
      rw [slash, List.reverse_cons, List.append_assoc]
      exact Text.pieces_append_mark '/' rest.reverse ['.']

theorem not_holds_place_of_dots {path : String} {front : List (List Char)} {last : List Char}
    (dots : last = ['.'] ∨ last = ['.', '.']) (pieces : Text.pieces '/' path.toList = front ++ [last]) :
    ¬(files.place path).Holds key := by
  by_cases long : pathLimit ≤ (Text.utf8 path).length
  · rw [place_of_overlong long]
    nofun
  · rw [place_eq_walk (Nat.not_le.mp long), pieces]
    exact not_holds_walk_dots dots _ _

/-- A path that a file can be put to does not end in a slash, and it leads to the place of the file. -/
theorem holds_place_of_target {path : String} (holds : (files.target path).Holds key) :
    (files.place path).Holds key := by
  rw [target] at holds
  split at holds
  · obtain ⟨front, pieces⟩ := exists_pieces_holder_eq path
    exact absurd holds (not_holds_place_of_dots (.inl rfl) pieces)
  · exact holds

/-- A file is written where its path leads to a place for it. -/
theorem writeFile_of_holds {path : String} (holds : (files.target path).Holds key) (data : Bytes) :
    files.writeFile path data = .ok ⟨files.put key data, []⟩ := by
  rw [writeFile]
  generalize files.target path = place at holds
  cases holds <;> rfl

/-- Elsewhere nothing of the working directory changes. -/
theorem files_of_writeFile {path : String} {data : Bytes} {written : Written}
    (outside : ∀ key, ¬(files.target path).Holds key) (done : files.writeFile path data = .ok written) :
    written.files = files := by
  rw [writeFile] at done
  cases place : files.target path with
  | file key old => exact absurd (place ▸ .file old) (outside key)
  | vacant key => exact absurd (place ▸ .vacant) (outside key)
  | device device =>
      rw [place] at done
      cases shown : device.write data with
      | ok shown =>
          simp only [shown] at done
          cases done
          rfl
      | error reason =>
          simp only [shown] at done
          cases done
  | elsewhere =>
      rw [place] at done
      cases done
      rfl
  | _ =>
      rw [place] at done
      cases done

/-- A file that is written is read back under the same path. -/
theorem openFile_put {path : String} (holds : (files.target path).Holds key) (data : Bytes) :
    (files.put key data).openFile path = .contents data := by
  rw [openFile, place_put data (holds_place_of_target holds)]

end DspFirmware.CommandLine.Directory

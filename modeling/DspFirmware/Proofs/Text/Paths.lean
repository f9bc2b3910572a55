import Mathlib.Data.List.TakeWhile
import DspFirmware.Text.Path
import DspFirmware.Text.Pieces

/-!
The name at the end of a path, and the path that another extension makes of it. The new path has the parent
and the stem of the old one, unless the old one ends in two dots and an extension; so the two paths are the
same only if the extension is.
-/

namespace DspFirmware.Text.Path

/-- What may stand behind a name: slashes, each with or without a dot behind it. -/
inductive Trailing : List Char → Prop where
  | nil : Trailing []
  | slash {rest : List Char} : Trailing rest → Trailing ('/' :: rest)
  | dot {rest : List Char} : Trailing rest → Trailing ('/' :: '.' :: rest)

namespace Trailing

variable {behind others : List Char}

theorem append (first : Trailing behind) (second : Trailing others) : Trailing (behind ++ others) := by
  induction first with
  | nil => exact second
  | slash _ ih => exact .slash ih
  | dot _ ih => exact .dot ih

theorem take (trailing : Trailing behind) (count : Nat) : Trailing (behind.take count) := by
  induction trailing generalizing count with
  | nil => simpa using Trailing.nil
  | slash _ ih =>
      cases count with
      | zero => exact .nil
      | succ count => exact .slash (ih count)
  | dot _ ih =>
      match count with
      | 0 => exact .nil
      | 1 => exact .slash .nil
      | count + 2 => exact .dot (ih count)

/-- All of it is taken off the end of a path. -/
theorem stripped_reverse_append (trailing : Trailing behind) (rest : List Char) :
    stripped (behind.reverse ++ rest) = stripped rest := by
  induction trailing generalizing rest with
  | nil => rfl
  | slash _ ih =>
      rw [List.reverse_cons, List.append_assoc, ih]
      exact stripped.eq_1 rest
  | dot _ ih =>
      rw [List.reverse_cons, List.reverse_cons, List.append_assoc, List.append_assoc, ih]
      exact stripped.eq_2 rest

end Trailing

/-- Nothing else is taken off. -/
theorem exists_trailing (reversed : List Char) :
    ∃ behind, Trailing behind ∧ reversed = behind.reverse ++ stripped reversed := by
  fun_induction stripped reversed with
  | case1 rest ih =>
      obtain ⟨behind, trailing, split⟩ := ih
      refine ⟨behind ++ ['/'], trailing.append (.slash .nil), ?_⟩
      simpa using split
  | case2 rest ih =>
      obtain ⟨behind, trailing, split⟩ := ih
      refine ⟨behind ++ ['/', '.'], trailing.append (.dot .nil), ?_⟩
      simpa using split
  | case3 path _ _ => exact ⟨[], .nil, rfl⟩

/-- A path that is nothing, or a directory with a slash at its end. -/
def IsParent (parent : List Char) : Prop := parent = [] ∨ ∃ front, parent = front ++ ['/']

theorem IsParent.takeWhile_reverse {parent : List Char} (isParent : IsParent parent) :
    parent.reverse.takeWhile (· != '/') = [] := by
  rcases isParent with rfl | ⟨front, rfl⟩ <;> simp

theorem IsParent.dropWhile_reverse {parent : List Char} (isParent : IsParent parent) :
    parent.reverse.dropWhile (· != '/') = parent.reverse := by
  rcases isParent with rfl | ⟨front, rfl⟩ <;> simp

/-- What can be the name at the end of a path. -/
structure IsName (name : List Char) : Prop where
  slashless : '/' ∉ name
  nonempty : name ≠ []
  ne_dot : name ≠ ['.']
  ne_dots : name ≠ ['.', '.']

section Split

variable {parent name behind path : List Char}

/-- Nothing is taken off a name. -/
theorem stripped_name (isName : IsName name) (rest : List Char) :
    stripped (name.reverse ++ rest) = name.reverse ++ rest := by
  obtain ⟨last, others, reversed⟩ :=
    List.exists_cons_of_ne_nil (mt List.reverse_eq_nil_iff.mp isName.nonempty)
  have slashless : '/' ∉ last :: others := reversed ▸ mt List.mem_reverse.mp isName.slashless
  rw [reversed]
  refine stripped.eq_3 _ ?_ ?_
  · rintro _ ⟨⟩
    exact slashless List.mem_cons_self
  · intro front same
    cases others with
    | nil =>
        cases same
        exact isName.ne_dot (by simpa using congrArg List.reverse reversed)
    | cons c others =>
        cases same
        exact slashless (by simp)

theorem split?_append (isParent : IsParent parent) (isName : IsName name) (trailing : Trailing behind) :
    split? (parent ++ name ++ behind) = some (parent, name) := by
  have inName : ∀ c ∈ name.reverse, (c != '/') = true := forall_reverse_bne isName.slashless
  have whole : stripped (parent ++ name ++ behind).reverse = name.reverse ++ parent.reverse := by
    rw [List.reverse_append, List.reverse_append, trailing.stripped_reverse_append, stripped_name isName]
  rw [split?, whole, List.takeWhile_append_of_pos inName, List.dropWhile_append_of_pos inName,
    isParent.takeWhile_reverse, isParent.dropWhile_reverse, List.append_nil, List.reverse_reverse,
    List.reverse_reverse, if_neg]
  rintro (empty | dot | dots)
  · exact isName.nonempty empty
  · exact isName.ne_dot dot
  · exact isName.ne_dots dots

theorem exists_split?_eq (split : split? path = some (parent, name)) :
    IsParent parent ∧ IsName name ∧ ∃ behind, Trailing behind ∧ path = parent ++ name ++ behind := by
  obtain ⟨behind, trailing, reversed⟩ := exists_trailing path.reverse
  rw [split?] at split
  generalize stripped path.reverse = front at reversed split
  split at split
  · cases split
  rename_i named
  rw [not_or, not_or] at named
  cases split
  refine ⟨?isParent, ⟨?slashless, named.1, named.2.1, named.2.2⟩, behind, trailing, ?whole⟩
  case isParent =>
    cases cut : front.dropWhile (· != '/') with
    | nil => exact .inl rfl
    | cons c rest =>
        have slash : c = '/' := by simpa [cut] using List.head?_dropWhile_not (· != '/') front
        exact .inr ⟨rest.reverse, by rw [slash, List.reverse_cons]⟩
  case slashless =>
    intro member
    have slash := List.mem_takeWhile_imp (List.mem_reverse.mp member)
    simp at slash
  case whole =>
    rw [← List.reverse_append, List.takeWhile_append_dropWhile]
    simpa using congrArg List.reverse reversed

end Split

section Extension

variable {parent name behind path stem extension old : List Char}

/-- A dot with no other one behind it divides a name, if it does not begin it. -/
theorem cutName_append (nonempty : stem ≠ []) (last : '.' ∉ extension) :
    cutName (stem ++ '.' :: extension) = (stem, some extension) := by
  have front : ('.' :: stem.reverse).reverse.dropLast = stem := by simp
  rw [cutName, takeWhile_reverse_append last, dropWhile_reverse_append last, front]
  cases stem with
  | nil => exact absurd rfl nonempty
  | cons c rest => simp

/-- Else a name is not divided. -/
theorem cutName_cases (name : List Char) : cutName name = (name, none) ∨
    ∃ stem extension, stem ≠ [] ∧ '.' ∉ extension ∧ name = stem ++ '.' :: extension := by
  by_cases dot : '.' ∈ name
  · obtain ⟨stem, extension, rfl, last⟩ := exists_eq_append_last dot
    by_cases hidden : stem = []
    · left
      rw [cutName, dropWhile_reverse_append last, hidden]
      rfl
    · exact .inr ⟨stem, extension, hidden, last, rfl⟩
  · left
    rw [cutName, dropWhile_reverse_of_notMem dot]
    rfl

/-- The path ends in two dots and an extension, and nothing stands behind them. -/
def EndsInDots (path : List Char) : Prop :=
  ∃ parent old, IsParent parent ∧ old ≠ [] ∧ '/' ∉ old ∧ '.' ∉ old ∧ path = parent ++ '.' :: '.' :: old

/-- An extension is set behind the stem. -/
theorem setExtension_append (isParent : IsParent parent) (isName : IsName name) (trailing : Trailing behind)
    (extension : List Char) : setExtension (parent ++ name ++ behind) extension
      = parent ++ (cutName name).1 ++ '.' :: extension := by
  rw [setExtension, split?_append isParent isName trailing]

/-- What is left when the length of an extension is cut off from the end of a path: as much of the
extension as stood behind it. -/
theorem take_sub_length (front old behind : List Char) :
    (front ++ old ++ behind).take ((front ++ old ++ behind).length - old.length)
      = front ++ old.take behind.length ++ behind.take (behind.length - old.length) := by
  have count : (front ++ old ++ behind).length - old.length = front.length + behind.length := by
    simp only [List.length_append]
    omega
  rw [count, List.append_assoc, List.take_length_add_append, List.take_append, List.append_assoc]

/-- A stem, a dot and an extension are a name, unless they are two dots. -/
theorem isName_append (nonempty : stem ≠ []) (slashless : '/' ∉ stem) (slashless' : '/' ∉ extension)
    (regular : stem = ['.'] → extension ≠ []) : IsName (stem ++ '.' :: extension) := by
  refine ⟨by simp [slashless, slashless'], by simp, fun dot => ?_, fun dots => ?_⟩
  · cases stem with
    | nil => exact nonempty rfl
    | cons c rest => simp at dot
  · cases stem with
    | nil => exact nonempty rfl
    | cons c rest =>
        cases rest with
        | nil =>
            obtain ⟨rfl, left⟩ := List.cons.inj dots
            exact regular rfl (List.cons.inj left).2
        | cons c rest => simp at dots

/-- An extension is replaced, except for one behind two dots at the very end: without it they are no name. -/
theorem withExtension_append (isParent : IsParent parent) (isName : IsName name) (trailing : Trailing behind)
    (regular : ¬EndsInDots (parent ++ name ++ behind)) (extension : List Char) :
    withExtension (parent ++ name ++ behind) extension = parent ++ (cutName name).1 ++ '.' :: extension := by
  have own : extension? (parent ++ name ++ behind) = (cutName name).2 := by
    rw [extension?, split?_append isParent isName trailing]
    rfl
  rw [withExtension, own]
  rcases cutName_cases name with undivided | ⟨stem, old, nonempty, last, rfl⟩
  · rw [undivided]
    simp only [Option.getD_none, List.length_nil, Nat.sub_zero, List.take_length]
    rw [setExtension_append isParent isName trailing, undivided]
  · have slashless : '/' ∉ stem ∧ '/' ∉ old := by simpa using isName.slashless
    have kept : stem = ['.'] → old.take behind.length ≠ [] := by
      rintro rfl left
      by_cases empty : old = []
      · exact isName.ne_dots (by rw [empty]; rfl)
      · have short : behind = [] := by simpa [empty] using left
        exact regular ⟨parent, old, isParent, empty, slashless.2, last, by simp [short]⟩
    have shorter := isName_append nonempty slashless.1 (mt List.mem_of_mem_take slashless.2) kept
    have left : (parent ++ (stem ++ '.' :: old) ++ behind).take
        ((parent ++ (stem ++ '.' :: old) ++ behind).length - old.length)
        = parent ++ (stem ++ '.' :: old.take behind.length) ++ behind.take (behind.length - old.length) := by
      simpa using take_sub_length (parent ++ stem ++ ['.']) old behind
    rw [cutName_append nonempty last, Option.getD_some, left,
      setExtension_append isParent shorter (trailing.take _),
      cutName_append nonempty (mt List.mem_of_mem_take last)]

theorem split?_append_dots (isParent : IsParent parent) (nonempty : old ≠ []) (slashless : '/' ∉ old) :
    split? (parent ++ '.' :: '.' :: old) = some (parent, '.' :: '.' :: old) := by
  have isName : IsName ('.' :: '.' :: old) := ⟨by simp [slashless], by simp, by simp, by simp [nonempty]⟩
  simpa using split?_append isParent isName .nil

theorem EndsInDots.exists_name_eq (ends : EndsInDots path) (split : split? path = some (parent, name)) :
    ∃ old, name = '.' :: '.' :: old := by
  obtain ⟨_, old, isParent, nonempty, slashless, -, rfl⟩ := ends
  cases (split?_append_dots isParent nonempty slashless).symm.trans split
  exact ⟨old, rfl⟩

/-- The dots are all that is left of a path that ends in them and an extension. -/
theorem withExtension_of_endsInDots (ends : EndsInDots path) (extension : List Char) :
    ∃ parent old, IsParent parent ∧ old ≠ [] ∧ '/' ∉ old ∧ path = parent ++ '.' :: '.' :: old
      ∧ withExtension path extension = parent ++ ['.', '.'] := by
  obtain ⟨parent, old, isParent, nonempty, slashless, last, rfl⟩ := ends
  refine ⟨parent, old, isParent, nonempty, slashless, rfl, ?_⟩
  have own : extension? (parent ++ '.' :: '.' :: old) = some old := by
    have cut : cutName (['.'] ++ '.' :: old) = (['.'], some old) := cutName_append (by simp) last
    rw [extension?, split?_append_dots isParent nonempty slashless]
    exact congrArg Prod.snd cut
  have left : (parent ++ '.' :: '.' :: old).take ((parent ++ '.' :: '.' :: old).length - old.length)
      = parent ++ ['.', '.'] := by
    simpa using take_sub_length (parent ++ ['.', '.']) old []
  have unnamed : split? (parent ++ ['.', '.']) = none := by
    have reversed : stripped (parent ++ ['.', '.']).reverse = '.' :: '.' :: parent.reverse := by
      rw [List.reverse_append]
      exact stripped.eq_3 _ nofun nofun
    have name : ('.' :: '.' :: parent.reverse).takeWhile (· != '/') = ['.', '.'] := by
      simp [isParent.takeWhile_reverse]
    rw [split?, reversed, name]
    exact if_pos (.inr (.inr rfl))
  rw [withExtension, own, Option.getD_some, left, setExtension, unnamed]

theorem stem_of_isName (isName : IsName name) : (cutName name).1 ≠ [] ∧ '/' ∉ (cutName name).1 := by
  rcases cutName_cases name with undivided | ⟨stem, old, nonempty, last, rfl⟩
  · rw [undivided]
    exact ⟨isName.nonempty, isName.slashless⟩
  · rw [cutName_append nonempty last]
    exact ⟨nonempty, fun member => isName.slashless (List.mem_append_left _ member)⟩

theorem stem?_eq (split : split? path = some (parent, name)) : stem? path = some (cutName name).1 := by
  rw [stem?, split]
  rfl

theorem extension?_eq (split : split? path = some (parent, name)) : extension? path = (cutName name).2 := by
  rw [extension?, split]
  rfl

/-- With another extension a path has the same parent and the same stem. -/
theorem split?_withExtension (split : split? path = some (parent, name)) (regular : ¬EndsInDots path)
    (nonempty : extension ≠ []) (slashless : '/' ∉ extension) :
    split? (withExtension path extension) = some (parent, (cutName name).1 ++ '.' :: extension) := by
  obtain ⟨isParent, isName, behind, trailing, rfl⟩ := exists_split?_eq split
  obtain ⟨stemNonempty, stemSlashless⟩ := stem_of_isName isName
  have renamed := isName_append stemNonempty stemSlashless slashless fun _ => nonempty
  have set := split?_append isParent renamed .nil
  rw [List.append_nil] at set
  rw [withExtension_append isParent isName trailing regular, List.append_assoc, set]

/-- A name stays as it is under the extension that it has, and under no other one. -/
theorem eq_stem_append_iff :
    name = (cutName name).1 ++ '.' :: extension ↔ (cutName name).2 = some extension := by
  rcases cutName_cases name with undivided | ⟨stem, old, nonempty, undotted, rfl⟩
  · rw [undivided]
    simp
  · rw [cutName_append nonempty undotted]
    simp

end Extension

/-- What tells paths apart. A path from the root begins with an empty component; further empty ones do not
count, and neither do dots behind the first component. -/
def components (path : List Char) : List (List Char) :=
  if path = [] then []
  else (pieces '/' path).take 1 ++ ((pieces '/' path).drop 1).filter fun piece => piece ≠ [] ∧ piece ≠ ['.']

/-- Components that tell no paths apart. -/
def Idle (pieces : List (List Char)) : Prop := ∀ piece ∈ pieces, piece = [] ∨ piece = ['.']

section Components

variable {parent name behind : List Char}

theorem pieces_of_notMem (slashless : '/' ∉ name) : pieces '/' name = [name] := by
  induction name with
  | nil => rfl
  | cons c rest ih =>
      rw [List.mem_cons, not_or] at slashless
      rw [pieces, if_neg (Ne.symm slashless.1), ih slashless.2]

theorem Trailing.exists_pieces_eq (trailing : Trailing behind) (slashless : '/' ∉ name) :
    ∃ idle, Idle idle ∧ pieces '/' (name ++ behind) = name :: idle := by
  induction trailing generalizing name with
  | nil => exact ⟨[], nofun, by rw [List.append_nil, pieces_of_notMem slashless]⟩
  | slash _ ih =>
      obtain ⟨idle, empty, later⟩ := @ih [] List.not_mem_nil
      refine ⟨[] :: idle, List.forall_mem_cons.mpr ⟨.inl rfl, empty⟩, ?_⟩
      rw [List.nil_append] at later
      rw [pieces_append_mark, pieces_of_notMem slashless, later]
      rfl
  | dot _ ih =>
      obtain ⟨idle, empty, later⟩ := @ih ['.'] (by decide)
      refine ⟨['.'] :: idle, List.forall_mem_cons.mpr ⟨.inr rfl, empty⟩, ?_⟩
      rw [List.singleton_append] at later
      rw [pieces_append_mark, pieces_of_notMem slashless, later]
      rfl

theorem IsParent.pieces_append (isParent : IsParent parent) (rest : List Char) :
    pieces '/' (parent ++ rest) = (pieces '/' parent).dropLast ++ pieces '/' rest := by
  rcases isParent with rfl | ⟨front, rfl⟩
  · rfl
  · rw [List.append_assoc, List.singleton_append, pieces_append_mark, pieces_append_mark]
    simp [pieces]

/-- The pieces of a path are those of its parent, its name, and what does not count behind it. -/
theorem exists_pieces_append (isParent : IsParent parent) (slashless : '/' ∉ name)
    (trailing : Trailing behind) : ∃ idle, Idle idle
      ∧ pieces '/' (parent ++ name ++ behind) = (pieces '/' parent).dropLast ++ name :: idle := by
  obtain ⟨idle, empty, later⟩ := trailing.exists_pieces_eq slashless
  refine ⟨idle, empty, ?_⟩
  rw [List.append_assoc, isParent.pieces_append, later]

theorem Idle.filter_eq {idle : List (List Char)} (empty : Idle idle) :
    (idle.filter fun piece => piece ≠ [] ∧ piece ≠ ['.']) = [] :=
  List.filter_eq_nil_iff.mpr fun piece member counts => by
    rcases empty piece member with rfl | rfl <;> simp at counts

/-- Paths with one parent differ in nothing but the last component. -/
theorem exists_components_append (isParent : IsParent parent) : ∃ front, ∀ name behind,
    '/' ∉ name → name ≠ [] → name ≠ ['.'] → Trailing behind →
      components (parent ++ name ++ behind) = front ++ [name] := by
  have whole {name behind : List Char} (nonempty : name ≠ []) : parent ++ name ++ behind ≠ [] := by
    simp [nonempty]
  cases first : (pieces '/' parent).dropLast with
  | nil =>
      refine ⟨[], fun name behind slashless nonempty _ trailing => ?_⟩
      obtain ⟨idle, empty, cut⟩ := exists_pieces_append isParent slashless trailing
      rw [components, if_neg (whole nonempty), cut, first]
      simpa using empty.filter_eq
  | cons origin later =>
      refine ⟨origin :: later.filter fun piece => piece ≠ [] ∧ piece ≠ ['.'],
        fun name behind slashless nonempty noDot trailing => ?_⟩
      obtain ⟨idle, empty, cut⟩ := exists_pieces_append isParent slashless trailing
      rw [components, if_neg (whole nonempty), cut, first, List.cons_append, List.take_succ_cons,
        List.take_zero, List.drop_succ_cons, List.drop_zero, List.filter_append, List.filter_cons,
        empty.filter_eq]
      simp [nonempty, noDot]

/-- What is left of a path that ends in two dots and an extension is another path. -/
theorem components_withExtension_ne_of_endsInDots {path : List Char} (ends : EndsInDots path)
    (extension : List Char) : components (withExtension path extension) ≠ components path := by
  obtain ⟨parent, old, isParent, nonempty, slashless, rfl, dots⟩ := withExtension_of_endsInDots ends extension
  obtain ⟨front, last⟩ := exists_components_append isParent
  have before := last ('.' :: '.' :: old) [] (by simp [slashless]) (by simp) (by simp) .nil
  have after := last ['.', '.'] [] (by simp) (by simp) (by simp) .nil
  rw [List.append_nil] at before after
  rw [dots, before, after]
  simp [nonempty.symm]

/-- Paths with one parent are the same only if their names are. -/
theorem components_eq_iff {path other renamed : List Char} (split : split? path = some (parent, name))
    (split' : split? other = some (parent, renamed)) :
    components path = components other ↔ name = renamed := by
  obtain ⟨isParent, isName, behind, trailing, rfl⟩ := exists_split?_eq split
  obtain ⟨-, isName', behind', trailing', rfl⟩ := exists_split?_eq split'
  obtain ⟨front, last⟩ := exists_components_append isParent
  rw [last name behind isName.slashless isName.nonempty isName.ne_dot trailing,
    last renamed behind' isName'.slashless isName'.nonempty isName'.ne_dot trailing']
  simp

end Components

end DspFirmware.Text.Path

import DspFirmware.Pattern.Escape

/-!
Classes of characters in brackets.

Between the brackets stand characters, ranges, classes by name and further brackets, which are put
together unless a sign of two characters combines what is on its left with what is on its right.
Such signs bind equally, from the left. A dash or a closing bracket right behind the opening one
stands for itself.
-/

namespace DspFirmware.Pattern

/-- The names of classes of ASCII. -/
def asciiClassNames : List String :=
  ["alnum", "alpha", "ascii", "blank", "cntrl", "digit", "graph", "lower", "print", "punct",
    "space", "upper", "word", "xdigit"]

/-- Reads a class of ASCII in its own brackets and colons: whether it is negated, and its length. -/
def asciiClass? (text : List Char) : Option (Bool × Nat) :=
  match text with
  | '[' :: ':' :: rest =>
      let negated := rest.head? = some '^'
      let inner := if negated then rest.tail else rest
      let name := inner.takeWhile (· != ':')
      match inner.dropWhile (· != ':') with
      | ':' :: ']' :: _ =>
          if asciiClassNames.contains (String.ofList name) then
            some (negated, name.length + if negated then 5 else 4)
          else none
      | _ => none
  | _ => none

/-- What a character begins with the same character behind it. -/
def setOperation? : Char → Option SetOperation
  | '&' => some .intersection
  | '-' => some .difference
  | '~' => some .symmetricDifference
  | _ => none

/-- The items of a class between two signs, so far. -/
structure Union where
  /-- The part of the items. For none of them this is the place where they are awaited. -/
  span : Span
  items : List ClassTree

namespace Union

def empty (span : Span) : Union := ⟨span, []⟩

def push (union : Union) (item : ClassTree) : Union :=
  let first := if union.items.isEmpty then item.span.first else union.span.first
  ⟨⟨first, item.span.last⟩, union.items ++ [item]⟩

def toTree (union : Union) : ClassTree :=
  match union.items with
  | [] => .nothing union.span
  | [item] => item
  | items => .union items union.span

end Union

/-- A class that is being read: what stands on the left of a sign, and the items behind it. -/
structure OpenSet where
  /-- The opening bracket with what belongs to it, which is told of when nothing closes it. -/
  opening : Span
  left : Option (SetOperation × ClassTree)
  union : Union

namespace OpenSet

def push (set : OpenSet) (item : ClassTree) : OpenSet := { set with union := set.union.push item }

def toTree (set : OpenSet) : ClassTree :=
  let right := set.union.toTree
  match set.left with
  | none => right
  | some (operation, left) =>
      .operation operation left right ⟨left.span.first, right.span.last⟩

/-- Puts a sign behind what has been read. -/
def combine (set : OpenSet) (operation : SetOperation) (place : Span) : OpenSet :=
  ⟨set.opening, some (operation, set.toTree), .empty place⟩

end OpenSet

namespace Scan

/-- Takes the next character as one that stands for itself. -/
def verbatim : Scan Tree := do
  let cursor ← get
  let _ ← advance
  return .literal ⟨cursor.rest.headD ' ', false, cursor.next⟩

/-- Reads the dashes that a class begins with. -/
def leadingDashes (start : Position) (union : Union) : (fuel : Nat) → Scan Union
  | 0 => return union
  | fuel + 1 => do
      let cursor ← get
      if cursor.rest.head? = some '-' then
        unless ← advanceFar do
          refuse .unclosedClass ⟨start, start⟩
        leadingDashes start (union.push (.literal ⟨'-', false, cursor.next⟩)) fuel
      else return union

/-- Reads an opening bracket and what belongs to it, and tells whether the class is negated. -/
def openSet : Scan (Bool × OpenSet) := do
  let start := (← get).place
  unless ← advanceFar do
    refuseFrom .unclosedClass start
  let negated := (← get).rest.head? = some '^'
  if negated then
    unless ← advanceFar do
      refuseFrom .unclosedClass start
  let dashes ← leadingDashes start (.empty (← get).here) (← get).rest.length
  let cursor ← get
  if dashes.items.isEmpty ∧ cursor.rest.head? = some ']' then
    unless ← advanceFar do
      refuseFrom .unclosedClass start
    let union := dashes.push (.literal ⟨']', false, cursor.next⟩)
    return (negated, ⟨⟨start, (← get).place⟩, none, union⟩)
  else return (negated, ⟨⟨start, cursor.place⟩, none, dashes⟩)

/-- Takes a character of a class, or an escape. -/
def setItem : Scan Tree := do
  if (← get).rest.head? = some '\\' then escape else verbatim

/-- What an escape means as an item of a class. -/
def itemOfTree : Tree → Scan ClassTree
  | .literal literal => return .literal literal
  | .perlClass negated span => return .perl negated span
  | .unicodeClass span => return .unicode span
  | tree => refuse .classEscape tree.span

/-- What an escape means at the end of a range. -/
def boundOfTree : Tree → Scan Literal
  | .literal literal => return literal
  | tree => refuse .classRangeBound tree.span

/-- Reads a range of characters, or one of them. -/
def setRange (opening : Span) : Scan ClassTree := do
  let first ← setItem
  skipSpace
  let cursor ← get
  match cursor.rest with
  | [] => refuse .unclosedClass opening
  | c :: _ =>
      if c ≠ '-' ∨ cursor.second? = some ']' ∨ cursor.second? = some '-' then itemOfTree first
      else
        unless ← advanceFar do
          refuse .unclosedClass opening
        let last ← setItem
        let span : Span := ⟨first.span.first, last.span.last⟩
        let first ← boundOfTree first
        let last ← boundOfTree last
        if last.char < first.char then
          refuse .classRangeOrder span
        return .range first last span

/-- Reads a class up to its closing bracket, in at most `fuel` steps. Each of them reads a character,
so that one more than there are characters are enough. -/
def closeSet (opened : OpenSet) : (fuel : Nat) → Scan ClassTree
  | 0 => return opened.toTree
  | fuel + 1 => do
      skipSpace
      let cursor ← get
      match cursor.rest with
      | [] => refuse .unclosedClass opened.opening
      | ']' :: _ => return opened.toTree
      | '[' :: _ =>
          match asciiClass? cursor.rest with
          | some (negated, length) =>
              let behind := cursor.movedBy length
              set behind
              closeSet (opened.push (.ascii negated ⟨cursor.place, behind.place⟩)) fuel
          | none =>
              let (negated, inner) ← openSet
              let content ← closeSet inner fuel
              let _ ← advance
              let span : Span := ⟨cursor.place, (← get).place⟩
              closeSet (opened.push (.bracketed negated content span)) fuel
      | c :: rest =>
          match setOperation? c with
          | some operation =>
              if rest.head? = some c then
                let behind := cursor.movedBy 2
                set behind
                closeSet (opened.combine operation behind.here) fuel
              else closeSet (opened.push (← setRange opened.opening)) fuel
          | none => closeSet (opened.push (← setRange opened.opening)) fuel

def bracket : Scan ClassTree := do
  let start := (← get).place
  let (negated, opened) ← openSet
  let content ← closeSet opened ((← get).rest.length + 1)
  let _ ← advance
  return .bracketed negated content ⟨start, (← get).place⟩

end Scan

end DspFirmware.Pattern

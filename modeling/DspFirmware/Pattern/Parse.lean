import DspFirmware.Pattern.Bracket
import DspFirmware.Text.Alphanumeric

/-!
Reading a whole pattern.

A pattern is made of branches between vertical bars, a branch of items in a row, and an item may
have signs of repetition behind it. Groups in parentheses hold patterns themselves.
-/

namespace DspFirmware.Pattern

open Text

/-- What has been read of a pattern, or of the inside of a group. -/
structure Body where
  /-- The opening parenthesis, if the body is one of a group. -/
  opening : Option Span
  first : Position
  /-- The branches in front of the current one. -/
  branches : List Tree
  /-- Where the current branch begins. -/
  begun : Position
  items : List Tree

namespace Body

def empty (opening : Option Span) (first : Position) : Body := ⟨opening, first, [], first, []⟩

def push (body : Body) (item : Tree) : Body := { body with items := body.items ++ [item] }

/-- The items of the current branch, which ends at a place. -/
def branch (body : Body) (last : Position) : Tree :=
  match body.items with
  | [] => .empty ⟨body.begun, last⟩
  | [item] => item
  | items => .sequence items ⟨body.begun, last⟩

/-- Begins another branch behind a bar. -/
def divide (body : Body) (bar : Span) : Body :=
  { body with branches := body.branches ++ [body.branch bar.first], begun := bar.last, items := [] }

/-- All branches of a body that ends at a place. -/
def toTree (body : Body) (last : Position) : Tree :=
  if body.branches.isEmpty then body.branch last
  else .alternation (body.branches ++ [body.branch last]) ⟨body.first, last⟩

/-- The item that a sign of repetition refers to, with the items in front of it. -/
def operand? (body : Body) : Option (List Tree × Tree) :=
  match body.items.getLast? with
  | none => none
  | some (.flags _ _) => none
  | some item => some (body.items.dropLast, item)

end Body

/-- Whether a character can stand in the name of a group, at its beginning or behind it. -/
def isNameCharacter (first : Bool) (c : Char) : Bool :=
  c == '_' ||
    if first then isAlphabetic c else c == '.' || c == '[' || c == ']' || isAlphanumeric c

def flagLetters : List Char := ['i', 'm', 's', 'U', 'u', 'R', 'x']

/-- Beginnings of groups that look ahead or behind. -/
def lookAroundMarks : List (List Char) :=
  [['?', '='], ['?', '!'], ['?', '<', '='], ['?', '<', '!']]

/-- Beginnings of groups with a name. -/
def nameMarks : List (List Char) := [['?', 'P', '<'], ['?', '<']]

namespace Scan

/-- Moves over the first of some texts that comes next, and tells whether there is one. -/
def advanceOver (marks : List (List Char)) : Scan Bool := do
  let cursor ← get
  match marks.find? (·.isPrefixOf cursor.rest) with
  | none => return false
  | some mark =>
      set (cursor.movedBy mark.length)
      return true

/-- Takes the characters of a name up to an angle bracket. -/
def nameCharacters (first : Bool) : (fuel : Nat) → Scan (List Char)
  | 0 => return []
  | fuel + 1 => do
      match (← get).rest with
      | [] => refuseHere .unclosedName
      | c :: _ =>
          if c = '>' then return []
          unless isNameCharacter first c do
            refuseNext .nameCharacter
          let _ ← advance
          return c :: (← nameCharacters false fuel)

/-- Reads the name of a group and the angle bracket behind it. No two groups have the same name. -/
def groupName : Scan Unit := do
  let cursor ← get
  let name ← nameCharacters true (cursor.rest.length + 1)
  let span : Span := ⟨cursor.place, (← get).place⟩
  let _ ← advance
  if name.isEmpty then
    refuse .emptyName cursor.here
  match cursor.names.lookup name with
  | some earlier => throw ⟨.duplicateName, span, some earlier⟩
  | none => modify fun cursor => { cursor with names := (name, span) :: cursor.names }

/-- Takes flags up to a colon or a parenthesis. `taken` are the flags before them with their
places. -/
def flagsBehind (taken : List (Char × Span)) : (fuel : Nat) → Scan (List (Char × Span))
  | 0 => return taken
  | fuel + 1 => do
      let cursor ← get
      match cursor.rest with
      | [] => refuseHere .flagEnd
      | c :: _ =>
          if c = ':' ∨ c = ')' then
            match taken.getLast? with
            | some ('-', dash) => refuse .danglingNegation dash
            | _ => return taken
          unless c = '-' ∨ flagLetters.contains c do
            refuse .unknownFlag cursor.next
          match taken.lookup c with
          | some earlier =>
              let problem : Problem := if c = '-' then .repeatedNegation else .duplicateFlag
              throw ⟨problem, cursor.next, some earlier⟩
          | none =>
              unless ← advance do
                refuseHere .flagEnd
              flagsBehind (taken ++ [(c, cursor.next)]) fuel

/-- What an opening parenthesis begins. -/
inductive Opening where
  /-- Flags for what follows the closing parenthesis, which has been read. -/
  | flags (flags : List Char)
  /-- A group with flags for its inside. -/
  | group (flags : List Char)

/-- Reads an opening parenthesis and what belongs to it. -/
def openGroup : Scan Opening := do
  let parenthesis := (← get).next
  let _ ← advance
  skipSpace
  if ← advanceOver lookAroundMarks then
    refuseFrom .lookAround parenthesis.first
  let mark := (← get).here
  if ← advanceOver nameMarks then
    groupName
    return .group []
  else if ← advanceOver [['?']] then
    if ← atEnd then
      refuse .unclosedGroup parenthesis
    let flags ← flagsBehind [] ((← get).rest.length + 1)
    let closed := (← get).rest.head? = some ')'
    let _ ← advance
    if closed then
      if flags.isEmpty then
        refuse .missingOperand mark
      return .flags (flags.map (·.1))
    else return .group (flags.map (·.1))
  else return .group []

/-- Puts a repetition in the place of the item in front of the cursor. -/
def repeated (body : Body) : Scan Body := do
  match body.operand? with
  | none => refuseHere .missingOperand
  | some (items, operand) =>
      let _ ← advance
      if (← get).rest.head? = some '?' then
        let _ ← advance
      let span : Span := ⟨operand.span.first, (← get).place⟩
      return { body with items := items ++ [.repetition operand span] }

/-- Reads a repetition with a count. No such repetition is complete, since its brace is never
closed. -/
def counted (body : Body) : Scan Body := do
  let start := (← get).place
  if body.operand?.isNone then
    refuseHere .missingOperand
  unless ← advanceFar do
    refuseFrom .unclosedCount start
  modify (·.movedWhile isBlank)
  let first := (← get).place
  let digits ← takeAll Char.isDigit
  let span : Span := ⟨first, (← get).place⟩
  let _ ← takeAll isBlank
  if ← atEnd then
    refuseFrom .unclosedCount start
  match Numeral.read 10 UInt32.size digits with
  | .error .empty => refuse .missingCount span
  | .error _ => refuse .decimalTooLarge span
  | .ok _ => refuseFrom .unclosedCount start

/-- Takes an item that is one character long, or an escape. -/
def item : Scan Tree := do
  let cursor ← get
  match cursor.rest.head? with
  | some '\\' => escape
  | some '.' =>
      let _ ← advance
      return .dot cursor.next
  | some '^' =>
      let _ ← advance
      return .assertion false cursor.next
  | some '$' =>
      let _ ← advance
      return .assertion false cursor.next
  | _ => verbatim

/-- Reads a body to its end, in at most `fuel` steps. Each of them reads a character, so that one
more than there are characters are enough. -/
def closeBody (body : Body) : (fuel : Nat) → Scan Tree
  | 0 => return body.toTree body.begun
  | fuel + 1 => do
      skipSpace
      let cursor ← get
      match cursor.rest.head? with
      | none =>
          match body.opening with
          | some opening => refuse .unclosedGroup opening
          | none => return body.toTree cursor.place
      | some ')' =>
          if body.opening.isNone then
            refuseNext .unopenedGroup
          return body.toTree cursor.place
      | some '(' =>
          match ← openGroup with
          | .flags flags =>
              modify fun behind =>
                { behind with spaced := (flagState flags 'x').getD behind.spaced }
              let span : Span := ⟨cursor.place, (← get).place⟩
              closeBody (body.push (.flags flags span)) fuel
          | .group flags =>
              modify fun behind =>
                { behind with spaced := (flagState flags 'x').getD behind.spaced }
              let inner ← closeBody (.empty (some cursor.next) (← get).place) fuel
              modify fun behind => { behind.moved with spaced := cursor.spaced }
              let span : Span := ⟨cursor.place, (← get).place⟩
              closeBody (body.push (.group flags inner span)) fuel
      | some '|' =>
          let _ ← advance
          closeBody (body.divide cursor.next) fuel
      | some '[' => closeBody (body.push (.bracketed (← bracket))) fuel
      | some '\x7b' => closeBody (← counted body) fuel
      | some c =>
          if ['?', '*', '+'].contains c then closeBody (← repeated body) fuel
          else closeBody (body.push (← item)) fuel

end Scan

def parse (pattern : List Char) : Except Defect Tree :=
  Prod.fst <$> (Scan.closeBody (.empty none .start) (pattern.length + 1)).run (.start pattern)

end DspFirmware.Pattern

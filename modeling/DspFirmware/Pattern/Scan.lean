import DspFirmware.Pattern.Tree
import DspFirmware.Text.Blank

/-!
Reading a pattern from left to right.

A `Scan` reads on from a cursor or meets a defect. Where a flag asks for it, white space has no
meaning, and a number sign begins a comment that ends with its line.
-/

namespace DspFirmware.Pattern

open Text

/-- How far a pattern has been read. -/
structure Cursor where
  rest : List Char
  place : Position
  /-- Whether white space and comments have no meaning. -/
  spaced : Bool
  /-- The names of groups so far, with their places. -/
  names : List (List Char × Span)

namespace Cursor

def start (pattern : List Char) : Cursor := ⟨pattern, .start, false, []⟩

def here (cursor : Cursor) : Span := ⟨cursor.place, cursor.place⟩

def next (cursor : Cursor) : Span :=
  match cursor.rest with
  | [] => cursor.here
  | c :: _ => ⟨cursor.place, cursor.place.after c⟩

def moved (cursor : Cursor) : Cursor :=
  match cursor.rest with
  | [] => cursor
  | c :: rest => { cursor with rest, place := cursor.place.after c }

/-- The cursor behind the next `count` characters. -/
def movedBy (cursor : Cursor) : (count : Nat) → Cursor
  | 0 => cursor
  | count + 1 => cursor.moved.movedBy count

/-- The cursor behind the next characters that have a property. -/
def movedWhile (cursor : Cursor) (has : Char → Bool) : Cursor :=
  cursor.movedBy (cursor.rest.takeWhile has).length

/-- How many characters of white space and comments a text begins with. -/
def blanks (inComment : Bool) : List Char → Nat
  | [] => 0
  | c :: rest =>
      if inComment then blanks (c != '\n') rest + 1
      else if isBlank c then blanks false rest + 1
      else if c = '#' then blanks true rest + 1
      else 0

/-- The cursor behind white space and comments that have no meaning. -/
def skipped (cursor : Cursor) : Cursor :=
  if cursor.spaced then cursor.movedBy (blanks false cursor.rest) else cursor

/-- The first character of a text that is neither white space nor a first number sign. -/
def firstVisible (inComment : Bool) : List Char → Option Char
  | [] => none
  | c :: rest =>
      if isBlank c then firstVisible inComment rest
      else if c = '#' ∧ inComment = false then firstVisible true rest
      else some c

/-- The character that decides about the next one. In a text where white space has no meaning this
is a visible one, if there is any. -/
def second? (cursor : Cursor) : Option Char :=
  let behind := cursor.rest.tail
  if cursor.spaced then (firstVisible false behind).or behind.head? else behind.head?

end Cursor

/-- Reading a part of a pattern. -/
abbrev Scan := StateT Cursor (Except Defect)

namespace Scan

/-- Ends with a problem at a part of the pattern. -/
def refuse (problem : Problem) (span : Span) : Scan α := throw ⟨problem, span, none⟩

/-- Ends with a problem between a place and the cursor. -/
def refuseFrom (problem : Problem) (first : Position) : Scan α := do
  refuse problem ⟨first, (← get).place⟩

def refuseHere (problem : Problem) : Scan α := do refuse problem (← get).here

def refuseNext (problem : Problem) : Scan α := do refuse problem (← get).next

def atEnd : Scan Bool := do return (← get).rest.isEmpty

/-- Moves over the next character, and tells whether there is another. -/
def advance : Scan Bool := do
  modify Cursor.moved
  return !(← atEnd)

/-- Moves over white space and comments that have no meaning. -/
def skipSpace : Scan Unit := modify Cursor.skipped

/-- Moves over the next character and what has no meaning behind it, and tells whether there is
more. -/
def advanceFar : Scan Bool := do
  modify fun cursor => cursor.moved.skipped
  return !(← atEnd)

/-- Takes characters that have a property, at most `fuel` of them, with what has no meaning between
them. -/
def collect (has : Char → Bool) : (fuel : Nat) → Scan (List Char)
  | 0 => return []
  | fuel + 1 => do
      match (← get).rest with
      | c :: _ =>
          if has c then
            let _ ← advanceFar
            return c :: (← collect has fuel)
          else return []
      | [] => return []

def takeAll (has : Char → Bool) : Scan (List Char) := do collect has (← get).rest.length

end Scan

end DspFirmware.Pattern

import DspFirmware.Pattern.Defect

/-!
Patterns as trees. Each node knows the part of the pattern it comes from.

A tree holds what decides whether a pattern is accepted. How greedy a repetition is and which
characters a class names make no difference to that, and are not kept.
-/

namespace DspFirmware.Pattern

/-- A character that stands for itself, or is written by an escape. -/
structure Literal where
  char : Char
  /-- Whether it is written by two hexadecimal digits, which can stand for a byte. -/
  byByte : Bool
  span : Span
  deriving DecidableEq, Repr

inductive SetOperation where
  | intersection
  | difference
  | symmetricDifference
  deriving DecidableEq, Repr

inductive ClassTree where
  | nothing (span : Span)
  | literal (literal : Literal)
  | range (first last : Literal) (span : Span)
  /-- A class of ASCII by its name. -/
  | ascii (negated : Bool) (span : Span)
  /-- A class of Unicode by its property. -/
  | unicode (span : Span)
  /-- A class by one letter behind a backslash. -/
  | perl (negated : Bool) (span : Span)
  | bracketed (negated : Bool) (set : ClassTree) (span : Span)
  | union (items : List ClassTree) (span : Span)
  | operation (operation : SetOperation) (left right : ClassTree) (span : Span)

def ClassTree.span : ClassTree → Span
  | nothing span => span
  | literal l => l.span
  | range _ _ span => span
  | ascii _ span => span
  | unicode span => span
  | perl _ span => span
  | bracketed _ _ span => span
  | union _ span => span
  | operation _ _ _ span => span

inductive Tree where
  | empty (span : Span)
  /-- Flags for what follows, in their order, with a dash in front of those that are cleared. -/
  | flags (flags : List Char) (span : Span)
  | literal (literal : Literal)
  | dot (span : Span)
  /-- A condition on a place, which may be that a word begins or ends there. -/
  | assertion (onWords : Bool) (span : Span)
  | unicodeClass (span : Span)
  | perlClass (negated : Bool) (span : Span)
  | bracketed (set : ClassTree)
  | repetition (operand : Tree) (span : Span)
  /-- A group with flags for its inside. -/
  | group (flags : List Char) (inner : Tree) (span : Span)
  | alternation (branches : List Tree) (span : Span)
  | sequence (items : List Tree) (span : Span)

def Tree.span : Tree → Span
  | empty span => span
  | flags _ span => span
  | literal l => l.span
  | dot span => span
  | assertion _ span => span
  | unicodeClass span => span
  | perlClass _ span => span
  | bracketed set => set.span
  | repetition _ span => span
  | group _ _ span => span
  | alternation _ span => span
  | sequence _ span => span

/-- What flags say about one of them, if they name it. -/
def flagState (flags : List Char) (flag : Char) : Option Bool :=
  if (flags.takeWhile (· != '-')).contains flag then some true
  else if flags.contains flag then some false
  else none

end DspFirmware.Pattern

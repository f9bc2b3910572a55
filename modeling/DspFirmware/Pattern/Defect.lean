import DspFirmware.Text.Numeral
import DspFirmware.Text.Pieces

/-!
What can be wrong with a pattern, where it is, and how it is reported.

A report shows the pattern with a mark under the place of the defect. A pattern of several lines is
shown with their numbers; a place that runs over the end of a line is given in words.
-/

namespace DspFirmware.Pattern

open Text

/-- A place between two characters of a pattern. Lines and columns count from one. -/
structure Position where
  line : Nat
  column : Nat
  deriving DecidableEq, Repr

namespace Position

def start : Position := ⟨1, 1⟩

/-- The place behind a character that stands at a place. -/
def after (position : Position) (c : Char) : Position :=
  if c = '\n' then ⟨position.line + 1, 1⟩ else ⟨position.line, position.column + 1⟩

def before (position other : Position) : Bool :=
  position.line < other.line || position.line == other.line && position.column < other.column

end Position

/-- The part of a pattern between two places. -/
structure Span where
  first : Position
  last : Position
  deriving DecidableEq, Repr

namespace Span

/-- Whether a part does not run over the end of a line. -/
def oneLine (span : Span) : Bool := span.first.line == span.last.line

/-- Whether a part comes in front of another in a report. -/
def before (span other : Span) : Bool :=
  span.first.before other.first || span.first == other.first && span.last.before other.last

end Span

inductive Problem where
  | classEscape
  | classRangeOrder
  | classRangeBound
  | unclosedClass
  | decimalTooLarge
  | hexNoCharacter
  | hexDigit
  | escapeEnd
  | unknownEscape
  | danglingNegation
  | duplicateFlag
  | repeatedNegation
  | flagEnd
  | unknownFlag
  | duplicateName
  | emptyName
  | nameCharacter
  | unclosedName
  | unclosedGroup
  | unopenedGroup
  | tooDeep (limit : Nat)
  | missingCount
  | unclosedCount
  | missingOperand
  | unclosedBoundary
  | boundaryEnd
  | unicodeClass
  | backreference
  | lookAround
  | unicodeNotAllowed
  | invalidUtf8
  | unknownProperty
  | perlClassUnavailable
  | caseUnavailable
  deriving DecidableEq, Repr

def Problem.message : Problem → String
  | classEscape => "invalid escape sequence found in character class"
  | classRangeOrder => "invalid character class range, the start must be <= the end"
  | classRangeBound => "invalid range boundary, must be a literal"
  | unclosedClass => "unclosed character class"
  | decimalTooLarge => "decimal literal invalid"
  | hexNoCharacter => "hexadecimal literal is not a Unicode scalar value"
  | hexDigit => "invalid hexadecimal digit"
  | escapeEnd => "incomplete escape sequence, reached end of pattern prematurely"
  | unknownEscape => "unrecognized escape sequence"
  | danglingNegation => "dangling flag negation operator"
  | duplicateFlag => "duplicate flag"
  | repeatedNegation => "flag negation operator repeated"
  | flagEnd => "expected flag but got end of regex"
  | unknownFlag => "unrecognized flag"
  | duplicateName => "duplicate capture group name"
  | emptyName => "empty capture group name"
  | nameCharacter => "invalid capture group character"
  | unclosedName => "unclosed capture group name"
  | unclosedGroup => "unclosed group"
  | unopenedGroup => "unopened group"
  | tooDeep limit =>
      "exceed the maximum number of nested parentheses/brackets (" ++ decimal limit ++ ")"
  | missingCount => "repetition quantifier expects a valid decimal"
  | unclosedCount => "unclosed counted repetition"
  | missingOperand => "repetition operator missing expression"
  | unclosedBoundary =>
      "special word boundary assertion is either unclosed or contains an invalid character"
  | boundaryEnd =>
      "found either the beginning of a special word boundary or a bounded repetition on a \\b "
        ++ "with an opening brace, but no closing brace"
  | unicodeClass => "invalid Unicode character class"
  | backreference => "backreferences are not supported"
  | lookAround => "look-around, including look-ahead and look-behind, is not supported"
  | unicodeNotAllowed => "Unicode not allowed here"
  | invalidUtf8 => "pattern can match invalid UTF-8"
  | unknownProperty => "Unicode property not found"
  | perlClassUnavailable =>
      "Unicode-aware Perl class not found (make sure the unicode-perl feature is enabled)"
  | caseUnavailable =>
      "Unicode-aware case insensitivity matching is not available "
        ++ "(make sure the unicode-case feature is enabled)"

structure Defect where
  problem : Problem
  span : Span
  /-- The earlier place that the problem refers to, if there is one. -/
  earlier : Option Span
  deriving DecidableEq, Repr

/-- The lines of a pattern without their ends. -/
def lines (pattern : List Char) : List (List Char) :=
  let all := pieces '\n' pattern
  let ended := all.dropLast.map fun line =>
    if line.getLast? = some '\r' then line.dropLast else line
  match all.getLast? with
  | none => ended
  | some [] => ended
  | some last => ended ++ [last]

/-- The width of line numbers, zero for a pattern that needs none. A place behind the end of the
last line is on a line of its own. -/
def numberWidth (pattern : List Char) : Nat :=
  let count := (lines pattern).length + if pattern.getLast? = some '\n' then 1 else 0
  if count ≤ 1 then 0 else (Nat.toDigits 10 count).length

/-- What stands in front of a line. -/
def margin (width number : Nat) : List Char :=
  if width = 0 then List.replicate 4 ' '
  else (Nat.toDigits 10 number).leftpad width ' ' ++ [':', ' ']

/-- Marks under parts of a line, behind the characters that have been passed. Every part has at
least one mark. -/
def marks (passed : Nat) : List Span → List Char
  | [] => []
  | span :: rest =>
      let gap := span.first.column - 1 - passed
      let count := max 1 (span.last.column - span.first.column)
      List.replicate gap ' ' ++ List.replicate count '^' ++ marks (passed + gap + count) rest

namespace Defect

/-- The places of a defect in their order. -/
def spans (defect : Defect) : List Span :=
  match defect.earlier with
  | none => [defect.span]
  | some earlier =>
      if earlier.before defect.span then [earlier, defect.span] else [defect.span, earlier]

/-- A line of the pattern, and the marks under it. -/
def showLine (defect : Defect) (width number : Nat) (line : List Char) : String :=
  let here := defect.spans.filter fun span => span.oneLine && span.first.line == number
  let shown := String.ofList (margin width number ++ line ++ ['\n'])
  if here.isEmpty then shown
  else
    shown ++ String.ofList
      (List.replicate (margin width number).length ' ' ++ marks 0 here ++ ['\n'])

/-- All lines of a pattern from a number on. -/
def showLines (defect : Defect) (width number : Nat) : List (List Char) → String
  | [] => ""
  | line :: rest =>
      defect.showLine width number line ++ defect.showLines width (number + 1) rest

/-- A place that runs over the end of a line, in words. -/
def showCrossing (span : Span) : String :=
  "on line " ++ decimal span.first.line ++ " (column " ++ decimal span.first.column
    ++ ") through line " ++ decimal span.last.line ++ " (column "
    ++ decimal (span.last.column - 1) ++ ")\n"

def report (defect : Defect) (pattern : List Char) : String :=
  let shown := defect.showLines (numberWidth pattern) 1 (lines pattern)
  let divider := String.ofList (List.replicate 79 '~') ++ "\n"
  let crossing := (defect.spans.filter (!·.oneLine)).map showCrossing
  "regex parse error:\n"
    ++ (if pattern.contains '\n' then divider ++ shown ++ divider ++ "".intercalate crossing
      else shown)
    ++ "error: " ++ defect.problem.message

end Defect

end DspFirmware.Pattern

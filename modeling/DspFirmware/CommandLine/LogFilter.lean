import DspFirmware.Pattern.Check
import DspFirmware.Text.Cut
import DspFirmware.Text.Real

/-!
Log filters: which texts are accepted as one.

A filter is a list of directives between commas. A directive is a level, a target, or a span in
brackets with a field in braces, and the last two may have a level behind an equals sign. A field
may have a value, which is a number or a pattern. What a filter lets through shows in no answer of
the program, so that a filter is only checked.

A directive is looked through without the white space around it, and each of its parts is then cut
out of the whole directive, at the places found without the white space. So the parts of a directive
behind white space are not the ones that were looked at, and a cut can meet the middle of a
character.
-/

namespace DspFirmware.CommandLine.LogFilter

open Text

inductive Refusal where
  | malformedDirective
  | unknownLevel
  | unknownPattern (cause : Pattern.Refusal)
  /-- A cut meets the middle of a character. -/
  | splitCharacter
  deriving DecidableEq, Repr

namespace Refusal

def levelMessage : String :=
  "error parsing level filter: expected one of \"off\", \"error\", \"warn\", \"info\", "
    ++ "\"debug\", \"trace\", or a number 0-5"

/-- The causes that a report gives, the outermost first. An unknown level is the cause of an unknown
directive, which speaks of nothing else. Nothing is reported of a character that is cut. -/
def causes : Refusal → List String
  | malformedDirective => ["invalid filter directive"]
  | unknownLevel => [levelMessage, levelMessage]
  | unknownPattern cause =>
      ("invalid field filter: " ++ cause.causes.headD "") :: cause.causes
  | splitCharacter => []

end Refusal

def levelNames : List String := ["off", "error", "warn", "info", "debug", "trace"]

/-- Whether a text is a level: one of the names in any case, or a number up to five. -/
def isLevel (text : List Char) : Bool :=
  (Numeral.read 10 6 text).isOk || levelNames.any fun name => name.toList == text.map Char.toLower

/-- Whether a target can begin with a character. What follows in it is free. -/
def startsTarget (c : Char) : Bool := ['-', ':', '_'].contains c || isAlphanumeric c

/-- Cuts the part between two places out of a directive. -/
def cut (whole : List Char) (first last : Nat) : Except Refusal (List Char) :=
  match cut? whole first last with
  | some text => .ok text
  | none => .error .splitCharacter

def checkValue (text : List Char) : Except Refusal Unit :=
  if isReal text then .ok () else (Pattern.check text).mapError .unknownPattern

/-- Checks a field, which may have a value behind an equals sign. What follows another such sign has
no meaning. -/
def checkField (text : List Char) : Except Refusal Unit :=
  match pieces '=' text with
  | _ :: value :: _ => checkValue value
  | _ => .ok ()

/-- Checks the level of a directive, which may be empty. -/
def checkLevel (text : List Char) : Except Refusal Unit :=
  if text.isEmpty || isLevel text then .ok () else .error .unknownLevel

/-- Checks a directive from behind its target and span on. -/
def checkBehindSpan (whole : List Char) (offset : Nat) : List Char → Except Refusal Unit
  | [] => .ok ()
  | '=' :: _ => do checkLevel (← cut whole (offset + 1) (utf8Length whole))
  | _ => .error .malformedDirective

/-- Checks a directive from behind an opening brace on. At least one character stands between the
braces, and the bracket closes behind them. -/
def checkBehindBrace (whole : List Char) (offset : Nat) (text : List Char) :
    Except Refusal Unit := do
  let field := text.takeWhile (· != '\x7d')
  let last := offset + utf8Length field
  match text.dropWhile (· != '\x7d') with
  | [] => .error .malformedDirective
  | _ :: behind =>
      let found ← cut whole offset last
      if field.isEmpty then
        .error .malformedDirective
      else
        checkField found
        match behind with
        | ']' :: rest => checkBehindSpan whole (last + 2) rest
        | _ => .error .malformedDirective

/-- Checks a directive from behind an opening bracket on. The name of the span may be empty. -/
def checkBehindBracket (whole : List Char) (offset : Nat) (text : List Char) :
    Except Refusal Unit := do
  let inName (c : Char) : Bool := c != ']' && c != '\x7b'
  let last := offset + utf8Length (text.takeWhile inName)
  match text.dropWhile inName with
  | [] => .error .malformedDirective
  | mark :: rest =>
      let _ ← cut whole offset last
      if mark = ']' then checkBehindSpan whole (last + 1) rest
      else checkBehindBrace whole (last + 1) rest

def checkTarget (whole text : List Char) : Except Refusal Unit := do
  let inTarget (c : Char) : Bool := c != '=' && c != '['
  let last := utf8Length (text.takeWhile inTarget)
  match text.dropWhile inTarget with
  | [] => .ok ()
  | mark :: rest =>
      let _ ← cut whole 0 last
      if mark = '[' then checkBehindBracket whole (last + 1) rest
      else checkBehindSpan whole last (mark :: rest)

def checkDirective (whole : List Char) : Except Refusal Unit :=
  match trim whole with
  | [] => .error .malformedDirective
  | c :: rest =>
      if c = '[' then checkBehindBracket whole 1 rest
      else if startsTarget c then checkTarget whole (c :: rest)
      else .error .malformedDirective

/-- Checks the directives of a filter. The first one that is refused gives the reason, and nothing
between two commas is no directive. -/
def check (filter : String) : Except Refusal Unit :=
  ((pieces ',' filter.toList).filter (!·.isEmpty)).forM checkDirective

end DspFirmware.CommandLine.LogFilter

import DspFirmware.Pattern.Scan

/-!
What a backslash and the characters behind it mean.

A pattern stands between braces itself. So no opening brace in it finds a closing one, and what
would need one is never complete.
-/

namespace DspFirmware.Pattern

open Text

def isHexDigit (c : Char) : Bool := (Numeral.digitValue? 16 c).isSome

/-- Characters with a meaning of their own, which a backslash takes from them. -/
def metaCharacters : List Char :=
  ['\\', '.', '+', '*', '?', '(', ')', '|', '[', ']', '\x7b', '\x7d', '^', '$', '#', '&', '-',
    '~']

/-- Whether a character behind a backslash stands for itself: all of ASCII, except for letters,
digits and angle brackets. -/
def standsForItself (c : Char) : Bool :=
  metaCharacters.contains c || c.toNat < 128 && !c.isAlphanum && c != '<' && c != '>'

/-- The characters that letters behind a backslash stand for. -/
def controls : List (Char × Char) :=
  [('a', '\x07'), ('f', '\x0c'), ('t', '\t'), ('n', '\n'), ('r', '\r'), ('v', '\x0b')]

namespace Scan

/-- Takes hexadecimal digits, as many as asked for. -/
def hexDigits : (count : Nat) → Scan (List Char)
  | 0 => return []
  | count + 1 => do
      match (← get).rest with
      | [] => refuseHere .escapeEnd
      | c :: _ =>
          unless isHexDigit c do
            refuseNext .hexDigit
          let more ← advanceFar
          if count ≠ 0 ∧ !more then
            refuseHere .escapeEnd
          return c :: (← hexDigits count)

/-- The number that hexadecimal digits stand for. -/
def hexValue (digits : List Char) : Nat :=
  digits.foldl (fun value c => 16 * value + (Numeral.digitValue? 16 c).getD 0) 0

/-- Takes a character by the digits of its code. -/
def byCode (start : Position) (count : Nat) : Scan Tree := do
  let first := (← get).place
  let digits ← hexDigits count
  let value := hexValue digits
  if value.isValidChar then
    return .literal ⟨Char.ofNat value, count = 2, ⟨start, (← get).place⟩⟩
  else refuseFrom .hexNoCharacter first

/-- Reads behind the letter of an escape by code. Digits in braces are never complete. -/
def hexEscape (start : Position) (count : Nat) : Scan Tree := do
  unless ← advanceFar do
    refuseHere .escapeEnd
  let brace := (← get).place
  if (← get).rest.head? = some '\x7b' then
    let _ ← advanceFar
    let _ ← takeAll isHexDigit
    if ← atEnd then
      refuseFrom .escapeEnd brace
    else refuseNext .hexDigit
  else byCode start count

/-- Reads behind the letter of a class by property. A name in braces is never complete. -/
def propertyEscape (start : Position) : Scan Tree := do
  unless ← advanceFar do
    refuseHere .escapeEnd
  match (← get).rest.head? with
  | some '\x7b' =>
      let _ ← takeAll fun _ => true
      refuseHere .escapeEnd
  | some '\\' => refuseNext .unicodeClass
  | _ =>
      let _ ← advanceFar
      return .unicodeClass ⟨start, (← get).place⟩

/-- Looks at a brace behind a word boundary. A letter or a dash in it begins the name of a boundary,
which is never complete; anything else is left to the repetition that the brace begins. -/
def namedBoundary (start : Position) : Scan Unit := do
  let saved ← get
  if saved.rest.head? = some '\x7b' then
    unless ← advanceFar do
      refuseFrom .boundaryEnd start
    let named (c : Char) : Bool := c.isAlpha || c == '-'
    if ((← get).rest.head?.map named).getD false then
      let _ ← takeAll named
      refuseFrom .unclosedBoundary saved.place
    else set saved

/-- Reads an escape that is one character long. -/
def shortEscape (start : Position) (c : Char) : Scan Tree := do
  let _ ← advance
  let span : Span := ⟨start, (← get).place⟩
  if standsForItself c then
    return .literal ⟨c, false, span⟩
  match controls.lookup c with
  | some control => return .literal ⟨control, false, span⟩
  | none =>
      match c with
      | 'A' => return .assertion false span
      | 'z' => return .assertion false span
      | 'b' =>
          namedBoundary start
          return .assertion true span
      | 'B' => return .assertion true span
      | '<' => return .assertion true span
      | '>' => return .assertion true span
      | _ => refuse .unknownEscape span

def escape : Scan Tree := do
  let start := (← get).place
  unless ← advance do
    refuseFrom .escapeEnd start
  let next := (← get).next
  match (← get).rest with
  | [] => refuseFrom .escapeEnd start
  | c :: _ =>
      if c.isDigit then
        refuse .backreference ⟨start, next.last⟩
      else
        match c with
        | 'x' => hexEscape start 2
        | 'u' => hexEscape start 4
        | 'U' => hexEscape start 8
        | 'p' => propertyEscape start
        | 'P' => propertyEscape start
        | _ =>
            if ['d', 's', 'w', 'D', 'S', 'W'].contains c then
              let _ ← advance
              return .perlClass c.isUpper ⟨start, next.last⟩
            else shortEscape start c

end Scan

end DspFirmware.Pattern

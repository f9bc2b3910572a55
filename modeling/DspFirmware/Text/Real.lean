/-!
Which texts are real numbers: digits with at most one point among them, and an exponent if there is
one, or the name of a number that has no digits.
-/

namespace DspFirmware.Text

/-- A text without a sign at its beginning. -/
def unsigned : List Char → List Char
  | '+' :: rest => rest
  | '-' :: rest => rest
  | text => text

/-- Whether a text is digits, with at most one point among them. -/
def isMantissa (text : List Char) : Bool :=
  let whole := text.takeWhile Char.isDigit
  match text.dropWhile Char.isDigit with
  | [] => !whole.isEmpty
  | '.' :: fraction => fraction.all Char.isDigit && !(whole.isEmpty && fraction.isEmpty)
  | _ => false

/-- Whether a text is an exponent, behind its letter. -/
def isExponent (text : List Char) : Bool :=
  let digits := unsigned text
  digits.all Char.isDigit && !digits.isEmpty

/-- Names of numbers that have no digits. They are read in any case. -/
def namedReals : List String := ["inf", "infinity", "nan"]

def isReal (text : List Char) : Bool :=
  let body := unsigned text
  let inMantissa (c : Char) : Bool := c != 'e' && c != 'E'
  (namedReals.any fun name => name.toList == body.map Char.toLower) ||
    isMantissa (body.takeWhile inMantissa) &&
      match body.dropWhile inMantissa with
      | [] => true
      | _ :: exponent => isExponent exponent

end DspFirmware.Text

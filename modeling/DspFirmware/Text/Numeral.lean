/-!
Unsigned numerals: how numbers are printed, and which texts are read as numbers.

Reading goes digit by digit from the left and stops at the first character that cannot continue a
number below the limit, so that a text with two defects is reported for the leftmost one.
-/

namespace DspFirmware.Text

def decimal (value : Nat) : String := String.ofList (Nat.toDigits 10 value)

/-- The text of a number in lower-case hexadecimal digits, marked by `0x`. -/
def hexadecimal (value : Nat) : String := "0x" ++ String.ofList (Nat.toDigits 16 value)

def hexByte (byte : UInt8) : String :=
  String.ofList [Nat.digitChar (byte.toNat / 16), Nat.digitChar (byte.toNat % 16)]

namespace Numeral

/-- Why a text is not a number below the limit. -/
inductive Defect where
  | empty
  | invalidDigit
  | tooLarge
  deriving DecidableEq, Repr

def Defect.message : Defect → String
  | .empty => "cannot parse integer from empty string"
  | .invalidDigit => "invalid digit found in string"
  | .tooLarge => "number too large to fit in target type"

/-- The value of an ASCII letter or digit as a digit of the given radix. -/
def digitValue? (radix : Nat) (c : Char) : Option Nat :=
  let value? : Option Nat :=
    if '0' ≤ c ∧ c ≤ '9' then some (c.toNat - '0'.toNat)
    else if 'a' ≤ c ∧ c ≤ 'z' then some (c.toNat - 'a'.toNat + 10)
    else if 'A' ≤ c ∧ c ≤ 'Z' then some (c.toNat - 'A'.toNat + 10)
    else none
  value?.filter (· < radix)

/-- Continues a number by further digits while it stays below `limit`. A character that is no digit
is reported before the number it would make too large. -/
def continued (radix limit : Nat) : (value : Nat) → List Char → Except Defect Nat
  | value, [] => .ok value
  | value, c :: rest =>
      match digitValue? radix c with
      | none => .error .invalidDigit
      | some digit =>
          if value * radix + digit < limit then
            continued radix limit (value * radix + digit) rest
          else .error .tooLarge

/-- Reads a number below `limit`: digits of the radix, after at most one plus sign. A sign alone is
an invalid digit. -/
def read (radix limit : Nat) : List Char → Except Defect Nat
  | [] => .error .empty
  | ['+'] => .error .invalidDigit
  | '+' :: digits => continued radix limit 0 digits
  | digits => continued radix limit 0 digits

def readUInt32 (radix : Nat) (text : List Char) : Except Defect UInt32 :=
  (read radix UInt32.size text).map UInt32.ofNat

end Numeral

end DspFirmware.Text

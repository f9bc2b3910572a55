import DspFirmware.Text.Invisible

/-!
Texts between quotation marks, written so that every character of them can be told.

Inside the marks a quotation mark or a backslash stands behind a backslash, four controls are a
backslash and a letter, and any other character that shows nothing of its own is given by its code.
-/

namespace DspFirmware.Text

namespace Quoted

/-- The letter that stands for a character behind a backslash. -/
def letter? : Char → Option Char
  | '"' => some '"'
  | '\\' => some '\\'
  | '\n' => some 'n'
  | '\r' => some 'r'
  | '\t' => some 't'
  | '\x00' => some '0'
  | _ => none

/-- A character by its code in hexadecimal digits. -/
def byCode (c : Char) : List Char :=
  ['\\', 'u', '\x7b'] ++ Nat.toDigits 16 c.toNat ++ ['\x7d']

/-- A character as it is written between quotation marks. -/
def encodeChar (c : Char) : List Char :=
  match letter? c with
  | some letter => ['\\', letter]
  | none => if isInvisible c then byCode c else [c]

end Quoted

def quoted (text : String) : String :=
  String.ofList ('"' :: text.toList.flatMap Quoted.encodeChar ++ ['"'])

end DspFirmware.Text

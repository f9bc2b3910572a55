import DspFirmware.Text.Latin1

/-!
Bytes shown as UTF-8, whatever they are.

Where bytes begin a character but do not complete it, the replacement character stands for as many of
them as do begin one; a byte that begins none is replaced on its own. Main statement: a text in UTF-8
is shown as itself.
-/

namespace DspFirmware.Text

/-- A character whose first bytes have been read. -/
structure Incomplete where
  /-- The bits of its code so far. -/
  value : Nat
  /-- The least byte that goes on. -/
  low : Nat
  /-- The greatest byte that goes on. -/
  high : Nat
  /-- How many bytes there are behind the next one. -/
  more : Nat
  deriving DecidableEq, Repr

namespace Incomplete

/-- A character of several bytes by its first byte. The range of the second byte leaves no room for
codes that need fewer bytes, nor for codes that are no characters. -/
def begin? (byte : Nat) : Option Incomplete :=
  if 0xc2 ≤ byte ∧ byte ≤ 0xdf then some ⟨byte - 0xc0, 0x80, 0xbf, 0⟩
  else if 0xe0 ≤ byte ∧ byte ≤ 0xef then
    some ⟨byte - 0xe0, if byte = 0xe0 then 0xa0 else 0x80, if byte = 0xed then 0x9f else 0xbf, 1⟩
  else if 0xf0 ≤ byte ∧ byte ≤ 0xf4 then
    some ⟨byte - 0xf0, if byte = 0xf0 then 0x90 else 0x80, if byte = 0xf4 then 0x8f else 0xbf, 2⟩
  else none

/-- Whether a byte goes on with a character. -/
def takes (char : Incomplete) (byte : Nat) : Bool := char.low ≤ byte && byte ≤ char.high

/-- The code so far with the bits of another byte. -/
def extended (char : Incomplete) (byte : Nat) : Nat := char.value * 64 + (byte - 0x80)

end Incomplete

/-- What stands for bytes that are no character. -/
def replacement : Char := '\ufffd'

/-- Reads a byte between characters: what it shows, and what it begins. -/
def showFirst (byte : UInt8) : List Char × Option Incomplete :=
  if byte.toNat < 0x80 then ([charOfByte byte], none)
  else
    match Incomplete.begin? byte.toNat with
    | some char => ([], some char)
    | none => ([replacement], none)

/-- Reads a byte: what it shows, and what is incomplete behind it. -/
def showByte (before : Option Incomplete) (byte : UInt8) : List Char × Option Incomplete :=
  match before with
  | none => showFirst byte
  | some char =>
      if char.takes byte.toNat then
        let value := char.extended byte.toNat
        match char.more with
        | 0 => ([Char.ofNat value], none)
        | more + 1 => ([], some ⟨value, 0x80, 0xbf, more⟩)
      else
        let (shown, behind) := showFirst byte
        (replacement :: shown, behind)

/-- Reads bytes behind a character that is incomplete, if there is one. -/
def showBytes (before : Option Incomplete) : Bytes → List Char
  | [] => if before.isSome then [replacement] else []
  | byte :: rest =>
      let (shown, behind) := showByte before byte
      shown ++ showBytes behind rest

def ofUtf8 (bytes : Bytes) : String := String.ofList (showBytes none bytes)

/-- A first byte of several shows nothing yet. -/
theorem showBytes_begin {byte : UInt8} {char : Incomplete} {rest : Bytes} (high : 0x80 ≤ byte.toNat)
    (first : Incomplete.begin? byte.toNat = some char) :
    showBytes none (byte :: rest) = showBytes (some char) rest := by
  rw [showBytes, showByte, showFirst, if_neg (Nat.not_lt.mpr high), first]
  rfl

/-- A byte that goes on shows nothing yet. -/
theorem showBytes_extend {value low high more : Nat} {byte : UInt8} {rest : Bytes}
    (takes : low ≤ byte.toNat ∧ byte.toNat ≤ high) :
    showBytes (some ⟨value, low, high, more + 1⟩) (byte :: rest) =
      showBytes (some ⟨value * 64 + (byte.toNat - 0x80), 0x80, 0xbf, more⟩) rest := by
  have fits : Incomplete.takes ⟨value, low, high, more + 1⟩ byte.toNat = true := by
    simpa [Incomplete.takes] using takes
  rw [showBytes, showByte, if_pos fits]
  rfl

/-- The last byte shows the character. -/
theorem showBytes_complete {value low high : Nat} {byte : UInt8} {rest : Bytes}
    (takes : low ≤ byte.toNat ∧ byte.toNat ≤ high) :
    showBytes (some ⟨value, low, high, 0⟩) (byte :: rest) =
      Char.ofNat (value * 64 + (byte.toNat - 0x80)) :: showBytes none rest := by
  have fits : Incomplete.takes ⟨value, low, high, 0⟩ byte.toNat = true := by
    simpa [Incomplete.takes] using takes
  rw [showBytes, showByte, if_pos fits]
  rfl

/-- A character is shown by its bytes, whatever follows them. -/
theorem showBytes_utf8EncodeChar (c : Char) (rest : Bytes) :
    showBytes none (String.utf8EncodeChar c ++ rest) = c :: showBytes none rest := by
  have valid : c.val.toNat < 0xd800 ∨ 0xdfff < c.val.toNat ∧ c.val.toNat < 0x110000 := c.valid
  have back : Char.ofNat c.val.toNat = c := Char.ofNat_toNat c
  have toNat_byte : ∀ n < 256, (UInt8.ofNat n).toNat = n := fun n small =>
    UInt8.toNat_ofNat_of_lt' small
  unfold String.utf8EncodeChar
  generalize c.val.toNat = code at valid back
  dsimp only
  split
  · rename_i small
    have same := toNat_byte code (by omega)
    simp [showBytes, showByte, showFirst, same, charOfByte, back, show code < 128 by omega]
  · have last := toNat_byte (code % 64 + 128) (by omega)
    have third := toNat_byte (code / 64 % 64 + 128) (by omega)
    have second := toNat_byte (code / 4096 % 64 + 128) (by omega)
    split
    · have first := toNat_byte (code / 64 % 32 + 192) (by omega)
      rw [List.cons_append, showBytes_begin (by omega)
        (by rw [first, Incomplete.begin?, if_pos (by omega)]), List.cons_append,
        showBytes_complete (by omega), last, List.nil_append]
      have whole : (code / 64 % 32 + 192 - 192) * 64 + (code % 64 + 128 - 128) = code := by
        omega
      rw [whole, back]
    · split
      · have first := toNat_byte (code / 4096 % 16 + 224) (by omega)
        rw [List.cons_append, showBytes_begin (by omega)
          (by rw [first, Incomplete.begin?, if_neg (by omega), if_pos (by omega)]), List.cons_append,
          showBytes_extend (by rw [third]; constructor <;> split <;> omega), List.cons_append,
          showBytes_complete (by omega), last, third, List.nil_append]
        have whole : ((code / 4096 % 16 + 224 - 224) * 64 + (code / 64 % 64 + 128 - 128)) * 64 +
            (code % 64 + 128 - 128) = code := by
          omega
        rw [whole, back]
      · have first := toNat_byte (code / 262144 % 8 + 240) (by omega)
        rw [List.cons_append, showBytes_begin (by omega)
          (by rw [first, Incomplete.begin?, if_neg (by omega), if_neg (by omega), if_pos (by omega)]),
          List.cons_append,
          showBytes_extend (by rw [second]; constructor <;> split <;> omega), List.cons_append,
          showBytes_extend (by omega), List.cons_append,
          showBytes_complete (by omega), last, third, second, List.nil_append]
        have whole : (((code / 262144 % 8 + 240 - 240) * 64 + (code / 4096 % 64 + 128 - 128)) * 64 +
            (code / 64 % 64 + 128 - 128)) * 64 + (code % 64 + 128 - 128) = code := by
          omega
        rw [whole, back]

/-- A text in UTF-8 is shown as itself. -/
theorem ofUtf8_utf8 (text : String) : ofUtf8 (utf8 text) = text := by
  have all (chars : List Char) :
      showBytes none (chars.flatMap String.utf8EncodeChar) = chars := by
    induction chars with
    | nil => rfl
    | cons c rest ih => rw [List.flatMap_cons, showBytes_utf8EncodeChar, ih]
  rw [ofUtf8, utf8, all, String.ofList_toList]

end DspFirmware.Text

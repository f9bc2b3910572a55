import DspFirmware.Bytes

/-!
Text inside binary files: every byte stands for the character of the same code, so that decoding
never fails and never loses a byte. Text that is written goes out in UTF-8, which agrees with this
on ASCII.
-/

namespace DspFirmware.Text

/-- The character with the code of a byte. -/
def charOfByte (byte : UInt8) : Char := Char.ofNat byte.toNat

/-- The text whose characters have the codes of the bytes. -/
def latin1 (bytes : Bytes) : String := String.ofList (bytes.map charOfByte)

/-- The bytes with the codes of the characters of a text, as far as codes fit bytes. -/
def latin1Bytes (text : String) : Bytes := text.toList.map fun c => UInt8.ofNat c.toNat

def utf8 (text : String) : Bytes := text.toList.flatMap String.utf8EncodeChar

def terminated (text : String) : Bytes := utf8 text ++ [0]

/-- The bytes in front of the first zero byte, or all of them if there is none. -/
def untilZero (bytes : Bytes) : Bytes := bytes.takeWhile (· != 0)

theorem length_untilZero_lt {bytes : Bytes} (found : 0 ∈ bytes) :
    (untilZero bytes).length < bytes.length := by
  induction bytes with
  | nil => simp at found
  | cons byte rest ih =>
      by_cases zero : byte = 0
      · simp [untilZero, zero]
      · have later : 0 ∈ rest := by
          rcases List.mem_cons.mp found with here | there
          · exact absurd here.symm zero
          · exact there
        have shorter := ih later
        simp only [untilZero] at shorter
        simp [untilZero, zero, shorter]

theorem toNat_charOfByte (byte : UInt8) : (charOfByte byte).toNat = byte.toNat := by
  have small : byte.toNat < 256 := byte.toNat_lt
  have valid : byte.toNat.isValidChar := Or.inl (by omega)
  rw [charOfByte, Char.ofNat, dif_pos valid]
  rfl

/-- Different byte strings are different texts. -/
theorem latin1_injective {bytes others : Bytes} (same : latin1 bytes = latin1 others) :
    bytes = others := by
  have chars : bytes.map charOfByte = others.map charOfByte := by
    have := congrArg String.toList same
    simpa [latin1] using this
  refine (List.map_inj_right ?_).mp chars
  intro byte other equal
  apply UInt8.toNat_inj.mp
  rw [← toNat_charOfByte byte, ← toNat_charOfByte other, equal]

end DspFirmware.Text

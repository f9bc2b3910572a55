import DspFirmware.Bytes
import DspFirmware.Text.Numeral

/-!
The structural faults of the formats, one constructor for each cause, with their wording.

A fault ends the reading or writing that met it. A lookup that finds nothing is not a fault.
-/

namespace DspFirmware

open Text

/-- Why a byte string is not what it should be, or cannot be made. -/
inductive Fault where
  /-- An access of `count` bytes at `offset` does not lie inside `size` bytes. -/
  | outOfBounds (offset count size : Nat)
  | unterminatedString (offset : Nat)
  | lebOverflow (offset : Nat)
  | notElf
  | unsupportedElf (reason : String)
  | malformedElf (reason : String)
  | missingSection (index : Nat)
  | notAStringTable (index : Nat)
  | symbolTableLength (name : String) (size recordSize : Nat)
  /-- The four bytes found where the container's magic belongs, and that magic. -/
  | badMagic (found expected : Bytes)
  | unknownSegmentType (code : UInt8)
  | tooManySegments (count limit : Nat)
  | segmentTooLarge (size : Nat)
  | unsupportedLineVersion (version : UInt16)
  | zeroLineRange
  /-- The tables of a line program run past the end its prologue declares. -/
  | prologueOverrun (declaredEnd tablesEnd : Nat)
  | invalidFileIndex (index : UInt64)
  | invalidDirectoryIndex (index : UInt64)
  deriving DecidableEq, Repr

namespace Fault

/-- Bytes in brackets, two hexadecimal digits each. -/
def byteList (bytes : Bytes) : String :=
  "[" ++ ", ".intercalate (bytes.map hexByte) ++ "]"

/-- The wording of a fault. Offsets and sizes are hexadecimal, counts and indices decimal. -/
def message : Fault → String
  | outOfBounds offset count size =>
      "access of " ++ decimal count ++ " bytes at offset " ++ hexadecimal offset
        ++ " is outside a " ++ hexadecimal size ++ "-byte buffer"
  | unterminatedString offset => "unterminated string at offset " ++ hexadecimal offset
  | lebOverflow offset =>
      "LEB128 value at offset " ++ hexadecimal offset ++ " does not fit in 64 bits"
  | notElf => "not an ELF image"
  | unsupportedElf reason => "unsupported ELF image: " ++ reason
  | malformedElf reason => "malformed ELF image: " ++ reason
  | missingSection index =>
      "section header table references missing section " ++ decimal index
  | notAStringTable index => "section " ++ decimal index ++ " is not a string table"
  | symbolTableLength name size recordSize =>
      "symbol table `" ++ name ++ "` is " ++ hexadecimal size ++ " bytes, not a multiple of "
        ++ decimal recordSize
  | badMagic found expected =>
      "bad container magic " ++ byteList found ++ ", expected " ++ byteList expected
  | unknownSegmentType code => "unknown segment type " ++ decimal code.toNat
  | tooManySegments count limit =>
      decimal count ++ " segments do not fit in the container header (max " ++ decimal limit ++ ")"
  | segmentTooLarge size =>
      "segment payload of " ++ hexadecimal size ++ " bytes does not fit the container"
  | unsupportedLineVersion version =>
      "unsupported line program version " ++ decimal version.toNat
  | zeroLineRange => "line program declares a zero line range"
  | prologueOverrun declaredEnd tablesEnd =>
      "line program prologue ends at " ++ hexadecimal declaredEnd ++ " but its tables run to "
        ++ hexadecimal tablesEnd
  | invalidFileIndex index => "invalid file index " ++ decimal index.toNat
  | invalidDirectoryIndex index => "invalid directory index " ++ decimal index.toNat

end Fault

end DspFirmware

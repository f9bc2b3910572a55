/-!
Byte strings and the little-endian words inside them.

A byte string is a list of bytes, so that every statement about a file is a statement about lists.
A word of `k` bytes is read with `ofLittleEndian` and written with `littleEndian k`; the two undo
each other on words that fit and on byte strings of that length.
-/

namespace DspFirmware

/-- The contents of a file, or of a part of one. -/
abbrev Bytes := List UInt8

namespace Bytes

abbrev Block (size : Nat) := { bytes : Bytes // bytes.length = size }

/-- The lowest `width` bytes of a number, least significant byte first. -/
def littleEndian : (width value : Nat) → Bytes
  | 0, _ => []
  | width + 1, value => UInt8.ofNat value :: littleEndian width (value / 256)

/-- The number whose bytes are given, least significant byte first. -/
def ofLittleEndian : Bytes → Nat
  | [] => 0
  | byte :: rest => byte.toNat + 256 * ofLittleEndian rest

@[simp] theorem length_littleEndian (width value : Nat) :
    (littleEndian width value).length = width := by
  induction width generalizing value with
  | zero => rfl
  | succ width ih => simp [littleEndian, ih]

/-- Writing back the number of a byte string, at its own length, gives the string again. -/
theorem littleEndian_ofLittleEndian (bytes : Bytes) :
    littleEndian bytes.length (ofLittleEndian bytes) = bytes := by
  induction bytes with
  | nil => rfl
  | cons byte rest ih =>
      have small : byte.toNat < 256 := byte.toNat_lt
      have high : (byte.toNat + 256 * ofLittleEndian rest) / 256 = ofLittleEndian rest := by omega
      have low : UInt8.ofNat (byte.toNat + 256 * ofLittleEndian rest) = byte := by
        apply UInt8.toNat_inj.mp
        rw [UInt8.toNat_ofNat']
        omega
      rw [List.length_cons, ofLittleEndian, littleEndian, high, ih, low]

/-- The number in `width` bytes from `offset` on, least significant byte first. -/
def field (bytes : Bytes) (offset width : Nat) : Nat :=
  ofLittleEndian ((bytes.drop offset).take width)

def ofUInt8 (value : UInt8) : Bytes := [value]

def ofUInt16 (value : UInt16) : Bytes := littleEndian 2 value.toNat

def ofUInt32 (value : UInt32) : Bytes := littleEndian 4 value.toNat

def ofUInt64 (value : UInt64) : Bytes := littleEndian 8 value.toNat

theorem ofLittleEndian_ofUInt16 (value : UInt16) : ofLittleEndian (ofUInt16 value) = value.toNat := by
  have small : value.toNat < 65536 := value.toNat_lt
  simp only [ofUInt16, littleEndian, ofLittleEndian, UInt8.toNat_ofNat']
  omega

theorem ofLittleEndian_ofUInt32 (value : UInt32) : ofLittleEndian (ofUInt32 value) = value.toNat := by
  have small : value.toNat < 4294967296 := value.toNat_lt
  simp only [ofUInt32, littleEndian, ofLittleEndian, UInt8.toNat_ofNat']
  omega

theorem ofLittleEndian_ofUInt64 (value : UInt64) : ofLittleEndian (ofUInt64 value) = value.toNat := by
  have small : value.toNat < 18446744073709551616 := value.toNat_lt
  simp only [ofUInt64, littleEndian, ofLittleEndian, UInt8.toNat_ofNat']
  omega

/-- Whether a string holds at least `count` bytes. Only that many are looked at, however long the
string is. -/
def holds : (count : Nat) → Bytes → Bool
  | 0, _ => true
  | _ + 1, [] => false
  | count + 1, _ :: rest => holds count rest

@[simp] theorem holds_iff {count : Nat} {bytes : Bytes} :
    holds count bytes = true ↔ count ≤ bytes.length := by
  induction count generalizing bytes with
  | zero => simp [holds]
  | succ count ih =>
      cases bytes with
      | nil => simp [holds]
      | cons byte rest => simp [holds, ih]

/-- The `count` bytes from `offset` on, if the string holds all of them. -/
def slice? (bytes : Bytes) (offset count : Nat) : Option Bytes :=
  if holds (offset + count) bytes then some ((bytes.drop offset).take count) else none

theorem slice?_eq_some_iff {bytes part : Bytes} {offset count : Nat} :
    bytes.slice? offset count = some part ↔
      offset + count ≤ bytes.length ∧ part = (bytes.drop offset).take count := by
  rw [slice?]
  by_cases fits : offset + count ≤ bytes.length
  · rw [if_pos (holds_iff.mpr fits)]
    exact ⟨fun same => ⟨fits, (Option.some.inj same).symm⟩, fun both => both.2 ▸ rfl⟩
  · rw [if_neg (fun enough => fits (holds_iff.mp enough))]
    exact ⟨nofun, fun both => absurd both.1 fits⟩

theorem slice?_eq_none_iff {bytes : Bytes} {offset count : Nat} :
    bytes.slice? offset count = none ↔ bytes.length < offset + count := by
  simp [slice?]

end Bytes

end DspFirmware

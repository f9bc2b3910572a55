import DspFirmware.Reader

/-!
LEB128 numbers: seven bits to a byte, least significant group first, the high bit set on every byte
but the last. The signed form takes its sign from bit 6 of the last byte.

`encodeUnsigned` and `encodeSigned` write the shortest form. Reading accepts longer forms too, as
long as the number fits 64 bits.
-/

namespace DspFirmware.Leb128

/-- What a scan for one number has found. Lengths count the bytes looked at. -/
inductive Scan (α : Type) where
  | value (value : α) (length : Nat)
  | overflow (length : Nat)
  /-- The bytes end before a last byte. -/
  | truncated

/-- The seven bits of a byte that belong to the number. -/
def group (byte : UInt8) : Nat := byte.toNat % 128

def isLast (byte : UInt8) : Bool := byte.toNat < 128

/-- Looks for the rest of an unsigned number, of which `length` bytes have given `value`. The first
byte that takes the number out of 64 bits ends the search. -/
def unsigned : (value length : Nat) → Bytes → Scan Nat
  | _, _, [] => .truncated
  | value, length, byte :: rest =>
      let value := value + group byte <<< (7 * length)
      if UInt64.size ≤ value then .overflow (length + 1)
      else if isLast byte then .value value (length + 1)
      else unsigned value (length + 1) rest

/-- The number that `length` bytes with the given sum of groups stand for, when `byte` is the last.
Nine bytes or fewer leave room for a sign above their groups. Ten fill all 64 bits: what their sum
has above the lowest 64 is dropped, and the highest of those is the sign. -/
def signedValue (sum : Nat) (length : Nat) (byte : UInt8) : Int64 :=
  if length < 10 ∧ 64 ≤ group byte then Int64.ofInt (sum - (1 <<< (7 * length) : Nat))
  else Int64.ofNat sum

/-- The sum of groups that has room for ten of them: later ones do not count. -/
def addGroup (sum length : Nat) (byte : UInt8) : Nat :=
  if length < 10 then sum + group byte <<< (7 * length) else sum

/-- Looks for the rest of a signed number, of which `length` bytes have given `sum`. From the
eleventh byte on a group only repeats the sign: it holds all zeros or all ones. -/
def signed : (sum length : Nat) → Bytes → Scan Int64
  | _, _, [] => .truncated
  | sum, length, byte :: rest =>
      if 10 ≤ length ∧ group byte ≠ 0 ∧ group byte ≠ 127 then .overflow (length + 1)
      else if isLast byte then
        .value (signedValue (addGroup sum length byte) (length + 1) byte) (length + 1)
      else signed (addGroup sum length byte) (length + 1) rest

/-- The shortest unsigned form of a number. -/
def encodeUnsigned (value : Nat) : Bytes :=
  if value < 128 then [UInt8.ofNat value]
  else UInt8.ofNat (value % 128 + 128) :: encodeUnsigned (value / 128)

/-- The shortest signed form of a number. -/
def encodeSigned (value : Int) : Bytes :=
  if -64 ≤ value ∧ value < 64 then [UInt8.ofNat (value % 128).toNat]
  else UInt8.ofNat ((value % 128).toNat + 128) :: encodeSigned (value / 128)
termination_by value.natAbs
decreasing_by omega

/-- How many bytes a scan has looked at, none of them beyond the last of `available`. -/
def Scan.Within (available : Nat) : Scan α → Prop
  | .value _ length => 0 < length ∧ length ≤ available
  | .overflow length => 0 < length ∧ length ≤ available
  | .truncated => True

theorem unsigned_within (value length : Nat) (bytes : Bytes) :
    (unsigned value length bytes).Within (length + bytes.length) := by
  induction bytes generalizing value length with
  | nil => trivial
  | cons byte rest ih =>
      have later := ih (value + group byte <<< (7 * length)) (length + 1)
      rw [show length + 1 + rest.length = length + (byte :: rest).length by
        simp only [List.length_cons]; omega] at later
      rw [unsigned]
      split
      · simp [Scan.Within]
      · split
        · simp [Scan.Within]
        · exact later

theorem signed_within (sum length : Nat) (bytes : Bytes) :
    (signed sum length bytes).Within (length + bytes.length) := by
  induction bytes generalizing sum length with
  | nil => trivial
  | cons byte rest ih =>
      have later := ih (addGroup sum length byte) (length + 1)
      rw [show length + 1 + rest.length = length + (byte :: rest).length by
        simp only [List.length_cons]; omega] at later
      rw [signed]
      split
      · simp [Scan.Within]
      · split
        · simp [Scan.Within]
        · exact later

end Leb128

namespace Read

open Leb128

/-- Reads the number that a scan finds. A number that does not fit is reported where it starts, a
missing last byte at the end; either way the reader stays behind the last byte looked at. -/
def scanned (scan : Bytes → Scan α) (within : ∀ bytes, (scan bytes).Within bytes.length) :
    Read α := fun r =>
  match found : scan r.rest with
  | .value value length =>
      .ok value (r.advance length (by have := within r.rest; rw [found] at this; exact this.2))
  | .overflow length =>
      .error (.lebOverflow r.pos)
        (r.advance length (by have := within r.rest; rw [found] at this; exact this.2))
  | .truncated => .error (r.outOfBounds r.data.length 1) r.toEnd

def uleb128 : Read UInt64 :=
  UInt64.ofNat <$> scanned (unsigned 0 0) fun bytes => by simpa using unsigned_within 0 0 bytes

def sleb128 : Read Int64 :=
  scanned (signed 0 0) fun bytes => by simpa using signed_within 0 0 bytes

end DspFirmware.Read

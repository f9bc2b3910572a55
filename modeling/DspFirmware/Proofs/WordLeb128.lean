import DspFirmware.Proofs.Leb128
import Mathlib.Data.Nat.Bitwise

/-!
Reading LEB128 numbers in machine words. A group is shifted to its place, which has a result only for
fewer than 64 places, and joined to the others bit by bit. No shift is without a result, and what is read
is what sums without bounds come to.
-/

namespace DspFirmware.Leb128

def Scan.map (f : α → β) : Scan α → Scan β
  | .value number length => .value (f number) length
  | .overflow length => .overflow length
  | .truncated => .truncated

theorem Scan.map_id (scan : Scan α) : scan.map id = scan := by
  cases scan <;> rfl

/-- What one more byte makes of a number that is being read. -/
inductive Step (σ α : Type) where
  | more (state : σ)
  | value (number : α)
  | overflow

/-- Takes one byte after another until one of them decides, as long as the step has a result. -/
def walk? (step : σ → UInt8 → Option (Step σ α)) (state : σ) (length : Nat) :
    Bytes → Option (Scan α)
  | [] => some .truncated
  | byte :: rest =>
      match step state byte with
      | none => none
      | some (.more next) => walk? step next (length + 1) rest
      | some (.value number) => some (.value number (length + 1))
      | some .overflow => some (.overflow (length + 1))

def shiftLeft? (word : UInt64) (places : UInt32) : Option UInt64 :=
  if places < 64 then some (word <<< places.toUInt64) else none

def shiftRight? (word : UInt64) (places : UInt32) : Option UInt64 :=
  if places < 64 then some (word >>> places.toUInt64) else none

/-- The groups read so far, and how far the next one is to be shifted. -/
structure WordSum where
  bits : UInt64
  places : UInt32

namespace WordSum

def start : WordSum := ⟨0, 0⟩

/-- Seven places further, or as far as a word counts. -/
def nextPlaces (sum : WordSum) : UInt32 :=
  if sum.places.toNat + 7 < UInt32.size then sum.places + 7 else 0xffffffff

/-- What leaves the word when a group is shifted to its place. -/
def above? (sum : WordSum) (low : UInt64) : Option UInt64 :=
  if 0 < sum.places then shiftRight? low (64 - sum.places) else some 0

/-- Adds a group. Inside there is nothing if the group does not fit. -/
def addUnsigned? (sum : WordSum) (low : UInt64) : Option (Option UInt64) := do
  if 64 ≤ sum.places then
    return if low = 0 then some sum.bits else none
  if (← sum.above? low) ≠ 0 then
    return none
  return some (sum.bits ||| (← shiftLeft? low sum.places))

def unsignedStep? (sum : WordSum) (byte : UInt8) : Option (Step WordSum UInt64) := do
  match ← sum.addUnsigned? (byte &&& 0x7f).toUInt64 with
  | none => return .overflow
  | some bits => return if byte &&& 0x80 = 0 then .value bits else .more ⟨bits, sum.nextPlaces⟩

/-- Adds a group as far as there is room for it. -/
def addSigned? (sum : WordSum) (low : UInt64) : Option UInt64 := do
  if sum.places < 64 then
    return sum.bits ||| (← shiftLeft? low sum.places)
  return sum.bits

/-- The word behind a last byte, with its sign in all places that are left. -/
def extend? (sum : WordSum) (byte : UInt8) : Option UInt64 := do
  if sum.places < 64 ∧ byte &&& 0x40 ≠ 0 then
    return sum.bits ||| (← shiftLeft? (~~~0) sum.places)
  return sum.bits

def signedStep? (sum : WordSum) (byte : UInt8) : Option (Step WordSum Int64) := do
  let low := (byte &&& 0x7f).toUInt64
  if 64 ≤ sum.places ∧ low ≠ 0 ∧ low ≠ 0x7f then
    return .overflow
  let next : WordSum := ⟨← sum.addSigned? low, sum.nextPlaces⟩
  if byte &&& 0x80 = 0 then
    return .value (← next.extend? byte).toInt64
  return .more next

/-- The words of a sum of `length` groups. -/
structure Holds (sum : WordSum) (value length : Nat) : Prop where
  bits : sum.bits = UInt64.ofNat value
  below : value < 2 ^ (7 * length)
  places : sum.places.toNat = min (7 * length) (UInt32.size - 1)

theorem holds_start : start.Holds 0 0 := ⟨rfl, by decide, rfl⟩

theorem toNat_nextPlaces (sum : WordSum) :
    sum.nextPlaces.toNat = min (sum.places.toNat + 7) (UInt32.size - 1) := by
  rw [nextPlaces]
  split
  · rename_i room
    rw [UInt32.toNat_add]
    simp only [UInt32.size] at room ⊢
    have : (7 : UInt32).toNat = 7 := rfl
    omega
  · rename_i full
    have : (0xffffffff : UInt32).toNat = UInt32.size - 1 := rfl
    omega

end WordSum

/-- Words without a common bit are joined by adding them. What leaves the word on the left is lost. -/
theorem ofNat_or_shiftLeft {value low : Nat} {places : UInt32} (room : places.toNat < 64)
    (below : value < 2 ^ places.toNat) :
    UInt64.ofNat value ||| UInt64.ofNat low <<< places.toUInt64
      = UInt64.ofNat (value + low <<< places.toNat) := by
  apply UInt64.toNat_inj.mp
  calc (UInt64.ofNat value ||| UInt64.ofNat low <<< places.toUInt64).toNat
      = value % 2 ^ 64 ||| (low % 2 ^ 64) <<< places.toNat % 2 ^ 64 := by
        rw [UInt64.toNat_or, UInt64.toNat_shiftLeft, UInt32.toNat_toUInt64, Nat.mod_eq_of_lt room,
          UInt64.toNat_ofNat', UInt64.toNat_ofNat']
    _ = value % 2 ^ 64 ||| low <<< places.toNat % 2 ^ 64 := by
        rw [Nat.shiftLeft_eq, Nat.shiftLeft_eq, Nat.mod_mul_mod]
    _ = (low <<< places.toNat + value) % 2 ^ 64 := by
        rw [← Nat.or_mod_two_pow, Nat.or_comm, ← Nat.shiftLeft_add_eq_or_of_lt below]
    _ = (UInt64.ofNat (value + low <<< places.toNat)).toNat := by
        rw [UInt64.toNat_ofNat', Nat.add_comm]

theorem toUInt64_and_low (byte : UInt8) : (byte &&& 0x7f).toUInt64 = UInt64.ofNat (group byte) := by
  apply UInt64.toNat_inj.mp
  have low : (byte &&& 0x7f).toNat = group byte := Nat.and_two_pow_sub_one_eq_mod byte.toNat 7
  have small := group_lt byte
  rw [UInt8.toNat_toUInt64, low, UInt64.toNat_ofNat_of_lt' (by simp only [UInt64.size]; omega)]

/-- A bit of a byte is one of its binary digits. -/
theorem and_bit_eq_zero_iff {byte bit : UInt8} {i : Nat} (place : bit.toNat = 2 ^ i) :
    byte &&& bit = 0 ↔ byte.toNat / 2 ^ i % 2 = 0 := by
  rw [← UInt8.toNat_inj, UInt8.toNat_and, place, Nat.and_two_pow, Nat.testBit_eq_decide_div_mod_eq]
  rcases Nat.mod_two_eq_zero_or_one (byte.toNat / 2 ^ i) with zero | one
  · simp [zero]
  · simp [one]

theorem and_high_eq_zero_iff (byte : UInt8) : byte &&& 0x80 = 0 ↔ byte.toNat < 128 := by
  have small := byte.toNat_lt
  rw [and_bit_eq_zero_iff (show (0x80 : UInt8).toNat = 2 ^ 7 from rfl)]
  omega

theorem and_sign_ne_zero_iff (byte : UInt8) : byte &&& 0x40 ≠ 0 ↔ 64 ≤ group byte := by
  rw [ne_eq, and_bit_eq_zero_iff (show (0x40 : UInt8).toNat = 2 ^ 6 from rfl), group]
  omega

namespace WordSum

variable {sum : WordSum} {value length : Nat}

theorem Holds.lt_iff (h : sum.Holds value length) : sum.places.toNat < 64 ↔ length < 10 := by
  have := h.places
  simp only [UInt32.size] at this
  omega

theorem Holds.toNat_places (h : sum.Holds value length) (room : length < 10) :
    sum.places.toNat = 7 * length := by
  have := h.places
  simp only [UInt32.size] at this
  omega

/-- One group more. -/
theorem Holds.next (h : sum.Holds value length) (byte : UInt8) :
    (WordSum.mk (UInt64.ofNat (value + group byte <<< (7 * length))) sum.nextPlaces).Holds
      (value + group byte <<< (7 * length)) (length + 1) where
  bits := rfl
  below := by
    calc value + group byte <<< (7 * length)
        < (group byte + 1) * 2 ^ (7 * length) := by
          rw [Nat.shiftLeft_eq, Nat.add_mul]
          have := h.below
          omega
      _ ≤ 2 ^ 7 * 2 ^ (7 * length) := Nat.mul_le_mul_right _ (group_lt byte)
      _ = 2 ^ (7 * (length + 1)) := by rw [← pow_add, Nat.mul_add, Nat.add_comm]
  places := by
    rw [toNat_nextPlaces, h.places]
    simp only [UInt32.size]
    omega

/-- A group for which there is room is joined to the others. -/
theorem Holds.or_shiftLeft (h : sum.Holds value length) (room : length < 10) (low : Nat) :
    sum.bits ||| UInt64.ofNat low <<< sum.places.toUInt64
      = UInt64.ofNat (value + low <<< (7 * length)) := by
  have places := h.toNat_places room
  rw [h.bits, ofNat_or_shiftLeft (h.lt_iff.mpr room) (places ▸ h.below), places]

/-- A group that does not count leaves the sum as it is. -/
theorem Holds.skip (h : sum.Holds value length) :
    (WordSum.mk sum.bits sum.nextPlaces).Holds value (length + 1) where
  bits := h.bits
  below := h.below.trans_le (Nat.pow_le_pow_right (by decide) (by omega))
  places := by
    rw [toNat_nextPlaces, h.places]
    simp only [UInt32.size]
    omega

/-- What a group has above 64 bits is what takes the number out of them. -/
theorem size_le_add_shiftLeft_iff {value low k : Nat} (below : value < 2 ^ k) (room : k ≤ 64) :
    UInt64.size ≤ value + low <<< k ↔ low / 2 ^ (64 - k) ≠ 0 := by
  have size : UInt64.size = 2 ^ (64 - k) * 2 ^ k := by
    rw [← pow_add, Nat.sub_add_cancel room]
    rfl
  rw [size, Nat.shiftLeft_eq, Nat.div_ne_zero_iff]
  constructor
  · intro large
    refine ⟨(Nat.two_pow_pos _).ne', Nat.le_of_not_lt fun small => ?_⟩
    have : (low + 1) * 2 ^ k ≤ 2 ^ (64 - k) * 2 ^ k := Nat.mul_le_mul_right _ small
    rw [Nat.add_mul] at this
    omega
  · rintro ⟨_, large⟩
    exact (Nat.mul_le_mul_right _ large).trans (Nat.le_add_left _ _)

/-- Where no place is left, every group but zero is too large. -/
theorem size_le_add_shiftLeft_iff_ne_zero {value low k : Nat} (fits : value < UInt64.size)
    (full : 64 ≤ k) : UInt64.size ≤ value + low <<< k ↔ low ≠ 0 := by
  constructor
  · rintro large rfl
    rw [Nat.zero_shiftLeft] at large
    omega
  · intro positive
    calc UInt64.size = 1 * 2 ^ 64 := rfl
      _ ≤ low * 2 ^ k := Nat.mul_le_mul (by omega) (Nat.pow_le_pow_right (by decide) full)
      _ ≤ value + low <<< k := by rw [Nat.shiftLeft_eq]; exact Nat.le_add_left _ _

theorem shiftLeft?_of_lt {word : UInt64} {places : UInt32} (room : places < 64) :
    shiftLeft? word places = some (word <<< places.toUInt64) :=
  if_pos room

/-- A group above 64 bits is found by a shift to the right, which is one of fewer than 64 places. -/
theorem above?_of_lt (low : UInt64) (room : sum.places < 64) :
    ∃ above : UInt64, sum.above? low = some above ∧
      above.toNat = low.toNat / 2 ^ (64 - sum.places.toNat) := by
  have less : sum.places.toNat < 64 := UInt32.lt_iff_toNat_lt.mp room
  rw [above?]
  by_cases positive : 0 < sum.places
  · have more : 0 < sum.places.toNat := UInt32.lt_iff_toNat_lt.mp positive
    have distance : (64 - sum.places).toNat = 64 - sum.places.toNat :=
      UInt32.toNat_sub_of_le _ _ (UInt32.le_of_lt room)
    have small : 64 - sum.places < 64 :=
      UInt32.lt_iff_toNat_lt.mpr (distance ▸ Nat.sub_lt_self more less.le)
    refine ⟨_, (if_pos positive).trans (if_pos small), ?_⟩
    rw [UInt64.toNat_shiftRight, UInt32.toNat_toUInt64, distance, Nat.mod_eq_of_lt (by omega),
      Nat.shiftRight_eq_div_pow]
  · have zero : sum.places.toNat = 0 :=
      Nat.eq_zero_of_not_pos fun more => positive (UInt32.lt_iff_toNat_lt.mpr more)
    refine ⟨0, if_neg positive, ?_⟩
    rw [zero]
    exact (Nat.div_eq_of_lt low.toNat_lt).symm

theorem addUnsigned?_of_le {low : UInt64} (full : 64 ≤ sum.places) :
    sum.addUnsigned? low = some (if low = 0 then some sum.bits else none) :=
  if_pos full

/-- In front of the last place, both shifts have results. -/
theorem addUnsigned?_of_lt {low : UInt64} (room : sum.places < 64) :
    sum.addUnsigned? low =
      some (if low.toNat / 2 ^ (64 - sum.places.toNat) ≠ 0 then none
        else some (sum.bits ||| low <<< sum.places.toUInt64)) := by
  obtain ⟨above, found, number⟩ := above?_of_lt low room
  have nonzero : above ≠ 0 ↔ low.toNat / 2 ^ (64 - sum.places.toNat) ≠ 0 := by
    rw [← number, ne_eq, ne_eq, ← UInt64.toNat_inj]
    rfl
  rw [addUnsigned?, if_neg (UInt32.not_le.mpr room), found, shiftLeft?_of_lt room]
  simp only [← nonzero]
  by_cases large : above ≠ 0
  · rw [if_pos large]
    exact if_pos large
  · rw [if_neg large]
    exact if_neg large

theorem Holds.addUnsigned?_eq (h : sum.Holds value length) (fits : value < UInt64.size) {low : Nat}
    (small : low < 128) :
    sum.addUnsigned? (UInt64.ofNat low) =
      some (if UInt64.size ≤ value + low <<< (7 * length) then none
        else some (UInt64.ofNat (value + low <<< (7 * length)))) := by
  have same : (UInt64.ofNat low).toNat = low :=
    UInt64.toNat_ofNat_of_lt' (show low < 18446744073709551616 by omega)
  by_cases room : length < 10
  · have places := h.toNat_places room
    have open' : sum.places < 64 := UInt32.lt_iff_toNat_lt.mpr (h.lt_iff.mpr room)
    rw [addUnsigned?_of_lt open', same, places, h.or_shiftLeft room]
    simp only [size_le_add_shiftLeft_iff h.below (show 7 * length ≤ 64 by omega)]
  · have full : 64 ≤ sum.places := UInt32.le_iff_toNat_le.mpr (Nat.le_of_not_lt (mt h.lt_iff.mp room))
    rw [addUnsigned?_of_le full]
    simp only [size_le_add_shiftLeft_iff_ne_zero fits (show 64 ≤ 7 * length by omega)]
    by_cases zero : low = 0
    · subst zero
      simp [h.bits]
    · have other : UInt64.ofNat low ≠ 0 := fun isZero => zero (by rw [← same, isZero]; rfl)
      simp [zero, other]

theorem Holds.unsignedStep?_eq (h : sum.Holds value length) (fits : value < UInt64.size)
    (byte : UInt8) :
    sum.unsignedStep? byte =
      some (if UInt64.size ≤ value + group byte <<< (7 * length) then .overflow
        else if byte.toNat < 128 then .value (UInt64.ofNat (value + group byte <<< (7 * length)))
        else .more ⟨UInt64.ofNat (value + group byte <<< (7 * length)), sum.nextPlaces⟩) := by
  rw [unsignedStep?, toUInt64_and_low, h.addUnsigned?_eq fits (group_lt byte)]
  simp only [and_high_eq_zero_iff]
  by_cases large : UInt64.size ≤ value + group byte <<< (7 * length)
  · simp only [if_pos large]
    rfl
  · simp only [if_neg large]
    rfl

/-- In words an unsigned number comes to what it comes to without bounds. -/
theorem Holds.walk?_unsigned (h : sum.Holds value length) (fits : value < UInt64.size)
    (bytes : Bytes) :
    walk? unsignedStep? sum length bytes = some ((unsigned value length bytes).map UInt64.ofNat) := by
  induction bytes generalizing sum value length with
  | nil => rfl
  | cons byte rest ih =>
      rw [walk?, h.unsignedStep?_eq fits, unsigned]
      simp only [isLast, decide_eq_true_eq]
      by_cases large : UInt64.size ≤ value + group byte <<< (7 * length)
      · simp only [if_pos large]
        rfl
      · by_cases final : byte.toNat < 128
        · simp only [if_neg large, if_pos final]
          rfl
        · simp only [if_neg large, if_neg final]
          exact ih (h.next byte) (Nat.lt_of_not_le large)

theorem Holds.addGroup (h : sum.Holds value length) (byte : UInt8) :
    (WordSum.mk (UInt64.ofNat (addGroup value length byte)) sum.nextPlaces).Holds
      (addGroup value length byte) (length + 1) := by
  rw [Leb128.addGroup]
  split
  · exact h.next byte
  · rw [← h.bits]
    exact h.skip

theorem Holds.addSigned?_eq (h : sum.Holds value length) (byte : UInt8) :
    sum.addSigned? (UInt64.ofNat (group byte))
      = some (UInt64.ofNat (Leb128.addGroup value length byte)) := by
  have room : sum.places < 64 ↔ length < 10 := UInt32.lt_iff_toNat_lt.trans h.lt_iff
  rw [addSigned?, Leb128.addGroup]
  by_cases inside : length < 10
  · rw [if_pos (room.mpr inside), if_pos inside, shiftLeft?_of_lt (room.mpr inside),
      ← h.or_shiftLeft inside]
    rfl
  · rw [if_neg (mt room.mp inside), if_neg inside, ← h.bits]
    rfl

/-- The sign in the places that are left takes away what the last bit weighs. -/
theorem Holds.extend?_eq (h : sum.Holds value length) (byte : UInt8) :
    ∃ bits, sum.extend? byte = some bits ∧ bits.toInt64 = signedValue value length byte := by
  have room : sum.places < 64 ↔ length < 10 := UInt32.lt_iff_toNat_lt.trans h.lt_iff
  have sign := and_congr room (and_sign_ne_zero_iff byte)
  rw [extend?, signedValue]
  by_cases negative : length < 10 ∧ 64 ≤ group byte
  · have ones : (~~~0 : UInt64) = UInt64.ofNat (2 ^ 64 - 1) := rfl
    have split : ((value + (2 ^ 64 - 1) * 2 ^ (7 * length) : Nat) : Int)
        = (value - (1 <<< (7 * length) : Nat)) + 2 ^ (7 * length) * 2 ^ 64 := by
      rw [Nat.one_shiftLeft]
      push_cast
      ring
    rw [if_pos (sign.mpr negative), if_pos negative, shiftLeft?_of_lt (room.mpr negative.1), ones]
    refine ⟨_, rfl, ?_⟩
    rw [h.or_shiftLeft negative.1, UInt64.toInt64_ofNat', ← Int64.ofInt_eq_ofNat,
      Nat.shiftLeft_eq, split, ofInt_add_mul]
  · rw [if_neg (mt sign.mp negative), if_neg negative]
    exact ⟨_, rfl, by rw [h.bits, UInt64.toInt64_ofNat']⟩

theorem Holds.signedStep?_eq (h : sum.Holds value length) (byte : UInt8) :
    sum.signedStep? byte =
      some (if 10 ≤ length ∧ group byte ≠ 0 ∧ group byte ≠ 127 then .overflow
        else if byte.toNat < 128 then
          .value (signedValue (Leb128.addGroup value length byte) (length + 1) byte)
        else .more ⟨UInt64.ofNat (Leb128.addGroup value length byte), sum.nextPlaces⟩) := by
  have full : 64 ≤ sum.places ↔ 10 ≤ length := by
    rw [← UInt32.not_lt, UInt32.lt_iff_toNat_lt, ← Nat.not_lt]
    exact not_congr h.lt_iff
  have equal (number : Nat) (small : number < 128) :
      UInt64.ofNat (group byte) = UInt64.ofNat number ↔ group byte = number := by
    have bound := group_lt byte
    rw [← UInt64.toNat_inj, UInt64.toNat_ofNat_of_lt' (by simp only [UInt64.size]; omega),
      UInt64.toNat_ofNat_of_lt' (by simp only [UInt64.size]; omega)]
  have odd : 64 ≤ sum.places ∧ UInt64.ofNat (group byte) ≠ 0 ∧ UInt64.ofNat (group byte) ≠ 0x7f
      ↔ 10 ≤ length ∧ group byte ≠ 0 ∧ group byte ≠ 127 :=
    and_congr full (and_congr (not_congr (equal 0 (by decide))) (not_congr (equal 127 (by decide))))
  obtain ⟨bits, extended, number⟩ := (h.addGroup byte).extend?_eq byte
  rw [signedStep?, toUInt64_and_low, h.addSigned?_eq]
  by_cases large : 10 ≤ length ∧ group byte ≠ 0 ∧ group byte ≠ 127
  · rw [if_pos large]
    exact if_pos (odd.mpr large)
  · rw [if_neg large, ← number]
    refine (if_neg (mt odd.mp large)).trans ?_
    by_cases final : byte.toNat < 128
    · rw [if_pos final]
      refine (if_pos ((and_high_eq_zero_iff byte).mpr final)).trans ?_
      rw [extended]
      rfl
    · rw [if_neg final]
      exact if_neg (mt (and_high_eq_zero_iff byte).mp final)

/-- In words a signed number comes to what it comes to without bounds. -/
theorem Holds.walk?_signed (h : sum.Holds value length) (bytes : Bytes) :
    walk? signedStep? sum length bytes = some (signed value length bytes) := by
  induction bytes generalizing sum value length with
  | nil => rfl
  | cons byte rest ih =>
      rw [walk?, h.signedStep?_eq, signed_cons]
      by_cases odd : 10 ≤ length ∧ group byte ≠ 0 ∧ group byte ≠ 127
      · simp only [if_pos odd]
      · by_cases final : byte.toNat < 128
        · simp only [if_neg odd, if_pos final]
        · simp only [if_neg odd, if_neg final]
          exact ih (h.addGroup byte)

end WordSum

end DspFirmware.Leb128

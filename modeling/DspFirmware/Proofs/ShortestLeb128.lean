import DspFirmware.Proofs.UnsignedLeb128

/-!
The written forms of LEB128 numbers are the shortest that are read as them. An unsigned number has a single
form of that length. A signed one has, too, as long as it takes fewer than ten bytes; the tenth byte has
room for more than the last bit of a word.
-/

namespace DspFirmware

namespace Leb128

theorem Unsigned.exists_length_eq {value : Nat} {bytes : Bytes} (form : Unsigned value bytes) :
    ∃ n, bytes.length = n + 1 := by
  cases form with
  | last _ => exact ⟨0, rfl⟩
  | @more byte value bytes _ _ => exact ⟨bytes.length, rfl⟩

/-- Each byte has room for a group. -/
theorem Unsigned.lt_pow {value : Nat} {bytes : Bytes} (form : Unsigned value bytes) :
    value < 128 ^ bytes.length := by
  induction form with
  | @last byte h => simpa using group_lt byte
  | @more byte value bytes h others ih =>
      have bound := group_lt byte
      rw [List.length_cons, pow_succ]
      omega

/-- A byte is known by its group and by whether it is a last one. -/
theorem eq_of_group {byte other : UInt8} (same : group byte = group other)
    (marks : byte.toNat < 128 ↔ other.toNat < 128) : byte = other := by
  have small := byte.toNat_lt
  have smallOther := other.toNat_lt
  apply UInt8.toNat_inj.mp
  simp only [group] at same
  omega

/-- Forms of one length spell different numbers. -/
theorem Unsigned.eq_of_length {value number : Nat} {bytes others : Bytes}
    (left : Unsigned value bytes) (right : Unsigned number others) (equal : value = number)
    (same : bytes.length = others.length) : bytes = others := by
  induction left generalizing number others with
  | @last byte h =>
      cases right with
      | @last other final => rw [eq_of_group equal (iff_of_true h final)]
      | more _ behind =>
          obtain ⟨n, length⟩ := behind.exists_length_eq
          simp [length] at same
  | @more byte value bytes h behind ih =>
      have bound := group_lt byte
      cases right with
      | last _ =>
          obtain ⟨n, length⟩ := behind.exists_length_eq
          simp [length] at same
      | @more other number others announces rest =>
          have boundOther := group_lt other
          have first : byte = other := eq_of_group (by omega) (by omega)
          rw [first, ih rest (by omega) (Nat.succ.inj same)]

theorem length_encodeUnsigned_le {value n : Nat} (small : value < 128 ^ (n + 1)) :
    (encodeUnsigned value).length ≤ n + 1 := by
  induction n generalizing value with
  | zero => simp [encodeUnsigned, show value < 128 by simpa using small]
  | succ n ih =>
      rw [encodeUnsigned]
      split
      · simp
      · rw [pow_succ] at small
        have rest : (encodeUnsigned (value / 128)).length ≤ n + 1 := ih (by omega)
        simpa using rest

/-- No form of a number is shorter than the written one. -/
theorem Unsigned.length_encodeUnsigned_le {value : Nat} {bytes : Bytes}
    (form : Unsigned value bytes) : (encodeUnsigned value).length ≤ bytes.length := by
  obtain ⟨n, length⟩ := form.exists_length_eq
  have small := form.lt_pow
  rw [length] at small ⊢
  exact Leb128.length_encodeUnsigned_le small

/-- Every other form is longer. -/
theorem Unsigned.length_encodeUnsigned_lt {value : Nat} {bytes : Bytes}
    (form : Unsigned value bytes) (other : bytes ≠ encodeUnsigned value) :
    (encodeUnsigned value).length < bytes.length := by
  apply Nat.lt_of_le_of_ne form.length_encodeUnsigned_le
  intro same
  exact other (form.eq_of_length (unsigned_encodeUnsigned value) rfl same.symm)

/-- The groups of a signed form spell the number in the complement of 128 to their count. -/
theorem Signed.unsigned {value : Int} {bytes : Bytes} (form : Signed value bytes) :
    Unsigned (value % 128 ^ bytes.length).toNat bytes := by
  induction form with
  | @last byte h =>
      have bound := group_lt byte
      have first : Unsigned (group byte) [byte] := .last h
      convert first using 1
      rw [List.length_singleton, pow_one]
      split <;> omega
  | @more byte value bytes h others ih =>
      have bound := group_lt byte
      have positive : (0 : Int) < 128 ^ bytes.length := by positivity
      have low := Int.emod_nonneg value positive.ne'
      have high := Int.emod_lt_of_pos value positive
      have split : (group byte + 128 * value) % 128 ^ (bytes.length + 1)
          = group byte + 128 * (value % 128 ^ bytes.length) := by
        rw [pow_succ, Int.mul_comm _ 128]
        nth_rewrite 1 [← Int.emod_add_mul_ediv value (128 ^ bytes.length)]
        rw [Int.mul_add, ← Int.add_assoc, ← Int.mul_assoc, Int.add_mul_emod_self_left]
        exact Int.emod_eq_of_lt (by omega) (by omega)
      have first := Unsigned.more h ih
      convert first using 1
      rw [List.length_cons, split]
      omega

/-- The last byte has room for six bits and a sign, each other for a group. -/
theorem Signed.bounds {value : Int} {bytes : Bytes} (form : Signed value bytes) {n : Nat}
    (length : bytes.length = n + 1) : -(64 * 128 ^ n) ≤ value ∧ value < 64 * 128 ^ n := by
  induction form generalizing n with
  | @last byte h =>
      obtain rfl : n = 0 := by simpa using length.symm
      have bound := group_lt byte
      split <;> omega
  | @more byte value bytes h others ih =>
      have bound := group_lt byte
      obtain ⟨m, behind⟩ := others.unsigned.exists_length_eq
      obtain rfl : n = m + 1 := by simpa [behind] using length.symm
      obtain ⟨low, high⟩ := ih behind
      rw [pow_succ]
      omega

theorem Signed.eq_of_length {value : Int} {bytes others : Bytes} (left : Signed value bytes)
    (right : Signed value others) (same : bytes.length = others.length) : bytes = others :=
  left.unsigned.eq_of_length right.unsigned (by rw [same]) same

theorem length_encodeSigned_le {value : Int} {n : Nat} (low : -(64 * 128 ^ n) ≤ value)
    (high : value < 64 * 128 ^ n) : (encodeSigned value).length ≤ n + 1 := by
  induction n generalizing value with
  | zero =>
      have small : -64 ≤ value ∧ value < 64 := by omega
      rw [encodeSigned, if_pos small]
      rfl
  | succ n ih =>
      rw [encodeSigned]
      split
      · simp
      · rw [pow_succ] at low high
        have rest : (encodeSigned (value / 128)).length ≤ n + 1 := ih (by omega) (by omega)
        simpa using rest

theorem Signed.length_encodeSigned_le {value : Int} {bytes : Bytes} (form : Signed value bytes) :
    (encodeSigned value).length ≤ bytes.length := by
  obtain ⟨n, length⟩ := form.unsigned.exists_length_eq
  obtain ⟨low, high⟩ := form.bounds length
  rw [length]
  exact Leb128.length_encodeSigned_le low high

theorem Signed.length_encodeSigned_lt {value : Int} {bytes : Bytes} (form : Signed value bytes)
    (other : bytes ≠ encodeSigned value) : (encodeSigned value).length < bytes.length := by
  apply Nat.lt_of_le_of_ne form.length_encodeSigned_le
  intro same
  exact other (form.eq_of_length (signed_encodeSigned value) same.symm)

/-- The lowest seven bits of a word. -/
def lowBits (word : UInt64) : UInt8 := (word &&& 0x7f).toUInt8

theorem toNat_lowBits (word : UInt64) : (lowBits word).toNat = word.toNat % 128 := by
  have masked : (word &&& 0x7f).toNat = word.toNat % 2 ^ 7 := Nat.and_two_pow_sub_one_eq_mod word.toNat 7
  rw [lowBits, UInt64.toNat_toUInt8, masked]
  omega

theorem toNat_shiftRight_seven (word : UInt64) : (word >>> 7).toNat = word.toNat / 128 := by
  rw [UInt64.toNat_shiftRight, Nat.shiftRight_eq_div_pow]
  rfl

theorem shiftRight_seven_eq_zero_iff (word : UInt64) : word >>> 7 = 0 ↔ word.toNat < 128 := by
  rw [← UInt64.toNat_inj, toNat_shiftRight_seven, UInt64.toNat_zero]
  omega

/-- A signed word is shifted with its sign. -/
theorem toInt_shiftRight_seven (word : Int64) : (word >>> 7).toInt = word.toInt / 128 := by
  have shifted : (word >>> 7).toInt = word.toInt >>> (7 : Nat) := BitVec.toInt_sshiftRight
  rw [shifted, Int.shiftRight_eq_div_pow]
  rfl

theorem toNat_lowBits_toUInt64 (word : Int64) :
    (lowBits word.toUInt64).toNat = (word.toInt % 128).toNat := by
  have wrapped : word.toInt = if 2 * word.toUInt64.toNat < 2 ^ 64 then (word.toUInt64.toNat : Int)
      else word.toUInt64.toNat - (2 ^ 64 : Nat) := BitVec.toInt_eq_toNat_cond word.toBitVec
  rw [toNat_lowBits]
  split at wrapped <;> omega

/-- The mark on every byte but the last. -/
theorem or_mark {byte : UInt8} (small : byte.toNat < 128) :
    byte ||| 0x80 = UInt8.ofNat (byte.toNat + 128) := by
  apply UInt8.toNat_inj.mp
  have joined : byte.toNat ||| 128 = 128 + byte.toNat := by
    rw [Nat.or_comm]
    exact (Nat.two_pow_add_eq_or_of_lt (i := 7) small 1).symm
  rw [UInt8.toNat_or, UInt8.toNat_ofNat_of_lt' (show byte.toNat + 128 < 256 by omega), Nat.add_comm]
  exact joined

/-- Writes a word seven bits at a time, up to the last bit that is set. -/
def unsignedBytes (word : UInt64) : Bytes :=
  let low := lowBits word
  let rest := word >>> 7
  if rest = 0 then [low] else (low ||| 0x80) :: unsignedBytes rest
termination_by word.toNat
decreasing_by
  rename_i more
  have positive : (word >>> 7).toNat ≠ 0 := fun zero => more (UInt64.toNat_inj.mp zero)
  rw [toNat_shiftRight_seven] at positive ⊢
  omega

/-- The bits behind a group are all zeros or all ones, and the group ends in that bit. -/
def SignOnly (rest : Int64) (low : UInt8) : Prop :=
  rest = 0 ∧ low &&& 0x40 = 0 ∨ rest = -1 ∧ low &&& 0x40 ≠ 0

instance (rest : Int64) (low : UInt8) : Decidable (SignOnly rest low) := by
  unfold SignOnly
  infer_instance

theorem signOnly_iff (word : Int64) :
    SignOnly (word >>> 7) (lowBits word.toUInt64) ↔ -64 ≤ word.toInt ∧ word.toInt < 64 := by
  have low := toNat_lowBits_toUInt64 word
  have zero : word >>> 7 = 0 ↔ word.toInt / 128 = 0 := by
    rw [← Int64.toInt_inj, toInt_shiftRight_seven]
    rfl
  have ones : word >>> 7 = -1 ↔ word.toInt / 128 = -1 := by
    rw [← Int64.toInt_inj, toInt_shiftRight_seven]
    rfl
  have sign : lowBits word.toUInt64 &&& 0x40 ≠ 0 ↔ 64 ≤ (word.toInt % 128).toNat := by
    rw [and_sign_ne_zero_iff, group, low]
    omega
  have clear : lowBits word.toUInt64 &&& 0x40 = 0 ↔ ¬64 ≤ (word.toInt % 128).toNat :=
    not_ne_iff.symm.trans (not_congr sign)
  rw [SignOnly, zero, ones, sign, clear]
  omega

/-- Writes a signed word seven bits at a time, until the rest is nothing but the sign of the last group. -/
def signedBytes (word : Int64) : Bytes :=
  let low := lowBits word.toUInt64
  let rest := word >>> 7
  if SignOnly rest low then [low] else (low ||| 0x80) :: signedBytes rest
termination_by word.toInt.natAbs
decreasing_by
  rename_i more
  rw [signOnly_iff] at more
  rw [toInt_shiftRight_seven]
  omega

/-- In words an unsigned number is written as it is without bounds. -/
theorem unsignedBytes_eq (word : UInt64) : unsignedBytes word = encodeUnsigned word.toNat := by
  induction word using unsignedBytes.induct with
  | case1 word rest zero =>
      have small : word.toNat < 128 := (shiftRight_seven_eq_zero_iff word).mp zero
      have group : lowBits word = UInt8.ofNat word.toNat := by
        rw [← UInt8.ofNat_toNat (x := lowBits word), toNat_lowBits, Nat.mod_eq_of_lt small]
      rw [unsignedBytes, if_pos zero, encodeUnsigned, if_pos small, group]
  | case2 word rest more ih =>
      have large : ¬word.toNat < 128 := mt (shiftRight_seven_eq_zero_iff word).mpr more
      have low := toNat_lowBits word
      rw [toNat_shiftRight_seven] at ih
      rw [unsignedBytes, if_neg more, encodeUnsigned, if_neg large, or_mark (by omega), low, ih]

theorem signedBytes_eq (word : Int64) : signedBytes word = encodeSigned word.toInt := by
  induction word using signedBytes.induct with
  | case1 word low rest last =>
      have small := (signOnly_iff word).mp last
      rw [signedBytes, if_pos last, encodeSigned, if_pos small, ← toNat_lowBits_toUInt64,
        UInt8.ofNat_toNat]
  | case2 word low rest more ih =>
      have large := mt (signOnly_iff word).mpr more
      have low := toNat_lowBits_toUInt64 word
      rw [toInt_shiftRight_seven] at ih
      rw [signedBytes, if_neg more, encodeSigned, if_neg large, or_mark (by omega), low, ih]

end Leb128

namespace Read

open Leb128

/-- The operation reads the bytes up to their end, and returns the value. -/
def ReadsWhole (operation : Read α) (bytes : Bytes) (value : α) : Prop :=
  ∃ s, operation (.ofBytes bytes) = .ok value s ∧ s.atEnd = true

theorem Yields.readsWhole {operation : Read α} {bytes : Bytes} {value : α}
    (h : Yields operation bytes value) : ReadsWhole operation bytes value := by
  have read := h [] []
  rw [List.append_nil] at read
  exact ⟨_, read, rfl⟩

/-- A scan that reads the whole of some bytes stops behind the last of them, and nowhere before. -/
theorem exists_of_readsWhole_scanned {scan : Bytes → Scan α}
    {within : ∀ bytes, (scan bytes).Within bytes.length}
    (stops : ∀ bytes, (scan bytes).Stops bytes 0) {bytes : Bytes} {value : α}
    (h : ReadsWhole (scanned scan within) bytes value) :
    ∃ front last total, bytes = front ++ [last] ∧ Continued front ∧ last.toNat < 128
      ∧ scan (front ++ [last]) = .value value total := by
  obtain ⟨s, read, ended⟩ := h
  have stopped := stops bytes
  cases found : scan (Reader.ofBytes bytes).rest with
  | value number total =>
      obtain ⟨enough, success⟩ : ∃ enough, scanned scan within (.ofBytes bytes) = _ :=
        scanned_of_value found
      cases read.symm.trans success
      have here : scan bytes = .value value total := found
      rw [here] at stopped
      obtain ⟨front, last, rest, rfl, continued, final, length⟩ := stopped
      have behind : (front ++ last :: rest).drop total = [] := List.isEmpty_iff.mp ended
      have whole : rest = [] := by
        simpa [length] using behind
      rw [whole] at here ⊢
      exact ⟨front, last, total, rfl, continued, final, here⟩
  | overflow length =>
      obtain ⟨_, failed⟩ : ∃ enough, scanned scan within (.ofBytes bytes) = _ :=
        scanned_of_overflow found
      cases read.symm.trans failed
  | truncated =>
      have failed : scanned scan within (.ofBytes bytes) = _ := scanned_of_truncated found
      cases read.symm.trans failed

/-- What is read as an unsigned number is a form of it. -/
theorem unsigned_of_readsWhole {bytes : Bytes} {value : UInt64} (h : ReadsWhole uleb128 bytes value) :
    Unsigned value.toNat bytes := by
  obtain ⟨s, read, ended⟩ := h
  obtain ⟨number, scanned, rfl⟩ := map_eq_ok.mp read
  obtain ⟨front, last, total, rfl, continued, final, found⟩ :=
    exists_of_readsWhole_scanned (unsigned_stops 0 0) ⟨s, scanned, ended⟩
  obtain ⟨rfl, fits⟩ := unsigned_eq_value continued final found
  rw [UInt64.toNat_ofNat_of_lt' fits]
  exact unsigned_unsignedNumber continued final

/-- What is read as a signed number is a form of it, if nothing can have been cut. -/
theorem signed_of_readsWhole {bytes : Bytes} {value : Int64} (h : ReadsWhole sleb128 bytes value)
    (short : bytes.length < 10) : Signed value.toInt bytes := by
  obtain ⟨front, last, total, rfl, continued, final, found⟩ :=
    exists_of_readsWhole_scanned (signed_stops 0 0) h
  have form := signed_signedNumber continued final
  have length : (front ++ [last]).length = front.length + 1 := List.length_append
  obtain ⟨low, high⟩ := form.bounds length
  have size : (128 : Int) ^ front.length ≤ 128 ^ 8 := pow_le_pow_right₀ (by decide) (by omega)
  obtain rfl := signed_eq_value continued final found
  rwa [Int64.toInt_ofInt_of_le (by omega) (by omega)]

end Read

namespace Bytes

open Leb128 Read

theorem length_uleb128 (value : UInt64) :
    1 ≤ (uleb128 value).length ∧ (uleb128 value).length ≤ 10 := by
  obtain ⟨n, length⟩ := (unsigned_encodeUnsigned value.toNat).exists_length_eq
  have small : value.toNat < 128 ^ (9 + 1) := value.toNat_lt.trans (by decide)
  exact ⟨by rw [uleb128, length]; omega, length_encodeUnsigned_le small⟩

theorem length_sleb128 (value : Int64) :
    1 ≤ (sleb128 value).length ∧ (sleb128 value).length ≤ 10 := by
  obtain ⟨n, length⟩ := (signed_encodeSigned value.toInt).unsigned.exists_length_eq
  have low := value.le_toInt
  have high := value.toInt_lt
  exact ⟨by rw [sleb128, length]; omega, length_encodeSigned_le (n := 9) (by omega) (by omega)⟩

/-- The written form of a number is read as the number, and as a whole. Any other form of an unsigned
number that is read so is longer. No form of a signed number is shorter, and those that take fewer than ten
bytes are longer. Either form has one to ten bytes, and they are those of a loop over machine words that
ends a signed number where the rest is nothing but the sign of the last group. -/
theorem leb128_shortest (count : UInt64) (delta : Int64) :
    (ReadsWhole Read.uleb128 (uleb128 count) count
        ∧ ∀ form, ReadsWhole Read.uleb128 form count → form ≠ uleb128 count →
          (uleb128 count).length < form.length)
      ∧ (ReadsWhole Read.sleb128 (sleb128 delta) delta
        ∧ ∀ form, ReadsWhole Read.sleb128 form delta →
          (sleb128 delta).length ≤ form.length
            ∧ (form.length < 10 → form ≠ sleb128 delta → (sleb128 delta).length < form.length))
      ∧ (1 ≤ (uleb128 count).length ∧ (uleb128 count).length ≤ 10)
      ∧ (1 ≤ (sleb128 delta).length ∧ (sleb128 delta).length ≤ 10)
      ∧ unsignedBytes count = uleb128 count ∧ signedBytes delta = sleb128 delta := by
  have written := (yields_uleb128 (unsigned_encodeUnsigned count.toNat)).readsWhole
  have writtenSigned := (yields_sleb128 (signed_encodeSigned delta.toInt)).readsWhole
  refine ⟨⟨written, ?unsigned⟩, ⟨writtenSigned, ?signed⟩, length_uleb128 count, length_sleb128 delta,
    unsignedBytes_eq count, signedBytes_eq delta⟩
  case unsigned =>
    intro form read other
    exact (unsigned_of_readsWhole read).length_encodeUnsigned_lt other
  case signed =>
    intro form read
    constructor
    · -- From ten bytes on there is nothing to show; fewer leave nothing to be cut.
      by_cases short : form.length < 10
      · exact (signed_of_readsWhole read short).length_encodeSigned_le
      · have few := (length_sleb128 delta).2
        omega
    · intro short other
      exact (signed_of_readsWhole read short).length_encodeSigned_lt other

/-- The smallest number has forms of ten bytes that differ in the bits that are cut. -/
example :
    ReadsWhole Read.sleb128 (List.replicate 9 0x80 ++ [0x7f]) Int64.minValue
      ∧ ReadsWhole Read.sleb128 (List.replicate 9 0x80 ++ [0x01]) Int64.minValue :=
  ⟨⟨_, rfl, rfl⟩, ⟨_, rfl, rfl⟩⟩

end Bytes

end DspFirmware

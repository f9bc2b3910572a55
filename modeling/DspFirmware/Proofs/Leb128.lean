import DspFirmware.Proofs.Reading
import Mathlib.Tactic.Ring

/-!
What byte strings stand for which LEB128 numbers, and that reading finds the numbers. A number has
one shortest form and longer ones, padded with groups that repeat its sign; all of them are read, as
long as the number fits 64 bits.
-/

namespace DspFirmware

namespace Leb128

/-- The byte strings that stand for an unsigned number. -/
inductive Unsigned : Nat → Bytes → Prop where
  | last {byte : UInt8} (h : byte.toNat < 128) : Unsigned (group byte) [byte]
  | more {byte : UInt8} {value : Nat} {bytes : Bytes} (h : 128 ≤ byte.toNat)
      (others : Unsigned value bytes) : Unsigned (group byte + 128 * value) (byte :: bytes)

/-- The byte strings that stand for a signed number. Of the last byte, bit 6 weighs negative. -/
inductive Signed : Int → Bytes → Prop where
  | last {byte : UInt8} (h : byte.toNat < 128) :
      Signed (if 64 ≤ group byte then group byte - 128 else group byte) [byte]
  | more {byte : UInt8} {value : Int} {bytes : Bytes} (h : 128 ≤ byte.toNat)
      (others : Signed value bytes) : Signed (group byte + 128 * value) (byte :: bytes)

theorem group_lt (byte : UInt8) : group byte < 128 := Nat.mod_lt _ (by decide)

theorem shift_eq (value length : Nat) : value <<< (7 * length) = value * 128 ^ length := by
  rw [Nat.shiftLeft_eq, Nat.pow_mul]

theorem unsigned_cons (value length : Nat) (byte : UInt8) (rest : Bytes) :
    unsigned value length (byte :: rest) =
      if UInt64.size ≤ value + group byte * 128 ^ length then .overflow (length + 1)
      else if byte.toNat < 128 then .value (value + group byte * 128 ^ length) (length + 1)
      else unsigned (value + group byte * 128 ^ length) (length + 1) rest := by
  rw [unsigned, shift_eq]
  simp [isLast]

/-- A number that fits is found behind whatever was summed before it. -/
theorem Unsigned.scan {value : Nat} {bytes : Bytes} (form : Unsigned value bytes)
    {sum length : Nat} (fits : sum + value * 128 ^ length < UInt64.size) (ahead : Bytes) :
    unsigned sum length (bytes ++ ahead)
      = .value (sum + value * 128 ^ length) (length + bytes.length) := by
  induction form generalizing sum length with
  | last h =>
      rw [List.singleton_append, unsigned_cons, if_neg (Nat.not_le.mpr fits), if_pos h,
        List.length_singleton]
  | @more byte value bytes h others ih =>
      have split : sum + (group byte + 128 * value) * 128 ^ length
          = sum + group byte * 128 ^ length + value * 128 ^ (length + 1) := by ring
      rw [split] at fits ⊢
      have later := ih fits
      rw [List.cons_append, unsigned_cons, if_neg (by omega), if_neg (by omega), later,
        List.length_cons, Nat.add_assoc length, Nat.add_comm 1]

theorem unsigned_encodeUnsigned (value : Nat) : Unsigned value (encodeUnsigned value) := by
  induction value using encodeUnsigned.induct with
  | case1 value small =>
      have low : (UInt8.ofNat value).toNat = value :=
        UInt8.toNat_ofNat_of_lt' (show value < 256 by omega)
      have form : Unsigned _ [UInt8.ofNat value] := .last (by omega)
      rw [group, low, Nat.mod_eq_of_lt small] at form
      rwa [encodeUnsigned, if_pos small]
  | case2 value large ih =>
      have low : (UInt8.ofNat (value % 128 + 128)).toNat = value % 128 + 128 :=
        UInt8.toNat_ofNat_of_lt' (show value % 128 + 128 < 256 by omega)
      have form : Unsigned _ (UInt8.ofNat (value % 128 + 128) :: encodeUnsigned (value / 128)) :=
        .more (by omega) ih
      rw [group, low, show (value % 128 + 128) % 128 + 128 * (value / 128) = value by omega] at form
      rwa [encodeUnsigned, if_neg large]

theorem signed_cons (sum length : Nat) (byte : UInt8) (rest : Bytes) :
    signed sum length (byte :: rest) =
      if 10 ≤ length ∧ group byte ≠ 0 ∧ group byte ≠ 127 then .overflow (length + 1)
      else if byte.toNat < 128 then
        .value (signedValue (addGroup sum length byte) (length + 1) byte) (length + 1)
      else signed (addGroup sum length byte) (length + 1) rest := by
  rw [signed]
  simp [isLast]

theorem addGroup_of_lt {length : Nat} (room : length < 10) (sum : Nat) (byte : UInt8) :
    addGroup sum length byte = sum + group byte * 128 ^ length := by
  rw [addGroup, if_pos room, shift_eq]

theorem addGroup_of_le {length : Nat} (full : 10 ≤ length) (sum : Nat) (byte : UInt8) :
    addGroup sum length byte = sum := by
  rw [addGroup, if_neg (by omega)]

/-- What lies above 64 bits does not count. -/
theorem ofInt_add_mul (value above : Int) :
    Int64.ofInt (value + above * 2 ^ 64) = Int64.ofInt value := by
  apply Int64.toInt_inj.mp
  rw [Int64.toInt_ofInt, Int64.toInt_ofInt]
  exact Int.add_mul_bmod_self_right value above _

theorem signedValue_last {sum length : Nat} (room : length < 10) (byte : UInt8) :
    signedValue (sum + group byte * 128 ^ length) (length + 1) byte
      = Int64.ofInt (sum
        + (if 64 ≤ group byte then group byte - 128 else group byte : Int) * 128 ^ length) := by
  rw [signedValue, shift_eq]
  by_cases negative : 64 ≤ group byte
  · rw [if_pos negative]
    by_cases short : length + 1 < 10
    · rw [if_pos ⟨short, negative⟩]
      congr 1
      push_cast
      ring
    · obtain rfl : length = 9 := by omega
      rw [if_neg (by omega), ← Int64.ofInt_eq_ofNat, ← ofInt_add_mul _ (-64)]
      congr 1
      push_cast
      ring
  · rw [if_neg negative, if_neg (by omega), ← Int64.ofInt_eq_ofNat]
    congr 1

/-- What is added above ten groups does not count. -/
theorem ofInt_add_mul_pow {length : Nat} (full : 10 ≤ length) (sum above : Int) :
    Int64.ofInt (sum + above * 128 ^ length) = Int64.ofInt sum := by
  obtain ⟨extra, rfl⟩ := Nat.exists_eq_add_of_le full
  rw [← ofInt_add_mul sum (above * 128 ^ extra * 64)]
  congr 1
  ring

/-- Groups that repeat a sign hold all zeros or all ones. -/
def RepeatsSign (bytes : Bytes) : Prop := ∀ byte ∈ bytes, group byte = 0 ∨ group byte = 127

/-- What lies behind the tenth byte, one byte further on. -/
theorem repeatsSign_drop_cons {byte : UInt8} {rest : Bytes} {length : Nat} :
    RepeatsSign ((byte :: rest).drop (10 - length)) ↔
      ¬(10 ≤ length ∧ group byte ≠ 0 ∧ group byte ≠ 127) ∧
        RepeatsSign (rest.drop (10 - (length + 1))) := by
  by_cases full : 10 ≤ length
  · rw [Nat.sub_eq_zero_of_le full, Nat.sub_eq_zero_of_le (by omega), List.drop_zero,
      List.drop_zero, RepeatsSign, List.forall_mem_cons]
    apply and_congr_left
    intro _
    omega
  · rw [show 10 - length = 10 - (length + 1) + 1 by omega, List.drop_succ_cons]
    simp [full]

/-- Of a number that `count` groups have room for, the groups behind them repeat the sign. -/
theorem Signed.repeatsSign_drop {value : Int} {bytes : Bytes} (form : Signed value bytes)
    {count : Nat} (low : -128 ^ count ≤ value) (high : value < 128 ^ count) :
    RepeatsSign (bytes.drop count) := by
  induction form generalizing count with
  | @last byte h =>
      cases count with
      | zero =>
          have bound := group_lt byte
          rw [List.drop_zero, RepeatsSign, List.forall_mem_singleton]
          split at low <;> omega
      | succ count => simp [RepeatsSign]
  | @more byte value bytes h others ih =>
      have bound := group_lt byte
      cases count with
      | zero =>
          have sign := ih (show -128 ^ 0 ≤ value by omega) (by omega)
          rw [List.drop_zero, RepeatsSign, List.forall_mem_cons]
          exact ⟨by omega, sign⟩
      | succ count =>
          rw [pow_succ] at low high
          exact ih (by omega) (by omega)

/-- A signed number is found behind the groups before it, up to multiples of 2^64, provided that what
lies behind the tenth byte repeats a sign. -/
theorem Signed.scan {value : Int} {bytes : Bytes} (form : Signed value bytes) {sum length : Nat}
    (sign : RepeatsSign (bytes.drop (10 - length))) (ahead : Bytes) :
    signed sum length (bytes ++ ahead)
      = .value (Int64.ofInt (sum + value * 128 ^ length)) (length + bytes.length) := by
  induction form generalizing sum length with
  | @last byte h =>
      rw [List.singleton_append, signed_cons, if_neg (repeatsSign_drop_cons.mp sign).1, if_pos h,
        List.length_singleton]
      by_cases room : length < 10
      · rw [addGroup_of_lt room, signedValue_last room]
      · have full : 10 ≤ length := by omega
        rw [addGroup_of_le full, signedValue, if_neg (by omega), ofInt_add_mul_pow full,
          Int64.ofInt_eq_ofNat]
  | @more byte value bytes h others ih =>
      obtain ⟨inside, later⟩ := repeatsSign_drop_cons.mp sign
      rw [List.cons_append, signed_cons, if_neg inside, if_neg (by omega), ih later,
        List.length_cons, Nat.add_comm bytes.length, ← Nat.add_assoc]
      congr 1
      by_cases room : length < 10
      · rw [addGroup_of_lt room]
        congr 1
        push_cast
        ring
      · have full : 10 ≤ length := by omega
        rw [addGroup_of_le full, ofInt_add_mul_pow full, ofInt_add_mul_pow (by omega)]

/-- Of a number that fits 64 bits, ten groups and a sign are all there is. -/
theorem Signed.repeatsSign_of_fits {value : Int} {bytes : Bytes} (form : Signed value bytes)
    (low : -2 ^ 63 ≤ value) (high : value < 2 ^ 63) : RepeatsSign (bytes.drop 10) :=
  form.repeatsSign_drop (by omega) (by omega)

theorem signed_encodeSigned (value : Int) : Signed value (encodeSigned value) := by
  induction value using encodeSigned.induct with
  | case1 value small =>
      have low : (UInt8.ofNat (value % 128).toNat).toNat = (value % 128).toNat :=
        UInt8.toNat_ofNat_of_lt' (show (value % 128).toNat < 256 by omega)
      have form : Signed _ [UInt8.ofNat (value % 128).toNat] := .last (by omega)
      rw [encodeSigned, if_pos small]
      convert form using 1
      rw [group, low]
      split <;> omega
  | case2 value large ih =>
      have low : (UInt8.ofNat ((value % 128).toNat + 128)).toNat = (value % 128).toNat + 128 :=
        UInt8.toNat_ofNat_of_lt' (show (value % 128).toNat + 128 < 256 by omega)
      have form : Signed _
          (UInt8.ofNat ((value % 128).toNat + 128) :: encodeSigned (value / 128)) :=
        .more (by omega) ih
      rw [encodeSigned, if_neg large]
      convert form using 1
      rw [group, low]
      omega

end Leb128

namespace Read

open Leb128

section scanned

variable {scan : Bytes → Scan α} {within : ∀ bytes, (scan bytes).Within bytes.length} {r : Reader}

/-- A scan tells what reading comes to. -/
theorem scanned_of_value {value : α} {length : Nat} (found : scan r.rest = .value value length) :
    ∃ enough, scanned scan within r = .ok value (r.advance length enough) := by
  have inside := within r.rest
  rw [found] at inside
  rw [scanned]
  split
  · rename_i same
    cases found.symm.trans same
    exact ⟨inside.2, rfl⟩
  · rename_i same
    cases found.symm.trans same
  · rename_i same
    cases found.symm.trans same

theorem scanned_of_overflow {length : Nat} (found : scan r.rest = .overflow length) :
    ∃ enough,
      scanned scan within r = .error (.lebOverflow r.pos) (r.advance length enough) := by
  have inside := within r.rest
  rw [found] at inside
  rw [scanned]
  split
  · rename_i same
    cases found.symm.trans same
  · rename_i same
    cases found.symm.trans same
    exact ⟨inside.2, rfl⟩
  · rename_i same
    cases found.symm.trans same

theorem scanned_of_truncated (found : scan r.rest = .truncated) :
    scanned scan within r = .error (r.outOfBounds r.data.length 1) r.toEnd := by
  rw [scanned]
  split
  · rename_i same
    cases found.symm.trans same
  · rename_i same
    cases found.symm.trans same
  · rfl

theorem yields_scanned {run : Bytes} {value : α}
    (found : ∀ ahead, scan (run ++ ahead) = .value value run.length) :
    Yields (scanned scan within) run value := by
  intro passed ahead
  have here : scan (Reader.between passed (run ++ ahead)).rest = .value value run.length :=
    found ahead
  obtain ⟨enough, read⟩ := scanned_of_value here
  rw [read, Reader.advance_between _ rfl]

end scanned

/-- Every form of an unsigned number is read as the number. -/
theorem yields_uleb128 {value : UInt64} {form : Bytes} (h : Unsigned value.toNat form) :
    Yields uleb128 form value := by
  have read : Yields uleb128 form (UInt64.ofNat value.toNat) := by
    apply Yields.map
    apply yields_scanned
    intro ahead
    simpa using h.scan (show 0 + value.toNat * 128 ^ 0 < UInt64.size by
      simpa using value.toNat_lt_size) ahead
  rwa [UInt64.ofNat_toNat] at read

/-- A signed number is read up to multiples of 2^64, provided that what lies behind the tenth byte
repeats a sign. -/
theorem yields_sleb128_of_repeatsSign {value : Int} {form : Bytes} (h : Signed value form)
    (sign : RepeatsSign (form.drop 10)) : Yields sleb128 form (Int64.ofInt value) := by
  apply yields_scanned
  intro ahead
  have found : signed 0 0 (form ++ ahead) = _ := h.scan sign ahead
  simpa using found

/-- Every form of a signed number is read as the number. -/
theorem yields_sleb128 {value : Int64} {form : Bytes} (h : Signed value.toInt form) :
    Yields sleb128 form value := by
  have read := yields_sleb128_of_repeatsSign h (h.repeatsSign_of_fits value.le_toInt value.toInt_lt)
  rwa [Int64.ofInt_toInt] at read

end DspFirmware.Read

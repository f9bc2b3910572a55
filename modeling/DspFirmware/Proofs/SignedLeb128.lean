import DspFirmware.Proofs.Leb128
import Mathlib.Data.Nat.Digits.Lemmas

/-!
What reading a signed LEB128 number comes to, on every byte string. A number that fits 64 bits is read
exactly, with nothing behind its last byte. Of a number that does not fit, only the groups behind the
tenth byte are looked at: one that does not repeat a sign is an overflow, and without one the number is
cut to its lowest 64 bits.
-/

namespace DspFirmware

namespace Leb128

/-- Every byte says that another one follows. -/
def Continued (bytes : Bytes) : Prop := ∀ byte ∈ bytes, 128 ≤ byte.toNat

/-- The number that the groups of some bytes and of a last one spell, the least significant first, in
the complement of 128 to their count when bit 6 of the last byte is set. -/
def signedNumber (bytes : Bytes) (last : UInt8) : Int :=
  (Nat.ofDigits 128 ((bytes ++ [last]).map group) : Nat)
    - if 64 ≤ group last then 128 ^ (bytes.length + 1) else 0

theorem signedNumber_cons (byte : UInt8) (bytes : Bytes) (last : UInt8) :
    signedNumber (byte :: bytes) last = group byte + 128 * signedNumber bytes last := by
  rw [signedNumber, signedNumber, List.cons_append, List.map_cons, Nat.ofDigits_cons,
    List.length_cons]
  split
  · push_cast
    ring
  · push_cast
    ring

theorem signed_signedNumber {bytes : Bytes} {last : UInt8} (continued : Continued bytes)
    (final : last.toNat < 128) : Signed (signedNumber bytes last) (bytes ++ [last]) := by
  induction bytes with
  | nil =>
      have form : Signed _ ([] ++ [last]) := .last final
      convert form using 1
      simp only [signedNumber, List.nil_append, List.map_singleton, Nat.ofDigits_singleton,
        List.length_nil]
      split <;> omega
  | cons byte bytes ih =>
      obtain ⟨first, others⟩ := List.forall_mem_cons.mp continued
      rw [signedNumber_cons]
      exact .more first (ih others)

/-- Behind the tenth byte a group that does not repeat a sign is an overflow, when the search comes
that far. -/
theorem signed_overflow {bytes : Bytes} (continued : Continued bytes.dropLast) {sum length : Nat}
    (odd : ¬RepeatsSign (bytes.drop (10 - length))) (ahead : Bytes) :
    ∃ count, signed sum length (bytes ++ ahead) = .overflow count := by
  induction bytes generalizing sum length with
  | nil => simp [RepeatsSign] at odd
  | cons byte rest ih =>
      rw [List.cons_append, signed_cons]
      by_cases here : 10 ≤ length ∧ group byte ≠ 0 ∧ group byte ≠ 127
      · exact ⟨_, if_pos here⟩
      · have later : ¬RepeatsSign (rest.drop (10 - (length + 1))) := fun sign =>
          odd (repeatsSign_drop_cons.mpr ⟨here, sign⟩)
        have nonempty : rest ≠ [] := by
          rintro rfl
          simp [RepeatsSign] at later
        rw [List.dropLast_cons_of_ne_nil nonempty] at continued
        obtain ⟨first, others⟩ := List.forall_mem_cons.mp continued
        rw [if_neg here, if_neg (by omega)]
        exact ih others later

/-- Bytes that all announce another one leave the search without a last byte. -/
theorem signed_truncated {bytes : Bytes} (continued : Continued bytes) {sum length : Nat}
    (sign : RepeatsSign (bytes.drop (10 - length))) : signed sum length bytes = .truncated := by
  induction bytes generalizing sum length with
  | nil => rfl
  | cons byte rest ih =>
      obtain ⟨first, others⟩ := List.forall_mem_cons.mp continued
      obtain ⟨here, later⟩ := repeatsSign_drop_cons.mp sign
      rw [signed_cons, if_neg here, if_neg (by omega)]
      exact ih others later

/-- Where a scan of some bytes has stopped: behind a last byte, behind one it does not go on from, or at
the end. Every byte in front announces another one. -/
def Scan.Stops (bytes : Bytes) (length : Nat) : Scan α → Prop
  | .value _ total => ∃ front last rest, bytes = front ++ last :: rest ∧ Continued front
      ∧ last.toNat < 128 ∧ total = length + (front.length + 1)
  | .overflow total => ∃ front byte rest, bytes = front ++ byte :: rest ∧ Continued front
      ∧ total = length + (front.length + 1)
  | .truncated => Continued bytes

theorem Scan.Stops.cons {scan : Scan α} {byte : UInt8} {rest : Bytes} {length : Nat}
    (h : scan.Stops rest (length + 1)) (announces : 128 ≤ byte.toNat) :
    scan.Stops (byte :: rest) length := by
  have further {front : Bytes} (continued : Continued front) : Continued (byte :: front) :=
    List.forall_mem_cons.mpr ⟨announces, continued⟩
  cases scan with
  | value number total =>
      obtain ⟨front, last, behind, rfl, continued, final, same⟩ := h
      refine ⟨byte :: front, last, behind, rfl, further continued, final, ?_⟩
      rw [same, List.length_cons]
      omega
  | overflow total =>
      obtain ⟨front, odd, behind, rfl, continued, same⟩ := h
      refine ⟨byte :: front, odd, behind, rfl, further continued, ?_⟩
      rw [same, List.length_cons]
      omega
  | truncated => exact further h

theorem signed_stops (sum length : Nat) (bytes : Bytes) :
    (signed sum length bytes).Stops bytes length := by
  induction bytes generalizing sum length with
  | nil => exact fun _ member => nomatch member
  | cons byte rest ih =>
      rw [signed_cons]
      split
      · exact ⟨[], byte, rest, rfl, nofun, rfl⟩
      · split
        · exact ⟨[], byte, rest, rfl, nofun, ‹_›, rfl⟩
        · exact (ih _ _).cons (by omega)

/-- A number that is found is the one that its groups spell, as far as it has not been cut. -/
theorem signed_eq_value {front rest : Bytes} {last : UInt8} {number : Int64} {total : Nat}
    (continued : Continued front) (final : last.toNat < 128)
    (found : signed 0 0 (front ++ last :: rest) = .value number total) :
    number = .ofInt (signedNumber front last) := by
  rw [List.append_cons] at found
  by_cases sign : RepeatsSign ((front ++ [last]).drop 10)
  · rw [(signed_signedNumber continued final).scan sign] at found
    cases found
    simp
  · obtain ⟨count, odd⟩ : ∃ count, signed 0 0 (front ++ [last] ++ rest) = .overflow count :=
      signed_overflow (by rwa [List.dropLast_concat]) sign rest
    cases odd.symm.trans found

end Leb128

namespace Read

open Leb128

theorem sleb128_of_odd {bytes : Bytes} (continued : Continued bytes.dropLast)
    (odd : ¬RepeatsSign (bytes.drop 10)) (passed ahead : Bytes) :
    ∃ s, sleb128 (.between passed (bytes ++ ahead)) = .error (.lebOverflow passed.length) s := by
  obtain ⟨count, found⟩ : ∃ count, signed 0 0 (bytes ++ ahead) = .overflow count :=
    signed_overflow continued odd ahead
  have here : signed 0 0 (Reader.between passed (bytes ++ ahead)).rest = .overflow count := found
  obtain ⟨enough, read⟩ := scanned_of_overflow here
  exact ⟨_, read⟩

theorem sleb128_of_continued {bytes : Bytes} (continued : Continued bytes)
    (sign : RepeatsSign (bytes.drop 10)) (passed : Bytes) :
    sleb128 (.between passed bytes)
      = .error (.outOfBounds (passed ++ bytes).length 1 (passed ++ bytes).length)
        (.between (passed ++ bytes) []) := by
  have found : signed 0 0 bytes = .truncated := signed_truncated continued sign
  have here : signed 0 0 (Reader.between passed bytes).rest = .truncated := found
  have atEnd : (Reader.between passed bytes).toEnd = .between (passed ++ bytes) [] :=
    Reader.ext_pos (by simp [Reader.toEnd, Reader.between]) rfl
  rw [sleb128, scanned_of_truncated here, atEnd]
  rfl

/-- Reading a signed number, whatever stands in front of it and behind it. A number that fits 64 bits is
read as it is, with exactly its bytes. One that does not fit is an overflow, reported where it starts, if
a group behind the tenth byte does not repeat a sign; else it is cut to its lowest 64 bits. When the
bytes end before a last one, that is reported at their end, unless such a group comes before. -/
theorem sleb128_outcome (passed : Bytes) {bytes : Bytes} {last : UInt8} (ahead : Bytes)
    (continued : Continued bytes) (final : last.toNat < 128) :
    let value := signedNumber bytes last
    let number := bytes ++ [last]
    let whole := sleb128 (.between passed (number ++ ahead))
    let cut := sleb128 (.between passed bytes)
    (-2 ^ 63 ≤ value ∧ value < 2 ^ 63 →
        ∃ answer : Int64, answer.toInt = value ∧
          whole = .ok answer (.between (passed ++ number) ahead)) ∧
      (¬(-2 ^ 63 ≤ value ∧ value < 2 ^ 63) →
        (¬RepeatsSign (number.drop 10) → ∃ s, whole = .error (.lebOverflow passed.length) s) ∧
        (RepeatsSign (number.drop 10) →
          whole = .ok (Int64.ofInt value) (.between (passed ++ number) ahead))) ∧
      (RepeatsSign (bytes.drop 10) →
        cut = .error (.outOfBounds (passed ++ bytes).length 1 (passed ++ bytes).length)
          (.between (passed ++ bytes) [])) ∧
      (¬RepeatsSign (bytes.drop 10) → ∃ s, cut = .error (.lebOverflow passed.length) s) := by
  intro value number whole cut
  have form : Signed value number := signed_signedNumber continued final
  refine ⟨?fits, ?tooLarge, ?short, ?odd⟩
  case fits =>
    intro fits
    have sign : RepeatsSign (number.drop 10) := form.repeatsSign_of_fits fits.1 fits.2
    have read := yields_sleb128_of_repeatsSign form sign passed ahead
    exact ⟨_, Int64.toInt_ofInt_of_le fits.1 fits.2, read⟩
  case tooLarge =>
    intro _
    constructor
    · intro odd
      apply sleb128_of_odd ?_ odd
      rwa [List.dropLast_concat]
    · intro sign
      exact yields_sleb128_of_repeatsSign form sign passed ahead
  case short =>
    intro sign
    exact sleb128_of_continued continued sign passed
  case odd =>
    intro odd
    have early : Continued bytes.dropLast := fun byte h => continued byte (List.mem_of_mem_dropLast h)
    simpa using sleb128_of_odd early odd passed []

theorem sleb128_outcome_negative :
    ∃ answer : Int64, answer.toInt = -123456 ∧
      sleb128 (.between [0x7f] [0xc0, 0xbb, 0x78, 0x40])
        = .ok answer (.between [0x7f, 0xc0, 0xbb, 0x78] [0x40]) := by
  have continued : Continued [0xc0, 0xbb] := by simp [Continued]
  have final : (0x78 : UInt8).toNat < 128 := by decide
  have value : signedNumber [0xc0, 0xbb] 0x78 = -123456 := by decide +kernel
  obtain ⟨answer, same, read⟩ := (sleb128_outcome [0x7f] [0x40] continued final).1
    (by rw [value]; decide)
  exact ⟨answer, same.trans value, read⟩

/-- The number 2^64, whose tenth group is 2, is read as 0. -/
theorem sleb128_outcome_cut :
    signedNumber (List.replicate 9 0x80) 0x02 = 2 ^ 64 ∧
      sleb128 (.ofBytes (List.replicate 9 0x80 ++ [0x02]))
        = .ok 0 (.between (List.replicate 9 0x80 ++ [0x02]) []) :=
  ⟨by decide +kernel, rfl⟩

end Read

end DspFirmware

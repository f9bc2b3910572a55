import DspFirmware.Proofs.SignedLeb128
import DspFirmware.Proofs.WordLeb128

/-!
What reading an unsigned LEB128 number comes to, on every byte string. A number that fits 64 bits is read
exactly, however many zero groups pad it. Otherwise the first byte that takes the groups so far out of 64
bits ends the search, whatever comes behind it.
-/

namespace DspFirmware

namespace Leb128

/-- The number that the groups of some bytes spell, the least significant first. -/
def unsignedNumber (bytes : Bytes) : Nat := Nat.ofDigits 128 (bytes.map group)

theorem unsignedNumber_append (front behind : Bytes) :
    unsignedNumber (front ++ behind)
      = unsignedNumber front + unsignedNumber behind * 128 ^ front.length := by
  rw [unsignedNumber, List.map_append, Nat.ofDigits_append, List.length_map, Nat.mul_comm]
  rfl

theorem unsignedNumber_singleton (byte : UInt8) : unsignedNumber [byte] = group byte :=
  Nat.ofDigits_singleton

/-- The groups behind `front` take the number out of 64 bits, and `byte` is the first of them that
does. -/
def FirstTooLarge (front : Bytes) (byte : UInt8) : Prop :=
  unsignedNumber front < UInt64.size ∧ UInt64.size ≤ unsignedNumber (front ++ [byte])

/-- Of a number that is too large, some byte is the first that makes it so. -/
theorem exists_firstTooLarge {bytes : Bytes} (large : UInt64.size ≤ unsignedNumber bytes) :
    ∃ front byte rest, bytes = front ++ byte :: rest ∧ FirstTooLarge front byte := by
  induction bytes using List.reverseRecOn with
  | nil => exact absurd large (by decide)
  | append_singleton front byte ih =>
      by_cases before : UInt64.size ≤ unsignedNumber front
      · obtain ⟨first, decisive, rest, rfl, here⟩ := ih before
        exact ⟨first, decisive, rest ++ [byte], by simp, here⟩
      · exact ⟨front, byte, [], rfl, Nat.lt_of_not_le before, large⟩

/-- Bytes that announce others are summed up, as long as their sum fits. -/
theorem unsigned_append_of_continued {front : Bytes} (continued : Continued front)
    {sum length : Nat} (fits : sum + unsignedNumber front * 128 ^ length < UInt64.size)
    (behind : Bytes) :
    unsigned sum length (front ++ behind)
      = unsigned (sum + unsignedNumber front * 128 ^ length) (length + front.length) behind := by
  induction front generalizing sum length with
  | nil => simp [unsignedNumber]
  | cons byte front ih =>
      obtain ⟨first, others⟩ := List.forall_mem_cons.mp continued
      have split : sum + unsignedNumber (byte :: front) * 128 ^ length
          = sum + group byte * 128 ^ length + unsignedNumber front * 128 ^ (length + 1) := by
        rw [unsignedNumber, List.map_cons, Nat.ofDigits_cons, ← unsignedNumber]
        ring
      rw [split] at fits ⊢
      rw [List.cons_append, unsigned_cons, if_neg (by omega), if_neg (by omega), ih others fits,
        List.length_cons, Nat.add_assoc length, Nat.add_comm 1]

theorem unsigned_of_continued {front : Bytes} (continued : Continued front)
    (fits : unsignedNumber front < UInt64.size) (behind : Bytes) :
    unsigned 0 0 (front ++ behind) = unsigned (unsignedNumber front) front.length behind := by
  have walked : unsigned 0 0 (front ++ behind)
      = unsigned (0 + unsignedNumber front * 128 ^ 0) (0 + front.length) behind :=
    unsigned_append_of_continued continued (by simpa using fits) behind
  simpa using walked

theorem unsigned_of_firstTooLarge {front : Bytes} {byte : UInt8} (continued : Continued front)
    (here : FirstTooLarge front byte) (behind : Bytes) :
    unsigned 0 0 (front ++ byte :: behind) = .overflow (front.length + 1) := by
  obtain ⟨fits, large⟩ := here
  rw [unsignedNumber_append, unsignedNumber_singleton] at large
  rw [unsigned_of_continued continued fits, unsigned_cons, if_pos large]

theorem unsigned_truncated {bytes : Bytes} (continued : Continued bytes)
    (fits : unsignedNumber bytes < UInt64.size) : unsigned 0 0 bytes = .truncated := by
  have walked := unsigned_of_continued continued fits []
  rwa [List.append_nil] at walked

theorem unsigned_complete {bytes : Bytes} {last : UInt8} (continued : Continued bytes)
    (final : last.toNat < 128) (fits : unsignedNumber (bytes ++ [last]) < UInt64.size)
    (ahead : Bytes) :
    unsigned 0 0 (bytes ++ [last] ++ ahead)
      = .value (unsignedNumber (bytes ++ [last])) (bytes ++ [last]).length := by
  rw [unsignedNumber_append, unsignedNumber_singleton] at fits ⊢
  rw [List.append_assoc, List.singleton_append, unsigned_of_continued continued (by omega),
    unsigned_cons, if_neg (by omega), if_pos final, List.length_append, List.length_singleton]

theorem unsigned_unsignedNumber {bytes : Bytes} {last : UInt8} (continued : Continued bytes)
    (final : last.toNat < 128) : Unsigned (unsignedNumber (bytes ++ [last])) (bytes ++ [last]) := by
  induction bytes with
  | nil =>
      have form : Unsigned (group last) [last] := .last final
      simpa [unsignedNumber_singleton] using form
  | cons byte bytes ih =>
      obtain ⟨first, others⟩ := List.forall_mem_cons.mp continued
      exact .more first (ih others)

theorem unsigned_stops (value length : Nat) (bytes : Bytes) :
    (unsigned value length bytes).Stops bytes length := by
  induction bytes generalizing value length with
  | nil => exact fun _ member => nomatch member
  | cons byte rest ih =>
      rw [unsigned_cons]
      split
      · exact ⟨[], byte, rest, rfl, nofun, rfl⟩
      · split
        · exact ⟨[], byte, rest, rfl, nofun, ‹_›, rfl⟩
        · exact (ih _ _).cons (by omega)

/-- A number that is found is the one that its groups spell. -/
theorem unsigned_eq_value {front rest : Bytes} {last : UInt8} {number : Nat} {total : Nat}
    (continued : Continued front) (final : last.toNat < 128)
    (found : unsigned 0 0 (front ++ last :: rest) = .value number total) :
    number = unsignedNumber (front ++ [last]) ∧ unsignedNumber (front ++ [last]) < UInt64.size := by
  rw [List.append_cons] at found
  by_cases fits : unsignedNumber (front ++ [last]) < UInt64.size
  · rw [unsigned_complete continued final fits] at found
    cases found
    exact ⟨rfl, fits⟩
  · obtain ⟨early, byte, later, split, here⟩ := exists_firstTooLarge (Nat.le_of_not_lt fits)
    have before : front = (early ++ byte :: later).dropLast := by rw [← split, List.dropLast_concat]
    have announced : Continued early := fun other member =>
      continued other (by rw [before]; simp [member])
    rw [split, List.append_assoc, List.cons_append, unsigned_of_firstTooLarge announced here] at found
    cases found

end Leb128

namespace Read

open Leb128

/-- What fits 64 bits is read up to its last byte. -/
theorem uleb128_of_fits {bytes : Bytes} {last : UInt8} (continued : Continued bytes)
    (final : last.toNat < 128) (fits : unsignedNumber (bytes ++ [last]) < UInt64.size) :
    Yields uleb128 (bytes ++ [last]) (UInt64.ofNat (unsignedNumber (bytes ++ [last]))) :=
  Yields.map (yields_scanned fun ahead => unsigned_complete continued final fits ahead)

/-- A number that does not fit is given up behind the first byte that makes it too large. -/
theorem uleb128_of_firstTooLarge {front rest : Bytes} {byte : UInt8}
    (continued : Continued (front ++ byte :: rest).dropLast) (here : FirstTooLarge front byte)
    (passed ahead : Bytes) :
    uleb128 (.between passed (front ++ byte :: rest ++ ahead))
      = .error (.lebOverflow passed.length)
        (.between (passed ++ (front ++ [byte])) (rest ++ ahead)) := by
  have announced : Continued front := fun other member => continued other (by simp [member])
  have whole : front ++ byte :: rest ++ ahead = front ++ [byte] ++ (rest ++ ahead) := by simp
  have decided : unsigned 0 0 (front ++ [byte] ++ (rest ++ ahead)) = .overflow (front.length + 1) := by
    simpa using unsigned_of_firstTooLarge announced here (rest ++ ahead)
  have found : unsigned 0 0 (Reader.between passed (front ++ [byte] ++ (rest ++ ahead))).rest
      = .overflow (front.length + 1) := decided
  obtain ⟨enough, read⟩ := scanned_of_overflow found
  rw [Reader.advance_between enough (by simp)] at read
  rw [whole]
  exact map_eq_error read

theorem uleb128_of_large {run : Bytes} (continued : Continued run.dropLast)
    (large : UInt64.size ≤ unsignedNumber run) (passed ahead : Bytes) :
    ∃ front byte rest, run = front ++ byte :: rest ∧ FirstTooLarge front byte ∧
      uleb128 (.between passed (run ++ ahead))
        = .error (.lebOverflow passed.length)
          (.between (passed ++ (front ++ [byte])) (rest ++ ahead)) := by
  obtain ⟨front, byte, rest, rfl, here⟩ := exists_firstTooLarge large
  exact ⟨front, byte, rest, rfl, here, uleb128_of_firstTooLarge continued here passed ahead⟩

theorem uleb128_of_continued {bytes : Bytes} (continued : Continued bytes)
    (fits : unsignedNumber bytes < UInt64.size) (passed : Bytes) :
    uleb128 (.between passed bytes)
      = .error (.outOfBounds (passed ++ bytes).length 1 (passed ++ bytes).length)
        (.between (passed ++ bytes) []) := by
  have found : unsigned 0 0 (Reader.between passed bytes).rest = .truncated :=
    unsigned_truncated continued fits
  have atEnd : (Reader.between passed bytes).toEnd = .between (passed ++ bytes) [] :=
    Reader.ext_pos (by simp [Reader.toEnd, Reader.between]) rfl
  apply map_eq_error
  rw [scanned_of_truncated found, atEnd]
  rfl

/-- Reading an unsigned number, whatever stands in front of it and behind it. A number that fits 64 bits
is read as it is, with exactly its bytes. Any other is an overflow, reported where it starts, with the
reader behind the first byte that makes it too large. When the bytes end before a last one, that is
reported at their end, unless such a byte comes before. The groups can be put together in words of 64
bits: no shift is by as many places. -/
theorem uleb128_outcome (passed : Bytes) {bytes : Bytes} {last : UInt8} (ahead : Bytes)
    (continued : Continued bytes) (final : last.toNat < 128) :
    let number := bytes ++ [last]
    let whole := uleb128 (.between passed (number ++ ahead))
    let cut := uleb128 (.between passed bytes)
    (unsignedNumber number < 2 ^ 64 →
        ∃ answer : UInt64, answer.toNat = unsignedNumber number ∧
          whole = .ok answer (.between (passed ++ number) ahead)) ∧
      (2 ^ 64 ≤ unsignedNumber number →
        ∃ front byte rest, number = front ++ byte :: rest ∧ FirstTooLarge front byte ∧
          whole = .error (.lebOverflow passed.length)
            (.between (passed ++ (front ++ [byte])) (rest ++ ahead))) ∧
      (unsignedNumber bytes < 2 ^ 64 →
        cut = .error (.outOfBounds (passed ++ bytes).length 1 (passed ++ bytes).length)
          (.between (passed ++ bytes) [])) ∧
      (2 ^ 64 ≤ unsignedNumber bytes →
        ∃ front byte rest, bytes = front ++ byte :: rest ∧ FirstTooLarge front byte ∧
          cut = .error (.lebOverflow passed.length)
            (.between (passed ++ (front ++ [byte])) rest)) ∧
      ∀ data, walk? WordSum.unsignedStep? .start 0 data
        = some ((unsigned 0 0 data).map UInt64.ofNat) := by
  intro number whole cut
  refine ⟨?fits, ?tooLarge, ?short, ?shortTooLarge, ?words⟩
  case fits =>
    intro fits
    exact ⟨_, UInt64.toNat_ofNat_of_lt' fits, uleb128_of_fits continued final fits passed ahead⟩
  case tooLarge =>
    intro large
    apply uleb128_of_large ?_ large
    rwa [List.dropLast_concat]
  case short =>
    intro fits
    exact uleb128_of_continued continued fits passed
  case shortTooLarge =>
    intro large
    have early : Continued bytes.dropLast := fun byte h => continued byte (List.mem_of_mem_dropLast h)
    simpa using uleb128_of_large early large passed []
  case words =>
    exact WordSum.holds_start.walk?_unsigned (by decide)

/-- The number 5 in twelve bytes, and a number whose tenth group takes it to 2^64, with a padding that is
not looked at. -/
theorem uleb128_outcome_padded :
    (∃ answer : UInt64, answer.toNat = 5 ∧
        uleb128 (.between [0x7f] (0x85 :: List.replicate 10 0x80 ++ [0] ++ [0x40]))
          = .ok answer (.between ([0x7f] ++ (0x85 :: List.replicate 10 0x80 ++ [0])) [0x40])) ∧
      ∃ front byte rest, List.replicate 9 0x80 ++ [0x82, 0x80] ++ [0] = front ++ byte :: rest ∧
        FirstTooLarge front byte ∧
        uleb128 (.between [0x7f] (List.replicate 9 0x80 ++ [0x82, 0x80] ++ [0] ++ [0x40]))
          = .error (.lebOverflow 1) (.between ([0x7f] ++ (front ++ [byte])) (rest ++ [0x40])) := by
  have continued : Continued (0x85 :: List.replicate 10 0x80) := by simp [Continued]
  have other : Continued (List.replicate 9 0x80 ++ [0x82, 0x80]) := by simp [Continued]
  have final : (0 : UInt8).toNat < 128 := by decide
  constructor
  · have value : unsignedNumber (0x85 :: List.replicate 10 0x80 ++ [0]) = 5 := by decide +kernel
    obtain ⟨answer, same, read⟩ := (uleb128_outcome [0x7f] [0x40] continued final).1
      (by rw [value]; decide)
    exact ⟨answer, same.trans value, read⟩
  · exact (uleb128_outcome [0x7f] [0x40] other final).2.1 (by decide +kernel)

end Read

end DspFirmware

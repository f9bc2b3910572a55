import DspFirmware.Proofs.Container.ByteLayout

/-!
What one more segment changes in a written container: the size and the count in the header, a descriptor
where there were zeros, and a payload at the end. Descriptors and payloads of the segments before it stay
where they are, byte for byte.
-/

namespace DspFirmware.Container

open Bytes

/-- Byte strings that differ in one run, of the same length in both, agree outside of it. -/
theorem getElem?_outside {front run other : Bytes} (length : other.length = run.length)
    (behind : Bytes) {p : Nat} (outside : p < front.length ∨ front.length + run.length ≤ p) :
    (front ++ (other ++ behind))[p]? = (front ++ (run ++ behind))[p]? := by
  rcases outside with before | past
  · rw [List.getElem?_append_left before, List.getElem?_append_left before]
  · rw [List.getElem?_append_right (by omega), List.getElem?_append_right (by omega),
      List.getElem?_append_right (by omega), List.getElem?_append_right (by omega), length]

/-- The size of the file and the number of segments have places of their own in the header. -/
theorem Header.getElem?_encode (header : Header) {fileSize otherSize count otherCount p : Nat}
    (size : ¬(0x104 ≤ p ∧ p < 0x108)) (number : p ≠ 0x10e) :
    (header.encode otherSize otherCount)[p]? = (header.encode fileSize count)[p]? := by
  let start := header.signature.val ++ magic
  let middle := ofUInt16 header.memoryLayout ++ [0, 0, header.unknown, header.filterKind]
  let finish := header.flags :: (ofUInt32 header.filterAddress ++ ofUInt32 header.filterSize
    ++ List.replicate 8 0)
  have sized (fileSize count : Nat) : header.encode fileSize count
      = start ++ (littleEndian 4 fileSize ++ (middle ++ UInt8.ofNat count :: finish)) := by
    simp [encode, start, middle, finish]
  have counted (fileSize count : Nat) : header.encode fileSize count
      = (start ++ littleEndian 4 fileSize ++ middle) ++ ([UInt8.ofNat count] ++ finish) := by
    simp [sized]
  have first : start.length = 0x104 := by simp [start, magic, header.signature.property]
  have second : (start ++ littleEndian 4 fileSize ++ middle).length = 0x10e := by
    simp [first, middle, ofUInt16]
  calc (header.encode otherSize otherCount)[p]?
      = (header.encode fileSize otherCount)[p]? := by
        rw [sized, sized]
        refine getElem?_outside (by simp) _ ?_
        rw [first, length_littleEndian]
        omega
    _ = (header.encode fileSize count)[p]? := by
        rw [counted, counted]
        refine getElem?_outside (by simp) _ ?_
        rw [second, List.length_singleton]
        omega

/-- Segments behind a payload do not move it, nor the place behind the last payload before them. -/
theorem payloadStart_append {segments : List Segment} {i : Nat} (h : i ≤ segments.length)
    (more : List Segment) : payloadStart (segments ++ more) i = payloadStart segments i := by
  rw [payloadStart, payloadStart, List.take_append_of_le_length h]

/-- The same header in front of other segments differs in the size and the count only. -/
theorem FileLayout.getElem?_header {header : Header} {segments others : List Segment}
    {file grown : Bytes} (layout : FileLayout header segments file)
    (other : FileLayout header others grown) {p : Nat} (inside : p < 0x120)
    (size : ¬(0x104 ≤ p ∧ p < 0x108)) (number : p ≠ 0x10e) : grown[p]? = file[p]? := by
  have fields : file.take 0x120 = header.encode file.length segments.length := layout.fields
  have again : grown.take 0x120 = header.encode grown.length others.length := other.fields
  calc grown[p]?
      = (header.encode grown.length others.length)[p]? := by
        rw [← again, List.getElem?_take_of_lt inside]
    _ = (header.encode file.length segments.length)[p]? := header.getElem?_encode size number
    _ = file[p]? := by rw [← fields, List.getElem?_take_of_lt inside]

/-- The descriptors of segments do not depend on the segments behind them. -/
theorem FileLayout.getElem?_descriptors {header other : Header} {segments more : List Segment}
    {file grown : Bytes} (layout : FileLayout header segments file)
    (larger : FileLayout other (segments ++ more) grown) {p : Nat} (low : 0x120 ≤ p)
    (high : p < 0x120 + 48 * segments.length) : grown[p]? = file[p]? := by
  let i := (p - 0x120) / 48
  have before : i < segments.length := by omega
  have same : (grown.drop (0x120 + 48 * i)).take 48 = (file.drop (0x120 + 48 * i)).take 48 := by
    rw [layout.descriptor i before, larger.descriptor i (by rw [List.length_append]; omega)]
    simp only [payloadStart_append before.le, List.getElem_append_left before]
  have place : p = 0x120 + 48 * i + (p - 0x120) % 48 := by omega
  have offset : (p - 0x120) % 48 < 48 := Nat.mod_lt _ (by decide)
  have byte (bytes : Bytes) :
      bytes[p]? = ((bytes.drop (0x120 + 48 * i)).take 48)[(p - 0x120) % 48]? := by
    rw [List.getElem?_take_of_lt offset, List.getElem?_drop, ← place]
  rw [byte grown, same, ← byte file]

/-- A written file with segments has its payloads behind the first `0x300` bytes, and nothing else. -/
theorem eq_append_payloads {c : Container} {file : Bytes} (written : c.serialize = .ok file)
    (filled : c.segments ≠ []) : ∃ front, front.length = 0x300 ∧ file = front ++ c.payloads := by
  obtain ⟨few, -, rfl⟩ := serialize_eq_ok_iff.mp written
  refine ⟨c.front, ?_, rfl⟩
  rw [length_front few, if_neg filled, payloadBase]

/-- With one more segment, a written container changes in few places. In front of the new descriptor, only
the size and the count in the header do. Payloads stay where they are; the new one begins where the file
has ended, or at `0x300` if there was none, and ends with the file. Between the new descriptor and the
payloads are zeros. -/
theorem serialize_addSegment {c : Container} {kind : SegmentKind} {address : UInt32}
    {data file grown : Bytes} (written : c.serialize = .ok file)
    (extended : (c.addSegment kind address data).serialize = .ok grown) :
    let n := c.segments.length
    let start := if n = 0 then 0x300 else file.length
    (0x120 + 48 * n ≤ file.length ∧ ∀ p < 0x120 + 48 * n, ¬(0x104 ≤ p ∧ p < 0x108) → p ≠ 0x10e →
      grown[p]? = file[p]?) ∧
    (1 ≤ n → ∀ p, 0x300 ≤ p → p < file.length → grown[p]? = file[p]?) ∧
    (grown.length = start + data.length ∧ grown.drop start = data) ∧
    ∀ p, 0x120 + 48 * (n + 1) ≤ p → p < 0x300 → grown[p]? = some 0 := by
  intro n start
  have layout := fileLayout_of_serialize written
  have larger : FileLayout c.header (c.segments ++ [.ofPayload kind address data]) grown :=
    fileLayout_of_serialize extended
  have few : n + 1 ≤ 10 := by
    simpa [addSegment, maxSegments] using (serialize_eq_ok_iff.mp extended).1
  have added : (c.addSegment kind address data).payloads = c.payloads ++ data := by
    simp [payloads, addSegment, Segment.ofPayload]
  obtain ⟨front, base, whole⟩ := eq_append_payloads extended (by simp [addSegment])
  rw [added] at whole
  -- Where the new payload begins, in either case.
  have place : start = 0x300 + c.payloads.length := by
    by_cases empty : c.segments = []
    · simp [start, n, payloads, empty]
    · obtain ⟨first, same, rfl⟩ := eq_append_payloads written empty
      simp [start, n, empty, same]
  refine ⟨⟨?room, fun p inside size number => ?fields⟩, fun filled p low high => ?payloads, ?payload,
    fun p low high => ?gap⟩
  case room =>
    rw [layout.length]
    by_cases empty : c.segments = []
    · simp [n, empty]
    · rw [if_neg empty, payloadStart]
      omega
  case fields =>
    by_cases header : p < 0x120
    · exact layout.getElem?_header larger header size number
    · exact layout.getElem?_descriptors larger (Nat.le_of_not_lt header) inside
  case payloads =>
    obtain ⟨first, same, rfl⟩ := eq_append_payloads written (List.ne_nil_of_length_pos filled)
    rw [List.length_append] at high
    rw [whole, List.getElem?_append_right (by omega), List.getElem?_append_left (by omega),
      List.getElem?_append_right (by omega), base, same]
  case payload =>
    rw [place, whole]
    constructor
    · simp [base, Nat.add_assoc]
    · rw [drop_append_right base, List.drop_left]
  case gap =>
    refine larger.gap p ?_ high ?_
    · simpa using low
    · rw [whole, List.length_append, base]
      omega

/-- The first segment of a container, and the tenth, whose descriptor ends where the payloads begin. -/
theorem serialize_addSegment_tenth :
    let nine : Container := (List.replicate 9 [1, 2]).foldl (·.addSegment .data 0 ·) .empty
    ∃ zero one file grown, Container.empty.serialize = .ok zero ∧
      (Container.empty.addSegment .prog0 0x100 [7]).serialize = .ok one ∧ one.drop 0x300 = [7] ∧
      one[0x150]? = some 0 ∧ nine.serialize = .ok file ∧
      (nine.addSegment .prog0 0x100 [3, 4, 5]).serialize = .ok grown ∧ file.length = 0x312 ∧
      grown.length = 0x315 ∧ grown.drop 0x312 = [3, 4, 5] ∧ grown[0x2cf]? = file[0x2cf]? := by
  intro nine
  have zero : Container.empty.serialize = .ok (Container.empty.front ++ Container.empty.payloads) := rfl
  have one : (Container.empty.addSegment .prog0 0x100 [7]).serialize = .ok
      ((Container.empty.addSegment .prog0 0x100 [7]).front
        ++ (Container.empty.addSegment .prog0 0x100 [7]).payloads) := rfl
  have file : nine.serialize = .ok (nine.front ++ nine.payloads) := rfl
  have grown : (nine.addSegment .prog0 0x100 [3, 4, 5]).serialize = .ok
      ((nine.addSegment .prog0 0x100 [3, 4, 5]).front
        ++ (nine.addSegment .prog0 0x100 [3, 4, 5]).payloads) := rfl
  have length : (nine.front ++ nine.payloads).length = 0x312 :=
    length_front_append_payloads (by decide)
  obtain ⟨-, -, ⟨-, first⟩, gap⟩ := serialize_addSegment zero one
  obtain ⟨⟨-, front⟩, -, ⟨size, last⟩, -⟩ := serialize_addSegment file grown
  rw [length] at size last
  exact ⟨_, _, _, _, zero, one, first, gap 0x150 (by decide) (by decide), file, grown, length, size, last,
    front 0x2cf (by decide) (by decide) (by decide)⟩

end DspFirmware.Container

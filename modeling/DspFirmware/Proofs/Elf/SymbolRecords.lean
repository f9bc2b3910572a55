import DspFirmware.Proofs.Elf.Symbols
import DspFirmware.Proofs.Positions

/-!
Symbol tables as records. A table is a whole number of records of sixteen bytes, and these are no more and
no less than its symbols: each is read back from the other, whatever the fields hold.
-/

namespace DspFirmware.Elf

open Bytes

namespace Symbol

theorem length_encode (symbol : Symbol) : symbol.encode.length = recordSize := by
  simp [encode, ofUInt32, ofUInt8, ofUInt16, recordSize]

theorem length_flatMap_encode (symbols : List Symbol) :
    (symbols.flatMap encode).length = recordSize * symbols.length := by
  simp [List.length_flatMap, length_encode, Nat.mul_comm]

/-- What stands behind the record does not matter. -/
theorem ofRecord_take {data : Bytes} {count : Nat} (enough : recordSize ≤ count) :
    ofRecord (data.take count) = ofRecord data := by
  have inside {place width : Nat} (h : place + width ≤ recordSize) :
      field (data.take count) place width = data.field place width :=
    field_take (h.trans enough)
  simp only [ofRecord]
  congr 2 <;> exact inside (by decide)

/-- A symbol is read back from its record. -/
theorem ofRecord_encode (symbol : Symbol) : ofRecord symbol.encode = symbol := by
  obtain ⟨nameOffset, value, size, info, other, sectionIndex⟩ := symbol
  have whole : encode ⟨nameOffset, value, size, info, other, sectionIndex⟩
      = [ofUInt32 nameOffset, ofUInt32 value, ofUInt32 size, ofUInt8 info, ofUInt8 other,
          ofUInt16 sectionIndex].flatMap id := by
    simp [encode]
  have part (i : Fin 6) := slice_flatMap id [ofUInt32 nameOffset, ofUInt32 value, ofUInt32 size,
    ofUInt8 info, ofUInt8 other, ofUInt16 sectionIndex] i i.isLt
  have word {record : Bytes} {place : Nat} {value : UInt32}
      (found : (record.drop place).take 4 = ofUInt32 value) :
      UInt32.ofNat (record.field place 4) = value := by
    rw [field, found, ofLittleEndian_ofUInt32, UInt32.ofNat_toNat]
  have half {record : Bytes} {place : Nat} {value : UInt16}
      (found : (record.drop place).take 2 = ofUInt16 value) :
      UInt16.ofNat (record.field place 2) = value := by
    rw [field, found, ofLittleEndian_ofUInt16, UInt16.ofNat_toNat]
  have byte {record : Bytes} {place : Nat} {value : UInt8}
      (found : (record.drop place).take 1 = ofUInt8 value) :
      UInt8.ofNat (record.field place 1) = value := by
    rw [field, found]
    exact UInt8.ofNat_toNat
  simp only [whole, ofRecord, Symbol.mk.injEq]
  exact ⟨word (part 0), word (part 1), word (part 2), byte (part 3), byte (part 4), half (part 5)⟩

/-- Symbols are read back from their records behind each other. -/
theorem ofRecords_flatMap_encode (symbols : List Symbol) :
    ofRecords symbols.length (symbols.flatMap encode) = symbols := by
  induction symbols with
  | nil => rfl
  | cons symbol rest ih =>
      have first : ofRecord (symbol.encode ++ rest.flatMap encode) = symbol := by
        rw [← ofRecord_take (Nat.le_refl _), List.take_left' (length_encode symbol), ofRecord_encode]
      rw [List.length_cons, List.flatMap_cons, ofRecords, first,
        List.drop_left' (length_encode symbol), ih]

/-- Records behind each other are put down again from the symbols that were read from them. -/
theorem flatMap_encode_ofRecords {count : Nat} {data : Bytes}
    (length : data.length = recordSize * count) : (ofRecords count data).flatMap encode = data := by
  induction count generalizing data with
  | zero =>
      rw [Nat.mul_zero, List.length_eq_zero_iff] at length
      rw [length]
      rfl
  | succ count ih =>
      rw [Nat.mul_succ] at length
      have record : (data.take recordSize).length = recordSize :=
        List.length_take_of_le (by omega)
      have others : (data.drop recordSize).length = recordSize * count := by
        rw [List.length_drop]
        omega
      rw [ofRecords, List.flatMap_cons, ih others, ← ofRecord_take (Nat.le_refl _),
        encode_ofRecord record, List.take_append_drop]

/-- Records are read one after the other from a place that is a multiple of four, and none of them is
refused for its place. -/
theorem mapM_read (steps : List α) {r : Reader} (aligned : r.pos % 4 = 0)
    (enough : recordSize * steps.length ≤ r.rest.length) :
    ∃ s, (steps.mapM fun _ => read) r = .ok (ofRecords steps.length r.rest) s := by
  induction steps generalizing r with
  | nil => exact ⟨r, rfl⟩
  | cons step rest ih =>
      rw [List.length_cons, Nat.mul_succ] at enough
      have here : recordSize ≤ r.rest.length := by omega
      have first : read r = .ok (ofRecord r.rest) (r.advance recordSize here) :=
        Read.map_eq_ok.mpr ⟨_, Read.aligned_of_on here aligned,
          ofRecord_take (Nat.le_refl _)⟩
      obtain ⟨s, later⟩ := ih (r := r.advance recordSize here)
        (by simp only [Reader.advance, recordSize]; omega)
        (by simp only [Reader.advance, List.length_drop]; omega)
      refine ⟨s, ?_⟩
      rw [List.mapM_cons, Read.bind_of_ok first, Read.bind_of_ok later]
      rfl

end Symbol

namespace SymbolTable

variable {name : String} {data : Bytes}

theorem parse_of_whole (whole : data.length % 16 = 0) :
    parse name data = .ok ⟨data, Symbol.ofRecords (data.length / 16) data⟩ :=
  if_pos whole

theorem parse_of_partial (rest : data.length % 16 ≠ 0) :
    parse name data = .error (.symbolTableLength name data.length 16) :=
  if_neg rest

/-- The records of a whole table are read from its start, each at a multiple of four. -/
theorem runOn_mapM_read (whole : data.length % 16 = 0) :
    Read.runOn ((List.range (data.length / 16)).mapM fun _ => Symbol.read) data
      = .ok (Symbol.ofRecords (data.length / 16) data) := by
  obtain ⟨s, read⟩ := Symbol.mapM_read (List.range (data.length / 16))
    (r := .ofBytes data) rfl (by
      change 16 * _ ≤ data.length
      rw [List.length_range]
      omega)
  rw [List.length_range] at read
  exact Read.runOn_eq_ok_iff.mpr ⟨s, read⟩

/-- A symbol table is a whole number of records of sixteen bytes. Each is read, one behind the other, as
a symbol, and the symbols are put down again as the same records; the records of any symbols are the table
that has just these. -/
theorem parse_records (name : String) (data : Bytes) :
    (∀ symbol : Symbol, symbol.encode = littleEndian 4 symbol.nameOffset.toNat
      ++ littleEndian 4 symbol.value.toNat ++ littleEndian 4 symbol.size.toNat
      ++ [symbol.info] ++ [symbol.other] ++ littleEndian 2 symbol.sectionIndex.toNat) ∧
    ((∃ table, parse name data = .ok table) ↔ data.length % 16 = 0) ∧
    (data.length % 16 ≠ 0 → parse name data = .error (.symbolTableLength name data.length 16)) ∧
    (∀ table, parse name data = .ok table →
      table.data = data ∧ table.symbols.length = data.length / 16 ∧
      table.symbols.flatMap Symbol.encode = data ∧
      Read.runOn ((List.range (data.length / 16)).mapM fun _ => Symbol.read) data
        = .ok table.symbols) ∧
    ∀ symbols : List Symbol, parse name (symbols.flatMap Symbol.encode)
      = .ok ⟨symbols.flatMap Symbol.encode, symbols⟩ := by
  refine ⟨fun symbol => rfl, ⟨?whole, fun whole => ⟨_, parse_of_whole whole⟩⟩, parse_of_partial,
    ?decoded, ?encoded⟩
  case whole =>
    rintro ⟨table, read⟩
    by_contra rest
    cases read.symm.trans (parse_of_partial rest)
  case decoded =>
    intro table read
    by_cases whole : data.length % 16 = 0
    · cases read.symm.trans (parse_of_whole whole)
      refine ⟨rfl, Symbol.length_ofRecords _ _, Symbol.flatMap_encode_ofRecords ?_,
        runOn_mapM_read whole⟩
      rw [Symbol.recordSize]
      omega
    · cases read.symm.trans (parse_of_partial whole)
  case encoded =>
    intro symbols
    have length : (symbols.flatMap Symbol.encode).length = 16 * symbols.length :=
      Symbol.length_flatMap_encode symbols
    have count : (symbols.flatMap Symbol.encode).length / 16 = symbols.length := by omega
    rw [parse_of_whole (by omega), count, Symbol.ofRecords_flatMap_encode]

/-- Two records in which no two fields are alike, and the same bytes without the last one. -/
theorem parse_records_asymmetric :
    let data : Bytes := [1, 2, 3, 4, 5, 6, 7, 8, 9, 10, 11, 12, 13, 14, 15, 16,
      0xff, 0, 0, 0, 0, 0xff, 0, 0, 0, 0, 0xff, 0, 0x12, 3, 0xf1, 0xff]
    let symbols : List Symbol := [⟨0x04030201, 0x08070605, 0x0c0b0a09, 13, 14, 0x100f⟩,
      ⟨0xff, 0xff00, 0xff0000, 0x12, 3, 0xfff1⟩]
    parse ".symtab" data = .ok ⟨data, symbols⟩ ∧ symbols.flatMap Symbol.encode = data ∧
      parse ".symtab" data.dropLast = .error (.symbolTableLength ".symtab" 31 16) := by
  intro data symbols
  have encoded : symbols.flatMap Symbol.encode = data := rfl
  obtain ⟨-, -, -, -, again⟩ := parse_records ".symtab" data
  obtain ⟨-, -, refused, -⟩ := parse_records ".symtab" data.dropLast
  exact ⟨encoded ▸ again symbols, encoded, refused (by decide)⟩

end SymbolTable

end DspFirmware.Elf

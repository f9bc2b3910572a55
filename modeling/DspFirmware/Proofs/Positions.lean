import DspFirmware.Proofs.Operations
import DspFirmware.Proofs.Streaming

/-!
Where operations leave a reader, after any others and on any bytes. The reader never leaves the bytes. A
success has read what stood at the old position and nothing else. A failure has moved nothing, apart from a
number that was given up and a record that was read before its place was refused.
-/

namespace DspFirmware

/-- A symbol is put down as the record it was read from. -/
theorem Elf.Symbol.encode_ofRecord {record : Bytes} (length : record.length = recordSize) :
    (ofRecord record).encode = record := by
  have size : record.length = 16 := length
  have part {offset width : Nat} (inside : offset + width ≤ 16) :
      ((record.drop offset).take width).length = width := by
    rw [List.length_take, List.length_drop]
    omega
  simp only [encode, ofRecord, Bytes.field]
  rw [Bytes.ofUInt32_ofLittleEndian (part (by decide)), Bytes.ofUInt32_ofLittleEndian (part (by decide)),
    Bytes.ofUInt32_ofLittleEndian (part (by decide)), Bytes.ofUInt8_ofLittleEndian (part (by decide)),
    Bytes.ofUInt8_ofLittleEndian (part (by decide)), Bytes.ofUInt16_ofLittleEndian (part (by decide))]
  simp only [List.drop_zero, ← List.take_add]
  exact List.take_of_length_le size.le

namespace Read

variable {address : UInt64} {r : Reader} {alignment count : Nat}

theorem record_of_short (short : r.rest.length < count) :
    record address alignment count r = .error (r.outOfBounds r.pos count) r := by
  change (bytes count >>= _) r = _
  rw [bind_of_error (bytes_of_lt short)]

theorem record_of_off (enough : count ≤ r.rest.length)
    (off : (address.toNat + r.pos) % alignment ≠ 0) :
    record address alignment count r
      = .error (r.outOfBounds r.pos count) (r.advance count enough) := by
  change (bytes count >>= _) r = _
  rw [bind_of_ok (bytes_of_le enough)]
  simp only [if_pos off]
  rfl

theorem record_of_on (enough : count ≤ r.rest.length)
    (on : (address.toNat + r.pos) % alignment = 0) :
    record address alignment count r = .ok (r.rest.take count) (r.advance count enough) := by
  change (bytes count >>= _) r = _
  rw [bind_of_ok (bytes_of_le enough)]
  simp only [if_neg (not_not_intro on)]
  rfl

/-- What is aligned in itself is so behind address zero. -/
theorem record_zero (alignment count : Nat) : record 0 alignment count = aligned alignment count :=
  record_eq_aligned (Nat.dvd_zero alignment) count

/-- Every address is a multiple of one. -/
theorem record_one (count : Nat) : record 0 1 count = bytes count := by
  funext r
  by_cases enough : count ≤ r.rest.length
  · rw [record_of_on enough (Nat.mod_one _), bytes_of_le enough]
  · have short := Nat.lt_of_not_le enough
    rw [record_of_short short, bytes_of_lt short]

theorem aligned_of_on (enough : count ≤ r.rest.length) (on : r.pos % alignment = 0) :
    aligned alignment count r = .ok (r.rest.take count) (r.advance count enough) := by
  rw [← record_zero]
  exact record_of_on enough ((Nat.zero_add r.pos).symm ▸ on)

theorem skip_eq (count : Nat) : skip count = (fun _ => ()) <$> bytes count := bind_pure_comp _ _

end Read

namespace Operation

/-- The number of bytes an operation asks for, wherever they are. -/
def asks? : Operation → Option Nat
  | word number => some number.width.toNat
  | bytes count | array count | skip count => some count.toNat
  | peek => some 1
  | record _ _ _ | symbol | seek _ | text | unsigned | signed => none

/-- The answer that an operation finds in a run of bytes. -/
def Finds (run : Bytes) (answer : Answer) : Operation → Prop
  | word number =>
      ∃ value : Value, value.kind = number.kind ∧ value.encode = run ∧ answer = .value value
  | bytes count | array count | record _ _ count =>
      run.length = count.toNat ∧ answer = .value (.bytes run)
  | symbol => ∃ symbol : Elf.Symbol, symbol.encode = run ∧ answer = .symbol symbol
  | skip count => run.length = count.toNat ∧ answer = .done
  | seek _ | peek => False
  | text => ∃ name, 0 ∉ name ∧ run = name ++ [0] ∧ answer = .value (.text (Text.latin1 name))
  | unsigned => ∃ front last, Leb128.Continued front ∧ last.toNat < 128 ∧ run = front ++ [last] ∧
      ∃ number : UInt64, number.toNat = Leb128.unsignedNumber run ∧ answer = .value (.unsigned number)
  | signed => ∃ front last, Leb128.Continued front ∧ last.toNat < 128 ∧ run = front ++ [last] ∧
      answer = .value (.signed (.ofInt (Leb128.signedNumber front last)))

/-- The answer that an operation finds in the bytes between two positions. -/
def Takes (data : Bytes) (start stop : Nat) (answer : Answer) (operation : Operation) : Prop :=
  ∃ run rest, data.drop start = run ++ rest ∧ stop = start + run.length ∧ operation.Finds run answer

/-- A success between two positions of bytes that begin at an address. A record starts at an address on
its alignment, and a symbol at a multiple of four. -/
def Succeeds (address : UInt64) (data : Bytes) (start stop : Nat) (answer : Answer) : Operation → Prop
  | seek pos => stop = pos.toNat ∧ answer = .done
  | peek => stop = start ∧ ∃ byte, data[start]? = some byte ∧ answer = .value (.uint8 byte)
  | record alignment divides count =>
      (address.toNat + start) % alignment = 0
        ∧ (record alignment divides count).Takes data start stop answer
  | symbol => start % 4 = 0 ∧ symbol.Takes data start stop answer
  | operation => operation.Takes data start stop answer

/-- A failure between two positions of bytes that begin at an address. Records and symbols that are there
are passed before they are refused, whatever their alignment. -/
def Fails (address : UInt64) (data : Bytes) (start stop : Nat) (cause : Fault) : Operation → Prop
  | seek pos => data.length < pos.toNat ∧ stop = start ∧ cause = .outOfBounds pos.toNat 0 data.length
  | text => 0 ∉ data.drop start ∧ stop = start ∧ cause = .unterminatedString start
  | unsigned | signed =>
      (Leb128.Continued (data.drop start) ∧ stop = data.length
        ∧ cause = .outOfBounds data.length 1 data.length)
      ∨ ∃ front byte rest, data.drop start = front ++ byte :: rest ∧ Leb128.Continued front
          ∧ stop = start + (front.length + 1) ∧ cause = .lebOverflow start
  | record alignment _ count =>
      cause = .outOfBounds start count.toNat data.length
        ∧ (data.length < start + count.toNat ∧ stop = start
          ∨ start + count.toNat ≤ data.length ∧ (address.toNat + start) % alignment ≠ 0
            ∧ stop = start + count.toNat)
  | symbol =>
      cause = .outOfBounds start 16 data.length
        ∧ (data.length < start + 16 ∧ stop = start
          ∨ start + 16 ≤ data.length ∧ start % 4 ≠ 0 ∧ stop = start + 16)
  | operation => ∃ count, operation.asks? = some count ∧ data.length < start + count ∧ stop = start
      ∧ cause = .outOfBounds start count data.length

/-- An outcome is a success or a failure of the operation. -/
def Meets (address : UInt64) (operation : Operation) (r : Reader) :
    EStateM.Result Fault Reader Answer → Prop
  | .ok answer s => operation.Succeeds address r.data r.pos s.pos answer
  | .error cause s => operation.Fails address r.data r.pos s.pos cause

variable {address : UInt64} {operation : Operation} {r : Reader}

/-- A record is read from all of its bytes, or there are fewer, or it is refused behind them for the
address it starts at. -/
theorem meets_record {base : UInt64} {alignment count : Nat} {f : Bytes → Answer}
    (success : ∀ run rest, r.data.drop r.pos = run ++ rest → run.length = count →
      (base.toNat + r.pos) % alignment = 0 →
      operation.Succeeds address r.data r.pos (r.pos + run.length) (f run))
    (failure : ∀ stop, (r.data.length < r.pos + count ∧ stop = r.pos
        ∨ r.pos + count ≤ r.data.length ∧ (base.toNat + r.pos) % alignment ≠ 0
          ∧ stop = r.pos + count) →
      operation.Fails address r.data r.pos stop (.outOfBounds r.pos count r.data.length)) :
    operation.Meets address r ((f <$> Read.record base alignment count) r) := by
  by_cases enough : count ≤ r.rest.length
  · by_cases on : (base.toNat + r.pos) % alignment = 0
    · have length : (r.rest.take count).length = count := List.length_take_of_le enough
      rw [Read.map_eq_ok.mpr ⟨_, Read.record_of_on enough on, rfl⟩]
      have found := success (r.rest.take count) (r.rest.drop count)
        (by rw [List.take_append_drop, r.rest_eq]) length on
      rwa [length] at found
    · rw [Read.map_eq_error (Read.record_of_off enough on)]
      exact failure _ (.inr ⟨Reader.pos_add_le enough, on, rfl⟩)
  · rw [Read.map_eq_error (Read.record_of_short (Nat.lt_of_not_le enough))]
    exact failure _ (.inl ⟨Reader.length_lt_pos_add enough, rfl⟩)

/-- As many bytes anywhere. -/
theorem meets_bytes {count : Nat} {f : Bytes → Answer}
    (success : ∀ run rest, r.data.drop r.pos = run ++ rest → run.length = count →
      operation.Succeeds address r.data r.pos (r.pos + run.length) (f run))
    (failure : r.data.length < r.pos + count →
      operation.Fails address r.data r.pos r.pos (.outOfBounds r.pos count r.data.length)) :
    operation.Meets address r ((f <$> Read.bytes count) r) := by
  rw [← Read.record_one]
  apply meets_record fun run rest split length _ => success run rest split length
  rintro stop (⟨short, rfl⟩ | ⟨_, off, _⟩)
  · exact failure short
  · exact absurd (Nat.mod_one _) off

theorem meets_peek (r : Reader) : peek.Meets address r (peek.perform address r) := by
  cases ahead : r.rest with
  | nil =>
      have refused : Read.peek r = .error (r.outOfBounds r.pos 1) r := by rw [Read.peek, ahead]
      have atEnd := r.length_rest
      rw [ahead, List.length_nil] at atEnd
      rw [perform, Read.map_eq_error refused]
      exact ⟨1, rfl, by omega, rfl, rfl⟩
  | cons byte rest =>
      have seen : Read.peek r = .ok byte r := by rw [Read.peek, ahead]
      rw [perform, Read.map_eq_ok.mpr ⟨_, seen, rfl⟩]
      refine ⟨rfl, byte, ?_, rfl⟩
      have first : r.rest[0]? = some byte := by rw [ahead]; rfl
      rwa [r.rest_eq, List.getElem?_drop] at first

theorem meets_text (r : Reader) : text.Meets address r (text.perform address r) := by
  rw [perform, Value.Kind.read, Functor.map_map]
  by_cases found : (0 : UInt8) ∈ r.rest
  · obtain ⟨name, rest, split, nonzero⟩ := List.eq_append_cons_of_mem found
    have cut : Text.untilZero r.rest = name := by
      rw [split]
      exact Text.untilZero_append nonzero rest
    have read : Read.text r = .ok (Text.latin1 (Text.untilZero r.rest)) (r.advance _ _) := dif_pos found
    subst cut
    rw [Read.map_eq_ok.mpr ⟨_, read, rfl⟩]
    refine ⟨Text.untilZero r.rest ++ [0], rest, ?ahead, ?stop, _, nonzero, rfl, rfl⟩
    case ahead => rw [← r.rest_eq, List.append_assoc, List.singleton_append, ← split]
    case stop =>
      rw [List.length_append]
      rfl
  · have refused : Read.text r = .error (.unterminatedString r.pos) r := dif_neg found
    rw [Read.map_eq_error refused]
    exact ⟨r.rest_eq ▸ found, rfl, rfl⟩

/-- What is read by a scan ends at a last byte, or it is given up where the scan has stopped. -/
theorem meets_scanned {scan : Bytes → Leb128.Scan α}
    {within : ∀ bytes, (scan bytes).Within bytes.length} {f : α → Answer}
    (stops : ∀ bytes, (scan bytes).Stops bytes 0)
    (success : ∀ front last rest number, r.data.drop r.pos = front ++ last :: rest →
      Leb128.Continued front → last.toNat < 128 →
      scan (front ++ last :: rest) = .value number (0 + (front.length + 1)) →
      operation.Succeeds address r.data r.pos (r.pos + (front.length + 1)) (f number))
    (failure : ∀ stop cause,
      ((Leb128.Continued (r.data.drop r.pos) ∧ stop = r.data.length
          ∧ cause = .outOfBounds r.data.length 1 r.data.length)
        ∨ ∃ front byte rest, r.data.drop r.pos = front ++ byte :: rest ∧ Leb128.Continued front
            ∧ stop = r.pos + (front.length + 1) ∧ cause = .lebOverflow r.pos) →
      operation.Fails address r.data r.pos stop cause) :
    operation.Meets address r ((f <$> Read.scanned scan within) r) := by
  have stopped := stops r.rest
  cases found : scan r.rest with
  | value number total =>
      rw [found] at stopped
      obtain ⟨front, last, rest, split, continued, final, rfl⟩ := stopped
      obtain ⟨enough, read⟩ : ∃ _, Read.scanned scan within r = _ := Read.scanned_of_value found
      rw [Read.map_eq_ok.mpr ⟨_, read, rfl⟩]
      rw [split] at found
      rw [r.rest_eq] at split
      have reached := success front last rest number split continued final found
      rwa [← Nat.zero_add (front.length + 1)] at reached
  | overflow total =>
      rw [found] at stopped
      obtain ⟨front, byte, rest, split, continued, rfl⟩ := stopped
      obtain ⟨enough, read⟩ : ∃ _, Read.scanned scan within r = _ := Read.scanned_of_overflow found
      rw [Read.map_eq_error read]
      rw [r.rest_eq] at split
      refine failure _ _ (.inr ⟨front, byte, rest, split, continued, ?_, rfl⟩)
      exact congrArg (r.pos + ·) (Nat.zero_add _)
  | truncated =>
      rw [found] at stopped
      rw [Read.map_eq_error (Read.scanned_of_truncated found)]
      exact failure _ _ (.inl ⟨r.rest_eq ▸ stopped, rfl, rfl⟩)

/-- What an operation does is a success or a failure of it. -/
theorem meets (address : UInt64) (operation : Operation) (r : Reader) :
    operation.Meets address r (operation.perform address r) := by
  cases operation with
  | word number =>
      rw [perform, number.read_eq, Functor.map_map]
      apply meets_bytes
      · intro run rest split length
        exact ⟨run, rest, split, rfl, number.ofBytes run, number.kind_ofBytes run,
          number.encode_ofBytes length, rfl⟩
      · exact fun short => ⟨_, rfl, short, rfl, rfl⟩
  | bytes count =>
      rw [perform, Value.Kind.read, Functor.map_map]
      apply meets_bytes
      · exact fun run rest split length => ⟨run, rest, split, rfl, length, rfl⟩
      · exact fun short => ⟨_, rfl, short, rfl, rfl⟩
  | array count =>
      rw [perform_array]
      apply meets_bytes
      · exact fun run rest split length => ⟨run, rest, split, rfl, length, rfl⟩
      · exact fun short => ⟨_, rfl, short, rfl, rfl⟩
  | record alignment divides count =>
      apply meets_record
      · exact fun run rest split length on => ⟨on, run, rest, split, rfl, length, rfl⟩
      · exact fun stop reason => ⟨rfl, reason⟩
  | symbol =>
      rw [perform, Elf.Symbol.read, ← Read.record_zero, Functor.map_map]
      have here : (0 : UInt64).toNat + r.pos = r.pos := Nat.zero_add r.pos
      apply meets_record
      · intro run rest split length on
        rw [here] at on
        exact ⟨on, run, rest, split, rfl, _, Elf.Symbol.encode_ofRecord length, rfl⟩
      · intro stop reason
        rw [here] at reason
        exact ⟨rfl, reason⟩
  | skip count =>
      rw [perform, Read.skip_eq, Functor.map_map]
      apply meets_bytes
      · exact fun run rest split length => ⟨run, rest, split, rfl, length, rfl⟩
      · exact fun short => ⟨_, rfl, short, rfl, rfl⟩
  | seek pos =>
      by_cases inside : pos.toNat ≤ r.data.length
      · rw [perform, Read.map_eq_ok.mpr ⟨_, Read.seek_of_le inside, rfl⟩]
        exact ⟨rfl, rfl⟩
      · have beyond := Nat.lt_of_not_le inside
        rw [perform, Read.map_eq_error (Read.seek_of_lt beyond)]
        exact ⟨beyond, rfl, rfl⟩
  | peek => exact meets_peek r
  | text => exact meets_text r
  | unsigned =>
      rw [perform, Value.Kind.read, Read.uleb128, Functor.map_map, Functor.map_map]
      apply meets_scanned fun bytes => Leb128.unsigned_stops 0 0 bytes
      · intro front last rest number split continued final found
        obtain ⟨rfl, fits⟩ := Leb128.unsigned_eq_value continued final found
        refine ⟨front ++ [last], rest, by simp [split], by simp, front, last, continued, final, rfl,
          _, UInt64.toNat_ofNat_of_lt' fits, rfl⟩
      · exact fun _ _ reason => reason
  | signed =>
      rw [perform, Value.Kind.read, Read.sleb128, Functor.map_map]
      apply meets_scanned fun bytes => Leb128.signed_stops 0 0 bytes
      · intro front last rest number split continued final found
        obtain rfl := Leb128.signed_eq_value continued final found
        exact ⟨front ++ [last], rest, by simp [split], by simp, front, last, continued, final, rfl, rfl⟩
      · exact fun _ _ reason => reason

/-- After any operations, failing ones among them, the next one finds the reader inside the bytes and
leaves it there. A success has returned what stood at the old position, and has moved by its bytes, or
where it was told to. A failure has not moved, unless it has given up a number, behind the last byte it
looked at, or refused a record that is there for the address it starts at, behind that record. On words
that may not wrap, and slices that may not leave the bytes, all of it is the same. -/
theorem stays_inside (buffer : Buffer) (operations : List Operation) (operation : Operation) :
    let data := buffer.data
    let r := leaveAll buffer.address operations (.ofBytes data)
    r.data = data ∧ r.pos ≤ data.length
      ∧ run? operations (buffer.place 0) = some (buffer.place r.pos)
      ∧ ((∃ answer s, operation.perform buffer.address r = .ok answer s
            ∧ operation.move (buffer.place r.pos) = .ok answer (buffer.place s.pos)
            ∧ s.data = data ∧ s.pos ≤ data.length
            ∧ operation.Succeeds buffer.address data r.pos s.pos answer)
        ∨ ∃ cause s, operation.perform buffer.address r = .error cause s
            ∧ operation.move (buffer.place r.pos) = .error (.fault cause) (buffer.place s.pos)
            ∧ s.data = data ∧ s.pos ≤ data.length
            ∧ operation.Fails buffer.address data r.pos s.pos cause) := by
  intro data r
  obtain ⟨same, ran⟩ := run?_place (show (Reader.ofBytes data).data = buffer.data from rfl) operations
  have here : r.data = data := same
  refine ⟨here, here ▸ r.pos_le, ran, ?_⟩
  have outcome := operation.simulates here
  have met := operation.meets buffer.address r
  generalize operation.move (buffer.place r.pos) = left at outcome ⊢
  generalize operation.perform buffer.address r = right at outcome met ⊢
  cases outcome with
  | @ok answer s kept =>
      have still : s.data = data := kept
      have found : operation.Succeeds buffer.address r.data r.pos s.pos answer := met
      exact .inl ⟨answer, s, rfl, rfl, still, still ▸ s.pos_le, here ▸ found⟩
  | @error cause s kept =>
      have still : s.data = data := kept
      have failed : operation.Fails buffer.address r.data r.pos s.pos cause := met
      exact .inr ⟨cause, s, rfl, rfl, still, still ▸ s.pos_le, here ▸ failed⟩

/-- Records that are refused are passed, and symbols are not the only ones. One of sixteen bytes and
alignment four is refused at the third byte, as a symbol is there. One of eight bytes and alignment eight
is refused at the first, as the bytes begin at a multiple of four only. -/
theorem record_moves_where_refused :
    let buffer : Buffer := ⟨0x1004, List.replicate 20 0x80, by decide, by decide⟩
    let r := leaveAll buffer.address [.seek 2] (.ofBytes buffer.data)
    r.pos = 2
      ∧ (∃ s, (record 4 (by decide) 16).perform buffer.address r = .error (.outOfBounds 2 16 20) s
        ∧ s.pos = 18)
      ∧ (record 4 (by decide) 16).move (buffer.place 2)
        = .error (.fault (.outOfBounds 2 16 20)) (buffer.place 18)
      ∧ (∃ s, (record 8 (by decide) 8).perform buffer.address (.ofBytes buffer.data)
          = .error (.outOfBounds 0 8 20) s
        ∧ s.pos = 8)
      ∧ (record 8 (by decide) 8).move (buffer.place 0)
        = .error (.fault (.outOfBounds 0 8 20)) (buffer.place 8) :=
  ⟨rfl, ⟨_, rfl, rfl⟩, rfl, ⟨_, rfl, rfl⟩, rfl⟩

/-- Too many bytes, a place behind the end, a symbol off its alignment, and a number without a last byte. -/
example :
    let data : Bytes := List.replicate 20 0x80
    let positions (operations : List Operation) := (leaveAll 0x1004 operations (.ofBytes data)).pos
    positions [.bytes 0xffffffffffffffff] = 0
      ∧ positions [.seek 2, .seek 0xffffffffffffffff] = 2
      ∧ positions [.seek 2, .symbol] = 18
      ∧ positions [.seek 2, .symbol, .unsigned] = 20 := by
  decide +kernel

end Operation

end DspFirmware

import DspFirmware.Proofs.Cursor
import DspFirmware.Proofs.UnsignedLeb128

/-!
What a cursor does in a buffer is what reading does. No operation of it panics there, whatever its
argument: every sum that could leave the words is compared with the end first.
-/

namespace DspFirmware

namespace Read

/-- Reads a record of `count` bytes in bytes that begin at an address. The record has to start at an
address that is a multiple of `alignment`, and is read over before it is refused elsewhere. -/
def record (address : UInt64) (alignment count : Nat) : Read Bytes := do
  let start := (← get).pos
  let run ← bytes count
  if (address.toNat + start) % alignment ≠ 0 then
    throw ((← get).outOfBounds start count)
  return run

/-- Behind an address on the alignment it is the position that has to be a multiple of it. -/
theorem record_eq_aligned {address : UInt64} {alignment : Nat} (divides : alignment ∣ address.toNat)
    (count : Nat) : record address alignment count = aligned alignment count := by
  obtain ⟨factor, whole⟩ := divides
  simp only [record, aligned, whole, Nat.mul_add_mod]

end Read

namespace Move

/-- An outcome on a cursor, and the same outcome of reading. -/
inductive Matches (buffer : Buffer) :
    EStateM.Result Halt Cursor α → EStateM.Result Fault Reader α → Prop where
  | ok {answer : α} {s : Reader} (same : s.data = buffer.data) :
      Matches buffer (.ok answer (buffer.place s.pos)) (.ok answer s)
  | error {cause : Fault} {s : Reader} (same : s.data = buffer.data) :
      Matches buffer (.error (.fault cause) (buffer.place s.pos)) (.error cause s)

/-- The operation does what reading does, in every buffer and at every place of it. -/
def Simulates (move : Move α) (operation : Read α) : Prop :=
  ∀ ⦃buffer r⦄, r.data = buffer.data → Matches buffer (move (buffer.place r.pos)) (operation r)

theorem simulates_pure (value : α) : Simulates (pure value) (pure value) := fun _ _ same => .ok same

theorem Matches.bind {buffer : Buffer} {r : Reader} {move : Move α} {next : α → Move β}
    {operation : Read α} {further : α → Read β}
    (first : Matches buffer (move (buffer.place r.pos)) (operation r))
    (second : ∀ value s, operation r = .ok value s → s.data = buffer.data →
      Matches buffer (next value (buffer.place s.pos)) (further value s)) :
    Matches buffer ((move >>= next) (buffer.place r.pos)) ((operation >>= further) r) := by
  change Matches _ (EStateM.bind move next _) (EStateM.bind operation further r)
  rw [EStateM.bind, EStateM.bind]
  generalize move (buffer.place r.pos) = left at first ⊢
  generalize operation r = right at first second ⊢
  cases first with
  | ok here => exact second _ _ rfl here
  | error here => exact .error here

theorem Simulates.bind {move : Move α} {next : α → Move β} {operation : Read α} {further : α → Read β}
    (first : Simulates move operation) (second : ∀ value, Simulates (next value) (further value)) :
    Simulates (move >>= next) (operation >>= further) :=
  fun _ _ same => (first same).bind fun value _ _ here => second value here

theorem Matches.map {buffer : Buffer} {r : Reader} {move : Move α} {operation : Read α} {f : α → β}
    (h : Matches buffer (move (buffer.place r.pos)) (operation r)) :
    Matches buffer ((f <$> move) (buffer.place r.pos)) ((f <$> operation) r) := by
  rw [← bind_pure_comp, ← bind_pure_comp]
  exact h.bind fun _ _ _ here => .ok here

theorem Simulates.map {move : Move α} {operation : Read α} {f : α → β} (h : Simulates move operation) :
    Simulates (f <$> move) (f <$> operation) :=
  fun _ _ same => (h same).map

section base

variable {buffer : Buffer} {r : Reader} {pos : Nat} {count : UInt64}

theorem add?_of_inside (inside : pos + count.toNat ≤ buffer.data.length) :
    add? (.ofNat pos) count = some (.ofNat (pos + count.toNat)) := by
  have here : (UInt64.ofNat pos).toNat = pos := buffer.toNat_ofNat (by omega)
  have fits := Nat.lt_of_le_of_lt inside buffer.length_lt
  rw [add?, here, if_pos fits, UInt64.ofNat_add, UInt64.ofNat_toNat]

/-- Two numbers with a place of the buffer for their sum. -/
theorem add?_ofNat {count : Nat} (inside : pos + count ≤ buffer.data.length) :
    add? (.ofNat pos) (.ofNat count) = some (.ofNat (pos + count)) := by
  have same : (UInt64.ofNat count).toNat = count := buffer.toNat_ofNat (by omega)
  rw [add?_of_inside (same.symm ▸ inside), same]

/-- A sum that is no place of the buffer is found out, whether it is a word or not. -/
theorem filter_add?_of_outside (here : pos ≤ buffer.data.length)
    (outside : buffer.data.length < pos + count.toNat) :
    (add? (.ofNat pos) count).filter (· ≤ buffer.size) = none := by
  rw [add?, buffer.toNat_ofNat here]
  split
  · rename_i fits
    have sum : (UInt64.ofNat pos + count).toNat = pos + count.toNat := by
      rw [UInt64.toNat_add, buffer.toNat_ofNat here, Nat.mod_eq_of_lt fits]
    rw [Option.filter_some, if_neg]
    rw [decide_eq_true_iff, UInt64.le_iff_toNat_le, sum, buffer.toNat_size]
    omega
  · rfl

theorem filter_add?_of_inside (inside : pos + count.toNat ≤ buffer.data.length) :
    (add? (.ofNat pos) count).filter (· ≤ buffer.size) = some (.ofNat (pos + count.toNat)) := by
  rw [add?_of_inside inside, Option.filter_some, if_pos]
  rwa [decide_eq_true_iff, UInt64.le_iff_toNat_le, buffer.toNat_ofNat inside, buffer.toNat_size]

theorem slice?_ofNat {bytes : Bytes} {first last : Nat} (fits : bytes.length < UInt64.size)
    (order : first ≤ last) (inside : last ≤ bytes.length) :
    slice? bytes (.ofNat first) (.ofNat last) = some ((bytes.drop first).take (last - first)) := by
  have low : (UInt64.ofNat first).toNat = first := UInt64.toNat_ofNat_of_lt' (by omega)
  have high : (UInt64.ofNat last).toNat = last := UInt64.toNat_ofNat_of_lt' (by omega)
  have le : UInt64.ofNat first ≤ UInt64.ofNat last := by
    rwa [UInt64.le_iff_toNat_le, low, high]
  rw [slice?, high, if_pos ⟨le, inside⟩, UInt64.toNat_sub_of_le _ _ le, low, high]

theorem simulates_bytes (count : UInt64) : Simulates (bytes count) (Read.bytes count.toNat) := by
  intro buffer r same
  have here : r.pos ≤ buffer.data.length := same ▸ r.pos_le
  have ahead := r.length_rest
  rw [same] at ahead
  by_cases enough : count.toNat ≤ r.rest.length
  · have inside : r.pos + count.toNat ≤ buffer.data.length := by omega
    have taken := slice?_ofNat buffer.length_lt (Nat.le_add_right r.pos count.toNat) inside
    rw [Read.bytes_of_le enough,
      bytes_of_inside (c := buffer.place r.pos) (filter_add?_of_inside inside), Buffer.place, taken,
      Nat.add_sub_cancel_left, ← same, ← r.rest_eq]
    exact .ok (s := r.advance count.toNat enough) same
  · have outside : buffer.data.length < r.pos + count.toNat := by omega
    rw [Read.bytes_of_lt (Nat.lt_of_not_le enough),
      bytes_of_outside (c := buffer.place r.pos) (filter_add?_of_outside here outside),
      Buffer.pos_place, buffer.toNat_ofNat here, Buffer.place, ← same]
    exact .error same

theorem simulates_skip (count : UInt64) : Simulates (skip count) (Read.skip count.toNat) :=
  (simulates_bytes count).bind fun _ => simulates_pure ()

/-- An array of as many bytes as are read takes them. -/
theorem simulates_array (count : UInt64) : Simulates (array count) (Read.bytes count.toNat) := by
  intro buffer r same
  rw [← bind_pure (Read.bytes count.toNat)]
  refine (simulates_bytes count same).bind fun run s read here => ?_
  have full : run.length = count.toNat := by
    by_cases enough : count.toNat ≤ r.rest.length
    · rw [Read.bytes_of_le enough] at read
      cases read
      exact List.length_take_of_le enough
    · rw [Read.bytes_of_lt (Nat.lt_of_not_le enough)] at read
      cases read
  rw [if_neg (not_not_intro full)]
  exact .ok here

/-- An address that wraps leaves the same remainder by an alignment. -/
theorem address_mod {alignment : Nat} (divides : alignment ∣ UInt64.size)
    (here : pos ≤ buffer.data.length) :
    (buffer.address + .ofNat pos).toNat % alignment = (buffer.address.toNat + pos) % alignment := by
  rw [UInt64.toNat_add, buffer.toNat_ofNat here, Nat.mod_mod_of_dvd _ divides]

theorem matches_record {alignment : Nat} (divides : alignment ∣ UInt64.size) (count : UInt64)
    (same : r.data = buffer.data) :
    Matches buffer (record alignment count (buffer.place r.pos))
      (Read.record buffer.address alignment count.toNat r) := by
  have start : r.pos ≤ buffer.data.length := same ▸ r.pos_le
  refine Matches.bind (simulates_bytes count same) fun run s _ here => ?_
  change Matches buffer
    ((if (buffer.address + .ofNat r.pos).toNat % alignment ≠ 0 then _ else _ : Move Bytes) _)
    ((if (buffer.address.toNat + r.pos) % alignment ≠ 0 then _ else _ : Read Bytes) _)
  rw [address_mod divides start]
  split
  · change Matches buffer (.error (.fault (.outOfBounds (UInt64.ofNat r.pos).toNat _ buffer.data.length)) _)
      (.error (.outOfBounds r.pos _ s.data.length) s)
    rw [buffer.toNat_ofNat start, here]
    exact .error here
  · exact .ok here

theorem remaining_place (same : r.data = buffer.data) :
    remaining (buffer.place r.pos) = .ok r.rest (buffer.place r.pos) := by
  have here : r.pos ≤ buffer.data.length := same ▸ r.pos_le
  have first : min (UInt64.ofNat r.pos) buffer.size = UInt64.ofNat r.pos := by
    rw [UInt64.min_def, if_pos]
    rwa [UInt64.le_iff_toNat_le, buffer.toNat_ofNat here, buffer.toNat_size]
  have taken : slice? buffer.data (min (UInt64.ofNat r.pos) buffer.size) buffer.size = some r.rest := by
    rw [first, Buffer.size, slice?_ofNat buffer.length_lt here (Nat.le_refl _), r.rest_eq, same,
      List.take_of_length_le (by simp)]
  change demand (slice? buffer.data (min (UInt64.ofNat r.pos) buffer.size) buffer.size) _ = _
  rw [taken]
  rfl

theorem simulates_seek (pos : UInt64) : Simulates (seek pos) (Read.seek pos.toNat) := by
  intro buffer r same
  change Matches buffer ((if buffer.size < pos then _ else _ : Move Unit) _) _
  have beyond : buffer.size < pos ↔ ¬pos.toNat ≤ r.data.length := by
    rw [UInt64.lt_iff_toNat_lt, buffer.toNat_size, same, Nat.not_le]
  by_cases inside : pos.toNat ≤ r.data.length
  · have moved : Matches buffer (.ok () (buffer.place pos.toNat)) (.ok () (r.moveTo pos.toNat inside)) :=
      .ok (s := r.moveTo pos.toNat inside) same
    rw [Buffer.place, UInt64.ofNat_toNat] at moved
    rw [if_neg (mt beyond.mp (not_not_intro inside)), Read.seek_of_le inside]
    exact moved
  · rw [if_pos (beyond.mpr inside), Read.seek_of_lt (Nat.lt_of_not_le inside),
      Reader.outOfBounds, same]
    exact .error same

theorem simulates_peek : Simulates peek Read.peek := by
  intro buffer r same
  change Matches _ (EStateM.bind remaining _ _) _
  rw [EStateM.bind, remaining_place same, Read.peek]
  cases r.rest with
  | nil =>
      change Matches buffer (.error (.fault (.outOfBounds (UInt64.ofNat r.pos).toNat 1 buffer.data.length)) _) _
      rw [buffer.toNat_ofNat (same ▸ r.pos_le), ← same]
      exact .error same
  | cons byte rest => exact .ok same

theorem findIdx?_zero (bytes : Bytes) :
    bytes.findIdx? (· == 0)
      = if 0 ∈ bytes then some (Text.untilZero bytes).length else none := by
  induction bytes with
  | nil => rfl
  | cons byte rest ih =>
      rw [List.findIdx?_cons, ih]
      by_cases zero : byte = 0
      · simp [zero, Text.untilZero]
      · have other : 0 ≠ byte := Ne.symm zero
        by_cases later : 0 ∈ rest
        · simp [zero, later, Text.untilZero]
        · simp [zero, other, later]

theorem slice?_untilZero (same : r.data = buffer.data) (found : 0 ∈ r.rest) :
    slice? r.rest 0 (.ofNat (Text.untilZero r.rest).length) = some (Text.untilZero r.rest) := by
  have fewer : r.rest.length < UInt64.size := by
    have ahead := r.length_rest
    rw [same] at ahead
    have fits := buffer.length_lt
    omega
  have taken := slice?_ofNat fewer (Nat.zero_le _) (Text.length_untilZero_lt found).le
  have front : r.rest.take (Text.untilZero r.rest).length = Text.untilZero r.rest :=
    (List.prefix_iff_eq_take.mp (List.takeWhile_prefix _)).symm
  rwa [List.drop_zero, Nat.sub_zero, front] at taken

theorem simulates_text : Simulates text Read.text := by
  intro buffer r same
  have here : r.pos ≤ buffer.data.length := same ▸ r.pos_le
  have ahead := r.length_rest
  rw [same] at ahead
  change Matches _ (EStateM.bind remaining _ _) _
  rw [EStateM.bind, remaining_place same, Read.text]
  simp only [findIdx?_zero]
  by_cases found : (0 : UInt8) ∈ r.rest
  · have shorter := Text.length_untilZero_lt found
    have inside : r.pos + ((Text.untilZero r.rest).length + 1) ≤ buffer.data.length := by omega
    have behind : add? (.ofNat (Text.untilZero r.rest).length) 1 = some (.ofNat (_ + 1)) :=
      add?_ofNat (Nat.le_trans (Nat.le_add_left _ _) inside)
    have stop : add? (.ofNat r.pos) (.ofNat ((Text.untilZero r.rest).length + 1)) = some (.ofNat _) :=
      add?_ofNat inside
    simp only [if_pos found, dif_pos found, slice?_untilZero same found, behind, stop,
      Buffer.pos_place, demand_some, pure_bind]
    exact .ok (s := r.advance _ shorter) same
  · rw [if_neg found, dif_neg found]
    change Matches buffer (.error (.fault (.unterminatedString (UInt64.ofNat r.pos).toNat)) _) _
    rw [buffer.toNat_ofNat here]
    exact .error same

end base

theorem simulates_word (width : UInt64) : Simulates (word width) (Read.word width.toNat) :=
  (simulates_array width).bind fun _ => simulates_pure _

theorem simulates_uint8 : Simulates uint8 Read.uint8 :=
  (simulates_word 1).bind fun _ => simulates_pure _

theorem simulates_uint16 : Simulates uint16 Read.uint16 :=
  (simulates_word 2).bind fun _ => simulates_pure _

theorem simulates_uint32 : Simulates uint32 Read.uint32 :=
  (simulates_word 4).bind fun _ => simulates_pure _

theorem simulates_uint64 : Simulates uint64 Read.uint64 :=
  (simulates_word 8).bind fun _ => simulates_pure _

theorem simulates_int8 : Simulates int8 Read.int8 := simulates_uint8.bind fun _ => simulates_pure _

theorem simulates_int16 : Simulates int16 Read.int16 := simulates_uint16.bind fun _ => simulates_pure _

theorem simulates_int32 : Simulates int32 Read.int32 := simulates_uint32.bind fun _ => simulates_pure _

theorem simulates_int64 : Simulates int64 Read.int64 := simulates_uint64.bind fun _ => simulates_pure _

theorem simulates_symbol : Simulates symbol Elf.Symbol.read := by
  intro buffer r same
  have divides : 4 ∣ buffer.address.toNat := Nat.dvd_of_mod_eq_zero buffer.aligned
  rw [Elf.Symbol.read, ← Read.record_eq_aligned divides]
  exact (matches_record (by decide) 16 same).map

section loop

variable {step : σ → UInt8 → Option (Leb128.Step σ α)} {state : σ} {start : UInt64} {c d : Cursor}

theorem loop_of_error {halt : Halt} (read : uint8 c = .error halt d) :
    loop step start state c = .error halt d := by
  rw [loop]
  split
  · rename_i same
    cases read.symm.trans same
    rfl
  · rename_i same
    cases read.symm.trans same

theorem loop_of_ok {byte : UInt8} (read : uint8 c = .ok byte d) :
    loop step start state c = match step state byte with
      | none => .error .panic d
      | some (.more next) => loop step start next d
      | some (.value number) => .ok number d
      | some .overflow => .error (.fault (.lebOverflow start.toNat)) d := by
  rw [loop]
  split
  · rename_i same
    cases read.symm.trans same
  · rename_i same
    cases read.symm.trans same
    rfl

end loop

/-- What a scan that began at `origin` comes to in a buffer. -/
def ended (buffer : Buffer) (origin : Nat) : Leb128.Scan α → EStateM.Result Halt Cursor α
  | .value number length => .ok number (buffer.place (origin + length))
  | .overflow length => .error (.fault (.lebOverflow origin)) (buffer.place (origin + length))
  | .truncated =>
      .error (.fault (.outOfBounds buffer.data.length 1 buffer.data.length))
        (buffer.place buffer.data.length)

/-- Byte by byte a cursor finds what the same steps find in the bytes ahead. -/
theorem loop_between {step : σ → UInt8 → Option (Leb128.Step σ α)} {state : σ} {scan : Leb128.Scan α}
    {buffer : Buffer} {passed ahead : Bytes} {origin length : Nat} (whole : passed ++ ahead = buffer.data)
    (here : passed.length = origin + length)
    (walked : Leb128.walk? step state length ahead = some scan) :
    loop step (.ofNat origin) state (buffer.place passed.length) = ended buffer origin scan := by
  induction ahead generalizing passed length state with
  | nil =>
      cases walked
      have outcome := simulates_uint8 (r := .between passed []) whole
      have last : passed.length = buffer.data.length := by rw [← whole, List.append_nil]
      rw [show Read.uint8 (.between passed [])
        = .error (.outOfBounds passed.length 1 (passed ++ []).length) (.between passed []) from rfl,
        whole, last] at outcome
      generalize read : uint8 _ = result at outcome
      cases outcome
      rw [Reader.pos_between, last] at read
      rw [last, loop_of_error read]
      rfl
  | cons byte rest ih =>
      have read : uint8 (buffer.place passed.length)
          = .ok byte (buffer.place (passed ++ [byte]).length) := by
        have outcome := simulates_uint8 (r := .between passed (byte :: rest)) whole
        rw [show Read.uint8 (.between passed (byte :: rest)) = _ from Read.yields_uint8 byte passed rest]
          at outcome
        generalize read : uint8 _ = result at outcome
        cases outcome
        exact read
      have behind : (passed ++ [byte]).length = origin + (length + 1) := by
        rw [List.length_append, here]
        rfl
      rw [Leb128.walk?] at walked
      rw [loop_of_ok read]
      cases stepped : step state byte with
      | none =>
          rw [stepped] at walked
          cases walked
      | some decision =>
          rw [stepped] at walked
          cases decision with
          | more next => exact ih (by simpa using whole) behind walked
          | value number =>
              cases walked
              rw [behind]
              rfl
          | overflow =>
              cases walked
              have start : (UInt64.ofNat origin).toNat = origin := by
                apply buffer.toNat_ofNat
                rw [← whole, List.length_append]
                omega
              simp only [start, behind]
              rfl

theorem simulates_leb128 {step : σ → UInt8 → Option (Leb128.Step σ α)} {state : σ}
    {scan : Bytes → Leb128.Scan β} {within : ∀ bytes, (scan bytes).Within bytes.length} {f : β → α}
    (walked : ∀ bytes, Leb128.walk? step state 0 bytes = some ((scan bytes).map f)) :
    Simulates (leb128 step state) (f <$> Read.scanned scan within) := by
  intro buffer r same
  have whole : r.data.take r.pos ++ r.rest = buffer.data := by
    rw [r.rest_eq, List.take_append_drop, same]
  have here : (r.data.take r.pos).length = r.pos + 0 := List.length_take_of_le r.pos_le
  have outcome := loop_between whole here (walked r.rest)
  rw [here, Nat.add_zero] at outcome
  change Matches buffer (loop step (.ofNat r.pos) state (buffer.place r.pos)) _
  rw [outcome]
  cases found : scan r.rest with
  | value number length =>
      obtain ⟨enough, read⟩ : ∃ _, Read.scanned scan within r = _ := Read.scanned_of_value found
      rw [Read.map_eq_ok.mpr ⟨number, read, rfl⟩]
      exact .ok (s := r.advance length enough) same
  | overflow length =>
      obtain ⟨enough, read⟩ : ∃ _, Read.scanned scan within r = _ := Read.scanned_of_overflow found
      rw [Read.map_eq_error read]
      exact .error (s := r.advance length enough) same
  | truncated =>
      rw [Read.map_eq_error (Read.scanned_of_truncated found), Reader.outOfBounds,
        Leb128.Scan.map, ended, ← same]
      exact .error (s := r.toEnd) same

theorem simulates_uleb128 : Simulates uleb128 Read.uleb128 :=
  simulates_leb128 (Leb128.WordSum.holds_start.walk?_unsigned (by decide))

theorem simulates_sleb128 : Simulates sleb128 Read.sleb128 := by
  rw [← id_map Read.sleb128]
  apply simulates_leb128
  intro bytes
  rw [Leb128.Scan.map_id]
  exact Leb128.WordSum.holds_start.walk?_signed bytes

end Move

end DspFirmware

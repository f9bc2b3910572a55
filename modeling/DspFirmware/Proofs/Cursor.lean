import DspFirmware.Elf.Symbol
import DspFirmware.Proofs.WordLeb128

/-!
Reading with a position that is a machine word. Nothing keeps such a position inside the byte string: a sum
may not be a word, and the ends of a slice may not be places of the string. Either is a panic.
-/

namespace DspFirmware

/-- A byte string in memory, at an address that is a multiple of four. -/
structure Buffer where
  address : UInt64
  data : Bytes
  aligned : address.toNat % 4 = 0
  length_lt : data.length < UInt64.size

/-- A buffer with a word for the position in it. -/
structure Cursor where
  buffer : Buffer
  pos : UInt64

/-- How an operation ends that returns nothing. -/
inductive Halt where
  | fault (cause : Fault)
  | panic

namespace Buffer

def size (buffer : Buffer) : UInt64 := UInt64.ofNat buffer.data.length

/-- The cursor at a place of the buffer. -/
def place (buffer : Buffer) (pos : Nat) : Cursor := ⟨buffer, UInt64.ofNat pos⟩

@[simp] theorem pos_place (buffer : Buffer) (pos : Nat) : (buffer.place pos).pos = .ofNat pos := rfl

variable {buffer : Buffer}

theorem toNat_ofNat {pos : Nat} (inside : pos ≤ buffer.data.length) : (UInt64.ofNat pos).toNat = pos :=
  UInt64.toNat_ofNat_of_lt' (Nat.lt_of_le_of_lt inside buffer.length_lt)

@[simp] theorem toNat_size : buffer.size.toNat = buffer.data.length := toNat_ofNat (Nat.le_refl _)

end Buffer

/-- An operation on a cursor. -/
abbrev Move := EStateM Halt Cursor

namespace Move

/-- The sum of two words, if it is a word. -/
def add? (first second : UInt64) : Option UInt64 :=
  if first.toNat + second.toNat < UInt64.size then some (first + second) else none

/-- The bytes between two places, if both are places of the string and in this order. -/
def slice? (bytes : Bytes) (first last : UInt64) : Option Bytes :=
  if first ≤ last ∧ last.toNat ≤ bytes.length then
    some ((bytes.drop first.toNat).take (last - first).toNat)
  else none

/-- What has no result is a panic. -/
def demand : Option α → Move α
  | some result => pure result
  | none => throw .panic

@[simp] theorem demand_some (result : α) : demand (some result) = pure result := rfl

def outOfBounds (offset count : UInt64) : Move α := do
  throw (.fault (.outOfBounds offset.toNat count.toNat (← get).buffer.data.length))

def bytes (count : UInt64) : Move Bytes := do
  let c ← get
  match (add? c.pos count).filter (· ≤ c.buffer.size) with
  | none => outOfBounds c.pos count
  | some stop =>
      let run ← demand (slice? c.buffer.data c.pos stop)
      set { c with pos := stop }
      return run

def skip (count : UInt64) : Move Unit := do
  let _ ← bytes count

/-- Reads into an array of `count` bytes, which takes neither fewer nor more. -/
def array (count : UInt64) : Move Bytes := do
  let run ← bytes count
  if run.length ≠ count.toNat then
    throw .panic
  return run

/-- Reads a record of `count` bytes in place, where its address has to be a multiple of `alignment`. -/
def record (alignment : Nat) (count : UInt64) : Move Bytes := do
  let start := (← get).pos
  let run ← bytes count
  if ((← get).buffer.address + start).toNat % alignment ≠ 0 then
    outOfBounds start count
  return run

/-- What lies ahead, and nothing behind the end. -/
def remaining : Move Bytes := do
  let c ← get
  demand (slice? c.buffer.data (min c.pos c.buffer.size) c.buffer.size)

def seek (pos : UInt64) : Move Unit := do
  if (← get).buffer.size < pos then
    outOfBounds pos 0
  modify fun c => { c with pos }

def peek : Move UInt8 := do
  match ← remaining with
  | [] => outOfBounds (← get).pos 1
  | byte :: _ => return byte

def text : Move String := do
  let start := (← get).pos
  let rest ← remaining
  match rest.findIdx? (· == 0) with
  | none => throw (.fault (.unterminatedString start.toNat))
  | some length =>
      let name ← demand (slice? rest 0 (.ofNat length))
      let behind ← demand (add? (.ofNat length) 1)
      let stop ← demand (add? start behind)
      modify fun c => { c with pos := stop }
      return Text.latin1 name

def word (width : UInt64) : Move Nat := do
  return (← array width).ofLittleEndian

def uint8 : Move UInt8 := do return UInt8.ofNat (← word 1)
def uint16 : Move UInt16 := do return UInt16.ofNat (← word 2)
def uint32 : Move UInt32 := do return UInt32.ofNat (← word 4)
def uint64 : Move UInt64 := do return UInt64.ofNat (← word 8)
def int8 : Move Int8 := do return (← uint8).toInt8
def int16 : Move Int16 := do return (← uint16).toInt16
def int32 : Move Int32 := do return (← uint32).toInt32
def int64 : Move Int64 := do return (← uint64).toInt64

def symbol : Move Elf.Symbol := Elf.Symbol.ofRecord <$> record 4 16

theorem bytes_of_outside {c : Cursor} {count : UInt64}
    (outside : (add? c.pos count).filter (· ≤ c.buffer.size) = none) :
    bytes count c
      = .error (.fault (.outOfBounds c.pos.toNat count.toNat c.buffer.data.length)) c := by
  change (match (add? c.pos count).filter (· ≤ c.buffer.size) with
    | none => outOfBounds c.pos count
    | some stop => _ : Move Bytes) c = _
  rw [outside]
  rfl

theorem bytes_of_inside {c : Cursor} {count stop : UInt64}
    (inside : (add? c.pos count).filter (· ≤ c.buffer.size) = some stop) :
    bytes count c = (do
      let run ← demand (slice? c.buffer.data c.pos stop)
      set { c with pos := stop }
      return run : Move Bytes) c := by
  change (match (add? c.pos count).filter (· ≤ c.buffer.size) with
    | none => outOfBounds c.pos count
    | some stop => _ : Move Bytes) c = _
  rw [inside]

/-- Bytes that are read take the cursor forward, and not out of the buffer. -/
theorem bytes_eq_ok {c d : Cursor} {count : UInt64} {run : Bytes} (read : bytes count c = .ok run d) :
    d.buffer = c.buffer ∧ d.pos.toNat = c.pos.toNat + count.toNat
      ∧ d.pos.toNat ≤ c.buffer.data.length := by
  cases sum : (add? c.pos count).filter (· ≤ c.buffer.size) with
  | none =>
      rw [bytes_of_outside sum] at read
      cases read
  | some stop =>
      rw [bytes_of_inside sum] at read
      obtain ⟨added, inside⟩ := Option.filter_eq_some_iff.mp sum
      cases taken : slice? c.buffer.data c.pos stop with
      | none =>
          rw [taken] at read
          cases read
      | some part =>
          rw [taken] at read
          cases read
          rw [add?] at added
          split at added
          · rename_i fits
            cases added
            rw [decide_eq_true_iff, UInt64.le_iff_toNat_le, Buffer.toNat_size] at inside
            refine ⟨rfl, ?_, inside⟩
            rw [UInt64.toNat_add, Nat.mod_eq_of_lt fits]
          · cases added

/-- A byte that is read is one byte less to read. -/
theorem uint8_shrinks {c d : Cursor} {byte : UInt8} (read : uint8 c = .ok byte d) :
    d.buffer.data.length - d.pos.toNat < c.buffer.data.length - c.pos.toNat := by
  simp only [uint8, word, array, bind, EStateM.bind] at read
  cases taken : bytes 1 c with
  | error halt e =>
      rw [taken] at read
      cases read
  | ok run e =>
      obtain ⟨same, moved, inside⟩ := bytes_eq_ok taken
      rw [taken] at read
      have last : d = e := by
        by_cases full : run.length ≠ (1 : UInt64).toNat
        · simp only [if_pos full] at read
          cases read
        · simp only [if_neg full] at read
          cases read
          rfl
      have one : (1 : UInt64).toNat = 1 := rfl
      rw [last, same]
      omega

/-- Reads byte by byte, for as long as a step asks for more. -/
def loop (step : σ → UInt8 → Option (Leb128.Step σ α)) (start : UInt64) (state : σ) : Move α := fun c =>
  match _read : uint8 c with
  | .error halt d => .error halt d
  | .ok byte d =>
      match step state byte with
      | none => .error .panic d
      | some (.more next) => loop step start next d
      | some (.value number) => .ok number d
      | some .overflow => .error (.fault (.lebOverflow start.toNat)) d
termination_by c => c.buffer.data.length - c.pos.toNat
decreasing_by exact uint8_shrinks _read

def leb128 (step : σ → UInt8 → Option (Leb128.Step σ α)) (state : σ) : Move α := do
  loop step (← get).pos state

def uleb128 : Move UInt64 := leb128 Leb128.WordSum.unsignedStep? .start
def sleb128 : Move Int64 := leb128 Leb128.WordSum.signedStep? .start

end Move

end DspFirmware

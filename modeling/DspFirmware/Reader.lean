import DspFirmware.Fault
import DspFirmware.Text.Latin1

/-!
Reading a byte string from front to back.

A `Reader` is a byte string with a position in it. An operation of type `Read α` either returns a
value and the reader behind what it read, or a fault and the reader where it failed. Except for
`seek`, no operation moves backwards, and none leaves the byte string.
-/

namespace DspFirmware

/-- A byte string with a position inside it or at its end. -/
@[ext]
structure Reader where
  data : Bytes
  pos : Nat
  /-- What lies between the position and the end. -/
  rest : Bytes
  rest_eq : rest = data.drop pos
  pos_le : pos ≤ data.length

/-- An operation on a reader. A failing operation leaves a reader too. -/
abbrev Read := EStateM Fault Reader

namespace Reader

def ofBytes (data : Bytes) : Reader := ⟨data, 0, data, rfl, Nat.zero_le _⟩

/-- The reader of the same byte string at another position. -/
def moveTo (r : Reader) (pos : Nat) (inside : pos ≤ r.data.length) : Reader :=
  ⟨r.data, pos, r.data.drop pos, rfl, inside⟩

theorem length_rest (r : Reader) : r.rest.length = r.data.length - r.pos := by
  rw [r.rest_eq, List.length_drop]

theorem pos_add_le {r : Reader} {count : Nat} (enough : count ≤ r.rest.length) :
    r.pos + count ≤ r.data.length := by
  have := r.pos_le
  rw [length_rest] at enough
  omega

def advance (r : Reader) (count : Nat) (enough : count ≤ r.rest.length) : Reader where
  data := r.data
  pos := r.pos + count
  rest := r.rest.drop count
  rest_eq := by rw [r.rest_eq, List.drop_drop]
  pos_le := pos_add_le enough

def toEnd (r : Reader) : Reader where
  data := r.data
  pos := r.data.length
  rest := []
  rest_eq := by simp
  pos_le := Nat.le_refl _

def atEnd (r : Reader) : Bool := r.rest.isEmpty

/-- The fault of an access of `count` bytes at `offset`. -/
def outOfBounds (r : Reader) (offset count : Nat) : Fault :=
  .outOfBounds offset count r.data.length

end Reader

namespace Read

open Reader

def bytes (count : Nat) : Read Bytes := fun r =>
  if enough : Bytes.holds count r.rest then
    .ok (r.rest.take count) (r.advance count (Bytes.holds_iff.mp enough))
  else .error (r.outOfBounds r.pos count) r

/-- Reads the next `count` bytes, with the knowledge that there are so many. -/
def block (count : Nat) : Read (Bytes.Block count) := fun r =>
  if enough : Bytes.holds count r.rest then
    .ok ⟨r.rest.take count, List.length_take_of_le (Bytes.holds_iff.mp enough)⟩
      (r.advance count (Bytes.holds_iff.mp enough))
  else .error (r.outOfBounds r.pos count) r

/-- A block is what the same number of bytes is. -/
theorem val_block (count : Nat) : Subtype.val <$> block count = bytes count := by
  funext r
  change EStateM.map Subtype.val (block count) r = bytes count r
  unfold EStateM.map block bytes
  split <;> rename_i taken <;> split at taken <;> cases taken <;> simp_all

def skip (count : Nat) : Read Unit := do
  let _ ← bytes count

/-- Moves to a position counted from the start. The end itself is a position. -/
def seek (pos : Nat) : Read Unit := fun r =>
  if inside : Bytes.holds pos r.data then
    .ok () (r.moveTo pos (Bytes.holds_iff.mp inside))
  else .error (r.outOfBounds pos 0) r

/-- Returns the next byte and stays in front of it. -/
def peek : Read UInt8 := fun r =>
  match r.rest with
  | [] => .error (r.outOfBounds r.pos 1) r
  | byte :: _ => .ok byte r

/-- Reads `width` bytes as a number, least significant byte first. -/
def word (width : Nat) : Read Nat := do
  return (← bytes width).ofLittleEndian

def uint8 : Read UInt8 := do return UInt8.ofNat (← word 1)
def uint16 : Read UInt16 := do return UInt16.ofNat (← word 2)
def uint32 : Read UInt32 := do return UInt32.ofNat (← word 4)
def uint64 : Read UInt64 := do return UInt64.ofNat (← word 8)
def int8 : Read Int8 := do return (← uint8).toInt8
def int16 : Read Int16 := do return (← uint16).toInt16
def int32 : Read Int32 := do return (← uint32).toInt32
def int64 : Read Int64 := do return (← uint64).toInt64

/-- Reads a text up to and with its terminating zero byte. -/
def text : Read String := fun r =>
  if found : (0 : UInt8) ∈ r.rest then
    .ok (Text.latin1 (Text.untilZero r.rest))
      (r.advance ((Text.untilZero r.rest).length + 1) (Text.length_untilZero_lt found))
  else .error (.unterminatedString r.pos) r

/-- Reads a record of `count` bytes that has to start at a multiple of `alignment`. A record that
is there but starts elsewhere is read over before it is refused. -/
def aligned (alignment count : Nat) : Read Bytes := do
  let start := (← get).pos
  let record ← bytes count
  if start % alignment ≠ 0 then
    throw ((← get).outOfBounds start count)
  return record

/-- Runs an operation from the start of a byte string and keeps only its answer. -/
def runOn (operation : Read α) (data : Bytes) : Except Fault α :=
  match operation (ofBytes data) with
  | .ok answer _ => .ok answer
  | .error fault _ => .error fault

end Read

end DspFirmware

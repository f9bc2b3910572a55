import DspFirmware.Value
import DspFirmware.Proofs.Fields
import DspFirmware.Proofs.Simulation

/-!
What a reader can be told to do, as data, and sequences of it. An operation that fails does not end a
sequence: the next one goes on from where the reader was left. Cursors keep up with readers all the way.
-/

namespace DspFirmware

/-- The numbers of a fixed width. -/
inductive Number where
  | uint8
  | uint16
  | uint32
  | uint64
  | int8
  | int16
  | int32
  | int64
  deriving DecidableEq, Repr

namespace Number

def kind : Number → Value.Kind
  | uint8 => .uint8
  | uint16 => .uint16
  | uint32 => .uint32
  | uint64 => .uint64
  | int8 => .int8
  | int16 => .int16
  | int32 => .int32
  | int64 => .int64

def width : Number → UInt64
  | uint8 | int8 => 1
  | uint16 | int16 => 2
  | uint32 | int32 => 4
  | uint64 | int64 => 8

/-- The value in some bytes. -/
def ofBytes (number : Number) (run : Bytes) : Value :=
  let word := run.ofLittleEndian
  match number with
  | uint8 => .uint8 (.ofNat word)
  | uint16 => .uint16 (.ofNat word)
  | uint32 => .uint32 (.ofNat word)
  | uint64 => .uint64 (.ofNat word)
  | int8 => .int8 (UInt8.ofNat word).toInt8
  | int16 => .int16 (UInt16.ofNat word).toInt16
  | int32 => .int32 (UInt32.ofNat word).toInt32
  | int64 => .int64 (UInt64.ofNat word).toInt64

def move : Number → Move Value
  | uint8 => .uint8 <$> Move.uint8
  | uint16 => .uint16 <$> Move.uint16
  | uint32 => .uint32 <$> Move.uint32
  | uint64 => .uint64 <$> Move.uint64
  | int8 => .int8 <$> Move.int8
  | int16 => .int16 <$> Move.int16
  | int32 => .int32 <$> Move.int32
  | int64 => .int64 <$> Move.int64

theorem simulates (number : Number) : Move.Simulates number.move number.kind.read := by
  cases number with
  | uint8 => exact Move.simulates_uint8.map
  | uint16 => exact Move.simulates_uint16.map
  | uint32 => exact Move.simulates_uint32.map
  | uint64 => exact Move.simulates_uint64.map
  | int8 => exact Move.simulates_int8.map
  | int16 => exact Move.simulates_int16.map
  | int32 => exact Move.simulates_int32.map
  | int64 => exact Move.simulates_int64.map

/-- A number is read as the bytes of its width. -/
theorem read_eq (number : Number) :
    number.kind.read = number.ofBytes <$> Read.bytes number.width.toNat := by
  cases number <;>
    simp only [kind, Value.Kind.read, Read.uint8, Read.uint16, Read.uint32, Read.uint64, Read.int8,
      Read.int16, Read.int32, Read.int64, Read.word, bind_pure_comp, Functor.map_map] <;>
    rfl

theorem kind_ofBytes (number : Number) (run : Bytes) : (number.ofBytes run).kind = number.kind := by
  cases number <;> rfl

theorem encode_ofBytes (number : Number) {run : Bytes} (length : run.length = number.width.toNat) :
    (number.ofBytes run).encode = run := by
  cases number with
  | uint8 => exact Bytes.ofUInt8_ofLittleEndian length
  | uint16 => exact Bytes.ofUInt16_ofLittleEndian length
  | uint32 => exact Bytes.ofUInt32_ofLittleEndian length
  | uint64 => exact Bytes.ofUInt64_ofLittleEndian length
  | int8 => exact Bytes.ofUInt8_ofLittleEndian length
  | int16 => exact Bytes.ofUInt16_ofLittleEndian length
  | int32 => exact Bytes.ofUInt32_ofLittleEndian length
  | int64 => exact Bytes.ofUInt64_ofLittleEndian length

end Number

/-- What a reader can be told to do. Arguments are whatever a word holds. -/
inductive Operation where
  | word (number : Number)
  | bytes (count : UInt64)
  /-- An array of a length that is known beforehand. -/
  | array (count : UInt64)
  /-- A record read in place. Alignments are powers of two, and none is left out. -/
  | record (alignment : Nat) (divides : alignment ∣ UInt64.size) (count : UInt64)
  | symbol
  | skip (count : UInt64)
  | seek (pos : UInt64)
  | peek
  | text
  | unsigned
  | signed
  deriving DecidableEq, Repr

inductive Answer where
  | value (value : Value)
  | symbol (symbol : Elf.Symbol)
  | done
  deriving DecidableEq, Repr

namespace Operation

/-- Only a record asks where the bytes begin. For a symbol that is a multiple of four. -/
def perform (address : UInt64) : Operation → Read Answer
  | word number => .value <$> number.kind.read
  | bytes count => .value <$> (Value.Kind.bytes count.toNat).read
  | array count => (fun run => .value (.bytes run.val)) <$> Read.block count.toNat
  | record alignment _ count => (.value ∘ .bytes) <$> Read.record address alignment count.toNat
  | symbol => .symbol <$> Elf.Symbol.read
  | skip count => (fun _ => .done) <$> Read.skip count.toNat
  | seek pos => (fun _ => .done) <$> Read.seek pos.toNat
  | peek => (.value ∘ .uint8) <$> Read.peek
  | text => .value <$> Value.Kind.text.read
  | unsigned => .value <$> Value.Kind.unsigned.read
  | signed => .value <$> Value.Kind.signed.read

/-- The same on a cursor. -/
def move : Operation → Move Answer
  | word number => .value <$> number.move
  | bytes count => (.value ∘ .bytes) <$> Move.bytes count
  | array count => (.value ∘ .bytes) <$> Move.array count
  | record alignment _ count => (.value ∘ .bytes) <$> Move.record alignment count
  | symbol => .symbol <$> Move.symbol
  | skip count => (fun _ => .done) <$> Move.skip count
  | seek pos => (fun _ => .done) <$> Move.seek pos
  | peek => (.value ∘ .uint8) <$> Move.peek
  | text => (.value ∘ .text) <$> Move.text
  | unsigned => (.value ∘ .unsigned) <$> Move.uleb128
  | signed => (.value ∘ .signed) <$> Move.sleb128

theorem perform_array (address count : UInt64) :
    (array count).perform address = (.value ∘ .bytes) <$> Read.bytes count.toNat := by
  rw [← Read.val_block, Functor.map_map]
  rfl

theorem simulates (operation : Operation) {buffer : Buffer} {r : Reader} (same : r.data = buffer.data) :
    Move.Matches buffer (operation.move (buffer.place r.pos))
      (operation.perform buffer.address r) := by
  cases operation with
  | word number => exact number.simulates.map same
  | bytes count =>
      rw [perform, Value.Kind.read, Functor.map_map]
      exact (Move.simulates_bytes count).map same
  | array count =>
      rw [perform_array]
      exact (Move.simulates_array count).map same
  | record alignment divides count => exact (Move.matches_record divides count same).map
  | symbol => exact Move.simulates_symbol.map same
  | skip count => exact (Move.simulates_skip count).map same
  | seek pos => exact (Move.simulates_seek pos).map same
  | peek => exact Move.simulates_peek.map same
  | text =>
      rw [perform, Value.Kind.read, Functor.map_map]
      exact Move.simulates_text.map same
  | unsigned =>
      rw [perform, Value.Kind.read, Functor.map_map]
      exact Move.simulates_uleb128.map same
  | signed =>
      rw [perform, Value.Kind.read, Functor.map_map]
      exact Move.simulates_sleb128.map same

/-- The reader that an operation leaves, whether it succeeds or not. -/
def leaves (address : UInt64) (operation : Operation) (r : Reader) : Reader :=
  match operation.perform address r with
  | .ok _ s => s
  | .error _ s => s

/-- The reader behind operations, each of which goes on where the one before it has left off. -/
def leaveAll (address : UInt64) (operations : List Operation) (r : Reader) : Reader :=
  operations.foldl (fun r operation => operation.leaves address r) r

/-- The same on a cursor, which does not outlast a panic. -/
def run? : List Operation → Cursor → Option Cursor
  | [], c => some c
  | operation :: rest, c =>
      match operation.move c with
      | .ok _ d => run? rest d
      | .error (.fault _) d => run? rest d
      | .error .panic _ => none

/-- Whatever the operations are, a cursor is where the reader is. -/
theorem run?_place {buffer : Buffer} {r : Reader} (same : r.data = buffer.data)
    (operations : List Operation) :
    (leaveAll buffer.address operations r).data = buffer.data
      ∧ run? operations (buffer.place r.pos)
        = some (buffer.place (leaveAll buffer.address operations r).pos) := by
  induction operations generalizing r with
  | nil => exact ⟨same, rfl⟩
  | cons operation rest ih =>
      have outcome := operation.simulates same
      rw [run?, leaveAll, List.foldl_cons, leaves]
      generalize operation.move (buffer.place r.pos) = left at outcome ⊢
      generalize operation.perform buffer.address r = right at outcome ⊢
      cases outcome with
      | ok here => exact ih here
      | error here => exact ih here

end Operation

end DspFirmware

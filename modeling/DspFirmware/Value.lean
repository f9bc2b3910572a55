import DspFirmware.Writer

/-!
Typed values, written one behind the other and read back by their kinds.

A kind is what a reader has to know in order to find a value: which operation reads it, and for a run
of bytes also its length.
-/

namespace DspFirmware

/-- What one operation of a writer puts down. -/
inductive Value where
  | uint8 (value : UInt8)
  | uint16 (value : UInt16)
  | uint32 (value : UInt32)
  | uint64 (value : UInt64)
  | int8 (value : Int8)
  | int16 (value : Int16)
  | int32 (value : Int32)
  | int64 (value : Int64)
  | bytes (run : Bytes)
  /-- A text, with a zero byte behind it. -/
  | text (name : String)
  /-- An unsigned LEB128 number. -/
  | unsigned (value : UInt64)
  /-- A signed LEB128 number. -/
  | signed (value : Int64)
  deriving DecidableEq, Repr

namespace Value

inductive Kind where
  | uint8
  | uint16
  | uint32
  | uint64
  | int8
  | int16
  | int32
  | int64
  | bytes (count : Nat)
  | text
  | unsigned
  | signed
  deriving DecidableEq, Repr

def kind : Value → Kind
  | uint8 _ => .uint8
  | uint16 _ => .uint16
  | uint32 _ => .uint32
  | uint64 _ => .uint64
  | int8 _ => .int8
  | int16 _ => .int16
  | int32 _ => .int32
  | int64 _ => .int64
  | bytes run => .bytes run.length
  | text _ => .text
  | unsigned _ => .unsigned
  | signed _ => .signed

def encode : Value → Bytes
  | uint8 value => Bytes.ofUInt8 value
  | uint16 value => Bytes.ofUInt16 value
  | uint32 value => Bytes.ofUInt32 value
  | uint64 value => Bytes.ofUInt64 value
  | int8 value => Bytes.ofInt8 value
  | int16 value => Bytes.ofInt16 value
  | int32 value => Bytes.ofInt32 value
  | int64 value => Bytes.ofInt64 value
  | bytes run => run
  | text name => Text.terminated name
  | unsigned value => Bytes.uleb128 value
  | signed value => Bytes.sleb128 value

def Kind.read : Kind → Read Value
  | uint8 => .uint8 <$> Read.uint8
  | uint16 => .uint16 <$> Read.uint16
  | uint32 => .uint32 <$> Read.uint32
  | uint64 => .uint64 <$> Read.uint64
  | int8 => .int8 <$> Read.int8
  | int16 => .int16 <$> Read.int16
  | int32 => .int32 <$> Read.int32
  | int64 => .int64 <$> Read.int64
  | bytes count => .bytes <$> Read.bytes count
  | text => .text <$> Read.text
  | unsigned => .unsigned <$> Read.uleb128
  | signed => .signed <$> Read.sleb128

end Value

/-- Writes values one behind the other. -/
def Writer.put (w : Writer) (values : List Value) : Writer :=
  values.foldl (fun w value => w.write value.encode) w

namespace Read

/-- Reads a value of each kind, one behind the other. -/
def values (kinds : List Value.Kind) : Read (List Value) := kinds.mapM Value.Kind.read

/-- Reads values from a position on, and tells the position behind them. -/
def valuesFrom (start : Nat) (kinds : List Value.Kind) : Read (List Value × Nat) := do
  seek start
  let found ← values kinds
  return (found, (← get).pos)

end Read

end DspFirmware

import DspFirmware.Sha256
import DspFirmware.Reader

/-!
Segments of a container: typed payloads with a load address, and the descriptors that locate them in
the file.
-/

namespace DspFirmware.Container

inductive SegmentKind where
  /-- Program memory, bank 0. -/
  | prog0
  /-- Program memory, bank 1. -/
  | prog1
  | data
  deriving DecidableEq, Repr

namespace SegmentKind

def code : SegmentKind → UInt8
  | prog0 => 0
  | prog1 => 1
  | data => 2

def name : SegmentKind → String
  | prog0 => "Prog0"
  | prog1 => "Prog1"
  | data => "Data"

def ofCode? (code : UInt8) : Option SegmentKind :=
  if code = 0 then some prog0
  else if code = 1 then some prog1
  else if code = 2 then some data
  else none

theorem ofCode?_code (kind : SegmentKind) : ofCode? kind.code = some kind := by
  cases kind <;> rfl

/-- The kind with a code, or the fault of a code without a kind. -/
def ofCode (code : UInt8) : Except Fault SegmentKind :=
  match ofCode? code with
  | some kind => .ok kind
  | none => .error (.unknownSegmentType code)

end SegmentKind

/-- A payload with its kind and load address. -/
structure Segment where
  kind : SegmentKind
  address : UInt32
  data : Bytes
  /-- Where the payload was read from, zero for a segment that was not read. -/
  offset : UInt32
  /-- The digest that came with the payload. -/
  digest : Digest
  deriving DecidableEq, Repr

namespace Segment

def ofPayload (kind : SegmentKind) (address : UInt32) (data : Bytes) : Segment where
  kind
  address
  data
  offset := 0
  digest := sha256 data

def digestMatches (segment : Segment) : Bool := sha256 segment.data == segment.digest

end Segment

/-- A record of the container header that locates one segment. -/
structure Descriptor where
  offset : UInt32
  address : UInt32
  size : UInt32
  kind : SegmentKind
  digest : Digest
  deriving DecidableEq, Repr

namespace Descriptor

def recordSize : Nat := 48

/-- The record of a descriptor, with three unused bytes in front of the kind. -/
def encode (descriptor : Descriptor) : Bytes :=
  Bytes.ofUInt32 descriptor.offset ++ Bytes.ofUInt32 descriptor.address
    ++ Bytes.ofUInt32 descriptor.size ++ [0, 0, 0, descriptor.kind.code] ++ descriptor.digest.val

theorem length_encode (descriptor : Descriptor) : descriptor.encode.length = recordSize := by
  simp [encode, Bytes.ofUInt32, recordSize, descriptor.digest.property]

def readKind : Read SegmentKind := do
  match SegmentKind.ofCode (← Read.uint8) with
  | .ok kind => return kind
  | .error fault => throw fault

/-- Reads a record. The unused bytes may hold anything. -/
def read : Read Descriptor := do
  let offset ← Read.uint32
  let address ← Read.uint32
  let size ← Read.uint32
  Read.skip 3
  let kind ← readKind
  let digest ← Read.block 32
  return { offset, address, size, kind, digest }

def readList : (count : Nat) → Read (List Descriptor)
  | 0 => return []
  | count + 1 => do
      let descriptor ← read
      let others ← readList count
      return descriptor :: others

/-- Reads the segment that a record locates. The digest is taken as it is. -/
def readSegment (descriptor : Descriptor) : Read Segment := do
  Read.seek descriptor.offset.toNat
  let data ← Read.bytes descriptor.size.toNat
  return {
    kind := descriptor.kind
    address := descriptor.address
    data
    offset := descriptor.offset
    digest := descriptor.digest }

end Descriptor

end DspFirmware.Container

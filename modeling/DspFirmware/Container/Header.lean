import DspFirmware.Container.Segment

/-!
The fixed fields at the start of a container.

A signature of 256 bytes comes first; it is carried along and never looked at. The magic and the
fields follow up to byte `0x120`, where the descriptors begin. File size and segment count belong to
the file, not to the header: they are derived when a container is written.
-/

namespace DspFirmware.Container

/-- The bytes that mark a container. -/
def magic : Bytes := [0x44, 0x53, 0x50, 0x31]

/-- The fields that a user of containers chooses. -/
structure Header where
  signature : Bytes.Block 256
  memoryLayout : UInt16
  unknown : UInt8
  /-- The kind of the filter segment, as it stands in the file. -/
  filterKind : UInt8
  /-- Bit 0 asks for a synchronous load, bit 1 for loading the filter segment. -/
  flags : UInt8
  filterAddress : UInt32
  filterSize : UInt32
  deriving DecidableEq, Repr

namespace Header

def default : Header where
  signature := ⟨List.replicate 256 0, List.length_replicate⟩
  memoryLayout := 0xffff
  unknown := 0
  filterKind := 0
  flags := 0
  filterAddress := 0
  filterSize := 0

/-- The number of bytes in front of the descriptors. -/
def size : Nat := 0x120

/-- Whether the loader waits until the segments are in place. -/
def syncLoad (header : Header) : Bool := header.flags &&& 1 != 0

def loadFilter (header : Header) : Bool := header.flags &&& 2 != 0

/-- Sets or clears the request for a synchronous load. All other flags stay. -/
def setSyncLoad (header : Header) (enabled : Bool) : Header :=
  { header with flags := if enabled then header.flags ||| 1 else header.flags &&& ~~~1 }

def filterSegment? (header : Header) : Option SegmentKind := SegmentKind.ofCode? header.filterKind

/-- The bytes of the fields, in a file of the given size and number of segments. -/
def encode (header : Header) (fileSize segmentCount : Nat) : Bytes :=
  header.signature.val ++ magic ++ Bytes.littleEndian 4 fileSize
    ++ Bytes.ofUInt16 header.memoryLayout ++ [0, 0]
    ++ [header.unknown, header.filterKind, UInt8.ofNat segmentCount, header.flags]
    ++ Bytes.ofUInt32 header.filterAddress ++ Bytes.ofUInt32 header.filterSize
    ++ List.replicate 8 0

theorem length_encode (header : Header) (fileSize segmentCount : Nat) :
    (header.encode fileSize segmentCount).length = size := by
  simp [encode, Bytes.ofUInt16, Bytes.ofUInt32, magic, size, header.signature.property]

/-- A header as it was read, with what the file declares about itself. -/
structure Declared where
  header : Header
  fileSize : UInt32
  segmentCount : UInt8
  deriving DecidableEq, Repr

def read : Read Declared := do
  let signature ← Read.block 256
  let found ← Read.bytes 4
  unless found = magic do
    throw (.badMagic found magic)
  let fileSize ← Read.uint32
  let memoryLayout ← Read.uint16
  Read.skip 2
  let unknown ← Read.uint8
  let filterKind ← Read.uint8
  let segmentCount ← Read.uint8
  let flags ← Read.uint8
  let filterAddress ← Read.uint32
  let filterSize ← Read.uint32
  Read.skip 8
  return {
    header := {
      signature, memoryLayout, unknown, filterKind, flags, filterAddress, filterSize }
    fileSize
    segmentCount }

end Header

end DspFirmware.Container

import DspFirmware.Container.Header
import DspFirmware.Container.Layout
import DspFirmware.Journal

/-!
Firmware containers: a header, descriptors and payloads in one file.

Writing derives sizes, offsets and digests from the payloads. Reading takes them as they are and
only requires that every descriptor locates bytes of the file.
-/

namespace DspFirmware

structure Container where
  header : Container.Header
  segments : List Container.Segment
  /-- The size that the file declared, zero for a container that was not read. -/
  fileSize : UInt32
  deriving DecidableEq, Repr

namespace Container

/-- The number of descriptors that fit between the header and the payloads. -/
def maxSegments : Nat := 10

def empty : Container := ⟨Header.default, [], 0⟩

def addSegment (c : Container) (kind : SegmentKind) (address : UInt32) (data : Bytes) :
    Container :=
  { c with segments := c.segments ++ [Segment.ofPayload kind address data] }

def setSyncLoad (c : Container) (enabled : Bool) : Container :=
  { c with header := c.header.setSyncLoad enabled }

/-- Whether every digest belongs to its payload. -/
def digestsMatch (c : Container) : Bool := c.segments.all (·.digestMatches)

/-- The descriptor of a segment at its place. -/
def describe (segment : Segment) (placement : Placement) : Descriptor where
  offset := UInt32.ofNat placement.offset
  address := segment.address
  size := UInt32.ofNat placement.size
  kind := segment.kind
  digest := sha256 segment.data

def payloads (c : Container) : Bytes := c.segments.flatMap (·.data)

/-- The size of a container in the file. Without segments the file ends with the header fields. -/
def size (c : Container) : Nat :=
  if c.segments.isEmpty then Header.size else payloadBase + c.payloads.length

/-- The zeros between the descriptors and the first payload. -/
def gap (count : Nat) : Bytes :=
  if count = 0 then []
  else List.replicate (payloadBase - Header.size - count * Descriptor.recordSize) 0

/-- Where the payloads of a container go, if all of them fit. -/
def placements (c : Container) : Except Fault (List Placement) :=
  if maxSegments < c.segments.length then
    .error (.tooManySegments c.segments.length maxSegments)
  else place (c.segments.map (·.data.length))

/-- The bytes of a container. Digests and offsets that were read before play no part. -/
def serialize (c : Container) : Except Fault Bytes := do
  let places ← c.placements
  let descriptors := c.segments.zipWith describe places
  return c.header.encode c.size c.segments.length ++ descriptors.flatMap Descriptor.encode
    ++ gap c.segments.length ++ c.payloads

def read : Read Container := do
  let declared ← Header.read
  let descriptors ← Descriptor.readList declared.segmentCount.toNat
  let segments ← descriptors.mapM Descriptor.readSegment
  return { header := declared.header, segments, fileSize := declared.fileSize }

/-- Reads the container at the start of a byte string. -/
def parse (data : Bytes) : Except Fault Container := Read.runOn read data

/-- The remark on a container whose declared size is not that of the file. -/
def parseJournal (data : Bytes) : Journal :=
  match Read.runOn Header.read data with
  | .error _ => []
  | .ok declared =>
      if declared.fileSize.toNat = data.length then []
      else [{
        level := .warning
        text := "container declares " ++ Text.hexadecimal declared.fileSize.toNat
          ++ " bytes but " ++ Text.hexadecimal data.length ++ " were supplied" }]

def segmentEvent (segment : Segment) (placement : Placement) : Event where
  level := .trace
  text := "segment " ++ segment.kind.name ++ " addr="
    ++ Text.hexadecimal segment.address.toNat ++ " at "
    ++ Text.hexadecimal placement.offset ++ ".." ++ Text.hexadecimal placement.finish

/-- The remarks on writing a container: one on each segment, if all of them fit. -/
def serializeJournal (c : Container) : Journal :=
  match c.placements with
  | .error _ => []
  | .ok places => c.segments.zipWith segmentEvent places

end Container

end DspFirmware

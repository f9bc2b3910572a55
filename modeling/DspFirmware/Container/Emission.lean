import DspFirmware.Container
import DspFirmware.Writer

/-!
Writing a container into one growing buffer.

The header is written twice. The first time its size is not known and left zero; it only makes room.
The descriptors follow, then every payload at its own place, and when the buffer has its final length
the header is written again over the first one.
-/

namespace DspFirmware.Container

/-- Writes the fields of a header one after the other. -/
def Header.emit (header : Header) (fileSize : UInt32) (segmentCount : UInt8) (w : Writer) : Writer :=
  w.write header.signature.val
    |>.write magic
    |>.write (Bytes.ofUInt32 fileSize)
    |>.write (Bytes.ofUInt16 header.memoryLayout)
    |>.write (Bytes.ofUInt16 0)
    |>.write (Bytes.ofUInt8 header.unknown)
    |>.write (Bytes.ofUInt8 header.filterKind)
    |>.write (Bytes.ofUInt8 segmentCount)
    |>.write (Bytes.ofUInt8 header.flags)
    |>.write (Bytes.ofUInt32 header.filterAddress)
    |>.write (Bytes.ofUInt32 header.filterSize)
    |>.write (Bytes.ofUInt64 0)

/-- Writes the fields of a descriptor one after the other. -/
def Descriptor.emit (w : Writer) (d : Descriptor) : Writer :=
  w.write (Bytes.ofUInt32 d.offset)
    |>.write (Bytes.ofUInt32 d.address)
    |>.write (Bytes.ofUInt32 d.size)
    |>.write [0, 0, 0]
    |>.write (Bytes.ofUInt8 d.kind.code)
    |>.write d.digest.val

/-- Writes a payload at its place. -/
def emitPayload (w : Writer) (placed : Segment × Placement) : Writer :=
  (w.seek placed.2.offset).write placed.1.data

/-- The first pass: a header without a size, the descriptors, and the payloads. -/
def firstPass (header : Header) (segments : List Segment) (places : List Placement) : Writer :=
  let begun := header.emit 0 (UInt8.ofNat segments.length) .empty
  let described := (segments.zipWith describe places).foldl Descriptor.emit begun
  (segments.zip places).foldl emitPayload described

/-- Writes a container in two passes. The second one only mends the header, with the length of all that
has been written. -/
def emit (header : Header) (segments : List Segment) : Except Fault Bytes := do
  if maxSegments < segments.length then
    throw (.tooManySegments segments.length maxSegments)
  let places ← place (segments.map (·.data.length))
  let w := firstPass header segments places
  unless w.buffer.length < UInt32.size do
    throw (.segmentTooLarge w.buffer.length)
  let fileSize := UInt32.ofNat w.buffer.length
  return (header.emit fileSize (UInt8.ofNat segments.length) (w.seek 0)).buffer

end DspFirmware.Container

import DspFirmware.Fault

/-!
Where payloads lie in a container: one behind the other from a fixed offset on, in their order and
without gaps. No payload may end beyond what 32 bits can address.
-/

namespace DspFirmware.Container

/-- The file offset of the first payload. -/
def payloadBase : Nat := 0x300

structure Placement where
  offset : Nat
  size : Nat
  deriving DecidableEq, Repr

def Placement.finish (placement : Placement) : Nat := placement.offset + placement.size

/-- Places payloads of the given sizes from an offset on. The first one that ends too far is
reported. -/
def placeFrom : (offset : Nat) → (sizes : List Nat) → Except Fault (List Placement)
  | _, [] => .ok []
  | offset, size :: rest =>
      if offset + size < UInt32.size then
        (⟨offset, size⟩ :: ·) <$> placeFrom (offset + size) rest
      else .error (.segmentTooLarge size)

def place (sizes : List Nat) : Except Fault (List Placement) := placeFrom payloadBase sizes

end DspFirmware.Container

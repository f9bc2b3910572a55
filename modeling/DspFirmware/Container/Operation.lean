import DspFirmware.Container

/-!
What can be done with a container, one operation after the other. Reading can fail, and so can a reload,
which writes a container and reads it back. An operation that fails leaves the container as it was.
-/

namespace DspFirmware.Container

/-- Writes a container and reads it back. -/
def reload (c : Container) : Except Fault Container := do
  parse (← c.serialize)

inductive Operation where
  | new
  | setSyncLoad (enabled : Bool)
  | addSegment (kind : SegmentKind) (address : UInt32) (data : Bytes)
  /-- Assigns to fields of the header. -/
  | editHeader (edit : Header → Header)
  | parse (data : Bytes)
  | reload

def Operation.apply : Operation → Container → Except Fault Container
  | new, _ => .ok empty
  | setSyncLoad enabled, c => .ok (c.setSyncLoad enabled)
  | addSegment kind address data, c => .ok (c.addSegment kind address data)
  | editHeader edit, c => .ok { c with header := edit c.header }
  | parse data, _ => Container.parse data
  | reload, c => c.reload

def step (c : Container) (operation : Operation) : Container :=
  match operation.apply c with
  | .ok next => next
  | .error _ => c

def run (start : Container) (operations : List Operation) : Container :=
  operations.foldl step start

end DspFirmware.Container

import DspFirmware.Container
import DspFirmware.Elf.Image

/-!
From ELF images to containers: which sections become segments, and where they are loaded.
-/

namespace DspFirmware

/-- A processor that containers are made for. -/
structure Target where
  name : String
  /-- The load address of a section, from its address in the image. -/
  loadAddress : UInt32 → UInt32

/-- Teak processors. Images address 24 bits of bytes, the loader counts words of two. -/
def Target.teak : Target where
  name := "teak"
  loadAddress address := (address &&& 0xffffff) >>> 1

namespace Conversion

open Container Elf

/-- The sections that become segments, in the order of the segments. -/
def sources : List (String × SegmentKind) :=
  [(".text", .prog0), (".rodata", .data), (".data", .data)]

/-- The section of a name, if it has anything to load. -/
def loadable? (image : Image) (name : String) : Option Section :=
  (image.sectionNamed? name).filter (!·.isEmpty)

/-- Adds the section of a name to a container. -/
def addSource (target : Target) (image : Image) (c : Container)
    (source : String × SegmentKind) : Container :=
  match loadable? image source.1 with
  | none => c
  | some s => c.addSegment source.2 (target.loadAddress s.header.address) s.data

/-- The container with the loadable sections of an image. -/
def convert (target : Target) (syncLoad : Bool) (image : Image) : Container :=
  sources.foldl (addSource target image) (Container.empty.setSyncLoad syncLoad)

def sourceEvent (target : Target) (image : Image) (source : String × SegmentKind) : Event where
  level := .debug
  text :=
    match loadable? image source.1 with
    | none => "no " ++ source.1 ++ " to emit"
    | some s =>
        source.1 ++ " -> " ++ source.2.name ++ " segment at "
          ++ Text.hexadecimal (target.loadAddress s.header.address).toNat ++ " ("
          ++ Text.decimal s.data.length ++ " bytes, " ++ target.name ++ ")"

def convertJournal (target : Target) (image : Image) : Journal :=
  sources.map (sourceEvent target image)

end Conversion

end DspFirmware

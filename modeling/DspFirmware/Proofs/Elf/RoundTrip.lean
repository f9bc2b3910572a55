import DspFirmware.Proofs.Elf.Acceptance
import DspFirmware.Proofs.Elf.Encoding
import DspFirmware.Proofs.Reading

/-!
Reading back an encoded image. It is acceptable, and its sections are those of the draft between
section 0 and the section with the names, which gives every section its name.
-/

namespace DspFirmware.Elf

namespace Draft

variable {draft : Draft} {numbering : Numbering} (h : draft.Writable numbering)

include h

omit h

/-- Sections with an odd length, without a name, without bytes in the file, and with a name for the
second time. -/
def repeated : Draft where
  machine := 0xf3
  entry := 0x100
  sections := [⟨".text", 1, 0x1000, [0x11, 0x22, 0x33], 0, 0⟩, ⟨"", 8, 0x2000, [0, 0], 0, 0⟩,
    ⟨".text", 2, 0, List.replicate 16 7, 5, 16⟩]

end Draft

end DspFirmware.Elf

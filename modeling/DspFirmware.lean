import DspFirmware.Main
import DspFirmware.Container.Emission
import DspFirmware.Container.Operation
import DspFirmware.Elf.Draft
import DspFirmware.LineTable.Draft
import DspFirmware.Value
import DspFirmware.Proofs.Fields
import DspFirmware.Proofs.Records
import DspFirmware.Proofs.Values
import DspFirmware.Proofs.Container.Layout
import DspFirmware.Proofs.Container.RoundTrip
import DspFirmware.Proofs.Container.Records
import DspFirmware.Proofs.Container.Acceptance
import DspFirmware.Proofs.Container.Emission
import DspFirmware.Proofs.Container.ByteLayout
import DspFirmware.Proofs.Container.Extent
import DspFirmware.Proofs.Container.Corruption
import DspFirmware.Proofs.Container.Reload
import DspFirmware.Proofs.Elf.Sections
import DspFirmware.Proofs.Conversion
import DspFirmware.Proofs.Leb128
import DspFirmware.Proofs.LineTable.Coding
import DspFirmware.Proofs.LineTable.AbstractMachine
import DspFirmware.Proofs.Answers
import DspFirmware.Proofs.Locality
import DspFirmware.Proofs.Streaming
import DspFirmware.Proofs.LineTable.Listing
import DspFirmware.Proofs.LineTable.RoundTrip
import DspFirmware.Proofs.LineTable.Prologue
import DspFirmware.Proofs.LineTable.Section
import DspFirmware.Proofs.LineTable.Lookup
import DspFirmware.Proofs.LineTable.Sequences
import DspFirmware.Proofs.LineTable.Arithmetic
import DspFirmware.Proofs.LineTable.Concatenation
import DspFirmware.Proofs.LineTable.Search
import DspFirmware.Proofs.LineTable.SourceLines
import DspFirmware.Proofs.LineTable.Stability
import DspFirmware.Proofs.LineTable.Advances
import DspFirmware.Proofs.Elf.Table
import DspFirmware.Proofs.Elf.Acceptance
import DspFirmware.Proofs.Elf.Encoding
import DspFirmware.Proofs.Elf.RoundTrip
import DspFirmware.Proofs.Elf.Strings
import DspFirmware.Proofs.Elf.Symbols
import DspFirmware.Proofs.SignedLeb128
import DspFirmware.Proofs.WordLeb128
import DspFirmware.Proofs.UnsignedLeb128
import DspFirmware.Proofs.ShortestLeb128
import DspFirmware.Proofs.RandomAccess
import DspFirmware.Proofs.Cursor
import DspFirmware.Proofs.Simulation
import DspFirmware.Proofs.Operations
import DspFirmware.Proofs.Positions
import DspFirmware.Proofs.Exactness
import DspFirmware.Proofs.LineTable.Expansion
import DspFirmware.Proofs.LineTable.Extent
import DspFirmware.Proofs.LineTable.SectionLines
import DspFirmware.Proofs.LineTable.Progress
import DspFirmware.Proofs.Elf.SymbolRecords
import DspFirmware.Proofs.Container.Growth
import DspFirmware.Proofs.CommandLine.Directory
import DspFirmware.Proofs.CommandLine.Writes
import DspFirmware.Proofs.CommandLine.Arguments
import DspFirmware.Proofs.CommandLine.DefaultOutput
import DspFirmware.Proofs.Container.Placements

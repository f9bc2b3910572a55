import DspFirmware.LineTable.Lookup

/-!
Sections of line programs that follow each other, and questions to all of them.

Nothing follows a program that cannot be read. A question goes to one program after another and
ends with the first answer, so that no program behind it has any influence.
-/

namespace DspFirmware.LineTable

/-- What reading one program of a section came to, with the bytes from its start on. -/
structure Reading where
  source : Bytes
  program : Except DecodeError Program

/-- The programs of a section up to the first one with a fault. -/
def readings (data : Bytes) : List Reading :=
  if data = [] then []
  else
    let program := Program.parse data
    { source := data, program } ::
      match program with
      | .error _ => []
      | .ok program => readings (data.drop program.header.totalLength)
termination_by data.length
decreasing_by
  have : data.length ≠ 0 := by simp_all
  simp only [List.length_drop, Header.totalLength]
  omega

/-- The programs of a section, the last of them possibly an error. -/
def programs (data : Bytes) : List (Except DecodeError Program) := (readings data).map (·.program)

/-- The first answer that a program gives, if no error comes before it. -/
def firstAnswer (ask : Program → Except Fault (Option α)) :
    List (Except DecodeError Program) → Except DecodeError (Option α)
  | [] => .ok none
  | .error error :: _ => .error error
  | .ok program :: rest =>
      match ask program with
      | .error cause => .error (.fault cause)
      | .ok (some answer) => .ok (some answer)
      | .ok none => firstAnswer ask rest

def lookupAddress (data : Bytes) (address : UInt32) : Except DecodeError (Option Location) :=
  firstAnswer (·.lookupAddress address) (programs data)

def lookupLocation (data : Bytes) (query : String) (line : UInt32) :
    Except DecodeError (Option UInt32) :=
  firstAnswer (fun program => .ok (program.lookupLocation query line)) (programs data)

/-- The programs that a question goes to, the one that ends it included. -/
def consulted (ask : Program → Except Fault (Option α)) : List Reading → List Reading
  | [] => []
  | reading :: rest =>
      match reading.program with
      | .error _ => [reading]
      | .ok program =>
          match ask program with
          | .ok none => reading :: consulted ask rest
          | _ => [reading]

def readingsJournal (read : List Reading) : Journal :=
  read.flatMap fun reading => Program.parseJournal reading.source

def programsJournal (data : Bytes) : Journal := readingsJournal (readings data)

def lookupAddressJournal (data : Bytes) (address : UInt32) : Journal :=
  readingsJournal (consulted (·.lookupAddress address) (readings data))

def lookupLocationJournal (data : Bytes) (query : String) (line : UInt32) : Journal :=
  readingsJournal
    (consulted (fun program => .ok (program.lookupLocation query line)) (readings data))

end DspFirmware.LineTable

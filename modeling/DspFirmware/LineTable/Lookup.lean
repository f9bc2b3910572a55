import DspFirmware.LineTable.Program

/-!
Questions to one program: the source position of an address, and the address of a source position.

Both look for a row that answers exactly. Failing that they take the nearest row before, if the row
behind it lies beyond what is asked for and the distance is below a bound.
-/

namespace DspFirmware.LineTable

structure Location where
  /-- The address of the row that was found. -/
  address : UInt32
  directory : String
  file : String
  line : UInt32
  column : UInt64
  deriving DecidableEq, Repr

/-- Joins a directory and a file name by a slash, unless the directory is empty or ends in a
separator, or the name is absolute. -/
def joinPath (directory file : String) : String :=
  if directory.isEmpty ∨ file.toList.head? = some '/' then file
  else
    match directory.toList.getLast? with
    | some '/' => directory ++ file
    | some '\\' => directory ++ file
    | _ => directory ++ "/" ++ file

/-- The path of a source file with its directory. -/
def Location.path (location : Location) : String := joinPath location.directory location.file

/-- The entry of a table that counts from one. -/
def oneBased? (entries : List α) (index : UInt64) : Option α :=
  if index = 0 then none else entries[index.toNat - 1]?

/-- Each row with the one behind it. -/
def neighbours (rows : List Row) : List (Row × Row) := rows.zip rows.tail

/-- Addresses at this distance from a row or farther do not belong to it. -/
def addressBound : Nat := 0x20

/-- Lines at this distance from a row or farther do not belong to it. -/
def lineBound : Nat := 8

namespace Program

def file (program : Program) (index : UInt64) : Except Fault FileEntry :=
  match oneBased? program.files index with
  | some entry => .ok entry
  | none => .error (.invalidFileIndex index)

def directory (program : Program) (index : UInt64) : Except Fault String :=
  match oneBased? program.directories index with
  | some name => .ok name
  | none => .error (.invalidDirectoryIndex index)

/-- Whether an address lies between a row and the one behind it, near the first. A row that ends a
sequence begins no range. -/
def coversAddress (address : UInt32) (row next : Row) : Bool :=
  !row.endSequence && row.address < address && address < next.address
    && address.toNat - row.address.toNat < addressBound

/-- The row for an address: the first one at it, else the nearest whose range covers it, the first
of equally near ones. -/
def rowForAddress (program : Program) (address : UInt32) : Option Row :=
  match program.rows.find? fun row => !row.endSequence && row.address == address with
  | some row => some row
  | none =>
      (((neighbours program.rows).filter fun pair => coversAddress address pair.1 pair.2).map
        (·.1)).minOn? fun row => address.toNat - row.address.toNat

def locate (program : Program) (row : Row) : Except Fault Location := do
  let entry ← program.file row.file
  let directory ← program.directory entry.directoryIndex
  return {
    address := row.address
    directory
    file := entry.name
    line := row.line
    column := row.column }

/-- The source position of an address, if a row covers it. The row may name a file or a directory
that is not in the tables. -/
def lookupAddress (program : Program) (address : UInt32) : Except Fault (Option Location) :=
  match program.rowForAddress address with
  | none => .ok none
  | some row => some <$> program.locate row

/-- Whether a query names a file of the table, by its bare name or with its directory. -/
def fileMatches (program : Program) (index : UInt64) (query : String) : Bool :=
  match program.file index with
  | .error _ => false
  | .ok entry =>
      entry.name == query ||
        match program.directory entry.directoryIndex with
        | .error _ => false
        | .ok directory => joinPath directory entry.name == query

/-- Whether a row is an instruction of the queried file. -/
def rowInFile (program : Program) (query : String) (row : Row) : Bool :=
  !row.endSequence && program.fileMatches row.file query

/-- Whether a line lies between a row and the one behind it in the same file, near the first. -/
def coversLine (line : UInt32) (row next : Row) : Bool :=
  next.file == row.file && row.line < line && line < next.line
    && line.toNat - row.line.toNat < lineBound

/-- The address of a line of a file: that of the first row for it, else that of the nearest row
before it, the first of equally near ones. -/
def lookupLocation (program : Program) (query : String) (line : UInt32) : Option UInt32 :=
  match program.rows.find? fun row => program.rowInFile query row && row.line == line with
  | some row => some row.address
  | none =>
      (((neighbours program.rows).filter fun pair =>
        program.rowInFile query pair.1 && coversLine line pair.1 pair.2).map (·.1)).minOn?
          (fun row => line.toNat - row.line.toNat) |>.map (·.address)

end Program

end DspFirmware.LineTable

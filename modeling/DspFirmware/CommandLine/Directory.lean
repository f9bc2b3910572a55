import DspFirmware.Text.Latin1
import DspFirmware.Text.Pieces

/-!
The file system of the program, as far as the program can see it: the files of the working directory
by their relative paths, the directories those paths run through, and what every system has outside.

No two names lead to one file. Inside the working directory nothing is a link, and names that differ in
the case of a letter are different names. Whatever is said of the files that a run leaves alone rests on
this, as a link from the one name to the other would take what is written under it there.

Every directory has a parent, that of the root being the root. Of the directories outside the
working directory not much is known: some in the root, and some devices among them. No other file is
found there, and what is written there is not seen. So neither a path from the root nor one that leaves
the working directory reaches a file, not even one of the working directory by its full path.
-/

namespace DspFirmware.CommandLine

/-- What came of opening a file and mapping it into memory. -/
inductive Opened where
  | contents (data : Bytes)
  | notOpened (reason : String)
  | notMapped (reason : String)
  deriving DecidableEq, Repr

/-- The files of a directory, each with its relative path. -/
abbrev Directory := List (String × Bytes)

namespace Directory

def noSuchFile : String := "No such file or directory (os error 2)"
def noSuchDevice : String := "No such device (os error 19)"
def noSuchAddress : String := "No such device or address (os error 6)"
def notADirectory : String := "Not a directory (os error 20)"
def isADirectory : String := "Is a directory (os error 21)"
def noSpaceLeft : String := "No space left on device (os error 28)"
def nameTooLong : String := "File name too long (os error 36)"

/-- The number of bytes that a name may have in its directory. -/
def nameLimit : Nat := 255

/-- The number of bytes that a path stays below. -/
def pathLimit : Nat := 4096

def path (names : List (List Char)) : String := String.ofList (['/'].intercalate names)

/-- A device, which is no file but can be opened like one. -/
inductive Device where
  /-- Takes whatever is written. -/
  | sink
  /-- Takes whatever is written, and reads as no contents where it is mapped. -/
  | zeros
  /-- Takes nothing. -/
  | full
  /-- Shows whatever is written where the program shows its answers. -/
  | output
  /-- Is there only in name, as the program runs without a terminal of its own. -/
  | absent
  deriving DecidableEq, Repr

/-- What stands outside the working directory. -/
inductive Entry where
  | directory
  | device (device : Device)
  /-- Another name of a directory, given by its names from the root on. -/
  | link (names : List (List Char))
  deriving DecidableEq, Repr

/-- The directory of the streams of the running program, by its names from the root on. -/
def streams : List (List Char) := ["proc".toList, "self".toList, "fd".toList]

/-- What every system has, by its path from the root on. -/
def systemEntries : List (String × Entry) :=
  let directories :=
    ["bin", "boot", "dev", "dev/pts", "dev/shm", "etc", "home", "lib", "lib64", "media", "mnt",
      "opt", "proc", "proc/self", "proc/self/fd", "root", "run", "sbin", "srv", "sys", "tmp", "usr",
      "var"]
  let devices :=
    [("dev/null", .sink), ("dev/zero", .zeros), ("dev/full", .full), ("dev/random", .sink),
      ("dev/urandom", .sink), ("dev/tty", .absent), ("dev/stdin", .sink), ("dev/stdout", .output),
      ("dev/stderr", .sink), ("proc/self/fd/0", .sink), ("proc/self/fd/1", .output),
      ("proc/self/fd/2", .sink)]
  ("dev/fd", .link streams) :: directories.map (·, .directory)
    ++ devices.map fun (path, device) => (path, .device device)

/-- A directory. -/
inductive Position where
  /-- The working directory, which has no names, or one inside it. -/
  | inside (names : List (List Char))
  /-- One that the working directory lies in. -/
  | above
  /-- The root, which has no names, or one inside it that every system has. -/
  | system (names : List (List Char))
  deriving DecidableEq, Repr

def Position.parent : Position → Position
  | inside [] => above
  | inside names => inside names.dropLast
  | above => above
  | system names => system names.dropLast

/-- What a path leads to. -/
inductive Place where
  | file (key : String) (data : Bytes)
  | directory (position : Position)
  | device (device : Device)
  /-- Nothing yet, inside a directory. -/
  | vacant (key : String)
  /-- Nothing yet, inside a directory outside the working directory. -/
  | elsewhere
  /-- Nothing, and no directory to put it. -/
  | missing
  /-- A file or a device stands where the path needs a directory. -/
  | blocked
  /-- The path, or a name in a directory it runs through, has too many bytes. -/
  | overlong
  deriving DecidableEq, Repr

/-- What stands under names from the working directory on. -/
def at? (files : Directory) (names : List (List Char)) : Place :=
  let key := path names
  match files.lookup key with
  | some data => .file key data
  | none =>
      if files.any (·.1.startsWith (key ++ "/")) then .directory (.inside names) else .vacant key

/-- What stands under names from the root on. Nothing can be put among the running programs. -/
def atSystem (names : List (List Char)) : Place :=
  match systemEntries.lookup (path names) with
  | some .directory => .directory (.system names)
  | some (.device device) => .device device
  | some (.link target) => .directory (.system target)
  | none => if names.head? = some "proc".toList then .missing else .elsewhere

/-- What stands under a name in a directory. -/
def enter (files : Directory) (position : Position) (name : List Char) : Place :=
  match position with
  | .inside names => files.at? (names ++ [name])
  | .above => .elsewhere
  | .system names => atSystem (names ++ [name])

/-- Follows the components of a path on from a place. -/
def walk (files : Directory) (place : Place) : List (List Char) → Place
  | [] => place
  | component :: rest =>
      match place with
      | .directory position =>
          if component = [] ∨ component = ['.'] then files.walk place rest
          else if component = ['.', '.'] then files.walk (.directory position.parent) rest
          else if nameLimit < (Text.utf8 (String.ofList component)).length then .overlong
          else files.walk (files.enter position component) rest
      | .file _ _ => .blocked
      | .device _ => .blocked
      | .vacant _ => .missing
      | .elsewhere => .missing
      | other => other

/-- What a path leads to. -/
def place (files : Directory) (path : String) : Place :=
  if pathLimit ≤ (Text.utf8 path).length then .overlong
  else
    match path.toList with
    | '/' :: rest => files.walk (.directory (.system [])) (Text.pieces '/' rest)
    | relative => files.walk (.directory (.inside [])) (Text.pieces '/' relative)

def Device.opened : Device → Opened
  | zeros => .contents []
  | absent => .notOpened noSuchAddress
  | _ => .notMapped noSuchDevice

/-- Opens a file for reading. A directory can be opened, but not mapped. -/
def openFile (files : Directory) (path : String) : Opened :=
  match files.place path with
  | .file _ data => .contents data
  | .directory _ => .notMapped noSuchDevice
  | .device device => device.opened
  | .vacant _ => .notOpened noSuchFile
  | .elsewhere => .notOpened noSuchFile
  | .missing => .notOpened noSuchFile
  | .blocked => .notOpened notADirectory
  | .overlong => .notOpened nameTooLong

/-- Puts a file in the place of another of the same path, or behind the others. -/
def put (files : Directory) (key : String) (data : Bytes) : Directory :=
  if (files.lookup key).isSome then
    files.map fun file => if file.1 = key then (key, data) else file
  else files ++ [(key, data)]

/-- The path, ending in a dot, of the directory that holds what a path names. -/
def holder (path : String) : String :=
  let name := path.toList.reverse.dropWhile (· == '/')
  String.ofList ((name.dropWhile (· != '/')).reverse ++ ['.'])

/-- What a path leads to that is to be written. A slash at its end makes its name one of a directory,
which is not looked for: it is enough that the directory holding it is there. -/
def target (files : Directory) (path : String) : Place :=
  if path.toList.getLast? = some '/' ∧ (Text.utf8 path).length < pathLimit then
    files.place (holder path)
  else files.place path

structure Written where
  files : Directory
  /-- What has gone where the program shows its answers. -/
  shown : Bytes
  deriving DecidableEq, Repr

/-- What a device shows of bytes that are written to it, unless it refuses them. -/
def Device.write (data : Bytes) : Device → Except String Bytes
  | sink => .ok []
  | zeros => .ok []
  | full => .error noSpaceLeft
  | output => .ok data
  | absent => .error noSuchAddress

/-- Writes a file, or says why not. -/
def writeFile (files : Directory) (path : String) (data : Bytes) : Except String Written :=
  match files.target path with
  | .file key _ => .ok ⟨files.put key data, []⟩
  | .vacant key => .ok ⟨files.put key data, []⟩
  | .elsewhere => .ok ⟨files, []⟩
  | .device device => (⟨files, ·⟩) <$> device.write data
  | .directory _ => .error isADirectory
  | .missing => .error noSuchFile
  | .blocked => .error notADirectory
  | .overlong => .error nameTooLong

end Directory

end DspFirmware.CommandLine

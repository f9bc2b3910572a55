/-!
File paths: the name at the end of a path, its extension, and paths with another extension.

A path is the list of its characters. A trailing slash, or a trailing dot behind a slash, does not
belong to the name.
-/

namespace DspFirmware.Text.Path

/-- A path without trailing slashes and single dots behind slashes, last character first. -/
def stripped : List Char → List Char
  | '/' :: rest => stripped rest
  | '.' :: '/' :: rest => stripped rest
  | path => path

/-- What stands in front of the name, and the name. A path that ends in a dot or two, or in the
root, has no name. -/
def split? (path : List Char) : Option (List Char × List Char) :=
  let reversed := stripped path.reverse
  let name := (reversed.takeWhile (· != '/')).reverse
  if name = [] ∨ name = ['.'] ∨ name = ['.', '.'] then none
  else some ((reversed.dropWhile (· != '/')).reverse, name)

/-- Cuts a name at its last dot. A dot that begins the name cuts nothing off. -/
def cutName (name : List Char) : List Char × Option (List Char) :=
  let extension := (name.reverse.takeWhile (· != '.')).reverse
  match (name.reverse.dropWhile (· != '.')).reverse.dropLast with
  | [] => (name, none)
  | stem => (stem, some extension)

/-- The name of a path without its extension. -/
def stem? (path : List Char) : Option (List Char) := (split? path).map fun p => (cutName p.2).1

def extension? (path : List Char) : Option (List Char) :=
  (split? path).bind fun p => (cutName p.2).2

/-- Puts an extension behind the stem of the name and drops all that followed the stem. A path
without a name stays as it is. -/
def setExtension (path extension : List Char) : List Char :=
  match split? path with
  | none => path
  | some (parent, name) => parent ++ (cutName name).1 ++ '.' :: extension

/-- A path with another extension. The old one is cut off from the end of the path first, which
may leave a path without a name. -/
def withExtension (path extension : List Char) : List Char :=
  let old := (extension? path).getD []
  setExtension (path.take (path.length - old.length)) extension

end DspFirmware.Text.Path

import Notebook.Text.Word

/-!
The name under which a library can be imported, read off the name of its file.
-/
namespace Notebook.Guest

/-- The parts of a path between slashes. A point stands for the place it is in, and is left out unless it
is the first part. -/
def pathParts (path : List Char) : List (List Char) :=
  let parts := path.splitOnP (· = '/')
  match parts with
  | [] => []
  | first :: rest =>
    [first].filter (!·.isEmpty) ++ rest.filter fun p => !p.isEmpty && p ≠ ['.']

/-- The last part of a path, if it is the name of a file. -/
def fileName? (path : List Char) : Option (List Char) :=
  match (pathParts path).getLast? with
  | some name => if name = ['.'] || name = ['.', '.'] then none else some name
  | none => none

/-- What stands before and behind the last `c` in a text. -/
def splitLast? (c : Char) (cs : List Char) : Option (List Char × List Char) :=
  let after := (cs.reverse.takeWhile (· ≠ c)).reverse
  if after.length = cs.length then none
  else some (cs.take (cs.length - after.length - 1), after)

/-- A file's name without its ending. A point at the very start begins no ending. -/
def fileStem (name : List Char) : List Char :=
  match splitLast? '.' name with
  | some (stem, _) => if stem.isEmpty then name else stem
  | none => name

/-- The name of a file without a version behind a hyphen. A version starts with a digit. -/
def unversioned (stem : List Char) : List Char :=
  match splitLast? '-' stem with
  | some (name, version) => if version.head?.any Char.isDigit then name else stem
  | none => stem

/-- The name by which code knows a library: without the letters `lib` in front, and with underscores for
hyphens. -/
def rootName (name : List Char) : List Char :=
  (if "lib".toList.isPrefixOf name then name.drop 3 else name).map fun c => if c = '-' then '_' else c

/-- The name of the library in a file, read off the file's name without its ending. -/
def libraryName? (path : List Char) : Option String :=
  (fileName? path).map fun file => String.ofList (rootName (unversioned (fileStem file)))

end Notebook.Guest

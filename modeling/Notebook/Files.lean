/-!
Files below a working directory, named by their paths from there. A path may be written in several ways;
two points lead one directory up.
-/
namespace Notebook

/-- Names of files and what they hold. -/
abbrev Files := List (List Char × List Char)

/-- Why a file cannot be read. -/
inductive FileProblem
  | missing
  | isDirectory
  | notDirectory
  | other (message : String)
  deriving DecidableEq, Repr

def FileProblem.message : FileProblem → String
  | missing => "No such file or directory (os error 2)"
  | isDirectory => "Is a directory (os error 21)"
  | notDirectory => "Not a directory (os error 20)"
  | other m => m

/-- The names on a path from the working directory, outermost first, or nothing if the path leads out of
it. `inner` are those read so far, innermost first. -/
def pathNames (inner : List (List Char)) : List (List Char) → Option (List (List Char))
  | [] => some inner.reverse
  | name :: rest =>
    if name.isEmpty || name = ['.'] then pathNames inner rest
    else if name = ['.', '.'] then
      match inner with
      | [] => none
      | _ :: outer => pathNames outer rest
    else pathNames (name :: inner) rest

/-- The names on a path. A path that starts at the root directory leads out of the working directory. -/
def namesOf (path : List Char) : Option (List (List Char)) :=
  if path.head? = some '/' then none else pathNames [] (path.splitOnP (· = '/'))

namespace Files

/-- Whether a path ends in a way that only directories can be named in. -/
def namesDirectory (path : List Char) : Bool :=
  match (path.splitOnP (· = '/')).getLast? with
  | some last => last.isEmpty || last = ['.'] || last = ['.', '.']
  | none => true

/-- The text of the file that has the names on its path. -/
def textOf? (files : Files) (names : List (List Char)) : Option (List Char) :=
  (List.find? (fun file => namesOf file.1 == some names) files).map (·.2)

/-- Whether there is a file below the names. -/
def hasBelow (files : Files) (names : List (List Char)) : Bool :=
  files.any fun (path, _) =>
    match namesOf path with
    | some ns => names.isPrefixOf ns && names.length < ns.length
    | none => false

/-- Reads a file. -/
def read (files : Files) (path : List Char) : Except FileProblem (List Char) :=
  match namesOf path with
  | none => .error .missing
  | some names =>
    if path.isEmpty then .error .missing
    else
      match files.textOf? names with
      | some text => if namesDirectory path then .error .notDirectory else .ok text
      | none =>
        if names.isEmpty || files.hasBelow names then .error .isDirectory
        else if (List.range names.length).any fun n => (files.textOf? (names.take n)).isSome then .error .notDirectory
        else .error .missing

/-- The files below a directory, named from there. -/
def below (files : Files) (directory : List Char) : Files :=
  match namesOf directory with
  | none => []
  | some outer =>
    files.filterMap fun (path, text) =>
      match namesOf path with
      | some names =>
        if outer.isPrefixOf names && outer.length < names.length then
          some (['/'].intercalate (names.drop outer.length), text)
        else none
      | none => none

end Files

end Notebook

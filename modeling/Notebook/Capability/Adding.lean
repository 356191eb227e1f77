import Notebook.Capability.Basic

/-!
The capability that adds libraries: it resolves an artifact and makes the libraries importable that it
and all that it needs consist of.
-/
namespace Notebook.Capability
open Notebook.Guest Notebook.Artifact

namespace Added

/-- The paths that have not been seen, each of them once, however it is written. -/
def newPaths (seen : List (List Component)) : List (List Char) → List (List Char)
  | [] => []
  | path :: rest =>
    if components path ∈ seen then newPaths seen rest
    else path :: newPaths (components path :: seen) rest

/-- Adds an artifact. The files that were not there before come along, an artifact's before those of what
it needs. -/
def add (a : Added) (resolve : Coordinate → Except Failure DependencyNode) (text : List Char) :
    Except Failure (List (List Char) × Added) := do
  let coordinate ← Coordinate.parse text
  let tree ← resolve coordinate
  let new := newPaths (a.paths.map components) (tree.flatten.map (·.path))
  return (new, {
    coordinates := if coordinate ∈ a.coordinates then a.coordinates else a.coordinates ++ [coordinate]
    paths := a.paths ++ new })

end Added

namespace Adding

def typeName : String := "Dependencies"

def methods : List MethodDoc := [
  ⟨"add", "add(coordinate: String) -> Vec", "Resolve group:artifact:version and add it to the classpath."⟩,
  ⟨"list", "list() -> Vec", "Coordinates added so far."⟩]

/-- Texts as a value. -/
def texts (ts : List (List Char)) : Value := .list (ts.map fun t => .str (String.ofList t))

/-- What a call answers, with the files that it adds and what has been added after it; or why it is
refused. -/
def answer (resolve : Coordinate → Except Failure DependencyNode) (a : Added) (method : String)
    (args : List Value) : Except String (Value × List (List Char) × Added) :=
  match method, args with
  | "add", [.str s] =>
    match a.add resolve s.toList with
    | .ok (new, a) => .ok (texts new, new, a)
    | .error e => .error e.message
  | "list", [] => .ok (texts (a.coordinates.map (·.text)), [], a)
  | "add", _ => .error "add expects one coordinate string"
  | "list", _ => .error "list takes no arguments"
  | _, _ => .error ("no method '" ++ method ++ "' on " ++ typeName)

end Adding

end Notebook.Capability

import Notebook.Capability.Showing
import Notebook.Capability.Adding

/-!
Catalogs of the capabilities that sessions may have.
-/
namespace Notebook.Capability
open Notebook.Guest Notebook.Artifact

/-- What comes of making an instance. -/
inductive Creation
  | made (typeName : String) (methods : List MethodDoc) (service : Service)
  | failed (f : Failure)
  | panicked (message : String)

/-- How a capability comes into a session: an instance is made, the guest gets it under a name if there
is one, and then code runs if there is any. -/
structure Factory where
  name : String
  mode : Mode
  kind : Kind
  variableName : Option String := none
  initialCode : Option (List Char) := none
  create : Creation

/-- The capability that shows things. -/
def Factory.display (renderers : RendererTable) : Factory where
  name := "display"
  mode := .system
  kind := .display
  variableName := some "display"
  create := .made Showing.typeName Showing.methods (.display renderers)

/-- The capability that adds libraries from a repository. -/
def Factory.dependencies (resolve : Coordinate → Except Failure DependencyNode) : Factory where
  name := "dependencies"
  mode := .onDemand
  kind := .dependencies
  variableName := some "deps"
  create := .made Adding.typeName Adding.methods (.dependencies resolve)

/-- Factories in order. No two of them have the same name if they were registered one by one. -/
abbrev Catalog := List Factory

namespace Catalog

/-- Adds a factory. It takes the place of one that has its name. -/
def register (c : Catalog) (f : Factory) : Catalog :=
  match c with
  | [] => [f]
  | g :: rest => if g.name = f.name then f :: rest else g :: register rest f

/-- The factory of a name. -/
def find? (c : Catalog) (name : String) : Option Factory := List.find? (·.name == name) c

/-- The factories that every session starts with. -/
def system (c : Catalog) : List Factory := List.filter (·.mode = .system) c

/-- Names and modes. -/
def names (c : Catalog) : List (String × Mode) := List.map (fun f => (f.name, f.mode)) c

/-- The usual catalog. -/
def standard (r : Repository) : Catalog :=
  [.display RendererTable.standard, .dependencies r.resolve]

end Catalog

end Notebook.Capability

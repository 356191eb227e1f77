import Notebook.Display
import Notebook.Failure
import Notebook.Table
import Notebook.Artifact.Repository

/-!
Capabilities: what a host offers to the guest code of a session. An instance of a capability is an object
that guest code calls. It never touches the session that it is called from; it leaves demands behind,
which are met when the unit that is running has ended.
-/
namespace Notebook.Capability
open Notebook.Guest Notebook.Artifact

/-- When a capability is activated. -/
inductive Mode
  /-- For every session, before anything else is done in it. -/
  | system
  /-- When its name is asked for. -/
  | onDemand
  /-- Not by its name; this is left to whoever has the factory. -/
  | onEvent
  deriving DecidableEq, Repr

/-- A mode as it is shown. -/
def Mode.title : Mode → String
  | system => "System"
  | onDemand => "OnDemand"
  | onEvent => "OnEvent"

/-- What an instance is, whatever it is called. A session has at most one instance of a kind. -/
inductive Kind
  | display
  | dependencies
  | custom (number : Nat)
  deriving DecidableEq, Repr

/-- What an instance wants to be done in its session. -/
inductive Demand
  /-- A library shall be importable. -/
  | library (path : List Char)
  /-- Something shall be shown. -/
  | display (output : DisplayOutput)
  deriving DecidableEq, Repr

/-- What an instance does when it is called. -/
inductive Service
  | display (renderers : RendererTable)
  | dependencies (resolve : Coordinate → Except Failure DependencyNode)
  | custom (call : String → List Value → HostReply)

/-- What an instance has added to its session: the artifacts that were asked for, and the files of all
artifacts that were needed for them, as they were written first. -/
structure Added where
  coordinates : List Coordinate := []
  paths : List (List Char) := []
  deriving DecidableEq, Repr

end Notebook.Capability

import Notebook.Capability.Showing
import Notebook.Capability.Adding

/-!
The host of a session: the instances that have been made for it, what they keep, and what they want to be
done.
-/
namespace Notebook.Capability
open Notebook.Guest

/-- What the instances of a session keep. -/
structure Host where
  /-- What the instances do, by their identities. -/
  services : List Service := []
  /-- What instances have added, by their identities. -/
  added : Table Nat Added := []
  /-- What is to be done, oldest first. -/
  demands : List Demand := []

namespace Host

/-- Makes an instance. -/
def make (h : Host) (typeName : String) (methods : List MethodDoc) (service : Service) :
    HostObject × Host :=
  (⟨typeName, h.services.length, methods⟩, { h with services := h.services ++ [service] })

/-- Leaves demands behind. -/
def demand (h : Host) (ds : List Demand) : Host := { h with demands := h.demands ++ ds }

/-- Takes the demands that have been left. -/
def takeDemands (h : Host) : List Demand × Host := (h.demands, { h with demands := [] })

/-- What an instance has added. -/
def addedBy (h : Host) (identity : Nat) : Added := (h.added.get? identity).getD {}

/-- Calls an instance. -/
def call (object : HostObject) (method : String) (args : List Value) (h : Host) : HostReply × Host :=
  match h.services[object.identity]? with
  | some (.display renderers) =>
    match Showing.output renderers method args with
    | .ok output => (.value .unit, h.demand [.display output])
    | .error message => (.error message, h)
  | some (.dependencies resolve) =>
    match Adding.answer resolve (h.addedBy object.identity) method args with
    | .ok (v, new, added) =>
      let h := { h with added := h.added.put object.identity added }
      (.value v, h.demand (new.map .library))
    | .error message => (.error message, h)
  | some (.custom answer) => (answer method args, h)
  | none => (.error ("no object of type " ++ object.typeName), h)

/-- How guest code reaches the instances. -/
def calls : HostCalls Host := ⟨call⟩

end Host

end Notebook.Capability

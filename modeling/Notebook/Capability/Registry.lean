import Notebook.Table

/-!
Which capabilities are active in which sessions. A session has at most one instance of a type; the first
one that is registered stays until it is removed.
-/
namespace Notebook

/-- A registered instance and the name it is known by. -/
structure RegistryEntry (α : Type) where
  name : String
  value : α
  deriving DecidableEq, Repr

/-- The instances of all sessions by session and type, oldest first. -/
abbrev Registry (σ τ α : Type) := Table (σ × τ) (RegistryEntry α)

namespace Registry

variable {σ τ α : Type} [DecidableEq σ] [DecidableEq τ]

/-- The instance of a type in a session. -/
def instance? (r : Registry σ τ α) (session : σ) (type : τ) : Option α :=
  (r.get? (session, type)).map (·.value)

/-- Registers an instance unless there is one of its type. The instance that is registered afterwards
comes along. -/
def register (r : Registry σ τ α) (session : σ) (type : τ) (name : String) (a : α) :
    α × Registry σ τ α :=
  match r.instance? session type with
  | some b => (b, r)
  | none => (a, r.put (session, type) ⟨name, a⟩)

/-- The entries of a session. -/
def ofSession (r : Registry σ τ α) (session : σ) : List (RegistryEntry α) :=
  (r.filter (·.1.1 = session)).map (·.2)

/-- The oldest instance of a name in a session. -/
def named? (r : Registry σ τ α) (session : σ) (name : String) : Option α :=
  ((r.ofSession session).find? (·.name == name)).map (·.value)

/-- Takes an instance out. -/
def remove (r : Registry σ τ α) (session : σ) (type : τ) : Registry σ τ α := r.erase (session, type)

/-- Takes all instances of a session out. How many there were comes along. -/
def cleanup (r : Registry σ τ α) (session : σ) : Nat × Registry σ τ α :=
  ((r.ofSession session).length, r.filter (·.1.1 ≠ session))

/-- The names that are known in a session, in order. -/
def names (r : Registry σ τ α) (session : σ) : List String :=
  ((r.ofSession session).map (·.name)).mergeSort fun a b => !(b < a)

end Registry

end Notebook

import Notebook.Guest.Check
import Notebook.Snippet
import Notebook.Table

/-!
The snippets of a session and the names they give meaning to. A name stands for the snippet that it is
bound to, if that snippet is defined, and else for the host object that carries the name.
-/
namespace Notebook.Guest
open Notebook.Text Notebook.Syntax

/-- A function that can be called. -/
structure Function where
  name : String
  params : List (String × Ty)
  result : Ty
  body : Block
  signature : String
  doc : String

/-- What a snippet gives its name. -/
inductive Definition
  | none
  | variable (ty : Ty) (value : Value)
  | function (f : Function)
  | struct (signature doc : String)
  | imports

/-- A declaration that is looked at again when a name it uses changes. -/
inductive Declaration
  | function (header : FnHeader) (body : Block)
  | struct (decl : StructDecl)

/-- A snippet as it is kept. -/
structure Record where
  kind : SnippetKind
  source : List Char
  status : Status := .nonexistent
  name : Option String
  definition : Definition := .none
  /-- The names that the snippet depends on. -/
  refs : List String := []
  /-- The names that are missing, in order. -/
  unresolved : List String := []
  diagnostics : List Diagnostic := []
  declaration : Option Declaration := none
  /-- Where the snippet starts in the unit that it came with. -/
  origin : Position

/-- All that a session's code has left behind. -/
structure Store where
  /-- The snippets, in the order of their numbers. -/
  records : List Record := []
  bindings : Table String SnippetId := []
  /-- The host objects in the order of their names. -/
  hosts : Table String HostObject := []
  /-- The libraries that can be imported. -/
  libraries : List String := []
  /-- What has been printed and not been taken yet. -/
  output : List Char := []
  /-- The number of the next value without a name. -/
  nextValue : Nat := 1
  stopped : Bool := false

/-- Gives a name a value in a table that is kept in the order of its names. -/
def putOrdered {α} (name : String) (a : α) : Table String α → Table String α
  | [] => [(name, a)]
  | (n, b) :: rest =>
    if name < n then (name, a) :: (n, b) :: rest
    else if n = name then (name, a) :: rest
    else (n, b) :: putOrdered name a rest

/-- How a name can be called. -/
inductive Callee
  | ready (f : Function) (id : SnippetId)
  | waiting (missing : List String)

namespace Store

/-- The snippet of a number. -/
def record? (s : Store) (id : SnippetId) : Option Record :=
  if id = 0 then none else s.records[id - 1]?

/-- Changes the snippet of a number. -/
def update (s : Store) (id : SnippetId) (f : Record → Record) : Store :=
  if id = 0 then s else { s with records := s.records.modify (id - 1) f }

/-- The snippets with their numbers. -/
def numbered (s : Store) : List (SnippetId × Record) := s.records.zipIdx.map fun (r, i) => (i + 1, r)

/-- Adds a snippet under the next number. -/
def allocate (s : Store) (r : Record) : SnippetId × Store :=
  (s.records.length + 1, { s with records := s.records ++ [r] })

/-- The snippet that a name is bound to, whatever its status is. -/
def binding? (s : Store) (name : String) : Option SnippetId := s.bindings.get? name

/-- The snippet that a name is bound to, if it is defined. -/
def bound? (s : Store) (name : String) : Option Record := do
  let id ← s.binding? name
  let r ← s.record? id
  if r.status.isDefined then some r else none

/-- The host object of a name. -/
def host? (s : Store) (name : String) : Option HostObject := s.hosts.get? name

/-- What a name stands for. -/
def globals (s : Store) : Globals := fun name =>
  match s.bound? name with
  | some r =>
    match r.definition with
    | .variable ty _ => some (.variable ty)
    | .function f => some (.function (f.params.map (·.2)) f.result)
    | .struct .. => some .struct
    | .none | .imports => none
  | none => (s.host? name).map fun h => .host h.typeName h.methods

/-- The value of a name. -/
def read? (s : Store) (name : String) : Option Value :=
  match s.bound? name with
  | some r =>
    match r.definition with
    | .variable _ v => some v
    | _ => none
  | none => (s.host? name).map .host

/-- Gives a variable a new value, if there is one of that name. -/
def write? (s : Store) (name : String) (v : Value) : Option Store := do
  let id ← s.binding? name
  let r ← s.record? id
  match r.definition with
  | .variable ty _ => some (s.update id fun r => { r with definition := .variable ty v })
  | _ => none

/-- How a name can be called. -/
def callee? (s : Store) (name : String) : Option Callee := do
  let id ← s.binding? name
  let r ← s.record? id
  match r.definition, r.status with
  | .function f, .valid => some (.ready f id)
  | .function _, .recoverableDefined => some (.waiting r.unresolved)
  | _, _ => none

def print (s : Store) (text : List Char) : Store := { s with output := s.output ++ text }

/-- Binds a name to a snippet. -/
def bind (s : Store) (name : String) (id : SnippetId) : Store :=
  { s with bindings := s.bindings.put name id }

/-- Frees a name. -/
def unbind (s : Store) (name : String) : Store :=
  { s with bindings := s.bindings.erase name }

/-- What is known of a snippet. -/
def info? (s : Store) (id : SnippetId) : Option SnippetInfo :=
  (s.record? id).map fun r => ⟨id, r.kind, r.status, r.name, r.source⟩

def diagnostics (s : Store) (id : SnippetId) : List Diagnostic := ((s.record? id).map (·.diagnostics)).getD []

/-- The names that a snippet waits for. -/
def unresolved (s : Store) (id : SnippetId) : List String := ((s.record? id).map (·.unresolved)).getD []

/-- The value of a snippet as it is shown, and its type. -/
def valueOf? (s : Store) (id : SnippetId) : Option (List Char × String) := do
  let r ← s.record? id
  match r.definition with
  | .variable ty v => some (v.text, if ty = .unknown then v.typeName else ty.name)
  | _ => none

/-- What has been printed; it counts as taken afterwards. -/
def takeOutput (s : Store) : List Char × Store := (s.output, { s with output := [] })

/-- Ends the session's code for good. -/
def stop (s : Store) : Store := { s with stopped := true, hosts := [], bindings := [] }

end Store

end Notebook.Guest

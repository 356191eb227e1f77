import Notebook.Guest.Analysis

/-!
How snippets come to their statuses. A new snippet that takes a name supersedes the one that had it, and
the declarations that use the name are looked at again, and then those that use a declaration which
thereby became defined or undefined; each is looked at once.
-/
namespace Notebook.Guest
open Notebook.Text

/-- An objection as a complaint about the snippet that starts at `origin`. -/
def CheckError.diagnostic (e : CheckError) (origin : Position) : Diagnostic :=
  ⟨e.objection.message, e.span.relativeTo? origin⟩

/-- A snippet after its declaration has been looked at again. A declaration that is refused keeps the
definition that it had. -/
def Record.rechecked (r : Record) (d : Declaration) (g : Globals) : Record :=
  match d.analyze g with
  | .error e =>
    { r with status := d.failedStatus, diagnostics := [e.diagnostic r.origin], unresolved := [] }
  | .ok a =>
    { r with
      status := a.status, diagnostics := [], unresolved := a.unresolved, definition := a.definition
      refs := a.refs.foldl (fun names n => insertNew n names) r.refs }

namespace Store

/-- A change of a snippet's status, and the event that tells of it. -/
def transition (s : Store) (id : SnippetId) (status : Status) (cause : Option SnippetId) :
    List SnippetEvent × Store :=
  match s.record? id with
  | none => ([], s)
  | some r =>
    ([{ snippet := id, kind := r.kind, source := r.source, previous := r.status, status, cause }],
      s.update id fun r => { r with status })

/-- Looks at a declaration again. The names that come along are those whose users have to be looked at
again in turn. -/
def recheck (s : Store) (cause id : SnippetId) : List SnippetEvent × List String × Store :=
  match s.record? id with
  | none => ([], [], s)
  | some r =>
    match r.declaration with
    | none => ([], [], s)
    | some d =>
      let now := r.rechecked d s.globals
      let event : SnippetEvent := {
        snippet := id, kind := r.kind, source := r.source, previous := r.status, status := now.status
        cause := some cause }
      let changed := if r.status.isDefined = now.status.isDefined then [] else r.name.toList
      ([event], changed, s.update id fun _ => now)

/-- Looks at several declarations again, one after the other. -/
def recheckEach (s : Store) (cause : SnippetId) :
    List SnippetId → List SnippetEvent × List String × Store
  | [] => ([], [], s)
  | id :: ids =>
    let (events, names, s) := recheck s cause id
    let (moreEvents, moreNames, s) := recheckEach s cause ids
    (events ++ moreEvents, names ++ moreNames, s)

theorem length_names_recheck (s : Store) (cause id : SnippetId) :
    (recheck s cause id).2.1.length ≤ 1 := by
  unfold recheck
  split
  · simp
  · split
    · simp
    · dsimp only
      split
      · simp
      · rename_i r _ _ _ _ _
        cases r.name <;> simp

theorem length_names_recheckEach (s : Store) (cause : SnippetId) (ids : List SnippetId) :
    (recheckEach s cause ids).2.1.length ≤ ids.length := by
  induction ids generalizing s with
  | nil => simp [recheckEach]
  | cons id ids ih =>
    have h := length_names_recheck s cause id
    have h' := ih (recheck s cause id).2.2
    have : (recheckEach s cause (id :: ids)).2.1 =
        (recheck s cause id).2.1 ++ (recheckEach (recheck s cause id).2.2 cause ids).2.1 := rfl
    rw [this, List.length_append, List.length_cons]
    omega

/-- Whether a snippet is a declaration in use that mentions a name. -/
def isDependent (s : Store) (name : String) (id : SnippetId) : Bool :=
  match s.record? id with
  | none => false
  | some r => r.status.isActive && r.declaration.isSome && r.refs.contains name

/-- The snippets that use a name. -/
def dependents (s : Store) (name : String) (ids : List SnippetId) : List SnippetId :=
  ids.filter (s.isDependent name)

/-- The snippets that do not use a name. -/
def independents (s : Store) (name : String) (ids : List SnippetId) : List SnippetId :=
  ids.filter fun id => !s.isDependent name id

theorem length_dependents_add (s : Store) (name : String) (ids : List SnippetId) :
    (s.dependents name ids).length + (s.independents name ids).length = ids.length := by
  induction ids with
  | nil => rfl
  | cons id ids ih =>
    simp only [dependents, independents, List.filter_cons] at ih ⊢
    cases s.isDependent name id <;> simp <;> omega

/-- Looks again at what uses one of the pending names, last name first, among the snippets that are left
to be looked at. -/
def recheckPending (s : Store) (cause : SnippetId) (left : List SnippetId) :
    List String → List SnippetEvent × Store
  | [] => ([], s)
  | name :: pending =>
    let found := recheckEach s cause (s.dependents name left)
    let rest := recheckPending found.2.2 cause (s.independents name left)
      (found.2.1.reverse ++ pending)
    (found.1 ++ rest.1, rest.2)
termination_by pending => left.length + pending.length
decreasing_by
  have h := length_names_recheckEach s cause (s.dependents name left)
  have h' := length_dependents_add s name left
  simp only [List.length_append, List.length_reverse, List.length_cons]
  omega

/-- Looks again at what uses a name, on account of the snippet `cause`. -/
def recheckDependents (s : Store) (name : String) (cause : SnippetId) : List SnippetEvent × Store :=
  recheckPending s cause ((s.numbered.map (·.1)).filter (· ≠ cause)) [name]

/-- Gives a name to a snippet. The one that had it is overwritten, and what uses it is looked at again. -/
def bindName (s : Store) (name : String) (id : SnippetId) : List SnippetEvent × Store :=
  let previous := s.binding? name
  let s := s.bind name id
  let (events, s) :=
    match previous with
    | some p => if p ≠ id then s.transition p .overwritten (some id) else ([], s)
    | none => ([], s)
  let (more, s) := s.recheckDependents name id
  (events ++ more, s)

/-- Gives a new snippet its status and, if it is to have it, its name. -/
def finish (s : Store) (id : SnippetId) (status : Status) (fault : Option FaultReport) (binds : Bool) :
    List SnippetEvent × Store :=
  match s.record? id with
  | none => ([], s)
  | some r =>
    let event : SnippetEvent := {
      snippet := id, kind := r.kind, source := r.source, previous := .nonexistent, status, fault }
    let s := s.update id fun r => { r with status }
    match if binds then r.name else none with
    | none => ([event], s)
    | some name =>
      let (events, s) := s.bindName name id
      (event :: events, s)

/-- Keeps code as a rejected snippet. -/
def reject (s : Store) (kind : SnippetKind) (source : List Char) (origin : Position) (d : Diagnostic) :
    List SnippetEvent × Store :=
  let (id, s) := s.allocate { kind, source, name := none, origin, diagnostics := [d] }
  s.finish id .rejected none false

/-- Drops a snippet that takes part in the session. -/
def drop (s : Store) (id : SnippetId) : List SnippetEvent × Store :=
  match s.record? id with
  | none => ([], s)
  | some r =>
    if !r.status.isActive then ([], s)
    else
      let (events, s) := s.transition id .dropped none
      match r.name with
      | none => (events, s)
      | some name =>
        if s.binding? name = some id then
          let (more, s) := (s.unbind name).recheckDependents name id
          (events ++ more, s)
        else (events, s)

end Store

end Notebook.Guest

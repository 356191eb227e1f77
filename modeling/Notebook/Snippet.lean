import Notebook.Text.Position
import Notebook.Decimal.Text

/-!
Snippets: the numbered pieces of code that a session is made of, the statuses they pass through, and the
events that tell of it.
-/
namespace Notebook
open Notebook.Text

/-- The number of a snippet. Numbers start at one and are not used again. -/
abbrev SnippetId := Nat

/-- A snippet's number as it is shown. -/
def SnippetId.label (id : SnippetId) : String := "#" ++ String.ofList (Decimal.natText id)

/-- What a snippet is. -/
inductive SnippetKind
  | declaration
  | expression
  | statement
  | imports
  deriving DecidableEq, Repr

/-- What has become of a snippet. -/
inductive Status
  /-- It was not there. -/
  | nonexistent
  | valid
  /-- It is defined, but names that it needs are missing. -/
  | recoverableDefined
  /-- It is not defined, since names that it needs are missing. -/
  | recoverableUndefined
  | rejected
  /-- Another snippet has taken its name. -/
  | overwritten
  | dropped
  deriving DecidableEq, Repr

namespace Status

/-- Whether the snippet takes part in the session. -/
def isActive : Status → Bool
  | valid | recoverableDefined | recoverableUndefined => true
  | _ => false

/-- Whether other snippets can use the snippet. -/
def isDefined : Status → Bool
  | valid | recoverableDefined => true
  | _ => false

theorem isActive_of_isDefined {s : Status} (h : s.isDefined = true) : s.isActive = true := by
  cases s <;> simp_all [isActive, isDefined]

end Status

/-- A fault as it is told: the name of its class, its wording, and its frames, innermost first. -/
structure FaultReport where
  className : String
  message : String
  stack : List String
  deriving DecidableEq, Repr

/-- A complaint about a snippet, with its place in the snippet's source if that is known. -/
structure Diagnostic where
  message : String
  span : Option Span
  deriving DecidableEq, Repr

/-- A change of one snippet. -/
structure SnippetEvent where
  snippet : SnippetId
  kind : SnippetKind
  source : List Char
  previous : Status
  status : Status
  /-- The snippet that brought this change about, if it is another one. -/
  cause : Option SnippetId := none
  fault : Option FaultReport := none
  deriving DecidableEq, Repr

/-- What is known of a snippet. -/
structure SnippetInfo where
  id : SnippetId
  kind : SnippetKind
  status : Status
  name : Option String
  source : List Char
  deriving DecidableEq, Repr

/-- Something that may be written at the caret, and whether it has the type that is wanted there. -/
structure Suggestion where
  continuation : String
  matchesType : Bool
  deriving DecidableEq, Repr

/-- What is told about a name. -/
structure Documentation where
  signature : String
  doc : String
  deriving DecidableEq, Repr

end Notebook

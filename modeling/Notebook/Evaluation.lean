import Notebook.Snippet
import Notebook.Display

/-!
What an evaluation came to: the events of the snippets it made and of those it touched, what was printed
and displayed, and what went wrong.
-/
namespace Notebook

/-- What went wrong with a snippet. -/
inductive Problem
  | rejected (diagnostics : List Diagnostic)
  | unresolved (names : List String)
  | fault (f : FaultReport)
  deriving DecidableEq, Repr

/-- A problem of a snippet, with the source it is told with. -/
structure SnippetProblem where
  snippet : SnippetId
  source : List Char
  problem : Problem
  deriving DecidableEq, Repr

/-- What came of an evaluation. -/
structure EvaluationResult where
  /-- Events of the snippets that were made. -/
  direct : List SnippetEvent := []
  /-- Events of earlier snippets. -/
  outdated : List SnippetEvent := []
  success : Bool := true
  /-- The value of the last expression as it is shown, and its type. -/
  value : Option (List Char × String) := none
  problems : List SnippetProblem := []
  displays : List DisplayOutput := []
  stdout : List Char := []
  /-- What is left over that needs more input. -/
  incomplete : Option (List Char) := none
  deriving DecidableEq, Repr

namespace EvaluationResult

/-- The snippets that were made. -/
def made (r : EvaluationResult) : List SnippetId := r.direct.map (·.snippet)

/-- The earlier snippets that were touched. -/
def touched (r : EvaluationResult) : List SnippetId := r.outdated.map (·.snippet)

/-- Sorts events in: those that another snippet brought about are of earlier snippets. -/
def absorb (r : EvaluationResult) (events : List SnippetEvent) : EvaluationResult :=
  { r with
    direct := r.direct ++ events.filter (·.cause.isNone)
    outdated := r.outdated ++ events.filter (·.cause.isSome) }

/-- Whether an event tells of a failure. -/
def failed (e : SnippetEvent) : Bool := e.fault.isSome || e.status ≠ .valid

/-- Decides whether the evaluation was a success. -/
def classify (r : EvaluationResult) : EvaluationResult :=
  { r with success := r.incomplete.isNone && !r.direct.any failed }

/-- The last snippet, if it is an expression whose value is to be shown. -/
def trailingExpression? (r : EvaluationResult) : Option SnippetId :=
  match r.direct.getLast? with
  | some last => if r.success && last.kind = .expression then some last.snippet else none
  | none => none

end EvaluationResult

end Notebook

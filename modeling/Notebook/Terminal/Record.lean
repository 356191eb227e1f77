import Notebook.Json.Writer
import Notebook.Evaluation

/-!
The records of evaluated cells that other programs read.
-/
namespace Notebook.Terminal
open Notebook.Json Notebook.Text

/-- What is told about an evaluated cell. -/
structure CellReport where
  name : String
  line : Nat
  /-- The cells that went stale. -/
  stale : List String
  result : EvaluationResult
  deriving DecidableEq, Repr

namespace Record

def string (s : String) : Document := .text s.toList

def kind : SnippetKind → Document
  | .declaration => string "declaration"
  | .expression => string "expression"
  | .statement => string "statement"
  | .imports => string "import"

def status : Status → Document
  | .nonexistent => string "nonexistent"
  | .valid => string "valid"
  | .recoverableDefined => string "recoverable_defined"
  | .recoverableUndefined => string "recoverable_undefined"
  | .rejected => string "rejected"
  | .overwritten => string "overwritten"
  | .dropped => string "dropped"

def fault (f : FaultReport) : Document := .object [
  ("class_name", string f.className),
  ("message", string f.message),
  ("stack", .list (f.stack.map string))]

def event (e : SnippetEvent) : Document := .object [
  ("snippet", .number e.snippet),
  ("kind", kind e.kind),
  ("source", .text e.source),
  ("previous", status e.previous),
  ("status", status e.status),
  ("cause", .ofOption .number e.cause),
  ("fault", .ofOption fault e.fault)]

def span (s : Span) : Document := .object [
  ("start_line", .number s.start.line),
  ("start_col", .number s.start.column),
  ("end_line", .number s.stop.line),
  ("end_col", .number s.stop.column)]

def diagnostic (d : Diagnostic) : Document := .object [
  ("message", string d.message),
  ("span", .ofOption span d.span)]

/-- The type of a problem and what there is to say about it. -/
def problem : Problem → Document
  | .rejected ds => .object [("type", string "rejected"), ("detail", .list (ds.map diagnostic))]
  | .unresolved names => .object [("type", string "unresolved"), ("detail", .list (names.map string))]
  | .fault f => .object [("type", string "fault"), ("detail", fault f)]

def snippetProblem (p : SnippetProblem) : Document := .object [
  ("snippet", .number p.snippet),
  ("source", .text p.source),
  ("problem", problem p.problem)]

def display (d : DisplayOutput) : Document := .object [
  ("mime_type", string d.mimeType),
  ("data", .text d.data)]

def result (r : EvaluationResult) : Document := .object [
  ("direct", .list (r.direct.map event)),
  ("outdated", .list (r.outdated.map event)),
  ("outcome", string (if r.success then "SUCCESS" else "FAILURE")),
  ("value", .ofOption (fun v => .list [.text v.1, string v.2]) r.value),
  ("problems", .list (r.problems.map snippetProblem)),
  ("displays", .list (r.displays.map display)),
  ("stdout", .text r.stdout),
  ("incomplete", .ofOption .text r.incomplete)]

/-- The record of a cell. -/
def cell (c : CellReport) : Document := .object [
  ("name", string c.name),
  ("line", .number c.line),
  ("stale", .list (c.stale.map string)),
  ("result", result c.result)]

/-- The records of cells. -/
def cells (cs : List CellReport) : List Char := (Document.list (cs.map cell)).pretty

end Record

end Notebook.Terminal

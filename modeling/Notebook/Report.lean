import Notebook.Evaluation
import Notebook.Text.Lines

/-!
Problems in plain text: the message, and the line it is about with marks under the place.
-/
namespace Notebook
open Notebook.Text Notebook.Decimal

/-- A line of text. -/
def textLine (cs : List Char) : List Char := cs ++ ['\n']

/-- The line that a span starts on, with marks under what the span covers of it. At least one mark is
made, and none beyond the end of the line. -/
def excerpt (line : List Char) (span : Span) : List Char :=
  let number := natText span.start.line
  let gutter := List.replicate number.length ' '
  let width := line.length
  let start := min span.start.column width
  let stop := if span.stop.line = span.start.line then min span.stop.column width else width
  let marks := max (stop - start) 1
  textLine (gutter ++ "--> ".toList ++ number ++ ':' :: natText (span.start.column + 1)) ++
    textLine (gutter ++ " |".toList) ++
    textLine (number ++ " | ".toList ++ line) ++
    textLine (gutter ++ " | ".toList ++ List.replicate start ' ' ++ List.replicate marks '^')

/-- A complaint about a source. -/
def renderDiagnostic (source : List Char) (d : Diagnostic) : List Char :=
  textLine ("error: ".toList ++ d.message.toList) ++
    match d.span with
    | none => []
    | some span =>
      match (lines source)[span.start.line - 1]? with
      | none => []
      | some line => excerpt line span

/-- A fault: its class and message, and its frames. -/
def renderFault (f : FaultReport) : List Char :=
  textLine (f.className.toList ++ ": ".toList ++ f.message.toList) ++
    f.stack.flatMap fun frame => textLine ("    at ".toList ++ frame.toList)

/-- A problem of a snippet. -/
def renderProblem (p : SnippetProblem) : List Char :=
  match p.problem with
  | .rejected [] => textLine ("error: snippet ".toList ++ p.snippet.label.toList ++ " was rejected".toList)
  | .rejected ds => ds.flatMap (renderDiagnostic p.source)
  | .unresolved names =>
    textLine ("note: snippet ".toList ++ p.snippet.label.toList ++ " is waiting for ".toList ++
      join ", ".toList (names.map fun n => '\x60' :: n.toList ++ ['\x60']))
  | .fault f => renderFault f

end Notebook

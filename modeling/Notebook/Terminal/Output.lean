import Notebook.Terminal.Record
import Notebook.Report
import Notebook.Sheet
import Notebook.Capability.Catalog

/-!
What is printed for people to read.
-/
namespace Notebook.Terminal
open Notebook.Text Notebook.Decimal Notebook.Capability

/-- What is printed for an evaluation: what it printed itself, what it showed, its value, and what went
wrong. -/
def resultText (r : EvaluationResult) : List Char :=
  (if r.stdout.isEmpty || r.stdout.getLast? = some '\n' then r.stdout else textLine r.stdout) ++
  r.displays.flatMap (fun d =>
    textLine ((if d.isHtml then '[' :: d.mimeType.toList ++ "] ".toList else []) ++ d.data)) ++
  (match r.value with
    | some (value, type) => textLine ("=> ".toList ++ value ++ " : ".toList ++ type.toList)
    | none => []) ++
  r.problems.flatMap renderProblem ++
  (match r.incomplete with
    | some rest => textLine ("incomplete input: ".toList ++ (lines rest).head?.getD [])
    | none => [])

/-- What is printed for an evaluated cell. -/
def cellText (c : CellReport) : List Char :=
  let outcome := if c.result.success then "ok" else "failed"
  '\n' :: textLine ('[' :: c.name.toList ++ "] ".toList ++ outcome.toList ++ " line ".toList ++
      natText c.line) ++
    resultText c.result ++
    c.stale.flatMap fun name =>
      textLine ("stale: cell \x60".toList ++ name.toList ++ "\x60 used definitions replaced here".toList)

/-- A name and the mode of a capability in columns. -/
def capabilityText (entry : String × Mode) : List Char :=
  let name := entry.1.toList
  name ++ List.replicate (14 - name.length) ' ' ++ ' ' :: entry.2.title.toList

/-- A failure of the program, with what brought it about if that is told. -/
def failureText (message : List Char) (cause : Option String) : List Char :=
  textLine ("Error: ".toList ++ message) ++
    match cause with
    | some c => textLine [] ++ textLine "Caused by:".toList ++ textLine ("    ".toList ++ c.toList)
    | none => []

end Notebook.Terminal

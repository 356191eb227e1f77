import Notebook.Text.Lines
import Notebook.Text.Blank
import Notebook.Decimal.Text

/-!
Sheets: texts that lines with a marker cut into cells. What follows the marker is the cell's title. What
stands before the first marker is a cell as well, unless it is blank.
-/
namespace Notebook
open Notebook.Text

/-- What the line before a cell starts with. -/
def cellMarker : List Char := "// %%".toList

/-- A cell: its name, its source, and the line that the source starts on, counted from one. -/
structure Cell where
  name : String
  source : List Char
  line : Nat
  deriving DecidableEq, Repr

/-- The title on a line that has the marker; it may be empty. -/
def markerTitle? (line : List Char) : Option (List Char) :=
  let line := trimStart line
  if cellMarker.isPrefixOf line then some (trim (line.drop cellMarker.length)) else none

/-- The cell that a title and lines make, as the cell of a number. A blank one without a title is left
out. -/
def Cell.make? (number : Nat) (title : List Char) (body : List (List Char)) (line : Nat) : Option Cell :=
  let source := trimEnd (join ['\n'] body)
  if title.isEmpty then
    if source.isEmpty then none
    else some ⟨"cell-" ++ String.ofList (Decimal.natText number), source, line⟩
  else some ⟨String.ofList title, source, line⟩

/-- The cells of the lines from line `at` on, of which there are `made` before. The cell that is being
read has a title and lines, the last line first, and starts on line `start`. -/
def cellsFrom (made : Nat) (title : List Char) (body : List (List Char)) (start line : Nat) :
    List (List Char) → List Cell
  | [] => (Cell.make? (made + 1) title body.reverse start).toList
  | text :: rest =>
    match markerTitle? text with
    | none => cellsFrom made title (text :: body) start (line + 1) rest
    | some next =>
      match Cell.make? (made + 1) title body.reverse start with
      | none => cellsFrom made next [] (line + 1) (line + 1) rest
      | some cell => cell :: cellsFrom (made + 1) next [] (line + 1) (line + 1) rest

/-- The cells of a sheet. -/
def cells (text : List Char) : List Cell := cellsFrom 0 [] [] 1 1 (lines text)

end Notebook

import Notebook.Evaluation
import Notebook.Staleness.CauseGraph
import Notebook.Table

/-!
Which cells are out of date. A cell is told by a key; it goes stale when the evaluation of another cell
touches a snippet that is the cell's own, and stays so until it is evaluated again.
-/
namespace Notebook

/-- What is known about cells with keys of type `κ`. -/
structure Tracker (κ : Type) where
  /-- The snippets that a cell's last evaluation made. -/
  cells : Table κ (List SnippetId) := []
  /-- The cell that a snippet belongs to. -/
  owners : Table SnippetId κ := []
  /-- The stale cells, in the order in which they went stale. -/
  stale : List κ := []
  causes : CauseGraph := {}

namespace Tracker

variable {κ : Type} [DecidableEq κ]

/-- The cell that a snippet belongs to. -/
def cellOf? (t : Tracker κ) (id : SnippetId) : Option κ := t.owners.get? id

/-- The snippets that a cell's last evaluation made. -/
def snippets (t : Tracker κ) (cell : κ) : List SnippetId := (t.cells.get? cell).getD []

def isStale (t : Tracker κ) (cell : κ) : Bool := t.stale.contains cell

/-- The cells that go stale as snippets are touched, apart from the cell itself and those that are stale
already. -/
def newlyStale (t : Tracker κ) (cell : κ) (made : List SnippetId) (new : List κ) :
    List SnippetId → List κ
  | [] => new
  | id :: ids =>
    match if id ∈ made then none else t.cellOf? id with
    | none => newlyStale t cell made new ids
    | some owner =>
      if owner = cell ∨ owner ∈ t.stale ∨ owner ∈ new then newlyStale t cell made new ids
      else newlyStale t cell made (new ++ [owner]) ids

/-- Notes who outdated whom. -/
def noteCauses (g : CauseGraph) (outdated : List SnippetEvent) : CauseGraph :=
  outdated.foldl (fun g e =>
    match e.cause with
    | some cause => g.add cause e.snippet
    | none => g) g

/-- Gives the snippets that are still a cell's own away. -/
def disown (owners : Table SnippetId κ) (cell : κ) (ids : List SnippetId) : Table SnippetId κ :=
  ids.foldl (fun owners id => if owners.get? id = some cell then owners.erase id else owners) owners

/-- Notes what an evaluation of a cell came to. The cells that thereby went stale come along. -/
def record (t : Tracker κ) (cell : κ) (r : EvaluationResult) : List κ × Tracker κ :=
  let t := { t with causes := noteCauses t.causes r.outdated, stale := t.stale.filter (· ≠ cell) }
  let made := r.made
  let new := t.newlyStale cell made [] r.touched
  let owners := disown t.owners cell (t.snippets cell)
  (new, { t with
    cells := t.cells.put cell made
    owners := made.foldl (fun owners id => owners.put id cell) owners
    stale := t.stale ++ new })

/-- Forgets a cell. -/
def removeCell (t : Tracker κ) (cell : κ) : Tracker κ :=
  { t with
    cells := t.cells.erase cell
    owners := (t.snippets cell).foldl (fun owners id => owners.erase id) t.owners
    stale := t.stale.filter (· ≠ cell) }

/-- The cells of what a snippet outdated in the end, apart from its own. -/
def cellsAffectedBy (t : Tracker κ) (id : SnippetId) : List κ :=
  (t.causes.affectedBy id).foldl (fun cells affected =>
    match t.cellOf? affected with
    | some owner => if some owner = t.cellOf? id ∨ owner ∈ cells then cells else cells ++ [owner]
    | none => cells) []

end Tracker

end Notebook

import Notebook.Syntax.Tree
import Notebook.Text.Blank

/-!
The text of each statement of a unit. A slice starts where its statement starts, so that comments and
blanks before it do not belong to it, and places can be told from its start on.
-/
namespace Notebook.Guest
open Notebook.Text Notebook.Syntax

/-- A piece of a unit and the place at which it starts. -/
structure Slice where
  source : List Char
  origin : Position
  deriving DecidableEq, Repr

namespace Slice

/-- The place of the first character that is not blank. -/
def start (unit : List Char) : Position :=
  positionOf unit (width unit - width (trimStart unit))

/-- A unit as one piece. -/
def whole (unit : List Char) : Slice := ⟨trim unit, start unit⟩

/-- The piece of a unit that is a single statement: all from the start of the statement on. -/
def ofSingle (unit : List Char) (stmt : Stmt) : Slice :=
  let origin := stmt.span.start
  match offsetOf? unit origin with
  | some offset =>
    let source := trim (dropBytes unit offset)
    if source.isEmpty then whole unit else ⟨source, origin⟩
  | none => whole unit

/-- The piece of a unit that one of its statements takes up. -/
def ofStmt (unit : List Char) (stmt : Stmt) : Slice :=
  match offsetOf? unit stmt.span.start, offsetOf? unit stmt.span.stop with
  | some first, some last =>
    if first < last then ⟨takeBytes (dropBytes unit first) (last - first), stmt.span.start⟩
    else whole unit
  | _, _ => whole unit

/-- The pieces of a unit that its statements take up. -/
def ofStmts (unit : List Char) : List Stmt → List Slice
  | [stmt] => [ofSingle unit stmt]
  | stmts => stmts.map (ofStmt unit)

end Slice

end Notebook.Guest

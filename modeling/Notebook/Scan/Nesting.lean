import Notebook.Scan.Lexeme

/-!
An estimate of how deep a text nests, taken from its tokens alone. Every open bracket is a level, and so
is every operator or keyword since the last comma or semicolon of the innermost group. Flat text is
overestimated; a chain of operators, calls or casts is never underestimated.
-/
namespace Notebook.Scan
open Notebook.Text

/-- The deepest text that is parsed. -/
def nestingLimit : Nat := 256

/-- The open groups, innermost first, each with the levels that it holds beside its own, and the depth,
kept up to date with them. -/
structure Nesting where
  inner : Nat := 0
  outer : List Nat := []
  depth : Nat := 1
  deriving DecidableEq, Repr

/-- The nesting after one more significant token. A closing bracket that answers no opening one changes
nothing. -/
def Nesting.step (n : Nesting) (t : Token) : Nesting :=
  if t.kind = .punctuation then
    if t.isAny ["(", "[", "\x7b"] then ⟨0, n.inner :: n.outer, n.depth + 1⟩
    else if t.isAny [")", "]", "\x7d"] then
      match n.outer with
      | [] => n
      | weight :: outer => ⟨weight, outer, n.depth - (n.inner + 1)⟩
    else if t.isAny [";", ","] then ⟨0, n.outer, n.depth - n.inner⟩
    else ⟨n.inner + 1, n.outer, n.depth + 1⟩
  else if t.kind = .keyword then ⟨n.inner + 1, n.outer, n.depth + 1⟩
  else n

/-- The first token after which the depth exceeds the limit. -/
def overflowFrom? (limit : Nat) (n : Nesting) : List Token → Option Token
  | [] => none
  | t :: rest =>
    let n := n.step t
    if n.depth > limit then some t else overflowFrom? limit n rest

/-- The first significant token of a text at which its estimated depth exceeds the limit. -/
def nestingOverflow? (cs : List Char) (limit : Nat) : Option Token :=
  overflowFrom? limit {} ((tokens cs).filter (·.isSignificant))

end Notebook.Scan

import Notebook.Text.Offset

/-!
Places in a text: a line counted from one and a column counted in characters from zero. A line ends at a
line feed and at nothing else.
-/
namespace Notebook.Text

/-- A place in a text. -/
structure Position where
  line : Nat
  column : Nat
  deriving DecidableEq, Repr, Inhabited

namespace Position

/-- The place before the first character. -/
def origin : Position := ⟨1, 0⟩

/-- The place after a character that stands at `p`. -/
def next (p : Position) (c : Char) : Position :=
  if c = '\n' then ⟨p.line + 1, 0⟩ else ⟨p.line, p.column + 1⟩

/-- The place after a text that starts at `p`. -/
def after (p : Position) (cs : List Char) : Position := cs.foldl next p

/-- The order in which places follow each other. -/
def before (p q : Position) : Bool := p.line < q.line || (p.line == q.line && p.column < q.column)

end Position

/-- The place of a byte offset. -/
def positionOf (cs : List Char) (offset : Nat) : Position := Position.origin.after (takeBytes cs offset)

/-- The text from the start of line `n` on, with the offset at which that line starts. -/
def lineFrom? (cs : List Char) (n : Nat) (offset : Nat) : Option (List Char × Nat) :=
  match n with
  | 0 => none
  | 1 => some (cs, offset)
  | n + 2 =>
    match cs.dropWhile (· ≠ '\n') with
    | [] => none
    | _ :: rest => lineFrom? rest (n + 1) (offset + (width cs - width rest))

/-- The byte offset of a place. A column past the end of the text stands for the end of the text; a
column past the end of its line runs on into the next lines. -/
def offsetOf? (cs : List Char) (p : Position) : Option Nat :=
  (lineFrom? cs p.line 0).map fun (rest, offset) => offset + width (rest.take p.column)

/-- The stretch of text between two places. -/
structure Span where
  start : Position
  stop : Position
  deriving DecidableEq, Repr, Inhabited

namespace Span

/-- The span that stands for no place in particular. -/
def none : Span := ⟨Position.origin, Position.origin⟩

/-- From the start of one span to the end of another. -/
def upTo (a b : Span) : Span := ⟨a.start, b.stop⟩

/-- The span as seen from a text that starts at `origin`; nothing if the span starts on an earlier line.
On the line of the origin columns count from the origin. -/
def relativeTo? (s : Span) (origin : Position) : Option Span :=
  if s.start.line = 0 || s.start.line < origin.line then Option.none
  else
    let shift (p : Position) : Position :=
      ⟨p.line - origin.line + 1, if p.line = origin.line then p.column - origin.column else p.column⟩
    some ⟨shift s.start, shift s.stop⟩

end Span

end Notebook.Text

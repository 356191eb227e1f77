import Notebook.Guest.Value

/-!
Values made ready to be looked at. A table of renderers is gone through in order, and the first one that
accepts a value renders it; a value that none accepts is shown as text.
-/
namespace Notebook
open Notebook.Guest Notebook.Decimal

/-- Something to be looked at: its media type and its data. -/
structure DisplayOutput where
  mimeType : String
  data : List Char
  deriving DecidableEq, Repr

namespace DisplayOutput

def text (data : List Char) : DisplayOutput := ⟨"text/plain", data⟩

def html (data : List Char) : DisplayOutput := ⟨"text/html", data⟩

def isHtml (d : DisplayOutput) : Bool := d.mimeType == "text/html"

end DisplayOutput

/-- A character as it is written in markup. -/
def escapeChar (c : Char) : List Char :=
  if c = '&' then "&amp;".toList
  else if c = '<' then "&lt;".toList
  else if c = '>' then "&gt;".toList
  else if c = '"' then "&quot;".toList
  else if c = '\x27' then "&#39;".toList
  else [c]

/-- A text as it is written in markup. -/
def escapeHtml (cs : List Char) : List Char := cs.flatMap escapeChar

/-- A way to render the values that it accepts. -/
structure Renderer where
  name : String
  accepts : Value → Bool
  render : Value → DisplayOutput

/-- The elements of a list; anything else has none. -/
def elements : Value → List Value
  | .list items => items
  | _ => []

/-- A row of a table: the number of an element and the element. -/
def tableRow (entry : Value × Nat) : List Char :=
  "<tr><td>".toList ++ natText entry.2 ++ "</td><td>".toList ++ entry.1.text ++ "</td></tr>".toList

/-- The table of a list of numbers. -/
def numericTable (v : Value) : List Char :=
  "<table><tr><th>#</th><th>value</th></tr>".toList ++ (elements v).zipIdx.flatMap tableRow ++
    "</table>".toList

/-- An element of a list in markup. -/
def listItem (v : Value) : List Char := "<li>".toList ++ escapeHtml v.plainText ++ "</li>".toList

/-- A list in markup. -/
def htmlList (v : Value) : List Char := "<ul>".toList ++ (elements v).flatMap listItem ++ "</ul>".toList

/-- A table of renderers, which are tried in order. -/
abbrev RendererTable := List Renderer

namespace RendererTable

/-- The usual renderers, the most special ones first. -/
def standard : RendererTable := [
  ⟨"host", fun | .host _ => true | _ => false,
    fun v => .text (v.typeName.toList ++ " object".toList)⟩,
  ⟨"numeric-list", fun | .list items => !items.isEmpty && items.all (·.isNumeric) | _ => false,
    fun v => .html (numericTable v)⟩,
  ⟨"list", fun | .list _ => true | _ => false, fun v => .html (htmlList v)⟩,
  ⟨"string", fun | .str _ => true | _ => false, fun v => .text v.plainText⟩,
  ⟨"scalar", fun | .bool _ | .int _ | .float _ => true | _ => false, fun v => .text v.text⟩,
  ⟨"fallback", fun _ => true, fun v => .text v.text⟩]

/-- The names of the renderers in the order in which they are tried. -/
def names (t : RendererTable) : List String := t.map (·.name)

/-- A value made ready to be looked at. -/
def render (t : RendererTable) (v : Value) : DisplayOutput :=
  match t.find? (·.accepts v) with
  | some r => r.render v
  | none => .text v.text

end RendererTable

end Notebook

import Notebook.Capability.Basic

/-!
The capability that shows things: values, plain texts and markup.
-/
namespace Notebook.Capability.Showing
open Notebook.Guest

def typeName : String := "Display"

def methods : List MethodDoc := [
  ⟨"html", "html(markup: String)", "Show raw HTML."⟩,
  ⟨"show", "show(value)", "Render a value with the best matching renderer."⟩,
  ⟨"text", "text(text: String)", "Show plain text."⟩]

/-- What a call shows, or why it is refused. -/
def output (renderers : RendererTable) (method : String) (args : List Value) :
    Except String DisplayOutput :=
  match method, args with
  | "show", [v] => .ok (renderers.render v)
  | "text", [.str s] => .ok (.text s.toList)
  | "html", [.str s] => .ok (.html s.toList)
  | "show", _ => .error "show expects one value"
  | "text", _ | "html", _ => .error (method ++ " expects one string")
  | _, _ => .error ("no method '" ++ method ++ "' on " ++ typeName)

end Notebook.Capability.Showing

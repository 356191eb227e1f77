/-!
Replacing one text by another wherever it stands in a third, from left to right and without overlap.
-/
namespace Notebook.Text

/-- Replaces `part`, of which nothing is replaced if it is empty. -/
def replaceAll (part new : List Char) (cs : List Char) : List Char :=
  match cs with
  | [] => []
  | c :: rest =>
    if !part.isEmpty && part.isPrefixOf (c :: rest) then
      new ++ replaceAll part new (rest.drop (part.length - 1))
    else c :: replaceAll part new rest
termination_by cs.length
decreasing_by
  · simp only [List.length_drop, List.length_cons]; omega
  · simp only [List.length_cons]; omega

end Notebook.Text

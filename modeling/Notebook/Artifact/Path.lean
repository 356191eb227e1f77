/-!
Paths as they are written. Two paths are the same if they have the same components: doubled slashes, slashes
at the end and single points, but for one in front, make no difference.
-/
namespace Notebook.Artifact

/-- What a path consists of. -/
inductive Component
  /-- The root directory. -/
  | top
  /-- The directory in which one is. -/
  | here
  /-- The directory above. -/
  | up
  | name (name : List Char)
  deriving DecidableEq, Repr

/-- What stands between two slashes. Nothing and a single point lead nowhere. -/
def Component.ofPiece? (piece : List Char) : Option Component :=
  if piece = [] ∨ piece = ['.'] then none
  else if piece = ['.', '.'] then some .up
  else some (.name piece)

/-- What a path starts from, if it says so. -/
def startOf (path : List Char) : List Component :=
  if path.head? = some '/' then [.top]
  else if (path.splitOnP (· = '/')).head? = some ['.'] then [.here]
  else []

/-- The components of a path, outermost first. -/
def components (path : List Char) : List Component :=
  startOf path ++ (path.splitOnP (· = '/')).filterMap Component.ofPiece?

/-- A name in a directory. A name that starts at the root directory does not lie in another one. -/
def inDirectory (directory name : List Char) : List Char :=
  if name.head? = some '/' then name
  else if directory.isEmpty || directory.getLast? = some '/' then directory ++ name
  else directory ++ '/' :: name

theorem inDirectory_ne_nil (directory : List Char) {name : List Char} (h : name ≠ []) :
    inDirectory directory name ≠ [] := by
  unfold inDirectory
  split
  · exact h
  · split
    · exact List.append_ne_nil_of_right_ne_nil _ h
    · exact List.append_ne_nil_of_right_ne_nil _ (List.cons_ne_nil _ _)

/-- A name in a directory stands behind a slash. -/
theorem exists_inDirectory {directory name : List Char} (hdirectory : directory ≠ [])
    (hname : name.head? ≠ some '/') : ∃ outer, inDirectory directory name = outer ++ '/' :: name := by
  unfold inDirectory
  rw [if_neg hname]
  split
  · rename_i hslash
    have hlast : directory.getLast? = some '/' := by simpa [hdirectory] using hslash
    obtain ⟨outer, rfl⟩ := List.getLast?_eq_some_iff.1 hlast
    exact ⟨outer, List.append_assoc ..⟩
  · exact ⟨directory, rfl⟩

end Notebook.Artifact

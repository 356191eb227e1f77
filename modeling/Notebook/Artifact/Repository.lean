import Notebook.Artifact.Coordinate
import Notebook.Artifact.Path
import Notebook.Files
import Notebook.Text.Lines

/-!
Repositories of artifacts, and the artifacts that one needs. An artifact lies in a directory of its own
under the names of its group, its name and its version; beside it may lie a list of what it needs.
-/
namespace Notebook.Artifact
open Notebook.Text

/-- A repository: its root directory as it is written, and the files below it. -/
structure Repository where
  root : List Char
  files : Files

/-- An artifact with what it needs. -/
inductive DependencyNode
  | mk (coordinate : Coordinate) (path : List Char) (children : List DependencyNode)

namespace DependencyNode

def coordinate : DependencyNode → Coordinate
  | mk c _ _ => c

def path : DependencyNode → List Char
  | mk _ p _ => p

def children : DependencyNode → List DependencyNode
  | mk _ _ ns => ns

mutual

/-- All artifacts of a tree, each before what it needs. -/
def flatten : DependencyNode → List DependencyNode
  | mk c p ns => mk c p ns :: flattenEach ns

/-- All artifacts of several trees. -/
def flattenEach : List DependencyNode → List DependencyNode
  | [] => []
  | n :: ns => n.flatten ++ flattenEach ns

end

end DependencyNode

namespace Repository

/-- The repository in a directory. -/
def ofFiles (root : List Char) (files : Files) : Repository := ⟨root, files.below root⟩

/-- The names of the directories that an artifact lies in, from the root on, the outermost first. -/
def levels (c : Coordinate) : List (List Char) := Coordinate.segments c.group ++ [c.artifact, c.version]

/-- The directory of an artifact, from the root on. -/
def directory (c : Coordinate) : List Char := ['/'].intercalate (levels c)

/-- The name of a file of an artifact. -/
def fileName (c : Coordinate) (ending : String) : List Char :=
  c.artifact ++ '-' :: c.version ++ ending.toList

/-- A file of an artifact, from the root on. -/
def file (c : Coordinate) (ending : String) : List Char := directory c ++ '/' :: fileName c ending

/-- The file that is the artifact. -/
def artifactFile (c : Coordinate) : List Char := file c ".rlib"

/-- The file that lists what an artifact needs. -/
def listFile (c : Coordinate) : List Char := file c ".deps"

/-- The directory of an artifact. -/
def versionDirectory (r : Repository) (c : Coordinate) : List Char := (levels c).foldl inDirectory r.root

/-- Where an artifact lies. -/
def pathOf (r : Repository) (c : Coordinate) : List Char :=
  inDirectory (r.versionDirectory c) (fileName c ".rlib")

/-- What a line of such a list names: nothing if it is blank or a comment. -/
def listed? (line : List Char) : Option (Except Failure Coordinate) :=
  match trim line with
  | [] => none
  | '#' :: _ => none
  | cs => some (Coordinate.parse cs)

/-- What an artifact needs, as far as the list can be read; the first line that cannot be read is kept
as a failure. -/
def needs (r : Repository) (c : Coordinate) : List (Except Failure Coordinate) :=
  match r.files.lookup (listFile c) with
  | some text => (lines text).filterMap listed?
  | none => []

/-- That an artifact is not there. -/
def missing (r : Repository) (c : Coordinate) : Failure :=
  .resolution (String.ofList (c.text ++ " not found in ".toList ++ r.root))

/-- All coordinates that some file would name if it were a list. -/
def mentioned (r : Repository) : List Coordinate :=
  r.files.flatMap fun (_, text) => (lines text).filterMap fun line => (listed? line).bind Except.toOption

theorem mem_mentioned_of_needs {r : Repository} {c d : Coordinate} (h : .ok d ∈ r.needs c) :
    d ∈ r.mentioned := by
  unfold needs at h
  split at h
  · rename_i text hlookup
    obtain ⟨line, hline, hlisted⟩ := List.mem_filterMap.1 h
    obtain ⟨before, after, hfiles, -⟩ := List.lookup_eq_some_iff.1 hlookup
    have hfile : (listFile c, text) ∈ r.files := hfiles ▸ List.mem_append_right _ List.mem_cons_self
    exact List.mem_flatMap.2 ⟨_, hfile, List.mem_filterMap.2 ⟨line, hline, by rw [hlisted]; rfl⟩⟩
  · exact absurd h List.not_mem_nil

/-- How many mentions there are of coordinates that are no ancestors. -/
def ahead (r : Repository) (ancestors : List Coordinate) : Nat :=
  (r.mentioned.filter (· ∉ ancestors)).length

theorem ahead_cons_lt {r : Repository} {ancestors : List Coordinate} {c : Coordinate}
    (hc : c ∈ r.mentioned) (hnew : c ∉ ancestors) : r.ahead (c :: ancestors) < r.ahead ancestors := by
  have hfilter : r.mentioned.filter (· ∉ c :: ancestors) =
      (r.mentioned.filter (· ∉ ancestors)).filter (· ≠ c) := by
    rw [List.filter_filter]
    refine List.filter_congr fun d _ => ?_
    simp only [List.mem_cons, not_or, Bool.decide_and, ne_eq]
  unfold ahead
  rw [hfilter, List.length_filter_lt_length_iff_exists]
  exact ⟨c, List.mem_filter.2 ⟨hc, decide_eq_true hnew⟩, by simp⟩

/-- The tree of an artifact, if the artifact is there, above the trees of what it needs. -/
def resolveNode (r : Repository) (c : Coordinate) (children : Unit → Except Failure (List DependencyNode)) :
    Except Failure DependencyNode :=
  if artifactFile c ∈ r.files.map (·.1) then return .mk c (r.pathOf c) (← children ())
  else .error (r.missing c)

/-- The trees of what is needed by the last one of `ancestors`, which come last first. An ancestor is not
gone into again, so the way down ends at the latest when all that is mentioned has become an ancestor. -/
def resolveEach (r : Repository) (ancestors : List Coordinate) (needs : List (Except Failure Coordinate))
    (h : ∀ d, .ok d ∈ needs → d ∈ r.mentioned) : Except Failure (List DependencyNode) :=
  match needs with
  | [] => .ok []
  | .error e :: _ => .error e
  | .ok c :: rest =>
    if _hc : c ∈ ancestors then r.resolveEach ancestors rest fun d hd => h d (.tail _ hd)
    else do
      let node ← r.resolveNode c fun _ =>
        r.resolveEach (c :: ancestors) (r.needs c) fun _ => mem_mentioned_of_needs
      let nodes ← r.resolveEach ancestors rest fun d hd => h d (.tail _ hd)
      return node :: nodes
termination_by (r.ahead ancestors, needs.length)
decreasing_by
  · exact Prod.Lex.right _ (Nat.lt_succ_self _)
  · exact Prod.Lex.left _ _ (ahead_cons_lt (h c List.mem_cons_self) _hc)
  · exact Prod.Lex.right _ (Nat.lt_succ_self _)

/-- An artifact with what it needs. -/
def resolve (r : Repository) (c : Coordinate) : Except Failure DependencyNode :=
  r.resolveNode c fun _ => r.resolveEach [c] (r.needs c) fun _ => mem_mentioned_of_needs

end Repository

end Notebook.Artifact

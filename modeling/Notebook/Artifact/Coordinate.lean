import Notebook.Failure
import Notebook.Text.Blank
import Notebook.Text.Word

/-!
Addresses of library artifacts: a group, an artifact and a version with colons between them. Each part
names a directory, so none can lead out of a repository.
-/
namespace Notebook.Artifact
open Notebook.Text

/-- The address of an artifact. -/
structure Coordinate where
  group : List Char
  artifact : List Char
  version : List Char
  deriving DecidableEq, Repr

namespace Coordinate

/-- An address in writing. -/
def text (c : Coordinate) : List Char := c.group ++ ':' :: c.artifact ++ ':' :: c.version

/-- The characters of an address. -/
def isPartChar (c : Char) : Bool := isAlphanumeric c || c = '.' || c = '-' || c = '_'

/-- Whether a text may be a part of an address. -/
def isPart (cs : List Char) : Bool :=
  !cs.isEmpty && cs ≠ ['.'] && cs ≠ ['.', '.'] && cs.all isPartChar

/-- The names in a group. -/
def segments (group : List Char) : List (List Char) := group.splitOnP (· = '.')

/-- Reads an address. Blanks around it do not matter. -/
def parse (cs : List Char) : Except Failure Coordinate :=
  match (trim cs).splitOnP (· = ':') with
  | [group, artifact, version] =>
    if (segments group).all (!·.isEmpty) && isPart group && isPart artifact && isPart version then
      .ok ⟨group, artifact, version⟩
    else .error (.invalidCoordinate (String.ofList (trim cs)))
  | _ => .error (.invalidCoordinate (String.ofList (trim cs)))

/-- An address is read if it has three parts, each of which may be one. -/
theorem parse_eq_ok {cs : List Char} {c : Coordinate} :
    parse cs = .ok c ↔
      (trim cs).splitOnP (· = ':') = [c.group, c.artifact, c.version] ∧
        (segments c.group).all (!·.isEmpty) ∧ isPart c.group ∧ isPart c.artifact ∧ isPart c.version := by
  unfold parse
  split
  · rename_i group artifact version hparts
    split
    · rename_i hproper
      simp only [Bool.and_eq_true] at hproper
      simp only [hparts, Except.ok.injEq, List.cons.injEq, and_true]
      constructor
      · rintro rfl
        exact ⟨⟨rfl, rfl, rfl⟩, hproper.1.1.1, hproper.1.1.2, hproper.1.2, hproper.2⟩
      · rintro ⟨⟨rfl, rfl, rfl⟩, -⟩
        rfl
    · rename_i himproper
      simp only [hparts, List.cons.injEq, and_true, reduceCtorEq, false_iff]
      rintro ⟨⟨rfl, rfl, rfl⟩, h⟩
      simp [h] at himproper
  · rename_i hparts
    simp only [reduceCtorEq, false_iff]
    exact fun h => hparts _ _ _ h.1

end Coordinate

end Notebook.Artifact

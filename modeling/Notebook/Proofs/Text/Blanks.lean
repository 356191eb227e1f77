import Mathlib.Data.List.DropRight
import Notebook.Text.Blank

/-!
# Blanks at the ends of a text

A text is what `trimEnd` leaves of it with blanks behind (`exists_trimEnd_append`).
-/

namespace Notebook.Text

theorem trimEnd_eq_nil_iff {cs : List Char} : trimEnd cs = [] ↔ ∀ c ∈ cs, isBlank c = true :=
  List.rdropWhile_eq_nil_iff

theorem exists_trimEnd_append (cs : List Char) :
    ∃ blanks, cs = trimEnd cs ++ blanks ∧ ∀ c ∈ blanks, isBlank c = true :=
  ⟨cs.rtakeWhile isBlank, List.rdropWhile_append_rtakeWhile.symm, fun _ hc => List.mem_rtakeWhile_imp hc⟩

theorem trimEnd_append_blanks (cs : List Char) {blanks : List Char} (h : ∀ c ∈ blanks, isBlank c = true) :
    trimEnd (cs ++ blanks) = trimEnd cs := by
  show List.rdropWhile isBlank (cs ++ blanks) = List.rdropWhile isBlank cs
  induction blanks using List.reverseRecOn with
  | nil => rw [List.append_nil]
  | append_singleton blanks c ih =>
    rw [← List.append_assoc, List.rdropWhile_concat_pos _ _ _ (h c (by simp))]
    exact ih fun d hd => h d (List.mem_append_left _ hd)

theorem trimEnd_append (cs : List Char) {ds : List Char} (h : trimEnd ds ≠ []) :
    trimEnd (cs ++ ds) = cs ++ trimEnd ds := by
  obtain ⟨blanks, hends, hblanks⟩ := exists_trimEnd_append ds
  have hlast : trimEnd (cs ++ trimEnd ds) = cs ++ trimEnd ds := by
    apply List.rdropWhile_eq_self_iff.2
    intro hne
    rw [List.getLast_append_of_ne_nil _ h]
    exact List.rdropWhile_last_not isBlank ds h
  conv_lhs => rw [hends, ← List.append_assoc]
  rw [trimEnd_append_blanks _ hblanks, hlast]

/-- A character that is not blank stands before the blanks at the end. -/
theorem lt_length_trimEnd {cs : List Char} {n : Nat} {c : Char} (hc : cs[n]? = some c) (hblank : isBlank c = false) :
    n < (trimEnd cs).length := by
  obtain ⟨blanks, hcs, hblanks⟩ := exists_trimEnd_append cs
  by_contra hlt
  rw [hcs, List.getElem?_append_right (Nat.le_of_not_lt hlt)] at hc
  rw [hblanks c (List.mem_of_getElem? hc)] at hblank
  cases hblank

end Notebook.Text

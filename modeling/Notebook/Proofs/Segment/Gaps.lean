import Mathlib.Data.List.TakeWhile
import Notebook.Proofs.Scan.Marks
import Notebook.Proofs.Segment.Partition

/-!
# What stands between units

If a unit is found in a text from an offset on, the text from there on is blanks, then the unit, and then
what follows it (`Segment.cuts_of_next_unit`); if a rest is found, it is blanks and then the rest
(`Segment.cuts_of_next_incomplete`); and if nothing is found, it is blanks and comments
(`Segment.isGap_of_next_done`).
-/

namespace Notebook
open Notebook.Text Notebook.Scan

namespace Scan

/-- Nothing but blanks, and comments that have their ends. -/
def IsGap (cs : List Char) : Prop := ∀ l ∈ lexemes cs, l.kind.isTrivia = true ∧ l.terminated = true

instance (cs : List Char) : Decidable (IsGap cs) := inferInstanceAs (Decidable (∀ l ∈ lexemes cs, _))

theorem isGap_nil : IsGap [] := by
  intro l hl
  rw [lexemes] at hl
  cases hl

/-- Blanks may stand before blanks and comments. -/
theorem isGap_of_trimStart {cs : List Char} (h : IsGap (trimStart cs)) : IsGap cs := by
  cases cs with
  | nil => exact isGap_nil
  | cons c rest =>
    by_cases hblank : isBlank c = true
    · intro l hl
      rw [trimStart, List.dropWhile_cons_of_pos hblank] at h
      rw [lexemes, extent, if_pos hblank, List.mem_cons, drop_countWhile] at hl
      rcases hl with rfl | hl
      · exact ⟨rfl, rfl⟩
      · exact h l hl
    · rwa [trimStart, List.dropWhile_cons_of_neg hblank] at h

theorem isGap_of_blanks {cs : List Char} (h : cs.all isBlank = true) : IsGap cs := by
  have hnil : trimStart cs = [] := List.dropWhile_eq_nil_iff.2 (List.all_eq_true.1 h)
  exact isGap_of_trimStart (hnil ▸ isGap_nil)

/-- A reading that finds nothing meets nothing but blanks and comments. -/
theorem of_completenessFrom_eq_empty {total : Nat} {p : Progress} {ts : List Token}
    (h : completenessFrom total p ts = .empty) :
    p.begun = none ∧ ∀ t ∈ ts, t.kind.isTrivia = true ∧ t.terminated = true := by
  fun_induction completenessFrom total p ts <;> simp_all

theorem isGap_of_completeness_eq_empty {cs : List Char} (h : completeness cs = .empty) : IsGap cs := by
  have hplaced (offset : Nat) (ls : List Lexeme) {l : Lexeme} (hl : l ∈ ls) :
      ∃ start stop, (⟨l, start, stop⟩ : Token) ∈ placed offset ls := by
    induction ls generalizing offset with
    | nil => cases hl
    | cons l' ls ih =>
      rcases List.mem_cons.1 hl with rfl | hl
      · exact ⟨_, _, List.mem_cons_self⟩
      · obtain ⟨start, stop, hmem⟩ := ih (offset + width l'.text) hl
        exact ⟨start, stop, List.mem_cons_of_mem _ hmem⟩
  obtain ⟨-, htokens⟩ := of_completenessFrom_eq_empty h
  intro l hl
  obtain ⟨start, stop, hmem⟩ := hplaced 0 (lexemes cs) hl
  exact htokens _ hmem

end Scan

namespace Text

theorem dropBytes_dropBytes {cs : List Char} {start stop : Nat} (hle : floorOffset cs start ≤ stop) :
    dropBytes (dropBytes cs start) (stop - floorOffset cs start) = dropBytes cs stop := by
  unfold floorOffset at hle ⊢
  induction cs generalizing start stop with
  | nil => rfl
  | cons c cs ih =>
    by_cases hc : c.utf8Size ≤ start
    · rw [takeBytes, if_pos hc, width] at hle ⊢
      rw [dropBytes, if_pos hc, Nat.sub_add_eq, ih (Nat.le_sub_of_add_le' hle), dropBytes,
        if_pos (Nat.le_of_add_right_le hle)]
    · rw [takeBytes, if_neg hc, dropBytes, if_neg hc]
      rfl

/-- A slice stands in front of what follows it. -/
theorem slice_append_dropBytes {cs : List Char} {start stop : Nat} (hle : floorOffset cs start ≤ stop) :
    slice cs start stop ++ dropBytes cs stop = dropBytes cs start := by
  rw [slice, ← dropBytes_dropBytes hle, takeBytes_append_dropBytes]

end Text

namespace Segment

variable {source : List Char} {start : Nat}

theorem IsSliceOf.dropBytes_eq {s : Segment} (h : s.IsSliceOf source) :
    dropBytes source s.offset = s.text ++ dropBytes source s.stop := by
  have hoffset : floorOffset source s.offset = s.offset := beq_iff_eq.1 h.offset
  have hle : floorOffset source s.offset ≤ s.stop := by
    rw [hoffset]
    exact Nat.le_add_right ..
  rw [← slice_append_dropBytes hle, h.text]

/-- Blanks, then a unit, then what follows it. -/
theorem cuts_of_next_unit {u : Segment} (h : next completeness source start = .unit u) :
    ∃ blanks, IsGap blanks ∧ dropBytes source start = blanks ++ (u.text ++ dropBytes source u.stop) := by
  have hlaw := next_lawful completeness source start
  rw [h] at hlaw
  obtain ⟨hslice, -, -, hle, hblanks⟩ := hlaw
  refine ⟨slice source start u.offset, isGap_of_blanks hblanks, ?_⟩
  rw [← hslice.dropBytes_eq, slice_append_dropBytes hle]

/-- Blanks, and then a rest that is incomplete. -/
theorem cuts_of_next_incomplete {rest : Segment} (h : next completeness source start = .incomplete rest) :
    ∃ blanks, IsGap blanks ∧ dropBytes source start = blanks ++ rest.text ∧
      completeness rest.text = .incomplete := by
  have hlaw := next_lawful completeness source start
  rw [h] at hlaw
  obtain ⟨hslice, hstop, -, hle, hblanks⟩ := hlaw
  refine ⟨slice source start rest.offset, isGap_of_blanks hblanks, ?_, ?_⟩
  · rw [← slice_append_dropBytes hle, hslice.dropBytes_eq, hstop, dropBytes_width, List.append_nil]
  · -- the engine never answers a length that is no unit's
    unfold next at h
    dsimp only at h
    split at h
    · cases h
    · split at h
      · cases h
      · cases h
        assumption
      · rename_i length hcomplete
        obtain ⟨front, back, hfront, hne, rfl, -⟩ := completeness_eq_complete hcomplete
        rw [hfront] at h
        rw [if_pos] at h
        · cases h
        · rw [isUnitLength, isBoundary_append, Bool.and_true]
          exact decide_eq_true (width_pos hne)

/-- Nothing but blanks and comments. -/
theorem isGap_of_next_done (h : next completeness source start = .done) : IsGap (dropBytes source start) := by
  have hlaw := next_lawful completeness source start
  rw [h] at hlaw
  rcases hlaw with hblanks | hempty
  · exact isGap_of_blanks hblanks
  · exact isGap_of_trimStart (isGap_of_completeness_eq_empty hempty)

end Segment

end Notebook

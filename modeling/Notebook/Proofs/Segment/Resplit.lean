import Notebook.Segment
import Notebook.Proofs.Scan.UnitText

/-!
# Splitting a unit again

A unit that was cut out of a text is, split on its own, that one unit and nothing else
(`split_text_of_next`).
-/

namespace Notebook
open Notebook.Text Notebook.Scan

/-! ## Texts that are looked at from their start -/

theorem Text.dropBytes_zero (cs : List Char) : dropBytes cs 0 = cs := by
  cases cs with
  | nil => rfl
  | cons c cs => simp [dropBytes, Nat.not_le.mpr c.utf8Size_pos]

theorem Text.floorOffset_zero (cs : List Char) : floorOffset cs 0 = 0 :=
  Nat.le_zero.mp (floorOffset_le cs 0)

theorem Text.takeBytes_width (cs : List Char) : takeBytes cs (width cs) = cs := by
  simpa using takeBytes_width_append cs []

theorem Text.dropBytes_width (cs : List Char) : dropBytes cs (width cs) = [] := by
  have hall := takeBytes_append_dropBytes cs (width cs)
  rwa [takeBytes_width, List.append_right_eq_self] at hall

/-- What is left after its blanks are dropped starts with no blank, whatever is cut off behind. -/
theorem Text.trimStart_of_append {cs front back : List Char} (h : trimStart cs = front ++ back) :
    trimStart front = front := by
  cases front with
  | nil => rfl
  | cons c front =>
    have hc : isBlank c = false := by
      have hhead := List.head?_dropWhile_not isBlank cs
      have hcs : cs.dropWhile isBlank = c :: (front ++ back) := h
      rw [hcs] at hhead
      simpa using hhead
    simp [trimStart, hc]

namespace Segment

/-- The unit that is found at the start of a text that starts with no blank. -/
theorem next_zero {front : List Char} (hne : front ≠ []) (htrim : trimStart front = front)
    (hunit : completeness front = .complete (width front)) :
    next completeness front 0 = .unit ⟨0, front⟩ := by
  have hlen : isUnitLength front (width front) = true := by
    simp [isUnitLength, isBoundary, floorOffset, takeBytes_width, width_pos hne]
  simp only [next, dropBytes_zero, floorOffset_zero, htrim, Nat.sub_self, Nat.add_zero, hunit, hlen,
    takeBytes_width, if_true]
  simp [hne]

theorem next_width (front : List Char) : next completeness front (width front) = .done := by
  simp [next, dropBytes_width, trimStart]

/-- A unit that is cut out of a text is one unit for itself, and starts with no blank. -/
theorem unit_of_next {source : List Char} {start : Nat} {u : Segment}
    (h : next completeness source start = .unit u) :
    u.text ≠ [] ∧ trimStart u.text = u.text ∧
      completeness u.text = .complete (width u.text) := by
  unfold next at h
  simp only at h
  split at h
  · cases h
  split at h
  · cases h
  · cases h
  rename_i length hcomplete
  split at h
  · obtain ⟨front, back, hcs, hne, rfl, hfront⟩ := completeness_eq_complete hcomplete
    cases h
    rw [hcs, takeBytes_width_append]
    exact ⟨hne, trimStart_of_append hcs, hfront⟩
  · cases h

end Segment

theorem splitFrom_unit {analyze : List Char → Completeness} {source : List Char} {start : Nat}
    {u : Segment} (h : Segment.next analyze source start = .unit u) :
    splitFrom analyze source start =
      ⟨u :: (splitFrom analyze source u.stop).units, (splitFrom analyze source u.stop).remainder⟩ := by
  rw [splitFrom]
  split <;> simp_all

theorem splitFrom_done {analyze : List Char → Completeness} {source : List Char} {start : Nat}
    (h : Segment.next analyze source start = .done) : splitFrom analyze source start = ⟨[], none⟩ := by
  rw [splitFrom]
  split <;> simp_all

theorem splitFrom_incomplete {analyze : List Char → Completeness} {source : List Char} {start : Nat}
    {rest : Segment} (h : Segment.next analyze source start = .incomplete rest) :
    splitFrom analyze source start = ⟨[], some rest⟩ := by
  rw [splitFrom]
  split <;> simp_all

/-- A unit that was cut out of a text is cut into itself. -/
theorem split_text_of_next {source : List Char} {start : Nat} {u : Segment}
    (h : Segment.next completeness source start = .unit u) :
    split completeness u.text = ⟨[⟨0, u.text⟩], none⟩ := by
  obtain ⟨hne, htrim, hunit⟩ := Segment.unit_of_next h
  have hstop : Segment.stop ⟨0, u.text⟩ = width u.text := Nat.zero_add _
  rw [split, splitFrom_unit (Segment.next_zero hne htrim hunit), hstop,
    splitFrom_done (Segment.next_width u.text)]

end Notebook

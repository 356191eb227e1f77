import Mathlib.Data.List.Induction
import Notebook.Proofs.Segment.Partition
import Notebook.Proofs.Text.Marks

/-!
# Places and offsets

A place that is reached through a text leads back to the offset behind that text (`offsetOf?_after`), so
offsets between two characters and their places stand for each other (`offsetOf?_positionOf`). Seen from the
start of a part of the text, a place in it is what it is in that part alone (`Span.relativeTo?_after`).
-/

namespace Notebook.Text
open Notebook.Scan

theorem positionOf_append (front back : List Char) :
    positionOf (front ++ back) (width front) = Position.origin.after front := by
  rw [positionOf, takeBytes_width_append]

theorem Position.after_concat (p : Position) (cs : List Char) (c : Char) :
    p.after (cs ++ [c]) = (p.after cs).next c := after_append p cs [c]

/-! ## From a place to its offset -/

/-- The next line starts behind the next line feed. -/
theorem lineFrom?_succ (cs : List Char) (n offset : Nat) :
    lineFrom? cs (n + 2) offset =
      (lineFrom? cs (n + 1) offset).bind fun (rest, start) => lineFrom? rest 2 start := by
  induction n generalizing cs offset with
  | zero => rfl
  | succ n ih =>
    rw [lineFrom?]
    conv_rhs => rw [lineFrom?]
    split
    · rfl
    · rw [ih]

theorem lineFrom?_two (line back : List Char) (offset : Nat) (h : '\n' ∉ line) :
    lineFrom? (line ++ '\n' :: back) 2 offset = some (back, offset + width (line ++ ['\n'])) := by
  have hdrop : (line ++ '\n' :: back).dropWhile (· ≠ '\n') = '\n' :: back := by
    rw [List.dropWhile_append_of_pos]
    · simp
    · intro c hc
      have hne : c ≠ '\n' := fun heq => h (heq ▸ hc)
      simpa using hne
  have hwidth : width (line ++ '\n' :: back) - width back = width (line ++ ['\n']) := by
    rw [List.append_cons, width_append, Nat.add_sub_cancel]
  rw [lineFrom?, hdrop]
  dsimp only
  rw [lineFrom?, hwidth]

/-- The line of the place behind a text starts behind the last line feed of the text, and its column counts
the characters from there on. -/
theorem exists_line (front : List Char) :
    ∃ before line, front = before ++ line ∧ line.length = (Position.origin.after front).column ∧
      '\n' ∉ line ∧ 0 < (Position.origin.after front).line ∧ ∀ back offset,
        lineFrom? (front ++ back) (Position.origin.after front).line offset =
          some (line ++ back, offset + width before) := by
  induction front using List.reverseRecOn with
  | nil => exact ⟨[], [], rfl, rfl, List.not_mem_nil, Nat.one_pos, fun back offset => rfl⟩
  | append_singleton front c ih =>
    obtain ⟨before, line, hfront, hlength, hline, hpos, hfrom⟩ := ih
    rw [Position.after_concat, Position.next]
    by_cases hc : c = '\n'
    case neg =>
      -- the line goes on
      rw [if_neg hc]
      refine ⟨before, line ++ [c], ?_, ?_, ?_, hpos, fun back offset => ?_⟩
      · rw [hfront, List.append_assoc]
      · rw [List.length_append, hlength]
        rfl
      · simpa [hline] using Ne.symm hc
      · rw [List.append_assoc, hfrom, List.append_assoc]
    case pos =>
      -- the next line starts
      subst hc
      rw [if_pos rfl]
      refine ⟨front ++ ['\n'], [], ?_, rfl, List.not_mem_nil, Nat.succ_pos _, fun back offset => ?_⟩
      · rw [List.append_nil]
      obtain ⟨n, hn⟩ := Nat.exists_eq_succ_of_ne_zero (Nat.ne_of_gt hpos)
      rw [List.append_assoc]
      show lineFrom? _ ((Position.origin.after front).line + 1) offset = _
      rw [hn, lineFrom?_succ, ← Nat.succ_eq_add_one, ← hn, hfrom]
      show lineFrom? (line ++ '\n' :: back) 2 _ = _
      rw [lineFrom?_two line back _ hline, hfront, List.append_assoc, width_append before, Nat.add_assoc]
      rfl

theorem Position.line_after_pos (front : List Char) : 0 < (Position.origin.after front).line :=
  (exists_line front).choose_spec.choose_spec.2.2.2.1

/-- So many columns behind the place that a text leads to stand so many characters behind the text. -/
theorem offsetOf?_after_add (front back : List Char) (n : Nat) :
    let p := Position.origin.after front
    offsetOf? (front ++ back) ⟨p.line, p.column + n⟩ = some (width front + width (back.take n)) := by
  obtain ⟨before, line, hfront, hlength, -, -, hfrom⟩ := exists_line front
  dsimp only
  rw [offsetOf?, hfrom, Option.map_some, ← hlength]
  dsimp only
  rw [List.take_length_add_append, hfront, width_append, width_append, Nat.zero_add, Nat.add_assoc]

/-- The place that a text leads to stands behind the text. -/
theorem offsetOf?_after (front back : List Char) :
    offsetOf? (front ++ back) (Position.origin.after front) = some (width front) :=
  offsetOf?_after_add front back 0

theorem offsetOf?_after_take (cs : List Char) (n : Nat) :
    offsetOf? cs (Position.origin.after (cs.take n)) = some (width (cs.take n)) := by
  have hoffset := offsetOf?_after (cs.take n) (cs.drop n)
  rwa [List.take_append_drop] at hoffset

/-- Of two starts of a text the narrower one is a start of the other. -/
theorem prefix_of_width_le {u v cs : List Char} (hu : u <+: cs) (hv : v <+: cs) (h : width u ≤ width v) :
    u <+: v := by
  rcases List.prefix_or_prefix_of_prefix hu hv with huv | ⟨w, rfl⟩
  · exact huv
  · rw [width_append] at h
    have hw : w = [] := by
      by_contra hne
      have hpos := width_pos hne
      omega
    exact ⟨[], by rw [hw, List.append_nil, List.append_nil]⟩

/-- The text before an offset that stands between two characters. -/
theorem exists_append_of_isBoundary {cs : List Char} {n : Nat} (h : isBoundary cs n = true) :
    ∃ front back, cs = front ++ back ∧ width front = n :=
  ⟨takeBytes cs n, dropBytes cs n, (takeBytes_append_dropBytes cs n).symm, beq_iff_eq.1 h⟩

/-- The place of an offset between two characters leads back to the offset. -/
theorem offsetOf?_positionOf {cs : List Char} {n : Nat} (h : isBoundary cs n = true) :
    offsetOf? cs (positionOf cs n) = some n := by
  obtain ⟨front, back, rfl, rfl⟩ := exists_append_of_isBoundary h
  rw [positionOf_append, offsetOf?_after]

/-! ## Places seen from another one -/

/-- Behind a text stand the line and the column that the text leads to by itself, but on the first line
columns count from where the text starts. -/
theorem Position.after_eq (p : Position) (cs : List Char) :
    p.after cs = ⟨p.line + ((origin.after cs).line - 1),
      if (origin.after cs).line = 1 then p.column + (origin.after cs).column
      else (origin.after cs).column⟩ := by
  induction cs using List.reverseRecOn with
  | nil => rfl
  | append_singleton cs c ih =>
    have hpos := line_after_pos cs
    rw [after_concat, after_concat, ih, next, next]
    by_cases hc : c = '\n'
    · simp only [hc, if_true, Position.mk.injEq]
      refine ⟨by omega, ?_⟩
      rw [if_neg (by omega)]
    · simp only [hc, if_false, Position.mk.injEq, true_and]
      split <;> omega

/-- What a text leads to from a place on, seen from that place, is what it leads to by itself. -/
theorem Span.relativeTo?_after {p : Position} (hp : 0 < p.line) (first last : List Char) :
    Span.relativeTo? ⟨p.after first, p.after last⟩ p =
      some ⟨Position.origin.after first, Position.origin.after last⟩ := by
  have hshift (cs : List Char) :
      (⟨(p.after cs).line - p.line + 1,
        if (p.after cs).line = p.line then (p.after cs).column - p.column else (p.after cs).column⟩ :
        Position) = Position.origin.after cs := by
    have hpos := Position.line_after_pos cs
    rw [Position.after_eq p cs]
    generalize Position.origin.after cs = q at hpos
    obtain ⟨line, column⟩ := q
    simp only [Position.mk.injEq] at hpos ⊢
    refine ⟨by omega, ?_⟩
    by_cases hline : line = 1
    · rw [if_pos hline, if_pos (by omega), Nat.add_sub_cancel_left]
    · rw [if_neg hline, if_neg (by omega)]
  have hline : p.line ≤ (p.after first).line := by
    rw [Position.after_eq]
    exact Nat.le_add_right _ _
  unfold relativeTo?
  rw [if_neg (by simp; omega)]
  dsimp only
  rw [hshift, hshift]

end Notebook.Text

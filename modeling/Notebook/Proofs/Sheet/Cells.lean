import Mathlib.Data.List.Pairwise
import Notebook.Proofs.Text.Blanks
import Notebook.Sheet

/-!
# The cells of a sheet are its lines

The source of a cell is made of the lines from the cell's own line on, up to the last one that is not
blank, of which the blanks at the end are left out.  No line is in two cells, and every line that is neither
blank nor a marker is in one (`cells_are_lines`).
-/

namespace Notebook
open Notebook.Text

/-! ## Lines put together -/

namespace Text

theorem prefix_withoutReturn (cs : List Char) : withoutReturn cs <+: cs := by
  unfold withoutReturn
  split
  · exact List.dropLast_prefix cs
  · exact List.prefix_refl cs

/-- No line holds a line feed. -/
theorem newline_not_mem_linesFrom {line cs : List Char} (hline : '\n' ∉ line) :
    ∀ l ∈ linesFrom line cs, '\n' ∉ l := by
  fun_induction linesFrom line cs with
  | case1 => exact List.forall_mem_nil _
  | case2 line =>
    intro l hl
    rw [List.mem_singleton.1 hl, List.mem_reverse]
    exact hline
  | case3 line cs ih =>
    rw [List.forall_mem_cons]
    refine ⟨fun h => hline ?_, ih List.not_mem_nil⟩
    exact List.mem_reverse.1 ((prefix_withoutReturn _).subset h)
  | case4 line c cs hc ih =>
    apply ih
    rw [List.mem_cons]
    exact not_or.2 ⟨Ne.symm hc, hline⟩

theorem join_eq_intercalate (separator : List Char) (ls : List (List Char)) :
    join separator ls = separator.intercalate ls := by
  fun_induction join separator ls with
  | case1 => rfl
  | case2 => simp
  | case3 l ls hls ih =>
    obtain ⟨m, ls, rfl⟩ := List.exists_cons_of_ne_nil hls
    rw [ih, List.intercalate_cons_cons, List.append_assoc]

end Text

/-! ## The lines that a cell is made of -/

/-- The line has something else than blanks. -/
def HasText (line : List Char) : Prop := trimEnd line ≠ []

namespace Cell

/-- The lines of the source. -/
def pieces (c : Cell) : List (List Char) := c.source.splitOn '\n'

/-- The source goes over the line of a number. -/
def Covers (c : Cell) (n : Nat) : Prop := c.source ≠ [] ∧ c.line ≤ n ∧ n < c.line + c.pieces.length

end Cell

theorem blank_or_exists_last (body : List (List Char)) :
    (∀ l ∈ body, ¬HasText l) ∨ ∃ first last behind, body = first ++ last :: behind ∧ HasText last ∧
      ∀ l ∈ behind, ¬HasText l := by
  induction body with
  | nil => exact .inl (List.forall_mem_nil _)
  | cons l body ih =>
    rcases ih with hblank | ⟨first, last, behind, rfl, hlast, hbehind⟩
    · by_cases hl : HasText l
      · exact .inr ⟨[], l, body, rfl, hl, hblank⟩
      · exact .inl (List.forall_mem_cons.2 ⟨hl, hblank⟩)
    · exact .inr ⟨l :: first, last, behind, rfl, hlast, hbehind⟩

/-- Lines before a line end in a line feed, and lines behind it start with one. -/
theorem join_append_cons (first : List (List Char)) (last : List Char) (behind : List (List Char)) :
    join ['\n'] (first ++ last :: behind) =
      first.flatMap (· ++ ['\n']) ++ (last ++ behind.flatMap ('\n' :: ·)) := by
  have hcons (l : List Char) {ls : List (List Char)} (hls : ls ≠ []) :
      join ['\n'] (l :: ls) = l ++ ['\n'] ++ join ['\n'] ls := by
    cases ls with
    | nil => exact absurd rfl hls
    | cons => rfl
  induction first with
  | nil =>
    rw [List.nil_append, List.flatMap_nil, List.nil_append]
    induction behind generalizing last with
    | nil => simp [join]
    | cons l behind ih => simp [hcons, ih]
  | cons l first ih => simp [hcons, ih]

theorem isBlank_of_mem_behind {behind : List (List Char)} (h : ∀ l ∈ behind, ¬HasText l) :
    ∀ c ∈ behind.flatMap ('\n' :: ·), isBlank c = true := by
  intro c hc
  obtain ⟨l, hl, hc⟩ := List.mem_flatMap.1 hc
  rcases List.mem_cons.1 hc with rfl | hc
  · decide
  · exact trimEnd_eq_nil_iff.1 (not_not.1 (h l hl)) c hc

theorem trimEnd_join_of_blank {body : List (List Char)} (h : ∀ l ∈ body, ¬HasText l) :
    trimEnd (join ['\n'] body) = [] := by
  cases body with
  | nil => rfl
  | cons l body =>
    obtain ⟨hl, hbody⟩ := List.forall_mem_cons.1 h
    have hjoin := join_append_cons [] l body
    rw [List.nil_append, List.flatMap_nil, List.nil_append] at hjoin
    rw [hjoin, trimEnd_append_blanks _ (isBlank_of_mem_behind hbody)]
    exact not_not.1 hl

/-- Lines behind the last one that has text leave nothing but blanks. -/
theorem trimEnd_join (first : List (List Char)) {last : List Char} {behind : List (List Char)}
    (hlast : HasText last) (hbehind : ∀ l ∈ behind, ¬HasText l) :
    trimEnd (join ['\n'] (first ++ last :: behind)) = join ['\n'] (first ++ [trimEnd last]) := by
  have hrest := trimEnd_append_blanks last (isBlank_of_mem_behind hbehind)
  rw [join_append_cons, join_append_cons, trimEnd_append, hrest, List.flatMap_nil, List.append_nil]
  rw [hrest]
  exact hlast

theorem join_trimEnd_ne_nil (first : List (List Char)) {last : List Char} (hlast : HasText last) :
    join ['\n'] (first ++ [trimEnd last]) ≠ [] := by
  rw [join_append_cons]
  intro hnil
  exact hlast (List.append_eq_nil_iff.1 (List.append_eq_nil_iff.1 hnil).2).1

/-! ## One cell -/

namespace Cell

theorem source_of_make? {number line : Nat} {title : List Char} {body : List (List Char)} {c : Cell}
    (h : make? number title body line = some c) :
    c.line = line ∧ c.source = trimEnd (join ['\n'] body) := by
  unfold make? at h
  dsimp only at h
  split at h
  · split at h
    · cases h
    · cases h
      exact ⟨rfl, rfl⟩
  · cases h
    exact ⟨rfl, rfl⟩

/-- Only blank lines are left out. -/
theorem not_hasText_of_make? {number line : Nat} {title : List Char} {body : List (List Char)}
    (h : make? number title body line = none) : ∀ l ∈ body, ¬HasText l := by
  have hsource : trimEnd (join ['\n'] body) = [] := by
    unfold make? at h
    dsimp only at h
    split at h
    · split at h
      · exact List.isEmpty_iff.1 ‹_›
      · cases h
    · cases h
  rcases blank_or_exists_last body with hblank | ⟨first, last, behind, rfl, hlast, hbehind⟩
  · exact hblank
  · exfalso
    rw [trimEnd_join first hlast hbehind] at hsource
    exact join_trimEnd_ne_nil first hlast hsource

/-- The lines of a cell that is not empty: all up to the last one with text, of which the blanks at the end
are left out. -/
theorem pieces_of_make? {number line : Nat} {title : List Char} {body : List (List Char)} {c : Cell}
    (h : make? number title body line = some c) (hbody : ∀ l ∈ body, '\n' ∉ l) :
    c.source = [] ∧ c.pieces.length = 1 ∧ (∀ l ∈ body, ¬HasText l) ∨
      c.source ≠ [] ∧ ∃ first last behind, body = first ++ last :: behind ∧ HasText last ∧
        (∀ l ∈ behind, ¬HasText l) ∧ c.pieces = first ++ [trimEnd last] := by
  obtain ⟨-, hsource⟩ := source_of_make? h
  rcases blank_or_exists_last body with hblank | ⟨first, last, behind, rfl, hlast, hbehind⟩
  · rw [trimEnd_join_of_blank hblank] at hsource
    exact .inl ⟨hsource, by rw [pieces, hsource]; rfl, hblank⟩
  · rw [trimEnd_join first hlast hbehind] at hsource
    refine .inr ⟨?_, first, last, behind, rfl, hlast, hbehind, ?_⟩
    · rw [hsource]
      exact join_trimEnd_ne_nil first hlast
    · rw [pieces, hsource, join_eq_intercalate]
      apply List.splitOn_intercalate _ _ (by simp)
      intro l hl
      rcases List.mem_append.1 hl with hl | hl
      · exact hbody l (List.mem_append_left _ hl)
      · rw [List.mem_singleton.1 hl]
        exact fun h => hbody last (by simp) ((List.rdropWhile_prefix isBlank last).subset h)

end Cell

/-! ## All cells -/

/-- The piece of a cell stands on its line, and the last piece does but for blanks at its end. -/
def Cell.Shows (c : Cell) (all : List (List Char)) : Prop :=
  1 ≤ c.line ∧ ∀ k piece, c.pieces[k]? = some piece →
    ∃ line, all[c.line - 1 + k]? = some line ∧ markerTitle? line = none ∧
      piece = if k + 1 = c.pieces.length then trimEnd line else line

/-- The cells show lines of a text, in order, and all that has text from the line behind the first `done`
lines on. -/
structure ShowsFrom (all : List (List Char)) (done : Nat) (cs : List Cell) : Prop where
  line : ∀ c ∈ cs, done < c.line
  shows : ∀ c ∈ cs, c.source ≠ [] → c.Shows all
  ordered : cs.Pairwise fun c d => c.line + c.pieces.length ≤ d.line
  covered : ∀ n line, done ≤ n → all[n]? = some line → HasText line → markerTitle? line = none →
    ∃ c ∈ cs, c.Covers (n + 1)

section Blocks
variable {front body rest : List (List Char)} {number : Nat} {title : List Char} {cs : List Cell}

/-- A line is one of those that have been read, or the marker behind them, or one that comes after it. -/
theorem cases_getElem? {n : Nat} {line : List Char} (h : (front ++ body ++ rest)[n]? = some line)
    (hn : front.length ≤ n) :
    body[n - front.length]? = some line ∨ rest.head? = some line ∨ front.length + body.length + 1 ≤ n := by
  rw [List.append_assoc, List.getElem?_append_right hn] at h
  by_cases hbody : n - front.length < body.length
  · rw [List.getElem?_append_left hbody] at h
    exact .inl h
  · rw [List.getElem?_append_right (by omega)] at h
    by_cases hmarker : n - front.length = body.length
    · rw [hmarker, Nat.sub_self, ← List.head?_eq_getElem?] at h
      exact .inr (.inl h)
    · exact .inr (.inr (by omega))

theorem Cell.shows_of_make? {c : Cell} (h : Cell.make? number title body (front.length + 1) = some c)
    (hlines : ∀ l ∈ body, '\n' ∉ l) (hbody : ∀ l ∈ body, markerTitle? l = none) (hsource : c.source ≠ []) :
    c.Shows (front ++ body ++ rest) := by
  obtain ⟨hline, -⟩ := Cell.source_of_make? h
  rcases Cell.pieces_of_make? h hlines with ⟨hnil, -⟩ | ⟨-, first, last, behind, rfl, -, -, hpieces⟩
  · exact absurd hnil hsource
  refine ⟨by omega, fun k piece hpiece => ?_⟩
  have hall (l : List Char) (h : (first ++ last :: behind)[k]? = some l) :
      (front ++ (first ++ last :: behind) ++ rest)[c.line - 1 + k]? = some l := by
    obtain ⟨hk, -⟩ := List.getElem?_eq_some_iff.1 h
    rw [hline, Nat.add_sub_cancel, List.append_assoc, List.getElem?_append_right (by omega),
      Nat.add_sub_cancel_left, List.getElem?_append_left hk, h]
  rw [hpieces, List.length_append, List.length_singleton]
  rw [hpieces] at hpiece
  by_cases hk : k < first.length
  · rw [List.getElem?_append_left hk] at hpiece
    have hin : (first ++ last :: behind)[k]? = some piece := by rw [List.getElem?_append_left hk, hpiece]
    refine ⟨piece, hall _ hin, hbody _ (List.mem_of_getElem? hin), ?_⟩
    rw [if_neg (by omega)]
  · obtain ⟨hlt, -⟩ := List.getElem?_eq_some_iff.1 hpiece
    obtain rfl : k = first.length := by
      rw [List.length_append, List.length_singleton] at hlt
      omega
    rw [List.getElem?_concat_length, Option.some.injEq] at hpiece
    refine ⟨last, hall _ (by simp), hbody _ (by simp), ?_⟩
    rw [if_pos rfl, hpiece]

/-- The lines up to a marker, and the cells of what comes behind it. -/
theorem ShowsFrom.make (hlines : ∀ l ∈ body, '\n' ∉ l) (hbody : ∀ l ∈ body, markerTitle? l = none)
    (hrest : ∀ l, rest.head? = some l → markerTitle? l ≠ none)
    (hcs : ShowsFrom (front ++ body ++ rest) (front.length + body.length + 1) cs) :
    ShowsFrom (front ++ body ++ rest) front.length
      ((Cell.make? number title body (front.length + 1)).toList ++ cs) := by
  cases hmake : Cell.make? number title body (front.length + 1) with
  | none =>
    refine ⟨fun c hc => ?_, hcs.shows, hcs.ordered, fun n line hn hline htext hmarker => ?_⟩
    · have := hcs.line c hc
      omega
    · rcases cases_getElem? hline hn with h | h | h
      · exact absurd htext (Cell.not_hasText_of_make? hmake line (List.mem_of_getElem? h))
      · exact absurd hmarker (hrest line h)
      · exact hcs.covered n line h hline htext hmarker
  | some c =>
    obtain ⟨hline, -⟩ := Cell.source_of_make? hmake
    have hpieces := Cell.pieces_of_make? hmake hlines
    refine ⟨List.forall_mem_cons.2 ⟨by omega, fun d hd => ?_⟩,
      List.forall_mem_cons.2 ⟨Cell.shows_of_make? hmake hlines hbody, hcs.shows⟩,
      List.pairwise_cons.2 ⟨fun d hd => ?_, hcs.ordered⟩, fun n line hn hat htext hmarker => ?_⟩
    · have := hcs.line d hd
      omega
    · -- a cell has one piece at the least, and otherwise no more than there are lines
      have hlength : c.pieces.length ≤ body.length + 1 := by
        rcases hpieces with ⟨-, hone, -⟩ | ⟨-, first, last, behind, rfl, -, -, heq⟩
        · omega
        · rw [heq]
          simp only [List.length_append, List.length_cons, List.length_nil]
          omega
      have := hcs.line d hd
      omega
    · rcases cases_getElem? hat hn with h | h | h
      · refine ⟨c, List.mem_cons_self, ?_⟩
        rcases hpieces with ⟨-, -, hblank⟩ | ⟨hsource, first, last, behind, rfl, -, hbehind, heq⟩
        · exact absurd htext (hblank line (List.mem_of_getElem? h))
        · refine ⟨hsource, by omega, ?_⟩
          rw [heq, List.length_append, List.length_singleton]
          by_contra hge
          rw [List.append_cons, List.getElem?_append_right (by simp; omega)] at h
          exact hbehind line (List.mem_of_getElem? h) htext
      · exact absurd hmarker (hrest line h)
      · obtain ⟨d, hd, hcovers⟩ := hcs.covered n line h hat htext hmarker
        exact ⟨d, List.mem_cons_of_mem _ hd, hcovers⟩

end Blocks

/-- The cells of the rest of a text show it. -/
theorem showsFrom_cellsFrom (front body rest : List (List Char)) (made : Nat) (title : List Char)
    (hlines : ∀ l ∈ front ++ body.reverse ++ rest, '\n' ∉ l) (hbody : ∀ l ∈ body, markerTitle? l = none) :
    ShowsFrom (front ++ body.reverse ++ rest) front.length
      (cellsFrom made title body (front.length + 1) (front.length + body.length + 1) rest) := by
  induction rest generalizing front body made title with
  | nil =>
    rw [cellsFrom, ← List.append_nil (Option.toList _)]
    apply ShowsFrom.make (by simpa using fun l hl => hlines l (by simp [hl])) (by simpa using hbody) (by simp)
    refine ⟨List.forall_mem_nil _, List.forall_mem_nil _, .nil, fun n line hn hline => ?_⟩
    obtain ⟨hlt, -⟩ := List.getElem?_eq_some_iff.1 hline
    simp only [List.length_append, List.length_reverse, List.length_nil] at hn hlt
    omega
  | cons l rest ih =>
    rw [cellsFrom]
    cases hmarker : markerTitle? l with
    | none =>
      -- the line belongs to the cell that is being read
      have hcs := ih front (l :: body) made title (by simpa using hlines) (List.forall_mem_cons.2 ⟨hmarker, hbody⟩)
      rw [List.reverse_cons, List.append_cons, List.append_assoc, List.append_assoc] at hcs
      simpa [Nat.add_assoc] using hcs
    | some next =>
      -- the cell ends here, and another one starts behind the marker
      have hcs (made : Nat) := ih (front ++ body.reverse ++ [l]) [] made next (by simpa using hlines)
        (List.forall_mem_nil _)
      have hmake (cs : List Cell)
          (h : ShowsFrom (front ++ body.reverse ++ l :: rest) (front.length + body.reverse.length + 1) cs) :
          ShowsFrom (front ++ body.reverse ++ l :: rest) front.length
            ((Cell.make? (made + 1) title body.reverse (front.length + 1)).toList ++ cs) :=
        h.make (by simpa using fun l hl => hlines l (by simp [hl])) (by simpa using hbody) (by simp [hmarker])
      simp only [List.reverse_nil, List.append_nil, List.append_assoc, List.singleton_append, List.length_append,
        List.length_reverse, List.length_singleton, List.length_nil, Nat.add_zero] at hcs hmake ⊢
      cases hfirst : Cell.make? (made + 1) title body.reverse (front.length + 1) with
      | none =>
        have h := hmake _ (hcs made)
        rw [hfirst] at h
        exact h
      | some c =>
        have h := hmake _ (hcs (made + 1))
        rw [hfirst] at h
        exact h

/-- Two cells have no line in common: one ends before the other one starts. -/
def Cell.Apart (c d : Cell) : Prop :=
  c.line + c.pieces.length ≤ d.line ∨ d.line + d.pieces.length ≤ c.line

instance : Std.Symm Cell.Apart := ⟨fun _ _ => Or.symm⟩

/-- A cell that is not empty shows the lines of the text from its own line on, none of which is a marker. The
cells stand in the order of the text and no line is in two of them. A line that is neither blank nor a marker
is in exactly one. -/
theorem cells_are_lines (text : List Char) :
    (∀ c ∈ cells text, c.source ≠ [] → c.Shows (lines text)) ∧
    ((cells text).Pairwise fun c d => c.line + c.pieces.length ≤ d.line) ∧
    ∀ n line, (lines text)[n]? = some line → HasText line → markerTitle? line = none →
      ∃! c, c ∈ cells text ∧ c.Covers (n + 1) := by
  have hall : ShowsFrom (lines text) 0 (cells text) :=
    showsFrom_cellsFrom [] [] _ 0 [] (newline_not_mem_linesFrom List.not_mem_nil) (List.forall_mem_nil _)
  refine ⟨hall.shows, hall.ordered, fun n line hline htext hmarker => ?_⟩
  obtain ⟨c, hc, hcovers⟩ := hall.covered n line (Nat.zero_le n) hline htext hmarker
  refine ⟨c, ⟨hc, hcovers⟩, ?_⟩
  rintro d ⟨hd, hcovers'⟩
  by_contra hne
  -- one of the two cells ends before the other one starts
  have hapart : (cells text).Pairwise Cell.Apart := hall.ordered.imp .inl
  have horder : Cell.Apart d c := hapart.forall hd hc hne
  obtain ⟨-, hfrom, hto⟩ := hcovers
  obtain ⟨-, hfrom', hto'⟩ := hcovers'
  rcases horder with h | h <;> omega

end Notebook

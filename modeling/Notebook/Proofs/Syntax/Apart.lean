import Notebook.Proofs.Syntax.Reaching
import Notebook.Proofs.Syntax.Statements

/-!
# Texts that are lexed apart

Where a text is cut behind a semicolon or a closing brace with no group open, its two parts have the token
trees of the whole (`LexState.Runs.apart_of_mark`), and so has what stands up to the end of the last token
(`LexState.Runs.apart_of_last`).  Only whether the semicolon has punctuation at once behind it may change.
-/

namespace Notebook.Syntax
open Notebook.Text
open TokenTree (marksAll)

/-- A token tree without what a semicolon tells of the punctuation behind it. -/
def TokenTree.settle : TokenTree → TokenTree
  | .punct ';' _ s => semicolon s
  | t => t

theorem settle_semicolon (joint : Bool) (s : Span) : (TokenTree.punct ';' joint s).settle = semicolon s := by
  simp only [TokenTree.settle]

theorem settle_of_ne {t : TokenTree} (ht : ∀ joint s, t ≠ .punct ';' joint s) : t.settle = t := by
  cases t <;> simp_all [TokenTree.settle]

/-- The parts of trees do not depend on what their semicolons tell. -/
theorem parts_settle (trees : List TokenTree) : parts (trees.map TokenTree.settle) = parts trees := by
  induction trees with
  | nil => rfl
  | cons t trees ih =>
    rw [List.map_cons]
    by_cases ht : ∃ joint s, t = .punct ';' joint s
    · obtain ⟨joint, s, rfl⟩ := ht
      rw [settle_semicolon, semicolon, parts_semicolon, parts_semicolon, ih]
    · have ht : ∀ joint s, t ≠ .punct ';' joint s := fun joint s h => ht ⟨joint, s, h⟩
      rw [settle_of_ne ht, parts_cons ht, parts_cons ht, ih]

theorem readStmts_of_settle {trees trees' : List TokenTree}
    (h : trees.map TokenTree.settle = trees'.map TokenTree.settle) : readStmts trees = readStmts trees' := by
  unfold readStmts
  rw [← parts_settle trees, h, parts_settle]

namespace LexState
variable {s s' : LexState} {w y z : List Char} {n : Nat} {out : List TokenTree} {p : Position}

/-- A semicolon or a closing brace is one step, in whatever text it stands. -/
theorem Step.of_mark {x : Char} (hx : x = ';' ∨ x = '\x7d') (h : Step s (x :: y) n s') :
    n = 1 ∧ ∃ s₁, Step s [x] 1 s₁ ∧ s₁.stack = s'.stack ∧
      s₁.trees.map TokenTree.settle = s'.trees.map TokenTree.settle ∧
      (x = ';' → ∃ joint sp, s'.trees.head? = some (.punct ';' joint sp)) ∧
      (x = '\x7d' → ∃ body start, s'.trees.head? = some (.group .brace body ⟨start, s'.place⟩)) := by
  have hne : x ≠ '/' := by rcases hx with rfl | rfl <;> decide
  have hblank : isTokenBlank x = false := by rcases hx with rfl | rfl <;> decide
  cases h with
  | trivia h =>
    rw [triviaLength?_of_ne _ hne, hblank] at h
    cases h
  | doc hno h =>
    rw [docComment?_of_ne _ hne] at h
    cases h
  | opening h =>
    obtain ⟨-, hd⟩ := opening?_eq_some.1 h
    rename_i d
    rcases hx with rfl | rfl <;> cases d <;> cases hd
  | closing hs h =>
    rename_i g stack
    refine ⟨rfl, _, .closing hs h, rfl, rfl, fun hx => ?_, fun hx => ?_⟩
    · subst hx
      cases h
    · subst hx
      have hd : Delimiter.brace = g.delimiter := Option.some.inj h
      exact ⟨s.trees.reverse, g.start, by rw [hd]; rfl⟩
  | leaf hno hdoc hopen hclose h =>
    rcases hx with rfl | rfl
    · rw [leaf?_semicolon] at h
      cases h
      have hno : NoTrivia [';'] := noTrivia_of_ne hne hblank
      have hstep := Step.leaf (s := s) hno (docComment?_of_ne _ hne) (opening?_of_leaf? (leaf?_semicolon [])) hclose
        (leaf?_semicolon [])
      exact ⟨rfl, _, hstep, rfl, by simp [settle_semicolon], fun _ => ⟨_, _, rfl⟩, fun hx => by cases hx⟩
    · cases hclose

/-- What has been read does not matter to what comes, where no group is open. -/
theorem Runs.of_closed (hstack : s.stack = []) (h : Runs out s y) :
    ∃ found, Runs found ⟨s.place, [], []⟩ y ∧ out = s.trees.reverse ++ found := by
  obtain ⟨p, stack, trees⟩ := s
  cases hstack
  exact Runs.of_under (s := ⟨p, [], []⟩) h

/-- The text up to a mark behind which no group is open, and the text behind it, are lexed apart as they
are together. -/
theorem Runs.apart_of_mark {x : Char} (hx : x = ';' ∨ x = '\x7d') {front back : List Mark}
    (h : Runs out ⟨p, [], []⟩ (w ++ x :: y)) (hmarks : marksAll out = front ++ back)
    (hlast : front.getLast? = some ⟨p.after w, x⟩) (hread : Mark.readAll [] front = some [])
    (hfront : ∀ m ∈ front, m.place.key < (p.after (w ++ [x])).key)
    (hback : ∀ m ∈ back, (p.after (w ++ [x])).key ≤ m.place.key) :
    ∃ first alone others, out = first ++ others ∧ Runs alone ⟨p, [], []⟩ (w ++ [x]) ∧
      Runs others ⟨p.after (w ++ [x]), [], []⟩ y ∧ marksAll first = front ∧ marksAll others = back ∧
      alone.map TokenTree.settle = first.map TokenTree.settle ∧
      (∀ t, first.getLast? = some t → t.span.stop.key ≤ (p.after (w ++ [x])).key) ∧
      (x = ';' → ∃ joint sp, first.getLast? = some (.punct ';' joint sp)) ∧
      (x = '\x7d' → ∃ body start, first.getLast? = some (.group .brace body ⟨start, p.after (w ++ [x])⟩)) := by
  have hstart := behind_start p
  have hm : (⟨p.after w, x⟩ : Mark) ∈ marksAll out :=
    hmarks ▸ List.mem_append_left back (List.mem_of_getLast? hlast)
  obtain ⟨s', hreach⟩ := h.exists_reaches_mark hstart (List.cons_ne_nil x y) hm rfl
  have hs' := hreach.behind hstart
  cases hreach.runs h with
  | @step _ s₂ _ n hstep hrest =>
    obtain ⟨rfl, s₃, hstep₃, hstack₃, hsettle, hsemicolon, hbrace⟩ := hstep.of_mark hx
    have hplace : s₂.place = p.after (w ++ [x]) := by
      rw [hstep.place, hreach.place, Position.after_append]
      rfl
    have hs₂ := hstep.behind hs'
    -- the marks that have been found are those before the cut
    obtain ⟨more, hmore, hplaces⟩ := hrest.exists_marks hs₂
    have hfound : s₂.marks = front ∧ more = back := by
      refine Mark.eq_of_append (p := p.after (w ++ [x])) (hmore.symm.trans hmarks) ?_ ?_ hfront hback
      · exact hplace ▸ hs₂.marks
      · exact hplace ▸ hplaces
    have hstack : s₂.stack = [] := by
      have hopen := readAll_marks s₂
      rw [hfound.1, hread, Option.some.injEq] at hopen
      exact List.map_eq_nil_iff.1 hopen.symm
    obtain ⟨others, hothers, rfl⟩ := hrest.of_closed hstack
    have hfirst : marksAll s₂.trees.reverse = front := by
      rw [← hfound.1, marks, hstack]
      rfl
    have hends : endsToken x = true ∧ startsPunct (x :: y) = startsPunct [x] := by
      rcases hx with rfl | rfl
      · exact ⟨rfl, by rw [startsPunct_of_ne _ (by decide), startsPunct_of_ne _ (by decide)]⟩
      · exact ⟨rfl, by rw [startsPunct_of_ne _ (by decide), startsPunct_of_ne _ (by decide)]⟩
    have hcut : Reaches [x] ⟨p, [], []⟩ w s' :=
      hreach.cut (exchange_shorter ⟨y, rfl⟩ (stops_cons hends.1) (stops_cons hends.1)) hends.2 (.inl rfl)
    refine ⟨s₂.trees.reverse, s₃.trees.reverse, others, rfl, ?_, hplace ▸ hothers, hfirst, ?_, ?_, ?_, ?_, ?_⟩
    · apply runs_of_lex
      rw [hcut.lex, hstep₃.lex]
      exact (Runs.done (hstack₃.trans hstack) rfl).lex
    · rw [marksAll_append, hfirst] at hmarks
      exact List.append_cancel_left hmarks
    · rw [List.map_reverse, hsettle, List.map_reverse]
    · intro t ht
      rw [List.getLast?_reverse] at ht
      exact hplace ▸ hs₂.trees t ht
    · rw [List.getLast?_reverse]
      exact hsemicolon
    · rw [List.getLast?_reverse, ← hplace]
      exact hbrace

/-- The text up to the end of the last token has all of the trees. -/
theorem Runs.apart_of_last (h : Runs out ⟨p, [], []⟩ (w ++ z)) (hz : Stops z) (hpunct : startsPunct z = false)
    {t : TokenTree} (ht : out.getLast? = some t) (hstop : t.span.stop = p.after w) (hdoc : t.isDoc = false) :
    Runs out ⟨p, [], []⟩ w ∧ Runs [] ⟨p.after w, [], []⟩ z := by
  by_cases hnil : z = []
  · subst hnil
    rw [List.append_nil] at h
    exact ⟨h, .done rfl rfl⟩
  obtain ⟨s', hreach, hstack, rfl⟩ := h.exists_reaches_stop (behind_start p) hnil ht hstop
  have hcut : Reaches [] ⟨p, [], []⟩ w s' := by
    refine hreach.cut (exchange_shorter List.nil_prefix hz stops_nil) hpunct (.inr fun u hu => ?_)
    rw [List.getLast?_reverse, hu, Option.some.injEq] at ht
    rw [ht, hdoc]
  refine ⟨runs_of_lex ?_, ?_⟩
  · have hlex := hcut.lex
    rw [List.append_nil] at hlex
    rw [hlex]
    exact (Runs.done hstack rfl).lex
  · obtain ⟨found, hfound, heq⟩ := (hreach.runs h).of_closed hstack
    rw [List.self_eq_append_right.1 heq, hreach.place] at hfound
    exact hfound

end LexState

end Notebook.Syntax

import Notebook.Proofs.Syntax.Marking

/-!
# Places that the lexer comes to

The lexer comes to stand before every bracket and semicolon that it takes (`LexState.Runs.exists_reaches_mark`)
and behind the last token (`LexState.Runs.exists_reaches_stop`).  Up to there it goes the same way if the
text is cut behind that place (`LexState.Reaches.cut`).
-/

namespace Notebook.Syntax
open Notebook.Text
open TokenTree (marksAll)

/-! ## Steps before a cut -/

theorem startsPunct_of_take {cs ds : List Char} (h : cs.take 2 = ds.take 2) :
    startsPunct cs = startsPunct ds := by
  have hhead : cs.head? = ds.head? := by
    have hhead := congrArg List.head? h
    rwa [List.head?_take, List.head?_take, if_neg (by decide), if_neg (by decide)] at hhead
  unfold startsPunct
  rw [startsWith_of_take h (by decide), startsWith_of_take h (by decide), hhead]

theorem two_le_of_triviaLength? {cs : List Char} {n : Nat} (h : triviaLength? ('/' :: cs) = some n) :
    2 ≤ n := by
  unfold triviaLength? at h
  split at h
  · rename_i hline
    simp only [Bool.and_eq_true] at hline
    rw [Option.some.injEq, lineLengthWithReturn_eq] at h
    rw [← h]
    exact length_le_of_startsWith (p := (· ≠ '\n')) (by decide) hline.1.1
  split at h
  · cases h
    decide
  split at h
  · exact Nat.le_of_succ_le (Nat.le_of_succ_le (four_le_of_blockCommentLength? h))
  · have hslash : isTokenBlank '/' = false := by decide
    simp [hslash] at h

namespace LexState
variable {s s' : LexState} {w z z' cs : List Char} {n : Nat} {out acc : List TokenTree}

/-- Punctuation before the cut stays what it is, where a step that starts there ends before the cut. -/
theorem Step.startsPunct_eq (hx : Exchange z z') (h : Step s (w ++ z) n s') (hn : n ≤ w.length) :
    startsPunct (w ++ z) = startsPunct (w ++ z') := by
  by_cases htwo : 2 ≤ w.length
  · apply startsPunct_of_take
    rw [List.take_append_of_le_length htwo, List.take_append_of_le_length htwo]
  obtain ⟨c, rfl⟩ : ∃ c, w = [c] := by
    have hpos := h.pos
    exact List.length_eq_one_iff.1 (by omega)
  by_cases hc : c = '/'
  · subst hc
    -- a comment is longer than one character
    have hpunct : startsPunct ('/' :: z) = true := by
      change Step s ('/' :: z) n s' at h
      cases h with
      | trivia h =>
        have := two_le_of_triviaLength? h
        exact absurd hn (by simp only [List.length_singleton]; omega)
      | doc hno h =>
        have := three_le_of_docComment? h
        exact absurd hn (by simp only [List.length_singleton]; omega)
      | opening h => exact absurd rfl (ne_slash_of_opening? h).1
      | closing hs h => exact absurd rfl (ne_slash_of_closed? h).1
      | leaf hno hdoc hopen hclose h => exact startsPunct_of_leaf? h
    rw [List.singleton_append, hpunct,
      startsPunct_of_startsPunct (w := ['/']) hx (List.cons_ne_nil _ _) hpunct]
  · rw [List.singleton_append, List.singleton_append, startsPunct_of_ne _ hc, startsPunct_of_ne _ hc]

/-- A step that ends before the cut is one of the text that is cut. -/
theorem Step.cut (hx : Exchange z z') (h : Step s (w ++ z) n s')
    (hn : n ≤ w.length) (hjoint : startsPunct (w.drop n ++ z) = startsPunct (w.drop n ++ z'))
    (hdoc : n < w.length ∨ z.head? = z'.head? ∨ ∀ t, s'.trees.head? = some t → t.isDoc = false) :
    Step s (w ++ z') n s' := by
  have htake : (w ++ z').take n = (w ++ z).take n := by
    rw [List.take_append_of_le_length hn, List.take_append_of_le_length hn]
  have hw : w ≠ [] := by
    rintro rfl
    exact absurd h.pos (Nat.not_lt.2 hn)
  generalize hcs : w ++ z = cs at h
  cases h with
  | trivia h =>
    subst hcs
    have hstep := Step.trivia (s := s) (triviaLength?_eq_some hx h hw hn)
    rwa [htake] at hstep
  | doc hno h =>
    subst hcs
    rename_i d
    have hhead : d.length < w.length ∨ z.head? = z'.head? := by
      rcases hdoc with hdoc | hdoc | hdoc
      · exact .inl hdoc
      · exact .inr hdoc
      · obtain ⟨t, ht, -, hisDoc⟩ := exists_last_doc d ⟨s.place, s.place.after ((w ++ z).take d.length)⟩
        have hno := hdoc t (by rw [List.head?_append, List.head?_reverse, ht]; rfl)
        rw [hisDoc] at hno
        cases hno
    have hdoc' := docComment?_eq_some hx h hn hhead
    have hthree := three_le_of_docComment? h
    have hempty : startsWith (w ++ z') "/**/" = false := by
      have htest : startsWith (w ++ z') "/**/" = startsWith (w ++ z) "/**/" :=
        startsWith_of_take (take_four_append (Nat.le_trans hthree hn)
          (hhead.imp_left (Nat.lt_of_le_of_lt hthree))) (by decide)
      rw [htest]
      refine Bool.eq_false_iff.2 fun hempty => ?_
      obtain ⟨rest, hrest⟩ := List.isPrefixOf_iff_prefix.1 hempty
      exact hno 3 (by rw [← hrest]; rfl)
    have hstep := Step.doc (s := s) (noTrivia_of_docComment? hdoc' hempty) hdoc'
    rwa [htake] at hstep
  | opening h =>
    obtain ⟨c, w, rfl⟩ := List.exists_cons_of_ne_nil hw
    cases hcs
    obtain ⟨hmark, hd⟩ := opening?_eq_some.1 h
    exact .opening (opening?_eq_some.2 ⟨hx.startsWith_eq_false (w := _ :: w) (by decide) hmark, hd⟩)
  | closing hs h =>
    obtain ⟨c, w, rfl⟩ := List.exists_cons_of_ne_nil hw
    cases hcs
    exact .closing hs h
  | leaf hno hdocNone hopen hclose h =>
    rename_i c rest token
    obtain ⟨d, w, rfl⟩ := List.exists_cons_of_ne_nil hw
    rw [List.cons_append, List.cons.injEq] at hcs
    obtain ⟨rfl, rfl⟩ := hcs
    have hleaf : leaf? (d :: (w ++ z')) = some (n, token) := by
      rw [leaf?_eq_some_iff] at h ⊢
      refine Leaf.exchange hx (w := d :: w) h hn hw ?_
      rintro rfl
      exact hjoint
    have hkept : NoTrivia (d :: (w ++ z')) ∧ docComment? (d :: (w ++ z')) = none := by
      by_cases hc : d = '/'
      · subst hc
        have hpunct := startsPunct_of_leaf? hleaf
        refine ⟨fun n hn => ?_, docComment?_of_startsPunct hpunct⟩
        rw [triviaLength?_of_startsPunct hpunct] at hn
        cases hn
      · refine ⟨fun n hn => hno n ?_, docComment?_of_ne _ hc⟩
        rw [triviaLength?_of_ne _ hc] at hn ⊢
        exact hn
    have hstep := Step.leaf (s := s) hkept.1 hkept.2 (opening?_of_leaf? hleaf) hclose hleaf
    have htake : (d :: (w ++ z')).take n = (d :: (w ++ z)).take n := htake
    rwa [htake] at hstep

/-! ## States between two steps -/

/-- With `z` still to come the lexer takes `w` step by step. -/
inductive Reaches (z : List Char) : LexState → List Char → LexState → Prop
  | refl {s : LexState} : Reaches z s [] s
  | step {s s₁ s' : LexState} {w : List Char} {n : Nat} (h : Step s (w ++ z) n s₁) (hn : n ≤ w.length)
    (rest : Reaches z s₁ (w.drop n) s') : Reaches z s w s'

theorem Reaches.eq_of_nil (h : Reaches z s [] s') : s' = s := by
  cases h with
  | refl => rfl
  | step h hn rest => exact absurd h.pos (Nat.not_lt.2 hn)

theorem Reaches.place (h : Reaches z s w s') : s'.place = s.place.after w := by
  induction h with
  | refl => rfl
  | step h hn rest ih =>
    rw [ih, h.place, List.take_append_of_le_length hn, ← Position.after_append, List.take_append_drop]

theorem Reaches.lex (h : Reaches z s w s') : s.lex (w ++ z) = s'.lex z := by
  induction h with
  | refl => rfl
  | step h hn rest ih => rw [h.lex, List.drop_append_of_le_length hn, ih]

theorem Reaches.behind (hs : s.Behind) (h : Reaches z s w s') : s'.Behind := by
  induction h with
  | refl => exact hs
  | step h hn rest ih => exact ih (h.behind hs)

/-- The lexer comes to the same state if the text is cut behind it. -/
theorem Reaches.cut (h : Reaches z s w s') (hx : Exchange z z')
    (hpunct : startsPunct z = startsPunct z')
    (hdoc : z.head? = z'.head? ∨ ∀ t, s'.trees.head? = some t → t.isDoc = false) : Reaches z' s w s' := by
  induction h with
  | refl => exact .refl
  | step h hn rest ih =>
    rename_i s s₁ s' w n
    refine .step (h.cut hx hn ?_ ?_) hn (ih hdoc)
    · cases hrest : w.drop n with
      | nil => exact hpunct
      | cons c w' =>
        rw [hrest] at rest
        cases rest with
        | step h hn rest => exact h.startsPunct_eq hx hn
    · rcases Nat.lt_or_ge n w.length with hlt | hge
      · exact .inl hlt
      · rw [List.drop_of_length_le hge] at rest
        rw [rest.eq_of_nil] at hdoc
        exact .inr hdoc

/-! ## The way to the end -/

/-- The lexer takes a text step by step and comes out with token trees. -/
inductive Runs (out : List TokenTree) : LexState → List Char → Prop
  | done {s : LexState} (hstack : s.stack = []) (hout : out = s.trees.reverse) : Runs out s []
  | step {s s₁ : LexState} {cs : List Char} {n : Nat} (h : Step s cs n s₁) (rest : Runs out s₁ (cs.drop n)) :
    Runs out s cs

theorem runs_of_lex (h : s.lex cs = .ok out) : Runs out s cs := by
  induction hlen : cs.length using Nat.strong_induction_on generalizing s cs with
  | _ len ih =>
    subst hlen
    by_cases hcs : cs = []
    · subst hcs
      have hskip : skipTrivia s.place [] = (s.place, []) := by simp [skipTrivia]
      unfold LexState.lex at h
      rw [lexFrom_eq, hskip] at h
      simp only at h
      split at h
      · rename_i hstack
        cases h
        exact .done hstack rfl
      · cases h
    · obtain ⟨n, s₁, hstep, hrest⟩ := exists_step h hcs
      have hpos := hstep.pos
      have hlen := List.length_pos_iff.2 hcs
      exact .step hstep (ih _ (by rw [List.length_drop]; omega) hrest rfl)

theorem Runs.lex (h : Runs out s cs) : s.lex cs = .ok out := by
  induction h with
  | @done s hstack hout =>
    have hskip : skipTrivia s.place [] = (s.place, []) := by simp [skipTrivia]
    unfold LexState.lex
    rw [lexFrom_eq, hskip, hstack, hout]
  | step h rest ih => rw [h.lex, ih]

theorem Reaches.runs (h : Reaches z s w s') (hruns : Runs out s (w ++ z)) : Runs out s' z :=
  runs_of_lex (h.lex ▸ hruns.lex)

/-- On its way the lexer comes to stand before what is left, or a step goes over this place. -/
theorem Runs.reaches (h : Runs out s (w ++ z)) :
    (∃ s', Reaches z s w s') ∨
      ∃ w₁ w₂ s₁ n s₂, w = w₁ ++ w₂ ∧ w₂ ≠ [] ∧ Reaches (w₂ ++ z) s w₁ s₁ ∧ Step s₁ (w₂ ++ z) n s₂ ∧
        w₂.length < n ∧ Runs out s₂ ((w₂ ++ z).drop n) := by
  generalize hcs : w ++ z = cs at h
  induction h generalizing w with
  | done hstack hout =>
    rw [List.append_eq_nil_iff] at hcs
    rw [hcs.1]
    exact .inl ⟨_, .refl⟩
  | @step s s₁ cs n hstep rest ih =>
    subst hcs
    by_cases hw : w = []
    · subst hw
      exact .inl ⟨s, .refl⟩
    rcases Nat.lt_or_ge w.length n with hlt | hge
    · exact .inr ⟨[], w, s, n, s₁, rfl, hw, .refl, hstep, hlt, rest⟩
    rw [List.drop_append_of_le_length hge] at ih
    rcases ih rfl with ⟨s', hreach⟩ | ⟨w₁, w₂, s₂, m, s₃, hsplit, hne, hreach, hjump, hover, hrest⟩
    · exact .inl ⟨s', .step hstep hge hreach⟩
    · refine .inr ⟨w.take n ++ w₁, w₂, s₂, m, s₃, ?_, hne, ?_, hjump, hover, hrest⟩
      · rw [List.append_assoc, ← hsplit, List.take_append_drop]
      · have htake : (w.take n).length = n := List.length_take_of_le hge
        have hall : w.take n ++ w₁ ++ (w₂ ++ z) = w ++ z := by
          rw [List.append_assoc, ← List.append_assoc w₁, ← hsplit, ← List.append_assoc,
            List.take_append_drop]
        refine .step (hall ▸ hstep) (by rw [List.length_append, htake]; exact Nat.le_add_right ..) ?_
        rwa [List.drop_left' htake]

/-- What is still found stands behind the place. -/
theorem Runs.exists_marks (h : Runs out s cs) (hs : s.Behind) :
    ∃ more, marksAll out = s.marks ++ more ∧ ∀ m ∈ more, s.place.key ≤ m.place.key := by
  induction h with
  | @done s hstack hout =>
    exact ⟨[], by simp [marks, hstack, hout, openMarks], fun m hm => absurd hm List.not_mem_nil⟩
  | @step s s₁ cs n hstep rest ih =>
    obtain ⟨more, hmore, hplaces⟩ := ih (hstep.behind hs)
    have hlt := hstep.place_lt hstep.ne_nil
    rcases hstep.marks_eq hs with heq | ⟨-, c, rest, -, heq⟩
    · exact ⟨more, by rw [hmore, heq], fun m hm => hlt.le.trans (hplaces m hm)⟩
    · refine ⟨⟨s.place, c⟩ :: more, by rw [hmore, heq, List.append_assoc, List.singleton_append], ?_⟩
      intro m hm
      rcases List.mem_cons.1 hm with rfl | hm
      · exact le_refl _
      · exact hlt.le.trans (hplaces m hm)

/-- Either all trees have been found, or the last one ends behind the place. -/
theorem Runs.exists_last (h : Runs out s cs) :
    s.stack = [] ∧ out = s.trees.reverse ∨
      ∃ t, out.getLast? = some t ∧ s.place.key < t.span.stop.key := by
  induction h with
  | done hstack hout => exact .inl ⟨hstack, hout⟩
  | @step s s₁ cs n hstep rest ih =>
    have hlt := hstep.place_lt hstep.ne_nil
    rcases ih with ⟨hstack, hout⟩ | ⟨t, ht, hstop⟩
    · rcases hstep.trees_eq with ⟨htrees, hkept⟩ | ⟨-, hopen⟩ | ⟨t, ht, hstop⟩
      · exact .inl ⟨hkept ▸ hstack, htrees ▸ hout⟩
      · exact absurd hstack hopen
      · refine .inr ⟨t, ?_, hstop ▸ hlt⟩
        rw [hout, List.getLast?_reverse, ht]
    · exact .inr ⟨t, ht, hlt.trans hstop⟩

/-- The place that a step comes to lies behind all that it takes. -/
theorem Step.place_lt_of_length_lt (h : Step s (w ++ z) n s') (hz : z ≠ []) (hn : w.length < n) :
    (s.place.after w).key < s'.place.key := by
  have htake : (w ++ z).take n = w ++ z.take (n - w.length) := by
    rw [List.take_append, List.take_of_length_le hn.le]
  rw [h.place, htake, Position.after_append]
  refine Position.key_lt_after _ ?_
  rw [ne_eq, List.take_eq_nil_iff]
  rintro (h | h)
  · omega
  · exact hz h

/-- The lexer comes to stand before every mark that it finds. -/
theorem Runs.exists_reaches_mark (h : Runs out s (w ++ z)) (hs : s.Behind) (hz : z ≠ []) {m : Mark}
    (hm : m ∈ marksAll out) (hplace : m.place = s.place.after w) : ∃ s', Reaches z s w s' := by
  rcases h.reaches with hreach | ⟨w₁, w₂, s₁, n, s₂, rfl, hne, hreach, hstep, hover, hrest⟩
  · exact hreach
  exfalso
  have hs₁ := hreach.behind hs
  obtain ⟨more, hmore, hplaces⟩ := hrest.exists_marks (hstep.behind hs₁)
  rw [Position.after_append, ← hreach.place] at hplace
  have hgone : s₁.place.key < m.place.key := hplace ▸ Position.key_lt_after _ hne
  have hbefore : m.place.key < s₂.place.key := hplace ▸ hstep.place_lt_of_length_lt hz hover
  rw [hmore, List.mem_append] at hm
  rcases hm with hm | hm
  · rcases hstep.marks_eq hs₁ with heq | ⟨hone, -⟩
    · rw [heq] at hm
      exact lt_asymm hgone (hs₁.marks m hm)
    · have := List.length_pos_iff.2 hne
      omega
  · exact absurd (hplaces m hm) (not_le_of_gt hbefore)

/-- The lexer comes to stand behind the last tree, and then has found all trees. -/
theorem Runs.exists_reaches_stop (h : Runs out s (w ++ z)) (hs : s.Behind) (hz : z ≠ []) {t : TokenTree}
    (ht : out.getLast? = some t) (hstop : t.span.stop = s.place.after w) :
    ∃ s', Reaches z s w s' ∧ s'.stack = [] ∧ out = s'.trees.reverse := by
  rcases h.reaches with ⟨s', hreach⟩ | ⟨w₁, w₂, s₁, n, s₂, rfl, hne, hreach, hstep, hover, hrest⟩
  · refine ⟨s', hreach, ?_⟩
    rcases (hreach.runs h).exists_last with hall | ⟨u, hu, hlt⟩
    · exact hall
    · rw [ht, Option.some.injEq] at hu
      rw [← hu, hstop, ← hreach.place] at hlt
      exact absurd hlt (lt_irrefl _)
  exfalso
  rw [Position.after_append, ← hreach.place] at hstop
  have hgone : s₁.place.key < t.span.stop.key := hstop ▸ Position.key_lt_after _ hne
  have hbefore : t.span.stop.key < s₂.place.key := hstop ▸ hstep.place_lt_of_length_lt hz hover
  rcases hrest.exists_last with ⟨hstack, hout⟩ | ⟨u, hu, hlt⟩
  · rw [hout, List.getLast?_reverse] at ht
    -- the step adds a tree that ends too late, or none
    rcases hstep.trees_eq with ⟨htrees, -⟩ | ⟨-, hopen⟩ | ⟨u, hu, hend⟩
    · rw [htrees] at ht
      exact absurd ((hreach.behind hs).trees t ht) (not_le_of_gt hgone)
    · exact absurd hstack hopen
    · rw [hu, Option.some.injEq] at ht
      rw [← ht, hend] at hbefore
      exact lt_irrefl _ hbefore
  · rw [ht, Option.some.injEq] at hu
    rw [← hu] at hlt
    exact lt_asymm hlt hbefore

/-! ## Trees before those that are read -/

/-- Open groups with more trees before the outermost one. -/
def underGroups (acc : List TokenTree) : List OpenGroup → List OpenGroup
  | [] => []
  | [g] => [{ g with before := g.before ++ acc }]
  | g :: h :: stack => g :: underGroups acc (h :: stack)

/-- A state with more trees before all that have been read, last one first. -/
def under (acc : List TokenTree) : LexState → LexState
  | ⟨p, [], trees⟩ => ⟨p, [], trees ++ acc⟩
  | ⟨p, g :: stack, trees⟩ => ⟨p, underGroups acc (g :: stack), trees⟩

theorem under_place (acc : List TokenTree) (s : LexState) : (under acc s).place = s.place := by
  obtain ⟨p, stack, trees⟩ := s
  cases stack <;> rfl

theorem under_opening (acc : List TokenTree) (s : LexState) (p : Position) (d : Delimiter) :
    (⟨p, ⟨d, s.place, (under acc s).trees⟩ :: (under acc s).stack, []⟩ : LexState) =
      under acc ⟨p, ⟨d, s.place, s.trees⟩ :: s.stack, []⟩ := by
  obtain ⟨q, stack, trees⟩ := s
  cases stack <;> rfl

theorem under_adding (acc : List TokenTree) (s : LexState) (p : Position) (ts : List TokenTree) :
    ({ under acc s with place := p, trees := ts ++ (under acc s).trees } : LexState) =
      under acc { s with place := p, trees := ts ++ s.trees } := by
  obtain ⟨q, stack, trees⟩ := s
  cases stack with
  | nil => simp [under]
  | cons g stack => rfl

/-- What stands before does not matter to a step. -/
theorem Step.of_under (h : Step (under acc s) cs n s') : ∃ s₁, s' = under acc s₁ ∧ Step s cs n s₁ := by
  cases h with
  | trivia h => exact ⟨_, by rw [under_place]; exact under_adding acc s _ [], .trivia h⟩
  | doc hno h => exact ⟨_, by rw [under_place]; exact under_adding acc s _ _, .doc hno h⟩
  | opening h => exact ⟨_, by rw [under_place]; exact under_opening acc s _ _, .opening h⟩
  | closing hs h =>
    rename_i c rest g groups
    obtain ⟨p, stack, trees⟩ := s
    cases stack with
    | nil => cases hs
    | cons g₁ stack =>
      cases stack with
      | nil =>
        cases hs
        exact ⟨_, by simp [under], .closing rfl h⟩
      | cons g₂ stack =>
        cases hs
        exact ⟨_, by simp [under], .closing rfl h⟩
  | leaf hno hdoc hopen hclose h =>
    exact ⟨_, by rw [under_place]; exact under_adding acc s _ [_], .leaf hno hdoc hopen hclose h⟩

/-- What stands before comes out before all else. -/
theorem Runs.of_under (h : Runs out (under acc s) cs) :
    ∃ found, Runs found s cs ∧ out = acc.reverse ++ found := by
  generalize hu : under acc s = u at h
  induction h generalizing s with
  | done hstack hout =>
    subst hu
    obtain ⟨p, stack, trees⟩ := s
    cases stack with
    | nil => exact ⟨_, .done rfl rfl, by rw [hout, under, List.reverse_append]⟩
    | cons g stack => cases stack <;> cases hstack
  | step h rest ih =>
    subst hu
    obtain ⟨s₁, rfl, hstep⟩ := h.of_under
    obtain ⟨found, hruns, rfl⟩ := ih rfl
    exact ⟨found, .step hstep hruns, rfl⟩

end LexState

end Notebook.Syntax

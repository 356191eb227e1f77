import Notebook.Proofs.Syntax.Seam.Parts

/-!
# A semicolon that a text lacks

A text may be read with a semicolon behind it that it does not hold. If the semicolon comes out as a statement by
itself, the text can be read without it (`exists_parse_of_starts`): what stands before is ended, and with blanks
behind it the text has the same tokens.
-/

namespace Notebook.Syntax
open Notebook.Text

/-! ## The tokens before the semicolon -/

/-- No token starts where a statement starts that has been read from others. -/
theorem Spans.eq_nil {s : Stmt} {front u : List TokenTree} {p : Position} (h : Spans s (front ++ u))
    (hstart : s.span.start = p) (hbefore : ∀ t ∈ front, t.span.start ≠ p) : front = [] := by
  obtain ⟨first, last, hhead, -, hspan⟩ := h
  cases front with
  | nil => rfl
  | cons t front =>
    cases hhead
    refine absurd ?_ (hbefore first List.mem_cons_self)
    rw [← hstart, hspan]

/-- The tokens before the last one are ended if a statement starts with that. -/
theorem Divided.ends_before {stmts : List Stmt} {all tokens : List TokenTree} {t : TokenTree} {s : Stmt}
    (h : Divided stmts all) (hall : all = tokens ++ [t]) (hs : s ∈ stmts) (hstart : s.span.start = t.span.start)
    (hbefore : ∀ u ∈ tokens, u.span.start ≠ t.span.start) : tokens = [] ∨ Ends tokens := by
  induction h generalizing tokens with
  | nil => exact absurd hs List.not_mem_nil
  | last hspans =>
    rw [← List.mem_singleton.1 hs, hall] at hspans
    exact .inl (hspans.eq_nil hstart hbefore)
  | @cons s' u stmts others hspans hu rest ih =>
    rcases List.eq_nil_or_concat others with rfl | ⟨others, t', rfl⟩
    · rw [rest.eq_nil rfl, List.mem_singleton] at hs
      rw [List.append_nil] at hall
      rw [← hs, hall] at hspans
      exact .inl (hspans.eq_nil hstart hbefore)
    rw [List.concat_eq_append, ← List.append_assoc] at hall
    obtain ⟨rfl, ht⟩ := List.append_inj' hall rfl
    cases ht
    rcases List.mem_cons.1 hs with rfl | hs
    · rw [← List.append_nil u] at hspans
      exact absurd (hspans.eq_nil hstart fun v hv => hbefore v (List.mem_append_left _ hv)) hu.ne_nil
    · rcases ih List.concat_eq_append hs fun v hv => hbefore v (List.mem_append_right u hv) with rfl | hothers
      · exact .inr (by rwa [List.append_nil])
      · exact .inr (hothers.behind u)

/-- Tokens that are ended are read for themselves where no statement goes on behind them. -/
theorem exists_readStmts_of_ends {tokens more : List TokenTree} {stmts : List Stmt}
    (hends : tokens = [] ∨ Ends tokens) (hread : readStmts (tokens ++ more) = .ok stmts)
    (hwhole : NoneAcross stmts tokens more) : ∃ first, readStmts tokens = .ok first := by
  rcases hends with rfl | ⟨t, ht, hend⟩
  · exact ⟨[], rfl⟩
  obtain ⟨before, rfl⟩ := List.getLast?_eq_some_iff.1 ht
  cases t with
  | group d body s =>
    -- the group is one in braces, behind which no statement has to go on
    have hshut : Shut (before ++ [.group d body s]) := ⟨before, body, s, by rw [of_decide_eq_true hend]⟩
    obtain ⟨first, others, hfirst, -⟩ := readStmts_append hshut hread hwhole
    exact ⟨first, hfirst⟩
  | punct c joint s =>
    obtain rfl : c = ';' := of_decide_eq_true hend
    have hparts : parts (before ++ [.punct ';' joint s] ++ more) =
        [before ++ [.punct ';' joint s], more].flatMap parts := by
      rw [List.append_assoc, List.singleton_append, parts_append, List.flatMap_cons, List.flatMap_singleton,
        parts_append before joint s []]
      simp [parts]
    obtain ⟨each, heach, -⟩ := readStmts_of_parts hparts hread
    obtain ⟨first, others, -, hfirst, -⟩ := List.map_eq_cons_iff.1 heach.symm
    exact ⟨first, hfirst.symm⟩
  | word => cases hend
  | literal => cases hend

/-! ## The text before the semicolon -/

namespace LexState

variable {s s' : LexState} {w z : List Char} {n : Nat}

theorem lex_blanks (hz : ∀ c ∈ z, isBlank c = true) (hstack : s.stack = []) : s.lex z = .ok s.trees.reverse := by
  have hlex : s.lex (z ++ []) = lexFrom (s.place.after z) s.stack s.trees [] := lexFrom_blanks z [] hz
  rw [List.append_nil] at hlex
  exact hlex.trans (Runs.done (s := { s with place := s.place.after z }) hstack rfl).lex

/-- A step to the end of tokens that are ended is one if blanks stand for the semicolon behind them. -/
theorem Step.exists_lex (h : Step s (w ++ [';']) n s') (hn : w.length = n) (hz : ∀ c ∈ z, isBlank c = true)
    (hstack : s'.stack = []) (hends : ∀ t, s'.trees.head? = some t → t.mayEnd = true) :
    ∃ found, s.lex (w ++ z) = .ok found ∧ found.map TokenTree.settle = s'.trees.reverse.map TokenTree.settle := by
  have hw : w ≠ [] := by
    rintro rfl
    exact absurd h.pos (Nat.not_lt.2 hn.ge)
  have hfound (hstep : Step s (w ++ z) n s') :
      ∃ found, s.lex (w ++ z) = .ok found ∧ found.map TokenTree.settle = s'.trees.reverse.map TokenTree.settle := by
    refine ⟨_, ?_, rfl⟩
    rw [hstep.lex, List.drop_left' hn]
    exact lex_blanks hz hstack
  have htake : (w ++ z).take n = (w ++ [';']).take n := by
    rw [List.take_left' hn, List.take_left' hn]
  generalize hcs : w ++ [';'] = cs at h
  cases h with
  | trivia h =>
    subst hcs
    have hstep := Step.trivia (s := s) (triviaLength?_eq_some (exchange_blanks hz) h hw hn.ge)
    rw [htake] at hstep
    exact hfound hstep
  | doc hno h =>
    -- what a comment stands for ends with a group in brackets
    have hlast : TokenTree.mayEnd (.group .bracket _ _) = true := hends _ (by
      rw [List.head?_append, List.head?_reverse, DocComment.trees, List.getLast?_concat]
      rfl)
    cases hlast
  | opening h => cases hstack
  | closing hs h =>
    obtain ⟨c, w, rfl⟩ := List.exists_cons_of_ne_nil hw
    cases hcs
    exact hfound (.closing hs h)
  | leaf hno hdoc hopen hclose h =>
    rename_i c rest token
    have hend := hends _ rfl
    obtain ⟨text, rfl⟩ | ⟨text, rfl⟩ | ⟨d, joint, hd, rfl, rfl⟩ := cases_leaf? h
    · cases hend
    · cases hend
    obtain rfl : d = ';' := of_decide_eq_true hend
    cases hd
    obtain ⟨d, rfl⟩ := List.length_eq_one_iff.1 hn
    cases hcs
    refine ⟨_, (lex_semicolon s z).trans (lex_blanks hz hstack), ?_⟩
    simp [settle_semicolon, Position.after]

/-- Where the lexer comes to a semicolon behind tokens that are ended, it finds the same tokens if blanks stand for
the semicolon. -/
theorem Reaches.exists_lex (h : Reaches [';'] s w s') (hz : ∀ c ∈ z, isBlank c = true) (hstack : s'.stack = [])
    (hends : ∀ t, s'.trees.head? = some t → t.mayEnd = true) :
    ∃ found, s.lex (w ++ z) = .ok found ∧ found.map TokenTree.settle = s'.trees.reverse.map TokenTree.settle := by
  have hx := exchange_blanks hz
  induction h with
  | refl => exact ⟨_, lex_blanks hz hstack, rfl⟩
  | @step s s₁ s' w n h hn rest ih =>
    have hw : w ≠ [] := by
      rintro rfl
      exact absurd h.pos (Nat.not_lt.2 hn)
    cases hrest : w.drop n with
    | cons c w' =>
      -- punctuation before the last token has the same behind it
      have hpunct : startsPunct (w.drop n ++ [';']) = startsPunct (w.drop n ++ z) := by
        rw [hrest] at rest ⊢
        cases rest with
        | step h hn rest => exact h.startsPunct_eq hx hn
      have hlt : n < w.length := by
        by_contra hge
        rw [List.drop_of_length_le (Nat.le_of_not_lt hge)] at hrest
        cases hrest
      obtain ⟨found, hfound, hsettle⟩ := ih hstack hends
      refine ⟨found, ?_, hsettle⟩
      rw [(h.cut hx hn hpunct (.inl hlt)).lex, List.drop_append_of_le_length hn, hfound]
    | nil =>
      rw [hrest] at rest
      obtain rfl := rest.eq_of_nil
      exact h.exists_lex (hn.antisymm' (List.drop_eq_nil_iff.1 hrest)) hz hstack hends

theorem Reaches.lays {cs : List Char} {k : Nat} (h : Reaches z s w s') (hs : s.Lays cs k) (hcs : cs.drop k = w ++ z) :
    s'.Lays cs (k + w.length) := by
  induction h generalizing k with
  | refl => exact hs
  | @step s s₁ s' w n h hn rest ih =>
    have hrest : cs.drop (k + n) = w.drop n ++ z := by
      rw [← List.drop_drop, hcs, List.drop_append_of_le_length hn]
    have hlays := ih ((hcs ▸ h).lays hs) hrest
    rwa [List.length_drop, Nat.add_assoc, Nat.add_sub_cancel' hn] at hlays

/-- The lexer comes to the semicolon at the end of a text if a token starts there. -/
theorem Runs.exists_reaches_semicolon {cs : List Char} {k : Nat} {out : List TokenTree} (h : Runs out s (w ++ [';']))
    (hs : s.Lays cs k) (hcs : cs.drop k = w ++ [';']) {t : TokenTree} (ht : t ∈ out)
    (hstart : t.span.start = s.place.after w) : ∃ s', Reaches [';'] s w s' := by
  rcases h.reaches with hreach | ⟨w₁, w₂, s₁, n, s₂, rfl, hne, hreach, hstep, hover, hrest⟩
  · exact hreach
  exfalso
  have hlength := List.length_pos_iff.2 hne
  -- the step that goes over the place takes all that is left
  have hnil : (w₂ ++ [';']).drop n = [] :=
    List.drop_eq_nil_of_le (by rw [List.length_append, List.length_singleton]; exact hover)
  rw [hnil] at hrest
  obtain ⟨hstack, rfl⟩ : s₂.stack = [] ∧ out = s₂.trees.reverse := by
    cases hrest with
    | done hstack hout => exact ⟨hstack, hout⟩
    | step h => exact absurd rfl h.ne_nil
  rw [Position.after_append, ← hreach.place] at hstart
  have hbehind : s₁.place.key < t.span.start.key := hstart ▸ Position.key_lt_after _ hne
  have hlays := hreach.lays hs (by rw [hcs, List.append_assoc])
  have hstarted (hstack : s₁.stack = []) : t ∉ s₁.trees := fun ht =>
    absurd ((hlays.trees hstack).started t ht) (not_le_of_gt hbehind)
  have hplace : t.span.start ≠ s₁.place := fun h => absurd (h ▸ hbehind) (lt_irrefl _)
  rw [List.mem_reverse] at ht
  generalize hall : w₂ ++ [';'] = rest at hstep
  cases hstep with
  | trivia => exact hstarted hstack ht
  | doc =>
    rcases List.mem_append.1 ht with ht | ht
    · exact hplace (congrArg Span.start (span_of_mem_doc (List.mem_reverse.1 ht)))
    · exact hstarted hstack ht
  | opening => omega
  | closing => omega
  | leaf hno hdoc hopen hclose hleaf =>
    rcases List.mem_cons.1 ht with rfl | ht
    · exact hplace (congrArg Span.start (span_leaf hleaf _))
    · exact hstarted hstack ht

theorem Runs.of_semicolon {out : List TokenTree} (h : Runs out s [';']) :
    s.stack = [] ∧ ∃ joint stop, out = s.trees.reverse ++ [.punct ';' joint ⟨s.place, stop⟩] := by
  have hlex := h.lex
  rw [lex_semicolon] at hlex
  obtain ⟨p, stack, trees⟩ := s
  cases stack with
  | nil =>
    rw [lex_nil _ rfl] at hlex
    cases hlex
    exact ⟨rfl, _, _, List.reverse_cons⟩
  | cons g stack =>
    cases runs_of_lex hlex with
    | done hstack => cases hstack
    | step h => exact absurd rfl h.ne_nil

end LexState

/-! ## The text as a whole -/

theorem ends_map_settle {u : List TokenTree} : Ends (u.map TokenTree.settle) ↔ Ends u := by
  unfold Ends
  rw [List.getLast?_map]
  constructor
  · rintro ⟨t, ht, hend⟩
    obtain ⟨v, hv, rfl⟩ := Option.map_eq_some_iff.1 ht
    exact ⟨v, hv, mayEnd_settle v ▸ hend⟩
  · rintro ⟨t, ht, hend⟩
    exact ⟨t.settle, by rw [ht, Option.map_some], (mayEnd_settle t).trans hend⟩

/-- What has been found outside of groups starts before the place. -/
theorem LexState.Lays.start_lt {cs : List Char} {s : LexState} {k : Nat} (hs : s.Lays cs k) (hbehind : s.Behind)
    (hstack : s.stack = []) : ∀ t ∈ s.trees, t.span.start.key < s.place.key := by
  have hlaid := hs.trees hstack
  have hstop := hbehind.trees
  generalize s.trees = trees at hlaid hstop
  cases trees with
  | nil => exact List.forall_mem_nil _
  | cons last trees =>
    obtain ⟨a, b, hstretch⟩ := hlaid.stands last List.mem_cons_self
    have hlast := hstretch.key_lt.trans_le (hstop last rfl)
    refine List.forall_mem_cons.2 ⟨hlast, fun t ht => ?_⟩
    exact ((List.pairwise_cons.1 hlaid.row).1 t ht).start.trans_lt hlast

/-- A text is lexed from where its first token may stand, whatever is put behind it. -/
theorem exists_lex_append (w : List Char) :
    ∃ front back, w = front ++ back ∧ ∀ z, z.head? ≠ some '\ufeff' →
      lex (w ++ z) = lexFrom (Position.origin.after front) [] [] (back ++ z) := by
  by_cases hmark : w.head? = some '\ufeff'
  · obtain ⟨back, rfl⟩ := List.head?_eq_some_iff.1 hmark
    exact ⟨['\ufeff'], back, rfl, fun z _ => rfl⟩
  · refine ⟨[], w, rfl, fun z hz => ?_⟩
    unfold lex
    split
    · rename_i rest hrest
      have hhead : (w ++ z).head? = some '\ufeff' := by rw [hrest]; rfl
      cases w with
      | nil => exact absurd hhead hz
      | cons c w => exact absurd hhead hmark
    · rfl

/-- Where a token starts at the semicolon behind a text, the others are those of the text with blanks behind it, if
they are ended. -/
theorem exists_trees_before {front back : List Char} {trees : List TokenTree} {t : TokenTree}
    (htrees : lexFrom (Position.origin.after front) [] [] (back ++ [';']) = .ok trees) (ht : t ∈ trees)
    (hstart : t.span.start = (Position.origin.after front).after back) :
    ∃ before joint stop, trees = before ++ [.punct ';' joint ⟨(Position.origin.after front).after back, stop⟩] ∧
      (∀ u ∈ before, u.span.start.key < ((Position.origin.after front).after back).key) ∧
      ((before = [] ∨ Ends before) → ∀ z : List Char, (∀ c ∈ z, isBlank c = true) →
        ∃ found, lexFrom (Position.origin.after front) [] [] (back ++ z) = .ok found ∧
          found.map TokenTree.settle = before.map TokenTree.settle) := by
  let s : LexState := ⟨Position.origin.after front, [], []⟩
  have hruns : LexState.Runs trees s (back ++ [';']) := LexState.runs_of_lex htrees
  have hlays : s.Lays (front ++ (back ++ [';'])) front.length :=
    ⟨by rw [List.take_left], fun _ => .nil, fun g hg => by cases hg⟩
  obtain ⟨s', hreach⟩ := hruns.exists_reaches_semicolon hlays List.drop_left ht hstart
  obtain ⟨hstack, joint, stop, rfl⟩ := (hreach.runs hruns).of_semicolon
  have hplace : s'.place = (Position.origin.after front).after back := hreach.place
  refine ⟨s'.trees.reverse, joint, stop, by rw [hplace], fun u hu => ?_, fun hends z hz => ?_⟩
  · rw [← hplace]
    exact (hreach.lays hlays List.drop_left).start_lt (hreach.behind (LexState.behind_start _)) hstack u
      (List.mem_reverse.1 hu)
  · refine hreach.exists_lex hz hstack fun u hu => ?_
    rw [← List.getLast?_reverse] at hu
    rcases hends with hnil | ⟨v, hv, hend⟩
    · rw [hnil] at hu
      cases hu
    · rw [hu, Option.some.injEq] at hv
      rwa [hv]

/-- A statement that starts with the last token starts behind all others, which end before that. -/
theorem noneAcross_of_starts {stmts : List Stmt} {tokens : List TokenTree} {t : TokenTree} {s : Stmt} (hs : s ∈ stmts)
    (hstart : s.span.start = t.span.start) (hlt : s.span.start.key < s.span.stop.key)
    (hlast : t.span.start.key < t.span.stop.key)
    (hapart : stmts.Pairwise fun s s' => s.span.stop.key ≤ s'.span.start.key)
    (hbefore : ∀ u ∈ tokens, u.span.start.key < t.span.start.key) : NoneAcross stmts tokens [t] := by
  intro s' hs' u hu t' ht' hspan
  rw [List.mem_singleton.1 ht'] at hspan
  have hu := hbefore u hu
  obtain ⟨before, behind, rfl⟩ := List.append_of_mem hs
  obtain ⟨-, hbehind, hacross⟩ := List.pairwise_append.1 hapart
  rcases List.mem_append.1 hs' with hs' | hs'
  · have hle := hacross s' hs' s List.mem_cons_self
    rw [hspan, hstart] at hle
    exact absurd hlast (not_lt_of_ge hle)
  rcases List.mem_cons.1 hs' with rfl | hs'
  · rw [← hstart, hspan] at hu
    exact lt_irrefl _ hu
  · have hle := (List.pairwise_cons.1 hbehind).1 s' hs'
    rw [hspan] at hle
    exact absurd (hu.trans (hstart ▸ hlt)) (not_lt_of_ge hle)

/-- The tokens before a semicolon are ended if that is a statement by itself. -/
theorem ends_of_starts {before : List TokenTree} {joint : Bool} {span : Span} {stmts : List Stmt} {s : Stmt}
    (hread : readStmts (before ++ [.punct ';' joint span]) = .ok stmts) (hs : s ∈ stmts)
    (hstart : s.span.start = span.start) (hbefore : ∀ u ∈ before, u.span.start.key < span.start.key) :
    before = [] ∨ Ends before := by
  have hdivided := divided_of_readStmts hread
  have hends := hdivided.ends_before List.map_append hs (t := semicolon span) hstart fun u hu => ?_
  · rwa [List.map_eq_nil_iff, ends_map_settle] at hends
  · obtain ⟨v, hv, rfl⟩ := List.mem_map.1 hu
    rw [span_settle]
    exact fun heq => absurd (hbefore v hv) (heq ▸ lt_irrefl _)

/-- If a semicolon behind a text is a statement by itself, the text can be read with blanks in its place. -/
theorem exists_parse_of_starts {w z : List Char} {stmts : List Stmt} {s : Stmt} (hz : ∀ c ∈ z, isBlank c = true)
    (h : parse (w ++ [';']) = .ok stmts) (hs : s ∈ stmts) (hstart : s.span.start = Position.origin.after w) :
    ∃ found, parse (w ++ z) = .ok found := by
  obtain ⟨front, back, rfl, hlex⟩ := exists_lex_append w
  have hmark : z.head? ≠ some '\ufeff' := fun hmark =>
    absurd (hz _ (List.mem_of_head? hmark)) (by decide)
  unfold parse at h ⊢
  rw [hlex z hmark]
  rw [hlex [';'] (by decide)] at h
  rw [Position.after_append] at hstart
  cases htrees : lexFrom (Position.origin.after front) [] [] (back ++ [';']) with
  | error e =>
    rw [htrees] at h
    cases h
  | ok trees =>
    rw [htrees] at h
    have hread : readStmts trees = .ok stmts := h
    obtain ⟨hstands, hrow⟩ := laid_of_lexFrom front htrees
    obtain ⟨hstretches, hstarts, hapart⟩ := stretches_of_readStmts hstands hrow hread
    obtain ⟨t, ht, htstart⟩ := hstarts s hs
    -- the statement starts with the semicolon, and all other tokens start before that
    obtain ⟨before, joint, stop, rfl, hbefore, hfound⟩ := exists_trees_before htrees ht (htstart ▸ hstart)
    obtain ⟨_, _, hstretch⟩ := hstretches s hs
    obtain ⟨_, _, hlast⟩ := hstands _ (List.mem_append_right before (List.mem_singleton_self _))
    have hends : before = [] ∨ Ends before := ends_of_starts hread hs hstart hbefore
    obtain ⟨first, hfirst⟩ := exists_readStmts_of_ends hends hread
      (noneAcross_of_starts hs hstart hstretch.key_lt hlast.key_lt hapart hbefore)
    obtain ⟨found, hlexed, hsettle⟩ := hfound hends z hz
    refine ⟨first, ?_⟩
    rw [hlexed, ← hfirst, ← readStmts_of_settle hsettle]
    rfl

end Notebook.Syntax

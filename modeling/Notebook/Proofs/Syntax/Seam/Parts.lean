import Notebook.Proofs.Syntax.Seam.Statements

/-!
# The statements on both sides of a seam

Where no statement goes on behind a group in braces, what stands before and behind it is read each for itself
(`readStmts_append`).  The loop over statements comes to the seam and goes on from there (`exists_seam`); up to there
it is the same if nothing follows, and from there on it is as if nothing had been read (`run_iterate_stmtStep_alike`).
-/

namespace Notebook.Syntax
open Notebook.Text

/-! ## The loop over statements -/

section Loop

variable {g : Grammar} {back : List TokenTree} {read : List Stmt} {now after : Input}

theorem local_afresh {α : Type} {p : Parse α} (hp : p.Local back) : (afresh p).Local back := by
  intro now after a hnow hrun
  obtain ⟨behind, hfresh, heq⟩ := run_afresh_eq_ok hrun
  have hrest : behind.rest = after.rest ++ back := (congrArg Input.rest heq).symm
  have hbehind : behind = Input.onto { behind with rest := after.rest } back := by
    unfold Input.onto
    rw [← hrest]
  rw [hbehind] at hfresh
  have hlocal := hp { rest := now.rest, scope := now.scope } _ a hnow hfresh
  rw [run_afresh_of_ok now hlocal]
  have hafter : Input.onto after back = Input.onto { behind with
      rest := after.rest
      scope := now.scope
      printed := behind.printed ++ now.printed
      last := if after.rest.length < now.rest.length then behind.last else now.last
      leftover := now.leftover <|> behind.leftover } back := by
    rw [heq]
    unfold Input.onto
    simp only [hrest, List.length_append, Nat.add_lt_add_iff_right]
  rw [Input.onto_inj hafter]

/-- The input behind its first token, a semicolon. -/
def Input.pastSemicolon (now : Input) : Input :=
  { now with
    rest := now.rest.drop 1
    last := lastSpan (now.rest.take 1) now.last
    braced := false
    printed := ⟨[';'], false⟩ :: now.printed }

/-- A semicolon by itself. -/
def loneSemicolon (now : Input) : Stmt :=
  .expr (.other false Span.none) true ((now.rest.head?.map TokenTree.span).getD now.scope)

/-- A turn of the loop, all at once. -/
theorem run_stmtStep (g : Grammar) (read : List Stmt) (now : Input) :
    (stmtStep g read).run now =
      if isPunct ";" now.rest then .ok (.inl (loneSemicolon now :: read), now.pastSemicolon)
      else if now.rest.isEmpty then .ok (.inr read.reverse, now)
      else
        match (afresh (statement g)).run now with
        | .error e => .error e
        | .ok (s, after) =>
          if after.rest.isEmpty then .ok (.inr (s :: read).reverse, after)
          else if s.wantsSemicolon then (wrong "unexpected token, expected `;`").run after
          else .ok (.inl (s :: read), after) := by
  have hpunct : (punct? ";").run now =
      if isPunct ";" now.rest then .ok (true, now.pastSemicolon) else .ok (false, now) := by
    change (ite _ _ _ : Parse Bool).run now = _
    split <;> rfl
  unfold stmtStep
  rw [Parse.run_bind_of_ok (show here.run now = .ok (_, now) from rfl), Parse.run_bind_eq, hpunct]
  cases isPunct ";" now.rest with
  | true => rfl
  | false =>
    change (atEnd >>= _).run now = _
    rw [Parse.run_bind_of_ok (run_atEnd now)]
    cases now.rest.isEmpty with
    | true => rfl
    | false =>
      change (afresh (statement g) >>= _).run now = _
      rw [Parse.run_bind_eq]
      cases (afresh (statement g)).run now with
      | error e => rfl
      | ok r =>
        obtain ⟨s, after⟩ := r
        change (atEnd >>= _).run after = _
        rw [Parse.run_bind_of_ok (run_atEnd after)]
        dsimp only
        cases after.rest.isEmpty with
        | true => rfl
        | false => cases s.wantsSemicolon <;> rfl

/-- What a turn of the loop may do: take a semicolon, come to the end, or read a statement, perhaps the last one. -/
inductive Stepped (g : Grammar) (read : List Stmt) (now : Input) : List Stmt ⊕ List Stmt → Input → Prop
  | semicolon (h : isPunct ";" now.rest = true) :
    Stepped g read now (.inl (loneSemicolon now :: read)) now.pastSemicolon
  | done (h : now.rest = []) : Stepped g read now (.inr read.reverse) now
  | last {s : Stmt} {after : Input} (hpunct : isPunct ";" now.rest = false) (hne : now.rest ≠ [])
    (hs : (afresh (statement g)).run now = .ok (s, after)) (hend : after.rest = []) :
    Stepped g read now (.inr (s :: read).reverse) after
  | next {s : Stmt} {after : Input} (hpunct : isPunct ";" now.rest = false) (hne : now.rest ≠ [])
    (hs : (afresh (statement g)).run now = .ok (s, after)) (hend : after.rest ≠ [])
      (hwants : s.wantsSemicolon = false) :
    Stepped g read now (.inl (s :: read)) after

theorem Stepped.run {next : List Stmt ⊕ List Stmt} (h : Stepped g read now next after) :
    (stmtStep g read).run now = .ok (next, after) := by
  rw [run_stmtStep]
  cases h with
  | semicolon h => rw [if_pos h]
  | done h =>
    rw [h]
    rfl
  | last hpunct hne hs hend =>
    rw [hpunct, if_neg Bool.false_ne_true, if_neg (by rwa [List.isEmpty_iff]), hs]
    dsimp only
    rw [hend]
    rfl
  | next hpunct hne hs hend hwants =>
    rw [hpunct, if_neg Bool.false_ne_true, if_neg (by rwa [List.isEmpty_iff]), hs]
    dsimp only
    rw [if_neg (by rwa [List.isEmpty_iff]), hwants]
    rfl

theorem stepped_of_run {next : List Stmt ⊕ List Stmt} (h : (stmtStep g read).run now = .ok (next, after)) :
    Stepped g read now next after := by
  rw [run_stmtStep] at h
  cases hpunct : isPunct ";" now.rest with
  | true =>
    rw [hpunct] at h
    cases h
    exact .semicolon hpunct
  | false =>
    rw [hpunct, if_neg Bool.false_ne_true] at h
    by_cases hne : now.rest = []
    · rw [hne] at h
      cases h
      exact .done hne
    rw [if_neg (by rwa [List.isEmpty_iff])] at h
    cases hs : (afresh (statement g)).run now with
    | error e =>
      rw [hs] at h
      cases h
    | ok r =>
      obtain ⟨s, behind⟩ := r
      rw [hs] at h
      dsimp only at h
      by_cases hend : behind.rest = []
      · rw [hend] at h
        cases h
        exact .last hpunct hne hs hend
      rw [if_neg (by rwa [List.isEmpty_iff])] at h
      cases hwants : s.wantsSemicolon with
      | true =>
        rw [hwants] at h
        exact absurd h (not_run_failWith _)
      | false =>
        rw [hwants] at h
        cases h
        exact .next hpunct hne hs hend hwants

/-- A turn that stops before a seam or at it is the same if nothing follows, but at the seam it is the last one. -/
theorem run_stmtStep_of_onto {next : List Stmt} {m : Input} (hstatement : (afresh (statement g)).Local back)
    (hnow : Shut now.rest) (hrun : (stmtStep g read).run (now.onto back) = .ok (.inl next, m.onto back)) :
    (stmtStep g read).run now = .ok (if m.rest = [] then .inr next.reverse else .inl next, m) := by
  generalize hlater : m.onto back = later at hrun
  cases stepped_of_run hrun with
  | semicolon hpunct =>
    rw [onto_rest, isPunct_append hnow] at hpunct
    obtain ⟨t, rest, hrest⟩ := List.exists_cons_of_ne_nil hnow.ne_nil
    rw [hrest] at hnow
    have htail : rest ≠ [] := (hnow.tail (isGroup_of_isPunct (by decide) (hrest ▸ hpunct))).ne_nil
    have hpast : (now.onto back).pastSemicolon = now.pastSemicolon.onto back := by
      simp only [Input.pastSemicolon, Input.onto, hrest]
      rfl
    have hlone : loneSemicolon (now.onto back) = loneSemicolon now := by
      simp only [loneSemicolon, Input.onto, hrest]
      rfl
    obtain rfl := Input.onto_inj (hlater.trans hpast)
    have hleft : now.pastSemicolon.rest ≠ [] := by
      simpa only [Input.pastSemicolon, hrest, List.drop_one, List.tail_cons] using htail
    rw [if_neg hleft, hlone]
    exact (Stepped.semicolon hpunct).run
  | next hpunct hne hs hend hwants =>
    subst hlater
    rw [onto_rest, isPunct_append hnow] at hpunct
    have hs := hstatement now m _ hnow hs
    split
    · rename_i hnil
      exact (Stepped.last hpunct hnow.ne_nil hs hnil).run
    · rename_i hnil
      exact (Stepped.next hpunct hnow.ne_nil hs hnil hwants).run

theorem scope_of_stepped {next : List Stmt ⊕ List Stmt} (h : Stepped g read now next after) :
    after.scope = now.scope := by
  cases h with
  | semicolon | done => rfl
  | last hpunct hne hs | next hpunct hne hs =>
    obtain ⟨fresh, -, rfl⟩ := run_afresh_eq_ok hs
    rfl

theorem moves_stmtStep {g : Grammar} (hg : g.Finishing) (read : List Stmt) : (stmtStep g read).Moves := by
  intro now after next u hrun hu hleft
  cases turn_stmtStep hg hrun hu with
  | next hs => exact hs.ne_nil
  | done => cases hleft
  | last => cases hleft

/-- What has been read before is among all that is read. -/
theorem mem_of_iterate_stmtStep {g : Grammar} (hg : g.Finishing) {stmts : List Stmt} {s : Stmt} (hs : s ∈ read)
    (hrun : (iterate read (stmtStep g)).run now = .ok (stmts, after)) : s ∈ stmts := by
  have htakes : (iterate read (stmtStep g)).Takes fun stmts _ => s ∈ stmts := by
    refine .iterate (J := fun read _ => s ∈ read) hs fun read _ hs now after next u hrun hu => ?_
    cases turn_stmtStep hg hrun hu with
    | next => exact List.mem_cons_of_mem _ hs
    | done => exact List.mem_reverse.2 hs
    | last => exact List.mem_reverse.2 (List.mem_cons_of_mem _ hs)
  obtain ⟨u, hu⟩ := (iterate read (stmtStep g)).suffix hrun
  exact htakes now after stmts u hrun hu.symm

/-- No statement starts at a token of the first ones and stops at one of the others. -/
def NoneAcross (stmts : List Stmt) (front back : List TokenTree) : Prop :=
  ∀ s ∈ stmts, ∀ t ∈ front, ∀ t' ∈ back, s.span ≠ ⟨t.span.start, t'.span.stop⟩

theorem NoneAcross.not_spans {stmts : List Stmt} {front back more : List TokenTree} {s : Stmt}
    (h : NoneAcross stmts front back) (hs : s ∈ stmts) (hfront : front ≠ []) (hmore : more ≠ [])
    (hbegins : more <+: back) : ¬Spans s (front ++ more) := by
  rintro ⟨first, last, hfirst, hlast, hspan⟩
  rw [List.head?_append_of_ne_nil _ hfront] at hfirst
  rw [List.getLast?_append_of_ne_nil _ hmore] at hlast
  exact h s hs first (List.mem_of_head? hfirst) last (hbegins.subset (List.mem_of_getLast? hlast)) hspan

/-- The loop comes to a seam that no statement goes across, and goes on from there.  Up to there it is the same if
nothing follows. -/
theorem exists_seam {n : Nat} {stmts : List Stmt} (hnow : Shut now.rest) (hback : back ≠ [])
    (hrun : (iterate read (stmtStep (grammar n))).run (now.onto back) = .ok (stmts, after))
    (hwhole : NoneAcross stmts now.rest back) :
    ∃ next m, m.rest = [] ∧ m.scope = now.scope ∧
      (iterate next (stmtStep (grammar n))).run (m.onto back) = .ok (stmts, after) ∧
      (Begins back → (iterate read (stmtStep (grammar n))).run now = .ok (next.reverse, m)) := by
  have hfinishing := Grammar.finishing_grammar n
  have hmoves := moves_stmtStep hfinishing
  induction hn : now.rest.length using Nat.strong_induction_on generalizing read now with
  | h k ih =>
    subst hn
    rw [run_iterate_eq hmoves] at hrun
    obtain ⟨step, middle, hfirst, hlast⟩ := Parse.run_bind hrun
    obtain ⟨u, hu⟩ := (stmtStep (grammar n) read).suffix hfirst
    cases turn_stmtStep hfinishing hfirst hu.symm with
    | done hnil hrest =>
      rw [hrest, hnil] at hu
      exact absurd (List.append_eq_nil_iff.1 hu.symm).1 hnow.ne_nil
    | @last s hs hrest =>
      obtain rfl : u = now.rest ++ back := by rw [← onto_rest, ← hu, hrest, List.append_nil]
      cases hlast
      exact absurd hs (hwhole.not_spans (List.mem_reverse.2 List.mem_cons_self) hnow.ne_nil hback List.prefix_rfl)
    | @next s hs hends =>
      have hmem : s ∈ stmts := mem_of_iterate_stmtStep hfinishing List.mem_cons_self hlast
      -- the statement stops before the seam, or at it
      obtain ⟨left, hleft, hmiddle⟩ : ∃ left, now.rest = u ++ left ∧ middle.rest = left ++ back := by
        rcases List.append_eq_append_iff.1 hu with hbefore | ⟨more, hmore, hrest⟩
        · exact hbefore
        · rcases List.eq_nil_or_concat more with rfl | ⟨_, _, rfl⟩
          · exact ⟨[], by rw [hmore, List.append_nil, List.append_nil], hrest.symm⟩
          · rw [hmore] at hs
            exact absurd hs (hwhole.not_spans hmem hnow.ne_nil (by simp) ⟨middle.rest, hrest.symm⟩)
      obtain ⟨m, rfl⟩ : ∃ m : Input, middle = m.onto back := ⟨{ middle with rest := left }, by
        unfold Input.onto
        rw [← hmiddle]⟩
      obtain rfl : m.rest = left := List.append_cancel_right hmiddle
      have hstep (hbegins : Begins back) := run_stmtStep_of_onto
        (local_afresh (local_statement (local_grammar n back) hbegins)) hnow hfirst
      have hscope : (m.onto back).scope = (now.onto back).scope := scope_of_stepped (stepped_of_run hfirst)
      by_cases hnil : m.rest = []
      · refine ⟨s :: read, m, hnil, hscope, hlast, fun hbegins => ?_⟩
        rw [run_iterate_eq hmoves, Parse.run_bind_of_ok (hstep hbegins), if_pos hnil]
        rfl
      · have hless : m.rest.length < now.rest.length := by
          rw [hleft, List.length_append]
          exact Nat.lt_add_of_pos_left (List.length_pos_of_ne_nil hs.ne_nil)
        have hsuffix : m.rest <:+ now.rest := ⟨u, hleft.symm⟩
        obtain ⟨next, m', hm', hscope', hgo, hbefore⟩ := ih _ hless (hnow.of_suffix hsuffix hnil) hlast
          (fun s hs t ht => hwhole s hs t (hsuffix.subset ht)) rfl
        refine ⟨next, m', hm', hscope'.trans hscope, hgo, fun hbegins => ?_⟩
        rw [run_iterate_eq hmoves, Parse.run_bind_of_ok (hstep hbegins), if_neg hnil]
        exact hbefore hbegins

/-- What comes behind a seam begins a statement. -/
theorem begins_of_iterate {n : Nat} {stmts : List Stmt} (hnow : now.rest ≠ [])
    (hrun : (iterate read (stmtStep (grammar n))).run now = .ok (stmts, after)) : Begins now.rest := by
  rw [run_iterate_eq (moves_stmtStep (Grammar.finishing_grammar n))] at hrun
  obtain ⟨step, middle, hfirst, -⟩ := Parse.run_bind hrun
  cases stepped_of_run hfirst with
  | semicolon hpunct =>
    obtain ⟨joint, s, v, hrest⟩ := exists_of_isPunct rfl hpunct
    rw [hrest]
    rfl
  | done hnil => exact absurd hnil hnow
  | last hpunct hne hs | next hpunct hne hs =>
    obtain ⟨fresh, hrun, -⟩ := run_afresh_eq_ok hs
    exact begins_of_run_statement { rest := now.rest, scope := now.scope } hrun

/-- Two inputs with the same tokens left. -/
structure Input.Alike (now now' : Input) : Prop where
  rest : now'.rest = now.rest
  scope : now'.scope = now.scope

/-- What is read afresh is the same, with the same tokens left. -/
theorem run_afresh_alike {α : Type} {p : Parse α} {now now' after : Input} {a : α} (h : now.Alike now')
    (hrun : (afresh p).run now = .ok (a, after)) :
    ∃ after', (afresh p).run now' = .ok (a, after') ∧ after.Alike after' ∧
      (after.leftover = none → now.leftover = none ∧ (now'.leftover = none → after'.leftover = none)) := by
  obtain ⟨fresh, hfresh, rfl⟩ := run_afresh_eq_ok hrun
  rw [← h.rest, ← h.scope] at hfresh
  refine ⟨_, run_afresh_of_ok now' hfresh, ⟨rfl, h.scope⟩, fun hnone => ?_⟩
  obtain ⟨hnow, hfresh⟩ : now.leftover = none ∧ fresh.leftover = none := by simpa using hnone
  exact ⟨hnow, fun hnow' => by simp only [hnow', hfresh]; rfl⟩

/-- What has been read before does not matter for the statements that are read. -/
theorem run_stmtStep_alike (read' : List Stmt) {now' : Input} {next : List Stmt ⊕ List Stmt}
    (h : now.Alike now') (hrun : (stmtStep g read).run now = .ok (next, after)) :
    ∃ next' after', (stmtStep g read').run now' = .ok (next', after') ∧ after.Alike after' ∧
      (after.leftover = none → now.leftover = none ∧ (now'.leftover = none → after'.leftover = none)) ∧
      ((∃ s, next = .inl (s :: read) ∧ next' = .inl (s :: read')) ∨
        ∃ more, next = .inr (read.reverse ++ more) ∧ next' = .inr (read'.reverse ++ more)) := by
  cases stepped_of_run hrun with
  | semicolon hpunct =>
    have hlone : loneSemicolon now' = loneSemicolon now := by
      unfold loneSemicolon
      rw [h.rest, h.scope]
    have hpast : now.pastSemicolon.Alike now'.pastSemicolon := ⟨by simp only [Input.pastSemicolon, h.rest], h.scope⟩
    refine ⟨_, _, (Stepped.semicolon (h.rest ▸ hpunct)).run, hpast, fun hnone => ⟨hnone, id⟩, ?_⟩
    exact .inl ⟨_, rfl, by rw [hlone]⟩
  | done hnil =>
    refine ⟨_, _, (Stepped.done (h.rest ▸ hnil)).run, h, fun hnone => ⟨hnone, id⟩, .inr ⟨[], ?_, ?_⟩⟩
    · rw [List.append_nil]
    · rw [List.append_nil]
  | @last s _ hpunct hne hs hend =>
    obtain ⟨after', hs', halike, hleftover⟩ := run_afresh_alike h hs
    refine ⟨_, _, (Stepped.last (h.rest ▸ hpunct) (h.rest ▸ hne) hs' (halike.rest ▸ hend)).run, halike, hleftover, ?_⟩
    exact .inr ⟨[s], by rw [List.reverse_cons], by rw [List.reverse_cons]⟩
  | @next s _ hpunct hne hs hend hwants =>
    obtain ⟨after', hs', halike, hleftover⟩ := run_afresh_alike h hs
    have hstepped : Stepped g read' now' (.inl (s :: read')) _ :=
      .next (h.rest ▸ hpunct) (h.rest ▸ hne) hs' (halike.rest ▸ hend) hwants
    exact ⟨_, _, hstepped.run, halike, hleftover, .inl ⟨s, rfl, rfl⟩⟩

theorem run_iterate_stmtStep_alike {n : Nat} {read stmts : List Stmt} (read' : List Stmt) {now now' after : Input}
    (h : now.Alike now') (hrun : (iterate read (stmtStep (grammar n))).run now = .ok (stmts, after)) :
    ∃ more after', (iterate read' (stmtStep (grammar n))).run now' = .ok (read'.reverse ++ more, after') ∧
      stmts = read.reverse ++ more ∧
      (after.leftover = none → now.leftover = none ∧ (now'.leftover = none → after'.leftover = none)) := by
  have hmoves := moves_stmtStep (Grammar.finishing_grammar n)
  induction hn : now.rest.length using Nat.strong_induction_on generalizing read read' now now' with
  | h k ih =>
    subst hn
    rw [run_iterate_eq hmoves] at hrun ⊢
    obtain ⟨step, middle, hfirst, hlast⟩ := Parse.run_bind hrun
    obtain ⟨step', middle', hfirst', hmiddle, hleftover, hsteps⟩ := run_stmtStep_alike read' h hfirst
    rw [Parse.run_bind_of_ok hfirst']
    rcases hsteps with ⟨s, rfl, rfl⟩ | ⟨more, rfl, rfl⟩
    · obtain ⟨more, after', hmore, hstmts, hleft⟩ := ih _ ((hmoves _).length_lt hfirst) (s :: read') hmiddle hlast rfl
      refine ⟨s :: more, after', ?_, ?_, fun hnone => ?_⟩
      · rw [List.reverse_cons, List.append_assoc] at hmore
        exact hmore
      · rw [hstmts, List.reverse_cons, List.append_assoc]
        rfl
      · obtain ⟨hmiddleNone, hafter⟩ := hleft hnone
        obtain ⟨hnowNone, hmiddle'⟩ := hleftover hmiddleNone
        exact ⟨hnowNone, fun hnow' => hafter (hmiddle' hnow')⟩
    · cases hlast
      exact ⟨more, middle', rfl, rfl, hleftover⟩

end Loop

/-! ## Parts on both sides of a seam -/

section Parts

/-- A part that is read up to a seam, and from there on. -/
theorem readPart_append {front back : List TokenTree} {stmts : List Stmt} (hfront : Shut front) (hback : back ≠ [])
    (hread : readPart (front ++ back) = .ok (stmts, none)) (hwhole : NoneAcross stmts front back) :
    ∃ first others, readPart front = .ok (first, none) ∧ readPart back = .ok (others, none) ∧
      stmts = first ++ others := by
  obtain ⟨after, hrun, hleftover⟩ := readPart_eq_ok.1 hread
  have hrun : (iterate [] (stmtStep (grammar (3 * TokenTree.sizes (front ++ back) + 7)))).run
      (Input.onto { rest := front, scope := Span.none } back) = .ok (stmts, after) := hrun
  obtain ⟨next, m, hm, hscope, hgo, hbefore⟩ := exists_seam hfront hback hrun hwhole
  have honto : (m.onto back).rest = back := by rw [onto_rest, hm, List.nil_append]
  have hbegins : Begins back := honto ▸ begins_of_iterate (by rwa [honto]) hgo
  have halike : (m.onto back).Alike { rest := back, scope := Span.none } := ⟨honto.symm, hscope.symm⟩
  obtain ⟨others, after', hothers, hstmts, hleft⟩ := run_iterate_stmtStep_alike [] halike hgo
  obtain ⟨hnone, hnone'⟩ := hleft hleftover
  have hdeep : depthFor front ≤ depthFor (front ++ back) ∧ depthFor back ≤ depthFor (front ++ back) := by
    unfold depthFor
    rw [sizes_append]
    omega
  refine ⟨next.reverse, others, readPart_eq_ok.2 ⟨m, ?_, hnone⟩, readPart_eq_ok.2 ⟨after', ?_, hnone' rfl⟩, hstmts⟩
  · rw [← run_stmts_deeper { rest := front, scope := Span.none } hdeep.1]
    exact hbefore hbegins
  · rw [← run_stmts_deeper { rest := back, scope := Span.none } hdeep.2]
    exact hothers

/-- Tokens that end in braces have a part that ends there, and it goes on with the first part of what follows. -/
theorem exists_parts_append {front back : List TokenTree} (hfront : Shut front) (hback : back ≠ []) :
    ∃ before first second behind, parts front = before ++ [first] ∧ Shut first ∧ parts back = second :: behind ∧
      parts (front ++ back) = before ++ (first ++ second) :: behind := by
  induction front with
  | nil => exact absurd rfl hfront.ne_nil
  | cons t front ih =>
    obtain ⟨second, behind, hparts⟩ := List.exists_cons_of_ne_nil (parts_ne_nil hback)
    by_cases hsemicolon : ∃ joint s, t = .punct ';' joint s
    · obtain ⟨joint, s, rfl⟩ := hsemicolon
      obtain ⟨before, first, second, behind, hbefore, hfirst, hsecond, hall⟩ := ih (hfront.tail rfl)
      refine ⟨[semicolon s] :: before, first, second, behind, ?_, hfirst, hsecond, ?_⟩
      · rw [parts_semicolon, hbefore, List.cons_append]
      · rw [List.cons_append, parts_semicolon, hall, List.cons_append]
    have ht : ∀ joint s, t ≠ .punct ';' joint s := fun joint s h => hsemicolon ⟨joint, s, h⟩
    obtain ⟨body, s, rfl, rfl⟩ | htail := hfront.of_cons
    · refine ⟨[], [.group .brace body s], second, behind, ?_, hfront, hparts, ?_⟩
      · rw [parts_cons ht]
        rfl
      · rw [List.cons_append, parts_cons ht, List.nil_append, hparts]
        rfl
    · obtain ⟨before, first, second, behind, hbefore, hfirst, hsecond, hall⟩ := ih htail
      rw [List.cons_append, parts_cons ht, parts_cons ht, hbefore, hall]
      cases before with
      | nil => exact ⟨[], t :: first, second, behind, rfl, hfirst.append [t], hsecond, rfl⟩
      | cons part before => exact ⟨(t :: part) :: before, first, second, behind, rfl, hfirst, hsecond, rfl⟩

theorem ne_nil_of_mem_parts {trees part : List TokenTree} (hpart : part ∈ parts trees) : part ≠ [] := by
  induction trees generalizing part with
  | nil => exact absurd hpart List.not_mem_nil
  | cons t trees ih =>
    by_cases hsemicolon : ∃ joint s, t = .punct ';' joint s
    · obtain ⟨joint, s, rfl⟩ := hsemicolon
      rw [parts_semicolon] at hpart
      rcases List.mem_cons.1 hpart with rfl | hpart
      · exact List.cons_ne_nil _ _
      · exact ih hpart
    · rw [parts_cons fun joint s h => hsemicolon ⟨joint, s, h⟩] at hpart
      split at hpart
      · rw [List.mem_singleton.1 hpart]
        exact List.cons_ne_nil _ _
      · rename_i first others hparts
        rcases List.mem_cons.1 hpart with rfl | hpart
        · exact List.cons_ne_nil _ _
        · exact ih (hparts ▸ List.mem_cons_of_mem first hpart)

theorem NoneAcross.mono {stmts stmts' : List Stmt} {front front' back back' : List TokenTree}
    (h : NoneAcross stmts front back) (hstmts : stmts' ⊆ stmts)
    (hfront : ∀ t ∈ front', ∃ u ∈ front, t.span = u.span) (hback : ∀ t ∈ back', ∃ u ∈ back, t.span = u.span) :
    NoneAcross stmts' front' back' := by
  intro s hs t ht t' ht'
  obtain ⟨u, hu, htu⟩ := hfront t ht
  obtain ⟨u', hu', htu'⟩ := hback t' ht'
  rw [htu, htu']
  exact h s (hstmts hs) u hu u' hu'

theorem exists_span_of_mem_part {trees part : List TokenTree} (hpart : part ∈ parts trees) {t : TokenTree}
    (ht : t ∈ part) : ∃ u ∈ trees, t.span = u.span := by
  have hmem : t ∈ trees.map TokenTree.settle := flatten_parts trees ▸ List.mem_flatten_of_mem hpart ht
  obtain ⟨u, hu, rfl⟩ := List.mem_map.1 hmem
  exact ⟨u, hu, span_settle u⟩

/-- Where no statement goes across a seam, what stands before and behind it is read each for itself. -/
theorem readStmts_append {front back : List TokenTree} {stmts : List Stmt} (hfront : Shut front)
    (hread : readStmts (front ++ back) = .ok stmts) (hwhole : NoneAcross stmts front back) :
    ∃ first others, readStmts front = .ok first ∧ readStmts back = .ok others ∧ stmts = first ++ others := by
  by_cases hback : back = []
  · subst hback
    rw [List.append_nil] at hread
    exact ⟨stmts, [], hread, rfl, (List.append_nil stmts).symm⟩
  obtain ⟨before, first, second, behind, hbefore, hfirst, hsecond, hall⟩ := exists_parts_append hfront hback
  obtain ⟨each, heach, rfl⟩ := readStmts_eq_ok.1 hread
  rw [hall, List.map_append, List.map_cons] at heach
  obtain ⟨these, those, rfl, hthese, hthose⟩ := List.map_eq_append_iff.1 heach.symm
  obtain ⟨here, others, rfl, hhere, hothers⟩ := List.map_eq_cons_iff.1 hthose
  -- only the part across the seam is read in two
  have hmine : NoneAcross here first second := by
    refine hwhole.mono (fun s hs => ?_) (fun t ht => ?_) fun t ht => ?_
    · simp [hs]
    · exact exists_span_of_mem_part (by simp [hbefore]) ht
    · exact exists_span_of_mem_part (by simp [hsecond]) ht
  have hne : second ≠ [] := ne_nil_of_mem_parts (hsecond ▸ List.mem_cons_self)
  obtain ⟨left, right, hleft, hright, rfl⟩ := readPart_append hfirst hne hhere.symm hmine
  refine ⟨(these ++ [left]).flatten, (right :: others).flatten, ?_, ?_, by simp⟩
  · refine readStmts_eq_ok.2 ⟨_, ?_, rfl⟩
    rw [hbefore, List.map_append, List.map_append, hthese, List.map_singleton, List.map_singleton, hleft]
  · refine readStmts_eq_ok.2 ⟨_, ?_, rfl⟩
    rw [hsecond, List.map_cons, List.map_cons, hright, hothers]

end Parts

end Notebook.Syntax

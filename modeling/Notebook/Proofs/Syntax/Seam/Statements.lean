import Notebook.Proofs.Syntax.Seam.Items

/-!
# Statements before and at a seam

A statement that ends in braces, and with the tokens, is read the same if more follows that it does not take.  Only
a point or a question mark behind a macro call would tell (`Begins`), and no statement begins with one.
-/

namespace Notebook.Syntax
open Notebook.Text

/-! ## Expressions that end a statement -/

section Expressions

variable {g : Grammar} {back : List TokenTree}

theorem returns_trailers (g : Grammar) (e : Expr) : (trailers g e).Returns e :=
  returns_iterate (returns_trailStep g e) (moves_trailStep g)

/-- What may go on with an expression that ends in braces and starts a statement: a point or a question mark, and
then operators. -/
def freeEnd (g : Grammar) (e : Expr) : Parse Expr := do
  let rest := (← input).rest
  if (isPunct "." rest && !isPunct ".." rest) || isPunct "?" rest then
    let e ← trailers g e
    g.climb true e .jump
  else return e

theorem local_freeEnd (hg : g.Local back) (e : Expr) : (freeEnd g e).Local back := by
  refine local_look (fun now back hnow => ?_) fun now => local_ite ?_ (sharp_pure _).local
  · simp only [onto_rest, isPunct_append hnow]
  · exact local_bind (local_trailers hg.inside e) (fun e => hg.climb _ _ _) fun e => hg.idle _ _ _

theorem idle_freeEnd (hg : g.Local back) (e : Expr) : (freeEnd g e).Idle back (freeEnd g e) := by
  refine idle_of_returns (a := e) ?_ fun now hnow => ?_
  · refine returns_after looks_input fun now => returns_ite ?_ (returns_pure e)
    exact returns_bind (returns_trailers g e) (hg.returns _ _ _)
  · obtain ⟨rest, scope, printed, last, braced, leftover⟩ := now
    obtain rfl : rest = [] := hnow
    rfl

theorem local_freeRule (hg : g.Local back) : (freeRule g).Local back := by
  have hgeneric : (ahead? (do discard anyWord; parametersAhead)).Sharp :=
    sharp_ahead? (sharp_bind (sharp_discard sharp_anyWord) (open_discard open_anyWord) fun _ => sharp_parametersAhead)
  have hmarked (words : List String) (inner ends : Bool) : (markedBlock g words inner ends).Local back :=
    local_markedBlock g words inner ends
  refine local_after (by grind) (by grind) fun _ => local_after (by grind) (by grind) fun start => ?_
  refine local_look (fun now back hnow => ?_) fun now => local_after hgeneric.inside (open_ahead? _) fun generic => ?_
  · cases hbrace : isGroup .brace now.rest with
    | true => simp [onto_rest, hnow, hbrace]
    | false =>
      obtain ⟨hsecond, hskip⟩ := hnow.skipOne hbrace
      simp [onto_rest, hnow, hsecond, hskip]
  -- whichever of the expressions in braces it is, if it is one
  extract_lets special
  have hspecial : ∀ p ∈ special, Parse.Local back p := by
    have hchoice {c : Prop} [Decidable c] {p : Parse Expr} {o : Option (Parse Expr)} (hp : p.Local back)
        (ho : ∀ q ∈ o, Parse.Local back q) : ∀ q ∈ (if c then some p else o), Parse.Local back q := by
      split
      · rintro _ ⟨⟩
        exact hp
      · exact ho
    refine hchoice (local_ifExpr hg) (hchoice (local_whileExpr hg start) (hchoice (local_forExpr hg start) ?_))
    refine hchoice (local_loopExpr g start) (hchoice (local_matchExpr hg) (hchoice (hmarked _ _ _) ?_))
    refine hchoice (hmarked _ _ _) (hchoice (hmarked _ _ _) (hchoice (local_blockExpr g start) ?_))
    exact hchoice (local_labeled hg) fun _ h => nomatch h
  clear_value special
  cases special with
  | none => exact hg.expr true
  | some p => exact local_bind (hspecial p rfl) (local_freeEnd hg) (idle_freeEnd hg)

end Expressions

/-! ## Macro calls -/

/-- No point and no question mark comes next, with which an expression would go on. -/
def Begins (rest : List TokenTree) : Prop :=
  ((isPunct "." rest && !isPunct ".." rest) || isPunct "?" rest) = false

theorem afterPlainPath_append {u back : List TokenTree} (hu : Shut u) (hback : Begins back) :
    afterPlainPath (u ++ back) = afterPlainPath u := by
  unfold afterPlainPath
  rw [isPunct_append hu]
  cases hpunct : isPunct "!" u with
  | false => rfl
  | true =>
    have hbrace : isGroup .brace u = false := isGroup_of_isPunct (by decide) hpunct
    obtain ⟨hsecond, hskip⟩ := hu.skipOne hbrace
    simp only [hskip, isIdent_append hsecond, isWord_append hsecond, isGroup_append hsecond]
    cases hbrace' : isGroup .brace (skipOne u) with
    | false => rfl
    | true =>
      obtain ⟨body, s, v, hv⟩ := exists_group_of_isGroup hbrace'
      rw [hv] at hsecond ⊢
      -- the braces are the last of these tokens, or not
      have hthird : ((isPunct "." (v ++ back) && !isPunct ".." (v ++ back)) || isPunct "?" (v ++ back)) =
          ((isPunct "." v && !isPunct ".." v) || isPunct "?" v) := by
        by_cases hnil : v = []
        · subst hnil
          exact hback
        · simp only [isPunct_append (hsecond.of_append (u := [_]) hnil)]
      change (if (!((isPunct "." (v ++ back) && !isPunct ".." (v ++ back)) || isPunct "?" (v ++ back))) = true then
        MacroStart.braces else .none) = _
      rw [hthird]
      rfl

/-- A look for a macro call sees the same if no point follows. -/
theorem run_macroStart_onto {now : Input} {back : List TokenTree} (hnow : Shut now.rest) (hback : Begins back) :
    macroStart.run (now.onto back) = (macroStart.run now).map fun r => (r.1, r.2.onto back) := by
  rw [run_macroStart, run_macroStart, sharp_discard sharp_plainPath now hnow back]
  cases hpath : (discard plainPath).run now with
  | error e => rfl
  | ok r =>
    obtain ⟨a, after⟩ := r
    have hafter : Shut after.rest := (open_discard open_plainPath).shut_rest hnow hpath
    change Except.ok (afterPlainPath (after.rest ++ back), now.onto back) =
      .ok (afterPlainPath after.rest, now.onto back)
    rw [afterPlainPath_append hafter hback]

theorem open_macroStart : macroStart.Open := open_bind (open_ahead? _) fun _ => open_pure _

section Statements

variable {g : Grammar} {back : List TokenTree}

theorem local_macroStmt (g : Grammar) (start : Span) : (macroStmt g start).Local back := by
  refine local_after (by grind) (by grind) fun read => ?_
  refine local_bind (local_macroCall g _ _) (fun call => ?_) fun call => ?_
  · refine local_after (by grind) (by grind) fun s => local_after (by grind) (by grind) fun _ => ?_
    exact local_bind_pure (sharp_spanFrom start).local
  · refine idle_bind (idle_spanFrom _) fun s => idle_bind (idle_discard_punct? (by decide)) fun _ => ?_
    exact idle_bind (idle_spanFrom _) fun _ => idle_pure _

theorem local_exprStmt (hg : g.Local back) (start : Span) : (exprStmt g start).Local back := by
  refine local_bind (local_freeRule hg) (fun e => ?_) fun e => idle_punct? (by decide) ?_
  · exact local_after (by grind) (by grind) fun ended => local_bind_pure (sharp_spanFrom start).local
  · exact idle_bind (idle_spanFrom _) fun _ => idle_pure _

/-- A binding behind its pattern. -/
def bindingEnd (g : Grammar) (start keyword : Span) (pattern : Pattern) : Parse Stmt := do
  let value ← if ← punct? "=" then
      let e ← g.expr true
      if !(← input).braced then
        if ← word? "else" then discard (block g)
      pure (some e)
    else pure none
  punct ";"
  return .bind pattern value keyword (← spanFrom start)

theorem inside_bindingEnd (hg : g.Inside) (start keyword : Span) (pattern : Pattern) :
    (bindingEnd g start keyword pattern).Inside := by
  have hblock : (block g).Inside := inside_of_local fun _ => local_blockWith g false
  have hend (value : Option Expr) : (do
      let value ← (pure value : Parse (Option Expr))
      punct ";"
      return Stmt.bind pattern value keyword (← spanFrom start) : Parse Stmt).Inside := by grind
  refine inside_bind (by grind) fun _ => inside_ite (inside_bind (by grind) fun e => ?_) (hend none)
  refine inside_look (fun _ _ _ => rfl) fun now => inside_ite ?_ (hend (some e))
  exact inside_bind (by grind) fun _ => inside_ite (inside_bind (by grind) fun _ => hend _) (hend _)

theorem ends_bindingEnd (g : Grammar) (start keyword : Span) (pattern : Pattern) :
    (bindingEnd g start keyword pattern).Ends := by
  have hsemicolon : (punct ";").Ends := ends_punct (by decide)
  have hend (value : Option Expr) : (do
      punct ";"
      return Stmt.bind pattern value keyword (← spanFrom start) : Parse Stmt).Ends :=
    hsemicolon.first fun _ => by grind
  refine .after fun _ => ends_ite (.after fun e => .after fun _ => ?_) (.after hend)
  exact ends_ite (.after fun _ => ends_ite (.after fun _ => .after hend) (.after hend)) (.after hend)

theorem local_letStmt (hg : g.Inside) (start : Span) : (letStmt g start).Local back := by
  have htype := inside_typeExpr hg true
  refine local_of_open ?_ (Parse.Ends.open ?_)
  · refine inside_bind (by grind) fun keyword => inside_bind (by grind) fun _ => inside_bind (by grind) fun p => ?_
    have hend (pattern : Pattern) : (bindingEnd g start keyword pattern).Inside := inside_bindingEnd hg _ _ _
    exact inside_bind (by grind) fun _ => inside_ite (inside_bind htype fun _ => hend _) (hend _)
  · refine .after fun keyword => .after fun _ => .after fun p => .after fun _ => ?_
    have hend (pattern : Pattern) : (bindingEnd g start keyword pattern).Ends := ends_bindingEnd g _ _ _
    exact ends_ite (.after fun _ => .after hend) (.after hend)

theorem itemAhead_append {u : List TokenTree} (hu : Shut u) (back : List TokenTree) :
    itemAhead (u ++ back) = itemAhead u := by
  unfold itemAhead
  cases hbrace : isGroup .brace u with
  | true => simp [hu, hbrace]
  | false =>
    obtain ⟨hsecond, hskip⟩ := hu.skipOne hbrace
    cases hbrace' : isGroup .brace (skipOne u) with
    | true => simp [hu, hsecond, hskip, hbrace']
    | false =>
      obtain ⟨hthird, hskip'⟩ := hsecond.skipOne hbrace'
      simp only [hskip, hskip', isWord_append hu, isWord_append hsecond, isWord_append hthird, isPunct_append hsecond,
        isPunct_append hthird, isIdent_append hsecond, isGroup_append hsecond]

theorem local_statement (hg : g.Local back) (hback : Begins back) : (statement g).Local back := by
  refine local_after (by grind) (by grind) fun start => local_after (by grind) (by grind) fun docs => ?_
  refine local_after_same (fun now hnow => run_macroStart_onto hnow hback) open_macroStart fun kind => ?_
  have hkind (kind : MacroStart) : Parse.Local back (do
      let rest := (← input).rest
      if isWord "let" rest then letStmt g start
      else if itemAhead rest || kind = .item then
        let value ← itemRest g docs
        return .item value (← spanFrom start)
      else exprStmt g start) := by
    refine local_look (fun now back hnow => ?_) fun now => local_ite (local_letStmt hg.inside start) (local_ite ?_ ?_)
    · simp only [onto_rest, itemAhead_append hnow, isWord_append hnow]
    · exact local_spanned (local_itemRest hg.inside docs)
    · exact local_exprStmt hg start
  cases kind with
  | braces => exact local_macroStmt g start
  | item => exact hkind .item
  | none => exact hkind .none

end Statements

/-! ## The grammar -/

section Grammars

variable {g : Grammar}

theorem inside_importTreeRule (hg : g.Inside) (rootAllowed : Bool) : (importTreeRule g rootAllowed).Inside := by
  refine inside_look (fun now back hnow => ?_) fun now => inside_ite ?_ ?_
  · simp only [onto_rest, isIdent_append hnow, isWord_append hnow, isGroup_append hnow]
  · refine inside_bind (by grind) fun _ => inside_bind (by grind) fun _ => inside_ite (by grind) ?_
    refine inside_bind (by grind) fun _ => inside_ite (inside_bind (by grind) fun _ => inside_ite (by grind) ?_)
      (by grind)
    exact inside_bind (by grind) fun _ => inside_ite (by grind) (by grind)
  · refine inside_bind (by grind) fun _ => inside_ite (by grind) (inside_ite ?_ (by grind))
    exact inside_bind (sharp_group _ _).inside fun _ => by grind

/-- Rules that stop before a seam do so in the grammar that is made of them. -/
theorem Grammar.Inside.succ {n : Nat} (h : ∀ back, (grammar n).Local back) : (grammar (n + 1)).Inside where
  expr s := inside_of_local fun back => local_exprRule (h back) s
  operand s := inside_of_local fun back => local_operandRule (h back) s
  climb s e p := inside_of_local fun back => local_climbRule (h back) s e p
  type := inside_typeRule (h []).inside
  pattern := inside_patternRule (h []).inside
  importTree := inside_importTreeRule (h []).inside

theorem local_grammar (n : Nat) (back : List TokenTree) : (grammar n).Local back := by
  induction n generalizing back with
  | zero =>
    have hfails {α : Type} : (failWith fun _ => .unexpected none : Parse α).Fails := .failWith _
    have hinside {α : Type} : (failWith fun _ => .unexpected none : Parse α).Inside :=
      inside_of_local fun _ => hfails.local
    exact {
      inside :=
        ⟨fun _ => hinside, fun _ => hinside, fun _ _ _ => hinside, fun _ => hinside, hinside, fun _ => hinside⟩
      expr := fun _ => hfails.local
      operand := fun _ => hfails.local
      climb := fun _ _ _ => hfails.local
      idle := fun _ _ _ => idle_of_bites hfails.bites
      returns := fun _ _ _ => returns_of_bites hfails.bites _
      type := hfails.local }
  | succ n ih =>
    exact {
      inside := .succ ih
      expr := local_exprRule (ih back)
      operand := local_operandRule (ih back)
      climb := local_climbRule (ih back)
      idle := idle_climbRule (grammar n)
      returns := returns_climbRule (grammar n)
      type := local_typeRule (ih back) }

end Grammars

/-! ## What a statement begins with -/

theorem exists_of_isPunct {c : Char} {w : String} {rest : List TokenTree} (hw : w.toList = [c])
    (h : isPunct w rest = true) : ∃ joint s v, rest = .punct c joint s :: v := by
  rw [isPunct, hw] at h
  cases rest with
  | nil => cases h
  | cons t v =>
    cases t with
    | word | literal | group => cases h
    | punct d joint s =>
      simp only [isPunctChars, Bool.and_eq_true, decide_eq_true_eq] at h
      exact ⟨joint, s, v, by rw [h.1.1]⟩

/-- A point or a question mark comes next, and not two points. -/
theorem exists_of_not_begins {rest : List TokenTree} (h : ¬Begins rest) :
    ∃ c joint s v, (c = '.' ∨ c = '?') ∧ rest = .punct c joint s :: v ∧ isPunct ".." rest = false := by
  rw [Begins, Bool.not_eq_false, Bool.or_eq_true, Bool.and_eq_true, Bool.not_eq_true'] at h
  rcases h with ⟨hpoint, hdots⟩ | hmark
  · obtain ⟨joint, s, v, hrest⟩ := exists_of_isPunct rfl hpoint
    exact ⟨_, joint, s, v, .inl rfl, hrest, hdots⟩
  · obtain ⟨joint, s, v, rfl⟩ := exists_of_isPunct rfl hmark
    exact ⟨_, joint, s, v, .inr rfl, rfl, rfl⟩

section

variable {now : Input} {c : Char} {joint : Bool} {s : Span} {v : List TokenTree}
  (hc : c = '.' ∨ c = '?') (hnow : now.rest = .punct c joint s :: v) (hdots : isPunct ".." now.rest = false)

include hc hnow hdots

theorem exists_run_atom (g : Grammar) : ∃ e, (atom g true).run now = .error e := by
  obtain ⟨rest, scope, printed, last, braced, leftover⟩ := now
  obtain rfl : rest = _ := hnow
  dsimp only at hdots
  rcases hc with rfl | rfl
  · change ∃ e, (ite (isPunct ".." (.punct '.' joint s :: v) = true) _ _ : Parse Expr).run _ = .error e
    rw [hdots]
    exact ⟨_, rfl⟩
  · exact ⟨_, rfl⟩

theorem exists_run_operandRule (g : Grammar) : ∃ e, (operandRule g true).run now = .error e := by
  obtain ⟨e, he⟩ := exists_run_atom hc hnow hdots g
  obtain ⟨rest, scope, printed, last, braced, leftover⟩ := now
  obtain rfl : rest = _ := hnow
  rcases hc with rfl | rfl
  · change ∃ e, (atom g true >>= _).run _ = .error e
    rw [Parse.run_bind_eq, he]
    exact ⟨e, rfl⟩
  · exact ⟨_, rfl⟩

theorem exists_run_expr (n : Nat) : ∃ e, ((grammar n).expr true).run now = .error e := by
  match n with
  | 0 | 1 =>
    obtain ⟨rest, scope, printed, last, braced, leftover⟩ := now
    obtain rfl : rest = _ := hnow
    exact ⟨_, rfl⟩
  | n + 2 =>
    obtain ⟨e, he⟩ := exists_run_operandRule hc hnow hdots (grammar n)
    change ∃ e, ((grammar (n + 1)).operand true >>= _).run _ = .error e
    rw [Parse.run_bind_eq, show ((grammar (n + 1)).operand true).run now = _ from he]
    exact ⟨e, rfl⟩

theorem exists_run_statement (n : Nat) : ∃ e, (statement (grammar n)).run now = .error e := by
  obtain ⟨e, he⟩ := exists_run_expr hc hnow hdots n
  obtain ⟨rest, scope, printed, last, braced, leftover⟩ := now
  obtain rfl : rest = _ := hnow
  rcases hc with rfl | rfl
  all_goals
    change ∃ e, ((grammar n).expr true >>= _).run _ = .error e
    rw [Parse.run_bind_eq, he]
    exact ⟨e, rfl⟩

end

/-- No statement begins with what goes on with an expression. -/
theorem begins_of_run_statement {n : Nat} (now : Input) {after : Input} {s : Stmt}
    (hrun : (statement (grammar n)).run now = .ok (s, after)) : Begins now.rest := by
  by_contra h
  obtain ⟨c, joint, s, v, hc, hrest, hdots⟩ := exists_of_not_begins h
  obtain ⟨e, he⟩ := exists_run_statement hc hrest hdots n
  exact nomatch he.symm.trans hrun

end Notebook.Syntax

import Notebook.Proofs.Syntax.Seam.Expressions

/-!
# Operands before and at a seam

Blocks, and what ends in one, stop at a seam; so may a struct, a macro call, and what ends in an operand.
-/

namespace Notebook.Syntax
open Notebook.Text

section Blocks

variable {g : Grammar} {back : List TokenTree}

theorem local_blockWith (g : Grammar) (inner : Bool) : (blockWith g inner).Local back :=
  local_bind_pure (local_withSpan (sharp_group _ _).local)

theorem bites_blockWith (g : Grammar) (inner : Bool) : (blockWith g inner).Bites :=
  bites_then (bites_after fun _ => bites_then (eager_group _ _).bites)

@[grind .]
theorem inside_label : label.Inside := by
  unfold label
  grind

@[grind .]
theorem open_label : label.Open := by
  unfold label
  grind

/-- The next branch of an if. -/
def ifStep (g : Grammar) (clauses : List (Span × Expr × Block)) :
    Parse (List (Span × Expr × Block) ⊕ List (Span × Expr × Block) × Option Block) := do
  let start ← here
  word "if"
  let condition ← g.expr false
  let yes ← block g
  if ← word? "else" then
    let rest := (← input).rest
    if isWord "if" rest then return .inl ((start, condition, yes) :: clauses)
    else if isGroup .brace rest then
      let no ← block g
      return .inr ((start, condition, yes) :: clauses, some no)
    else expected ["`if`", "curly braces"]
  else return .inr ((start, condition, yes) :: clauses, none)

theorem bites_ifStep (g : Grammar) (clauses : List (Span × Expr × Block)) : (ifStep g clauses).Bites :=
  bites_after fun _ => bites_then (eager_word _).bites

theorem local_ifStep (hg : g.Local back) (clauses : List (Span × Expr × Block)) : (ifStep g clauses).Local back := by
  refine local_after (by grind) (by grind) fun start => local_after (by grind) (by grind) fun _ => ?_
  refine local_bind_of_bites (hg.inside.expr false) (fun condition => ?_)
    fun _ => bites_then (bites_blockWith g false)
  refine local_bind (local_blockWith g false) (fun yes => ?_) fun yes => idle_word? _ (idle_pure _)
  refine local_after (by grind) (by grind) fun _ => local_ite (local_look (fun now back hnow => ?_) fun now => ?_)
    (by grind)
  · simp [onto_rest, hnow]
  · exact local_ite (by grind) (local_ite (local_bind_pure (local_blockWith g false)) (by grind))

theorem local_ifExpr (hg : g.Local back) : (ifExpr g).Local back := by
  have hclauses : (iterate [] (ifStep g)).Local back :=
    local_iterate (local_ifStep hg) (fun clauses => idle_of_bites (bites_ifStep g clauses))
      (fun clauses => moves_of_bites (bites_ifStep g clauses)) []
  refine local_after (by grind) (by grind) fun _ => local_bind hclauses (fun clauses => ?_) fun clauses => ?_
  · exact local_look (fun _ _ _ => rfl) fun _ => (sharp_pure _).local
  · exact idle_look (fun _ => rfl) fun _ => idle_pure _

theorem local_whileExpr (hg : g.Local back) (start : Span) : (whileExpr g start).Local back := by
  have hloop : (do
      word "while"
      let condition ← g.expr false
      let body ← blockWith g true
      return .whileLoop condition body (← spanFrom start) : Parse Expr).Local back := by
    refine local_after (by grind) (by grind) fun _ => local_bind_of_bites (hg.inside.expr false) (fun condition => ?_)
      fun condition => bites_then (bites_blockWith g true)
    exact local_spanned (local_blockWith g true)
  refine local_after (by grind) (by grind) fun _ => local_after (by grind) (by grind) fun _ => local_ite ?_ hloop
  exact local_after (by grind) (by grind) fun _ => hloop

theorem local_forExpr (hg : g.Local back) (start : Span) : (forExpr g start).Local back := by
  have hloop : (do
      word "for"
      let p ← patterns g
      word "in"
      let items ← g.expr false
      let body ← blockWith g true
      return .forLoop p.pattern items body (← spanFrom start) : Parse Expr).Local back := by
    refine local_after (by grind) (by grind) fun _ => local_bind_of_bites (inside_patterns hg.inside) (fun p => ?_)
      fun p => bites_then (eager_word _).bites
    refine local_after (by grind) (by grind) fun _ => local_bind_of_bites (hg.inside.expr false) (fun items => ?_)
      fun items => bites_then (bites_blockWith g true)
    exact local_spanned (local_blockWith g true)
  refine local_after (by grind) (by grind) fun _ => local_after (by grind) (by grind) fun _ => local_ite ?_ hloop
  exact local_after (by grind) (by grind) fun _ => hloop

theorem local_loopExpr (g : Grammar) (start : Span) : (loopExpr g start).Local back := by
  have hloop : (do
      word "loop"
      let body ← blockWith g true
      return .loop body (← spanFrom start) : Parse Expr).Local back :=
    local_after (by grind) (by grind) fun _ => local_spanned (local_blockWith g true)
  refine local_after (by grind) (by grind) fun _ => local_after (by grind) (by grind) fun _ => local_ite ?_ hloop
  exact local_after (by grind) (by grind) fun _ => hloop

theorem local_blockExpr (g : Grammar) (start : Span) : (blockExpr g start).Local back :=
  local_spanned (local_blockWith g true)

theorem local_labeled (hg : g.Local back) : (labeled g).Local back := by
  refine local_after (by grind) (by grind) fun start => local_after (by grind) (by grind) fun _ => ?_
  refine local_look (fun now back hnow => ?_) fun now => ?_
  · simp [onto_rest, hnow]
  refine local_ite (local_whileExpr hg start)
    (local_ite (local_forExpr hg start) (local_ite (local_loopExpr g start) ?_))
  exact local_ite (local_blockExpr g start) (sharp_wrong _).local

theorem local_matchExpr (hg : g.Local back) : (matchExpr g).Local back := by
  refine local_after (by grind) (by grind) fun start => local_after (by grind) (by grind) fun _ => ?_
  refine local_after (by grind) (by grind) fun _ => local_bind_of_bites (inside_discard (hg.inside.expr false))
    (fun _ => ?_) fun _ => bites_then (eager_group _ _).bites
  exact local_spanned (sharp_group _ _).local

theorem local_markedBlock (g : Grammar) (words : List String) (inner ends : Bool) :
    (markedBlock g words inner ends).Local back := by
  refine local_after (by grind) (by grind) fun start => local_after (by grind) (by grind) fun _ => ?_
  exact local_spanned (local_discard (local_blockWith g inner))

end Blocks

section Operands

variable {g : Grammar} {back : List TokenTree}

theorem local_macroCall (g : Grammar) (name : Option Ident) (pathSpan : Span) :
    (macroCall g name pathSpan).Local back := by
  refine local_after (by grind) (by grind) fun _ => ?_
  exact local_spanned sharp_anyGroup.local

theorem local_pathExpr (hg : g.Local back) (allowStruct : Bool) : (pathExpr g allowStruct).Local back := by
  have hpath := inside_withSpan (inside_path hg.inside true)
  refine local_after hpath (by grind) fun read => local_after (by grind) (by grind) fun _ => ?_
  refine local_after (by grind) (by grind) fun _ => local_ite (local_spanned (local_macroCall g _ _)) ?_
  refine local_after (by grind) (by grind) fun _ => local_ite (local_spanned (sharp_group _ _).local) ?_
  split <;> exact (sharp_pure _).local

theorem local_parenExpr (g : Grammar) : (parenExpr g).Local back := by
  refine local_after (by grind) (by grind) fun read => ?_
  obtain ⟨inside, s⟩ := read
  cases inside <;> exact (sharp_pure _).local

theorem local_arrayExpr (g : Grammar) : (arrayExpr g).Local back := by
  refine local_after (by grind) (by grind) fun read => ?_
  obtain ⟨items, s⟩ := read
  cases items <;> exact (sharp_pure _).local

theorem local_jumpValue (hg : g.Local back) : (jumpValue g).Local back :=
  local_after (sharp_peek fun u back hu => canBegin_append hu back).inside (by grind) fun _ =>
    local_ite (local_bind_pure (hg.expr true)) (sharp_pure _).local

theorem local_breakExpr (hg : g.Local back) (allowStruct : Bool) : (breakExpr g allowStruct).Local back := by
  have hcanBegin : (peek canBegin).Inside := (sharp_peek fun u back hu => canBegin_append hu back).inside
  have hvalue (start : Span) : (do
      discard lifetime?
      let value ← if (← peek canBegin) && (allowStruct || !(← peek (isGroup .brace))) then
          some <$> g.expr true
        else pure none
      return .breakLoop value.isSome (← spanFrom start) : Parse Expr).Local back := by
    refine local_after (by grind) (by grind) fun _ => local_after hcanBegin (by grind) fun _ => ?_
    refine local_after (by grind) (by grind) fun _ => local_ite (local_spanned (local_map (hg.expr true))) ?_
    exact local_spanned (sharp_pure _).local
  refine local_after (by grind) (by grind) fun start => local_after (by grind) (by grind) fun _ => ?_
  refine local_look (fun now back hnow => ?_) fun now => local_ite ?_ (hvalue start)
  · cases hbrace : isGroup .brace now.rest with
    | true => simp [onto_rest, hnow, hbrace]
    | false =>
      obtain ⟨hsecond, hskip⟩ := hnow.skipOne hbrace
      simp [onto_rest, hnow, hsecond, hskip]
  · exact Parse.Fails.local
      (fails_after fun _ => fails_after fun _ => fails_after fun _ => fails_then (fails_wrongAt _ _))

theorem local_closureExpr (hg : g.Local back) (allowStruct : Bool) : (closureExpr g allowStruct).Local back := by
  have hbinder := inside_binder? hg.inside (inside_bound hg.inside)
  refine local_after (by grind) (by grind) fun start => local_after (by grind) (by grind) fun _ => ?_
  refine local_after (by grind) (by grind) fun _ => local_after (by grind) (by grind) fun _ => ?_
  refine local_bind_of_bites (inside_discard (inside_separatedUntil (by grind) (by decide) ?_)) (fun _ => ?_)
    fun _ => bites_then (eager_punct (by decide)).bites
  · -- a parameter is a pattern, perhaps with a type
    refine inside_bind (by grind) fun _ => inside_bind (inside_discard hg.inside.pattern) fun _ => ?_
    exact inside_bind (by grind) fun _ => inside_ite (inside_discard (hg.inside.type true)) (by grind)
  refine local_after (by grind) (by grind) fun _ => local_after (by grind) (by grind) fun _ => local_ite ?_ ?_
  · refine local_bind_of_bites (inside_discard (hg.inside.type true)) (fun _ => ?_)
      fun _ => bites_then (bites_then (bites_blockWith g false))
    exact local_spanned (local_discard (local_blockWith g false))
  · exact local_spanned (local_discard (hg.expr allowStruct))

theorem local_letExpr (hg : g.Local back) (allowStruct : Bool) : (letExpr g allowStruct).Local back := by
  refine local_after (by grind) (by grind) fun start => local_after (by grind) (by grind) fun _ => ?_
  refine local_bind_of_bites (inside_discard (inside_patterns hg.inside)) (fun _ => ?_)
    fun _ => bites_then (eager_punct (by decide)).bites
  refine local_after (by grind) (by grind) fun _ => local_bind (hg.operand allowStruct) (fun first => ?_)
    fun first => ?_
  · exact local_spanned (local_discard (hg.climb _ _ _))
  · exact idle_bind (idle_bind (hg.idle _ _ _) fun _ => idle_pure _)
      fun _ => idle_bind (idle_spanFrom _) fun _ => idle_pure _

theorem local_builtinExpr : builtinExpr.Local back := by
  refine local_after (by grind) (by grind) fun start => local_after (by grind) (by grind) fun _ => ?_
  refine local_after (by grind) (by grind) fun _ => local_after (by grind) (by grind) fun _ => ?_
  exact local_spanned (sharp_group _ _).local

theorem sharpAt_peek {α : Type} {q : List TokenTree → Bool} {f : Bool → Parse α} {now : Input}
    (hq : ∀ back, q (now.rest ++ back) = q now.rest) (hf : (f (q now.rest)).SharpAt now) :
    (peek q >>= f).SharpAt now := by
  intro back
  change (f (q (now.rest ++ back))).run (now.onto back) = _
  rw [hq]
  exact hf back

theorem isGroup_of_isIdent {u : List TokenTree} (h : isIdent u = true) : isGroup .brace u = false := by
  unfold isIdent at h
  split at h
  · rfl
  · cases h

@[grind .]
theorem open_parametersAhead : parametersAhead.Open := by
  refine open_bind (open_peek _) fun _ => open_ite (open_pure _) ?_
  iterate 3 refine open_bind (open_peekSecond _) fun _ => ?_
  refine open_ite (open_pure _) (open_bind (open_peekSecond _) fun _ => open_bind (open_peekSecond _) fun _ => ?_)
  refine open_ite ?_ (open_pure _)
  iterate 5 refine open_bind (open_peekThird _) fun _ => ?_
  exact open_pure _

theorem sharp_parametersAhead : parametersAhead.Sharp := by
  intro now hnow
  refine sharpAt_peek (sharp_isPunct _ _ · hnow) ?_
  split
  · exact sharpAt_pure _ _
  rename_i hangle
  have hbrace : isGroup .brace now.rest = false := isGroup_of_isPunct (s := "<") (by decide) (by simpa using hangle)
  have hsecond (r : List TokenTree → Bool) (hr : Sharp r) (back : List TokenTree) :
      second r (now.rest ++ back) = second r now.rest := second_append hr hnow hbrace back
  refine sharpAt_peek (hsecond _ (sharp_isPunct _)) (sharpAt_peek (hsecond _ (sharp_isPunct _)) ?_)
  refine sharpAt_peek (hsecond _ (sharp_isWord _)) ?_
  split
  · exact sharpAt_pure _ _
  refine sharpAt_peek (hsecond _ sharp_isLifetime) (sharpAt_peek (hsecond _ sharp_isIdent) ?_)
  split
  · rename_i hname
    have hbrace' : isGroup .brace (skipOne now.rest) = false := by
      simp only [second, Bool.or_eq_true, Bool.and_eq_true] at hname
      rcases hname with hname | hname
      · exact isGroup_of_isLifetime hname.2
      · exact isGroup_of_isIdent hname.2
    have hthird (r : List TokenTree → Bool) (hr : Sharp r) (back : List TokenTree) :
        third r (now.rest ++ back) = third r now.rest := third_append hr hnow hbrace hbrace' back
    refine sharpAt_peek (hthird _ (sharp_isPunct _)) (sharpAt_peek (hthird _ (sharp_isPunct _)) ?_)
    refine sharpAt_peek (hthird _ (sharp_isPunct _)) (sharpAt_peek (hthird _ (sharp_isPunct _)) ?_)
    exact sharpAt_peek (hthird _ (sharp_isPunct _)) (sharpAt_pure _ _)
  · exact sharpAt_pure _ _

theorem sharp_parametersAfterWord : atom.parametersAfterWord.Sharp :=
  sharp_map (sharp_ahead? (sharp_bind (sharp_discard sharp_anyWord) (open_discard open_anyWord)
    fun _ => sharp_parametersAhead))

theorem open_parametersAfterWord : atom.parametersAfterWord.Open := open_map (open_ahead? _)

theorem local_atom (hg : g.Local back) (allowStruct : Bool) : (atom g allowStruct).Local back := by
  refine local_after (by grind) (by grind) fun start => local_look (fun now back hnow => ?_) fun now => ?_
  · cases hbrace : isGroup .brace now.rest with
    | true => simp [onto_rest, hnow, hbrace]
    | false =>
      obtain ⟨hsecond, hskip⟩ := hnow.skipOne hbrace
      cases hbrace' : isGroup .brace (skipOne now.rest) with
      | true => simp [onto_rest, hnow, hsecond, hskip, hbrace']
      | false =>
        obtain ⟨hthird, hskip'⟩ := hsecond.skipOne hbrace'
        simp [onto_rest, hnow, hsecond, hskip, hthird, hskip']
  have hblock (w : String) : (do
      word w
      discard (blockWith g true)
      return .other true (← spanFrom start) : Parse Expr).Local back :=
    local_after (by grind) (by grind) fun _ => local_spanned (local_discard (local_blockWith g true))
  have hmarked (words : List String) (ends : Bool) : (markedBlock g words false ends).Local back :=
    local_markedBlock g words false ends
  refine local_ite (local_spanned sharp_literal.local) (local_ite (hmarked _ _) (local_ite (hmarked _ _) ?_))
  refine local_after sharp_parametersAfterWord.inside open_parametersAfterWord fun _ => ?_
  refine local_ite (local_closureExpr hg allowStruct) (local_ite local_builtinExpr ?_)
  refine local_ite (local_pathExpr hg allowStruct) (local_ite (local_parenExpr g) ?_)
  refine local_ite (local_breakExpr hg allowStruct) (local_ite ?_ (local_ite ?_ (local_ite ?_ ?_)))
  · exact local_after (by grind) (by grind) fun _ => local_spanned (sharp_discard sharp_lifetime?).local
  · exact local_after (by grind) (by grind) fun _ => local_spanned (local_jumpValue hg)
  · exact local_after (by grind) (by grind) fun _ => local_spanned (local_discard (hg.expr true))
  refine local_ite (local_arrayExpr g) (local_ite (local_letExpr hg allowStruct) (local_ite (local_ifExpr hg) ?_))
  refine local_ite (local_whileExpr hg start)
    (local_ite (local_forExpr hg start) (local_ite (local_loopExpr g start) ?_))
  refine local_ite (local_matchExpr hg) (local_ite ?_ (local_ite (hblock _) (local_ite (hblock _) ?_)))
  · exact local_after (by grind) (by grind) fun _ => local_spanned (local_discard (local_jumpValue hg))
  refine local_ite (local_blockExpr g start)
    (local_ite ?_ (local_ite ?_ (local_ite (local_labeled hg) (sharp_wrong _).local)))
  · refine local_after inside_rangeLimits open_rangeLimits fun closed => ?_
    exact local_spanned (local_rangeEnd hg closed allowStruct)
  · exact local_spanned sharp_underscore.local

theorem local_operandRule (hg : g.Local back) (allowStruct : Bool) : (operandRule g allowStruct).Local back := by
  have htail (start : Span) (f : Expr → Span → Expr) :
      (g.operand allowStruct >>= fun inner => spanFrom start >>= fun s => pure (f inner s) : Parse Expr).Local back :=
    local_spanned (hg.operand allowStruct)
  refine local_after (by grind) (by grind) fun start => local_after (by grind) (by grind) fun _ => ?_
  refine local_look (fun now back hnow => ?_) fun now => local_ite ?_ (local_ite ?_ (local_ite ?_ (local_ite ?_ ?_)))
  · simp only [onto_rest, isPunct_append hnow]
  · -- a reference, perhaps a raw one
    refine local_after (by grind) (by grind) fun _ => local_look (fun now back hnow => ?_) fun now => ?_
    · cases hbrace : isGroup .brace now.rest with
      | true => simp [onto_rest, hnow, hbrace]
      | false =>
        obtain ⟨hsecond, hskip⟩ := hnow.skipOne hbrace
        simp [onto_rest, hnow, hsecond, hskip]
    -- with the word `raw` or without it, the same follows
    have hrest (raw : Bool) : (do
        let mutable ← word? "mut"
        if raw && !mutable then word "const"
        let inner ← g.operand allowStruct
        let span ← spanFrom start
        return if raw then .other false span else .reference inner span : Parse Expr).Local back :=
      local_after (by grind) (by grind) fun mutable =>
        local_ite (local_after (by grind) (by grind) fun _ => htail start _) (htail start _)
    exact local_ite (local_after (by grind) (by grind) fun _ => hrest _) (hrest _)
  · exact local_after (by grind) (by grind) fun _ => htail start _
  · exact local_after (by grind) (by grind) fun _ => htail start _
  · exact local_after (by grind) (by grind) fun _ => htail start _
  · refine local_bind (local_atom hg allowStruct) (fun first => ?_) fun first => ?_
    · refine local_bind (local_trailers hg.inside first) (fun e => ?_) fun e => ?_
      · split
        · exact local_ite (sharp_pure _).local (sharp_wrongAt _ _).local
        · exact (sharp_pure _).local
      · split
        · exact idle_ite (idle_pure _) (idle_wrongAt _ _)
        · exact idle_pure _
    · refine idle_bind (idle_trailers g first) fun e => ?_
      split
      · exact idle_ite (idle_pure _) (idle_wrongAt _ _)
      · exact idle_pure _

theorem local_exprRule (hg : g.Local back) (allowStruct : Bool) : (exprRule g allowStruct).Local back :=
  local_bind (hg.operand allowStruct) (fun _ => hg.climb _ _ _) fun _ => hg.idle _ _ _

end Operands

end Notebook.Syntax

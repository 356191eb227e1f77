import Notebook.Proofs.Syntax.Seam.Types

/-!
# Expressions before and at a seam

What goes on with an operand, an operator or a call, does not start with a group in braces.  So an expression that
ends in braces, and with the tokens, is read the same if more follows that it does not take.
-/

namespace Notebook.Syntax
open Notebook.Text

section Operators

variable {g : Grammar} {back : List TokenTree}

/-- What is taken is told by how many tokens are left, before the seam and without it. -/
theorem local_counted {α β : Type} {p : Parse β} {f f' : β → α} (hp : p.Local back) {now after : Input} {a : α}
    (hnow : Shut now.rest)
    (hrun : (do
      let b ← p
      if (← input).rest.length = (now.onto back).rest.length then return f b else return f' b : Parse α).run
        (now.onto back) = .ok (a, after.onto back)) :
    (do
      let b ← p
      if (← input).rest.length = now.rest.length then return f b else return f' b : Parse α).run now =
        .ok (a, after) := by
  obtain ⟨b, middle, hfirst, hlast⟩ := Parse.run_bind hrun
  obtain ⟨m, rfl, hm, hrest⟩ := exists_onto (p.suffix hfirst) (Parse.suffix _ hlast)
  rw [Parse.run_bind_eq, hp now m b hnow hfirst]
  change (if (m.onto back).rest.length = (now.onto back).rest.length then pure (f b) else pure (f' b) : Parse α).run
    (m.onto back) = _ at hlast
  change (if m.rest.length = now.rest.length then pure (f b) else pure (f' b) : Parse α).run m = _
  simp only [onto_rest, List.length_append, Nat.add_right_cancel_iff] at hlast
  split at hlast
  · rename_i hlength
    rw [if_pos hlength]
    exact run_pure_of_onto hlast
  · rename_i hlength
    rw [if_neg hlength]
    exact run_pure_of_onto hlast

/-- The next operator on the right side of another one, if it binds tighter. -/
def rightStep (g : Grammar) (allowStruct : Bool) (p : Precedence) (e : Expr) : Parse (Expr ⊕ Expr) := do
  let rest := (← input).rest
  let next := precedenceAhead rest
  if p.rank < next.rank || (next = p && p = .assign) then
    let e ← g.climb allowStruct e next
    if (← input).rest.length = rest.length then return .inr e else return .inl e
  else return .inr e

theorem moves_rightStep (g : Grammar) (allowStruct : Bool) (p : Precedence) (e : Expr) :
    (rightStep g allowStruct p e).Moves := by
  refine moves_of_run fun now after s hrun => ?_
  dsimp only at hrun
  split at hrun
  · obtain ⟨e', middle, -, hlast⟩ := Parse.run_bind hrun
    change (if middle.rest.length = now.rest.length then pure (.inr e') else pure (.inl e') : Parse (Expr ⊕ Expr)).run
      middle = _ at hlast
    split at hlast
    · cases hlast
    · rename_i hlength
      cases hlast
      exact fun hsame => hlength (congrArg List.length hsame)
  · cases hrun

theorem returns_rightStep (hg : g.Local back) (allowStruct : Bool) (p : Precedence) (e : Expr) :
    (rightStep g allowStruct p e).Returns (.inr e) := by
  refine returns_of_run fun now after next hrun hsame => ?_
  dsimp only at hrun
  split at hrun
  · obtain ⟨e', middle, hfirst, hlast⟩ := Parse.run_bind hrun
    change (if middle.rest.length = now.rest.length then pure (.inr e') else pure (.inl e') : Parse (Expr ⊕ Expr)).run
      middle = _ at hlast
    split at hlast
    · cases hlast
      obtain ⟨rfl, rfl⟩ := hg.returns _ _ _ _ _ _ hfirst hsame
      exact ⟨rfl, rfl⟩
    · rename_i hlength
      cases hlast
      exact absurd (congrArg List.length hsame) hlength
  · cases hrun
    exact ⟨rfl, rfl⟩

theorem local_rightStep (hg : g.Local back) (allowStruct : Bool) (p : Precedence) (e : Expr) :
    (rightStep g allowStruct p e).Local back := by
  refine local_of_run fun now after a hnow hrun => ?_
  have hsame : precedenceAhead (now.onto back).rest = precedenceAhead now.rest := precedenceAhead_append hnow back
  simp only [hsame] at hrun ⊢
  split at hrun
  · rename_i hcond
    rw [if_pos hcond]
    exact local_counted (hg.climb _ _ _) hnow hrun
  · rename_i hcond
    rw [if_neg hcond]
    exact run_pure_of_onto hrun

theorem local_rightSide (hg : g.Local back) (allowStruct : Bool) (p : Precedence) :
    (rightSide g allowStruct p).Local back := by
  have hmoves := moves_rightStep g allowStruct p
  have hidle (e : Expr) : (rightStep g allowStruct p e).Idle back (rightStep g allowStruct p e) := by
    refine idle_of_returns (returns_rightStep hg allowStruct p e) fun now hnow => ?_
    obtain ⟨rest, scope, printed, last, braced, leftover⟩ := now
    obtain rfl : rest = [] := hnow
    cases p <;> rfl
  exact local_bind (hg.operand allowStruct) (fun e => local_iterate (local_rightStep hg allowStruct p) hidle hmoves e)
    fun e => idle_iterate hidle hmoves e

theorem local_rangeEnd (hg : g.Local back) (closed allowStruct : Bool) :
    (rangeEnd g closed allowStruct).Local back := by
  refine local_look (fun now back hnow => ?_) fun now => ?_
  · simp [onto_rest, hnow, isEmpty_append hnow]
  · exact local_ite (sharp_pure _).local (local_bind_pure (local_rightSide hg allowStruct _))

theorem fails_refusedCast : Parse.Fails (do
    let followed := "casts cannot be followed by "
    if ← peekSecond (isWord "await") then wrong (followed ++ "`.await`")
    else if (← peekSecond isIdent) &&
        ((← peekThird (isGroup .parenthesis)) || (← peekThird (isPunct "::"))) then
      wrong (followed ++ "a method call")
    else wrong (followed ++ "a field access") : Parse Unit) := by
  refine fails_after fun _ => fails_ite (fails_wrong _) (fails_after fun _ => fails_after fun _ => ?_)
  exact fails_after fun _ => fails_ite (fails_wrong _) (fails_wrong _)

theorem local_checkAfterCast : checkAfterCast.Local back := by
  refine local_look (fun now back hnow => ?_) fun now => ?_
  · simp only [onto_rest, isPunct_append hnow, isGroup_append hnow]
  · have hwrong (what : String) : (wrong what : Parse Unit).Local back := (sharp_wrong what).local
    refine local_ite fails_refusedCast.local (local_ite (hwrong _) (local_ite (hwrong _) (local_ite (hwrong _) ?_)))
    exact (sharp_pure _).local

theorem idle_checkAfterCast : checkAfterCast.Idle back checkAfterCast := by
  refine idle_of_returns (a := ()) ?_ fun now hnow => ?_
  · refine returns_after looks_input fun now => returns_ite (returns_of_bites fails_refusedCast.bites _) ?_
    have hwrong (what : String) : (wrong what : Parse Unit).Returns () := returns_of_bites (fails_wrong what).bites _
    exact returns_ite (hwrong _) (returns_ite (hwrong _) (returns_ite (hwrong _) (returns_pure _)))
  · obtain ⟨rest, scope, printed, last, braced, leftover⟩ := now
    obtain rfl : rest = [] := hnow
    rfl

theorem open_rangeLimits : rangeLimits.Open := by
  have hdots : (rangeDots false).Open := by
    unfold rangeDots
    grind
  exact open_bind hdots fun _ => open_pure _

theorem inside_rangeLimits : rangeLimits.Inside :=
  inside_bind (inside_rangeDots false) fun _ => (sharp_pure _).inside

/-- The next operator behind an operand, if it binds tightly enough. -/
def climbStep (g : Grammar) (allowStruct : Bool) (base : Precedence) (left : Expr) : Parse (Expr ⊕ Expr) := do
  let rest := (← input).rest
  if left.isRange then return .inr left
  match operator? rest with
  | some o =>
    let p := o.precedence
    if p.rank < base.rank then return .inr left
    if p = .compare && left.isComparison then wrong "comparison operators cannot be chained"
    punct o.text
    let right ← rightSide g allowStruct p
    let span := left.span.upTo right.span
    return .inl (if o.assigns then .compound o.op left right span else .binary o.op left right span)
  | none =>
    if base.rank ≤ Precedence.assign.rank && isAssignment rest then
      punct "="
      let right ← rightSide g allowStruct .assign
      return .inl (.assign left right (left.span.upTo right.span))
    else if base.rank ≤ Precedence.range.rank && isPunct ".." rest then
      let closed ← rangeLimits
      let last ← rangeEnd g closed allowStruct
      return .inl (.range (some left) last closed (← spanFrom left.span))
    else if base.rank ≤ Precedence.cast.rank && isWord "as" rest then
      word "as"
      let type ← typeExpr g false
      checkAfterCast
      return .inl (.cast left type (← spanFrom left.span))
    else return .inr left

/-- A step takes an operator, or leaves the operand as it is. -/
theorem climbStep_cases {Φ : Parse (Expr ⊕ Expr) → Prop} (g : Grammar) (allowStruct : Bool)
    (base : Precedence) (left : Expr)
    (hbites : ∀ p : Parse (Expr ⊕ Expr), p.Bites → Φ p) (hend : Φ (pure (.inr left)))
    (hlook : ∀ f : Input → Parse (Expr ⊕ Expr), (∀ now, Φ (f now)) → Φ (input >>= f)) :
    Φ (climbStep g allowStruct base left) := by
  have hite {c : Prop} [Decidable c] {p q : Parse (Expr ⊕ Expr)} (hp : Φ p) (hq : Φ q) : Φ (if c then p else q) := by
    split
    · exact hp
    · exact hq
  refine hlook _ fun now => hite hend ?_
  split
  · rename_i o ho
    have heager : (punct o.text).Eager := eager_punct (head?_of_operator? ho)
    refine hite hend (hite (hbites _ (bites_then (fails_wrong _).bites)) (hbites _ (bites_then heager.bites)))
  · refine hite (hbites _ (bites_then (eager_punct (by decide)).bites)) (hite ?_ (hite ?_ hend))
    · exact hbites _ (bites_then eager_rangeLimits.bites)
    · exact hbites _ (bites_then (eager_word _).bites)

theorem moves_climbStep (g : Grammar) (allowStruct : Bool) (base : Precedence) (left : Expr) :
    (climbStep g allowStruct base left).Moves :=
  climbStep_cases g allowStruct base left (fun _ => moves_of_bites) (moves_inr _) fun _ hf => moves_after hf

theorem returns_climbStep (g : Grammar) (allowStruct : Bool) (base : Precedence) (left : Expr) :
    (climbStep g allowStruct base left).Returns (.inr left) :=
  climbStep_cases g allowStruct base left (fun _ hp => returns_of_bites hp _) (returns_pure _)
    fun _ hf => returns_after looks_input hf

theorem returns_climbRule (g : Grammar) (allowStruct : Bool) (first : Expr) (base : Precedence) :
    (climbRule g allowStruct first base).Returns first :=
  returns_iterate (returns_climbStep g allowStruct base first) (moves_climbStep g allowStruct base)

theorem run_climbStep_nil (g : Grammar) (allowStruct : Bool) (base : Precedence) (left : Expr) {now : Input}
    (hnow : now.rest = []) :
    (climbStep g allowStruct base left).run now = (pure (.inr left) : Parse (Expr ⊕ Expr)).run now := by
  obtain ⟨rest, scope, printed, last, braced, leftover⟩ := now
  obtain rfl : rest = [] := hnow
  change (if left.isRange = true then pure (.inr left) else _ : Parse (Expr ⊕ Expr)).run _ = _
  split
  · rfl
  · cases base <;> rfl

theorem idle_climbRule (g : Grammar) (allowStruct : Bool) (first : Expr) (base : Precedence) :
    (climbRule g allowStruct first base).Idle back (climbRule g allowStruct first base) :=
  idle_of_returns (returns_climbRule g allowStruct first base) fun _ hnow =>
    run_iterate_nil (run_climbStep_nil g allowStruct base first hnow)

theorem local_climbRule (hg : g.Local back) (allowStruct : Bool) (first : Expr) (base : Precedence) :
    (climbRule g allowStruct first base).Local back := by
  have hidle (left : Expr) : (climbStep g allowStruct base left).Idle back (climbStep g allowStruct base left) :=
    idle_of_returns (returns_climbStep g allowStruct base left) fun _ => run_climbStep_nil g allowStruct base left
  refine local_iterate (fun left => ?_) hidle (moves_climbStep g allowStruct base) first
  refine local_look (fun now back hnow => ?_) fun now => local_ite (sharp_pure _).local ?_
  · simp only [onto_rest, operator?_append hnow, isAssignment_append hnow, isPunct_append hnow, isWord_append hnow]
  have hright (p : Precedence) (f : Expr → Expr) :
      (rightSide g allowStruct p >>= fun right => pure (.inl (f right)) : Parse (Expr ⊕ Expr)).Local back :=
    local_bind_pure (local_rightSide hg allowStruct p)
  split
  · refine local_ite (sharp_pure _).local (local_ite ?_ (local_after (by grind) (by grind) fun _ => hright _ _))
    exact (fails_then (fails_wrong _)).local
  · refine local_ite (local_after (by grind) (by grind) fun _ => hright _ _)
      (local_ite ?_ (local_ite ?_ (sharp_pure _).local))
    · refine local_after inside_rangeLimits open_rangeLimits fun closed => ?_
      exact local_spanned (local_rangeEnd hg closed allowStruct)
    · refine local_after (by grind) (by grind) fun _ => local_bind (local_typeExpr hg) (fun type => ?_) fun type => ?_
      · refine local_bind local_checkAfterCast (fun _ => local_bind_pure (sharp_spanFrom _).local) fun _ => ?_
        exact idle_bind (idle_spanFrom _) fun _ => idle_pure _
      · exact idle_bind idle_checkAfterCast fun _ => idle_bind (idle_spanFrom _) fun _ => idle_pure _

end Operators

/-! ## What trails an operand -/

section Trailers

variable {g : Grammar} {back : List TokenTree}

theorem inside_checkIndex (text : List Char) (s : Span) : (checkIndex text s).Inside := by
  unfold checkIndex
  split <;> grind

theorem open_checkIndex (text : List Char) (s : Span) : (checkIndex text s).Open := by
  unfold checkIndex
  split <;> grind

theorem inside_fieldNumber? : fieldNumber?.Inside := by
  refine inside_look (fun now back hnow => ?_) fun now => ?_
  · obtain ⟨t, rest, hrest⟩ := List.exists_cons_of_ne_nil hnow.ne_nil
    rw [onto_rest, hrest]
    cases t <;> rfl
  split
  · refine inside_ite ?_ (by grind)
    split
    · refine inside_bind (by grind) fun _ => ?_
      exact inside_bind (inside_forIn fun _ _ => inside_bind (inside_checkIndex _ _) fun _ => by grind)
        fun _ => by grind
    · grind
  · grind

theorem open_fieldNumber? : fieldNumber?.Open := by
  refine open_bind open_input fun now => ?_
  split
  · refine open_ite ?_ (by grind)
    split
    · refine open_bind (by grind) fun _ => ?_
      exact open_bind (open_forIn fun _ _ => open_bind (open_checkIndex _ _) fun _ => by grind) fun _ => by grind
    · grind
  · grind

theorem inside_member : member.Inside := by
  refine inside_look (fun now back hnow => ?_) fun now => ?_
  · obtain ⟨t, rest, hrest⟩ := List.exists_cons_of_ne_nil hnow.ne_nil
    rw [onto_rest, hrest]
    cases t <;> rfl
  · split
    · split
      · exact inside_bind (by grind) fun _ => inside_bind (inside_checkIndex _ _) fun _ => by grind
      · grind
    · grind

theorem open_member : member.Open := by
  refine open_bind open_input fun now => ?_
  split
  · split
    · exact open_bind (by grind) fun _ => open_bind (open_checkIndex _ _) fun _ => by grind
    · grind
  · grind

theorem inside_afterPoint (hg : g.Inside) (e : Expr) : (afterPoint g e).Inside := by
  have hangles := inside_angleArguments hg (inside_bound hg)
  have harguments : (arguments g).Inside := (sharp_group _ _).inside
  refine inside_bind inside_fieldNumber? fun number => ?_
  split
  · grind
  · refine inside_bind (by grind) fun _ => inside_ite (by grind) (inside_bind inside_member fun found => ?_)
    cases found with
    | named name =>
      refine inside_bind (by grind) fun turbofish => inside_ite ?_ (by grind)
      exact inside_bind (by grind) fun _ => inside_bind hangles fun _ => by grind
    | counted => grind

theorem open_afterPoint (g : Grammar) (e : Expr) : (afterPoint g e).Open := by
  have hangles := (ends_angleArguments g (bound g)).open
  have harguments : (arguments g).Open := open_group (by decide) _
  refine open_bind open_fieldNumber? fun number => ?_
  split
  · grind
  · refine open_bind (by grind) fun _ => open_ite (by grind) (open_bind open_member fun found => ?_)
    cases found with
    | named name =>
      refine open_bind (by grind) fun turbofish => open_ite ?_ (by grind)
      exact open_bind (by grind) fun _ => open_bind hangles fun _ => by grind
    | counted => grind

/-- The next call, member, index or question mark behind an operand. -/
def trailStep (g : Grammar) (e : Expr) : Parse (Expr ⊕ Expr) := do
  let rest := (← input).rest
  if isGroup .parenthesis rest then
    let args ← arguments g
    return .inl (.call e args (← spanFrom e.span))
  else if isPunct "." rest && !isPunct ".." rest && !e.isRange then
    punct "."
    return .inl (← afterPoint g e)
  else if isGroup .bracket rest then
    let position ← group .bracket (g.expr true)
    return .inl (.index e position (← spanFrom e.span))
  else if isPunct "?" rest && !e.isRange then
    punct "?"
    return .inl (.other false (← spanFrom e.span))
  else return .inr e

theorem trailStep_cases {Φ : Parse (Expr ⊕ Expr) → Prop} (g : Grammar) (e : Expr)
    (hbites : ∀ p : Parse (Expr ⊕ Expr), p.Bites → Φ p) (hend : Φ (pure (.inr e)))
    (hlook : ∀ f : Input → Parse (Expr ⊕ Expr), (∀ now, Φ (f now)) → Φ (input >>= f)) : Φ (trailStep g e) := by
  have hite {c : Prop} [Decidable c] {p q : Parse (Expr ⊕ Expr)} (hp : Φ p) (hq : Φ q) : Φ (if c then p else q) := by
    split
    · exact hp
    · exact hq
  refine hlook _ fun now => hite (hbites _ (bites_then (eager_group _ _).bites)) (hite ?_ (hite ?_ (hite ?_ hend)))
  · exact hbites _ (bites_then (eager_punct (by decide)).bites)
  · exact hbites _ (bites_then (eager_group _ _).bites)
  · exact hbites _ (bites_then (eager_punct (by decide)).bites)

theorem moves_trailStep (g : Grammar) (e : Expr) : (trailStep g e).Moves :=
  trailStep_cases g e (fun _ => moves_of_bites) (moves_inr _) fun _ hf => moves_after hf

theorem returns_trailStep (g : Grammar) (e : Expr) : (trailStep g e).Returns (.inr e) :=
  trailStep_cases g e (fun _ hp => returns_of_bites hp _) (returns_pure _) fun _ hf => returns_after looks_input hf

theorem inside_trailStep (hg : g.Inside) (e : Expr) : (trailStep g e).Inside := by
  have harguments : (arguments g).Inside := (sharp_group _ _).inside
  have hpoint := inside_afterPoint hg
  refine inside_look (fun now back hnow => ?_) fun now => by grind
  simp only [onto_rest, isGroup_append hnow, isPunct_append hnow]

theorem open_trailStep (g : Grammar) (e : Expr) : (trailStep g e).Open := by
  have harguments : (arguments g).Open := open_group (by decide) _
  have hpoint := open_afterPoint g
  unfold trailStep
  grind

theorem idle_trailers (g : Grammar) (e : Expr) : (trailers g e).Idle back (trailers g e) := by
  refine idle_of_returns (returns_iterate (returns_trailStep g e) (moves_trailStep g)) fun now hnow =>
    run_iterate_nil ?_
  obtain ⟨rest, scope, printed, last, braced, leftover⟩ := now
  obtain rfl : rest = [] := hnow
  rfl

theorem local_trailers (hg : g.Inside) (e : Expr) : (trailers g e).Local back :=
  local_of_open (inside_iterate (inside_trailStep hg) (moves_trailStep g) e) (open_iterate (open_trailStep g))

end Trailers

end Notebook.Syntax

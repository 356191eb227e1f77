import Notebook.Proofs.Syntax.Eagerness

/-!
# How deep a grammar has to be

A rule of the grammar refers to another one only behind a token, but for those that do so in a row.  So what a
rule makes of an input of fewer than `k + 1` tokens is known from what the grammar makes of inputs of fewer
than `k` (`Parse.upTo`), and grammars that are three times as deep as an input has tokens read it alike
(`upTo_grammar`).
-/

namespace Notebook.Syntax
open Notebook.Text

/-! ## Inputs of few tokens -/

/-- The reader on inputs of fewer tokens than that; it fails on all others. -/
def Parse.upTo {α : Type} (k : Nat) (p : Parse α) : Parse α where
  run now := if TokenTree.sizes now.rest < k then p.run now else .error ⟨.unexpected none, Span.none⟩
  follows h := by
    split at h
    · exact p.follows h
    · cases h

section UpTo

variable {α β σ : Type} {j k : Nat} {p q : Parse α} {f f' : α → Parse β}

theorem run_upTo {now : Input} (h : TokenTree.sizes now.rest < k) : (p.upTo k).run now = p.run now := if_pos h

theorem run_upTo_of_le {now : Input} (h : k ≤ TokenTree.sizes now.rest) :
    (p.upTo k).run now = .error ⟨.unexpected none, Span.none⟩ := if_neg (Nat.not_lt.2 h)

theorem upTo_ext (h : ∀ now, TokenTree.sizes now.rest < k → p.run now = q.run now) : p.upTo k = q.upTo k := by
  refine Parse.ext fun now => ?_
  by_cases hnow : TokenTree.sizes now.rest < k
  · rw [run_upTo hnow, run_upTo hnow, h now hnow]
  · rw [run_upTo_of_le (Nat.not_lt.1 hnow), run_upTo_of_le (Nat.not_lt.1 hnow)]

theorem run_eq_of_upTo (h : p.upTo k = q.upTo k) {now : Input} (hnow : TokenTree.sizes now.rest < k) :
    p.run now = q.run now := by
  rw [← run_upTo hnow, h, run_upTo hnow]

@[simp]
theorem upTo_upTo (hj : j ≤ k) (p : Parse α) : (p.upTo k).upTo j = p.upTo j :=
  upTo_ext fun _ hnow => run_upTo (hnow.trans_le hj)

theorem upTo_congr (hj : j ≤ k) (h : p.upTo k = q.upTo k) : p.upTo j = q.upTo j := by
  rw [← upTo_upTo hj p, h, upTo_upTo hj]

/-! ### Readers in a row -/

/-- Behind what the first reader has taken there are fewer tokens. -/
theorem upTo_bind_of {f : α → Parse β}
    (hp : ∀ now after a u, p.run now = .ok (a, after) → now.rest = u ++ after.rest → k ≤ j + TokenTree.sizes u) :
    (p >>= f).upTo k = p.upTo k >>= fun a => (f a).upTo j := by
  refine Parse.ext fun now => ?_
  rw [Parse.run_bind_eq]
  by_cases hnow : TokenTree.sizes now.rest < k
  · rw [run_upTo hnow, run_upTo hnow, Parse.run_bind_eq]
    cases hrun : p.run now with
    | error e => rfl
    | ok r =>
      obtain ⟨a, after⟩ := r
      obtain ⟨u, hu⟩ := p.suffix hrun
      have hsize : TokenTree.sizes now.rest = TokenTree.sizes u + TokenTree.sizes after.rest := by
        rw [← hu, sizes_append]
      have hless := hp now after a u hrun hu.symm
      exact (run_upTo (by omega)).symm
  · rw [run_upTo_of_le (Nat.not_lt.1 hnow), run_upTo_of_le (Nat.not_lt.1 hnow)]

@[simp]
theorem upTo_bind (k : Nat) (p : Parse α) (f : α → Parse β) :
    (p >>= f).upTo k = p.upTo k >>= fun a => (f a).upTo k :=
  upTo_bind_of fun _ _ _ _ _ _ => Nat.le_add_right _ _

@[simp high]
theorem upTo_eager (hp : p.Eager) (k : Nat) (f : α → Parse β) :
    (p >>= f).upTo (k + 1) = p.upTo (k + 1) >>= fun a => (f a).upTo k :=
  upTo_bind_of fun now after a u hrun hu => Nat.add_le_add_left (hp now after a u hrun hu) k

/-- Fewer tokens are left only if something has been found. -/
theorem upTo_found {p : Parse Bool} (hp : p.Takes fun found u => found = true → 0 < TokenTree.sizes u) (k : Nat)
    (f : Bool → Parse β) :
    (p >>= f).upTo (k + 1) =
      p.upTo (k + 1) >>= fun found => bif found then (f true).upTo k else (f false).upTo (k + 1) := by
  refine Parse.ext fun now => ?_
  rw [Parse.run_bind_eq]
  by_cases hnow : TokenTree.sizes now.rest < k + 1
  · rw [run_upTo hnow, run_upTo hnow, Parse.run_bind_eq]
    cases hrun : p.run now with
    | error e => rfl
    | ok r =>
      obtain ⟨found, after⟩ := r
      obtain ⟨u, hu⟩ := p.suffix hrun
      have hsize : TokenTree.sizes now.rest = TokenTree.sizes u + TokenTree.sizes after.rest := by
        rw [← hu, sizes_append]
      have htaken := hp now after found u hrun hu.symm
      cases found with
      | true =>
        have hpos := htaken rfl
        exact (run_upTo (by omega)).symm
      | false => exact (run_upTo (by omega)).symm
  · rw [run_upTo_of_le (Nat.not_lt.1 hnow), run_upTo_of_le (Nat.not_lt.1 hnow)]

@[simp high]
theorem upTo_punct? {s : String} (hs : s.toList.head?.any (· ≠ ';') = true) (k : Nat) (f : Bool → Parse β) :
    (punct? s >>= f).upTo (k + 1) =
      (punct? s).upTo (k + 1) >>= fun found => bif found then (f true).upTo k else (f false).upTo (k + 1) := by
  refine upTo_found ((takes_punct? s).mono fun found u hu hfound => ?_) k f
  rw [if_pos hfound] at hu
  exact sizes_pos_of_signs hs hu

@[simp high]
theorem upTo_word? (w : String) (k : Nat) (f : Bool → Parse β) :
    (word? w >>= f).upTo (k + 1) =
      (word? w).upTo (k + 1) >>= fun found => bif found then (f true).upTo k else (f false).upTo (k + 1) := by
  refine upTo_found ((takes_word? w).mono fun found u hu hfound => ?_) k f
  rw [if_pos hfound] at hu
  obtain ⟨s, rfl⟩ := hu
  exact Nat.one_pos

theorem upTo_bind_congr {p p' : Parse α} (hp : p.upTo k = p'.upTo k) (hf : ∀ a, (f a).upTo k = (f' a).upTo k) :
    (p >>= f).upTo k = (p' >>= f').upTo k := by
  rw [upTo_bind, upTo_bind, hp, funext hf]

theorem upTo_eager_congr {p p' : Parse α} (heager : p.Eager) (heager' : p'.Eager)
    (hp : p.upTo (k + 1) = p'.upTo (k + 1)) (hf : ∀ a, (f a).upTo k = (f' a).upTo k) :
    (p >>= f).upTo (k + 1) = (p' >>= f').upTo (k + 1) := by
  rw [upTo_eager heager, upTo_eager heager', hp, funext hf]

@[simp]
theorem upTo_discard (k : Nat) (p : Parse α) :
    (discard p).upTo k = p.upTo k >>= fun _ => (pure () : Parse Unit).upTo k := upTo_bind k p _

@[simp]
theorem upTo_map (k : Nat) (f : α → β) (p : Parse α) :
    (f <$> p).upTo k = p.upTo k >>= fun a => (pure (f a) : Parse β).upTo k := upTo_bind k p _

@[simp]
theorem upTo_ite (k : Nat) (c : Prop) [Decidable c] (p q : Parse α) :
    (if c then p else q).upTo k = if c then p.upTo k else q.upTo k := apply_ite _ _ _ _

theorem upTo_ite_congr {c : Prop} [Decidable c] {p p' q q' : Parse α} (hp : p.upTo k = p'.upTo k)
    (hq : q.upTo k = q'.upTo k) : (if c then p else q).upTo k = (if c then p' else q').upTo k := by
  rw [upTo_ite, upTo_ite, hp, hq]

/-! ### Repetition -/

@[simp]
theorem upTo_iterate (k : Nat) (s : σ) (step : σ → Parse (σ ⊕ α)) :
    (iterate s step).upTo k = iterate s fun s => (step s).upTo k := by
  have hfor (n : Nat) (s : σ) (now : Input) (hnow : TokenTree.sizes now.rest < k) :
      (iterateFor step n s).run now = (iterateFor (fun s => (step s).upTo k) n s).run now := by
    induction n generalizing s now with
    | zero => rfl
    | succ n ih =>
      rw [iterateFor, iterateFor, Parse.run_bind_eq, Parse.run_bind_eq, run_upTo hnow]
      cases hrun : (step s).run now with
      | error e => rfl
      | ok r =>
        obtain ⟨next, after⟩ := r
        obtain ⟨u, hu⟩ := (step s).suffix hrun
        rw [← hu, sizes_append] at hnow
        cases next with
        | inl s => exact ih s after (by omega)
        | inr a => rfl
  refine Parse.ext fun now => ?_
  by_cases hnow : TokenTree.sizes now.rest < k
  · rw [run_upTo hnow]
    exact hfor (now.rest.length + 1) s now hnow
  · -- the first step fails
    have hfirst : ((step s).upTo k).run now = _ := run_upTo_of_le (Nat.not_lt.1 hnow)
    show _ = (iterateFor (fun s => (step s).upTo k) (now.rest.length + 1) s).run now
    rw [run_upTo_of_le (Nat.not_lt.1 hnow), iterateFor, Parse.run_bind_eq, hfirst]

theorem upTo_iterate_congr {s : σ} {step step' : σ → Parse (σ ⊕ α)}
    (hstep : ∀ s, (step s).upTo k = (step' s).upTo k) : (iterate s step).upTo k = (iterate s step').upTo k := by
  rw [upTo_iterate, upTo_iterate, funext hstep]

@[simp]
theorem upTo_many (k : Nat) (condition : Parse Bool) (p : Parse α) :
    (many condition p).upTo k = (iterate [] fun read => do
      if ← condition then return .inl ((← p) :: read) else return .inr read.reverse : Parse (List α)).upTo k := rfl

@[simp]
theorem upTo_separatedUntil (k : Nat) (stop : Parse Bool) (separator : String) (p : Parse α) :
    (separatedUntil stop separator p).upTo k = (iterate [] fun read => do
      if ← stop then return .inr read.reverse
      let read := (← p) :: read
      if ← stop then return .inr read.reverse
      punct separator
      return .inl read : Parse (List α)).upTo k := rfl

@[simp]
theorem upTo_commaSeparated (k : Nat) (p : Parse α) :
    (commaSeparated p).upTo k = (separatedUntil atEnd "," p).upTo k := rfl

@[simp]
theorem upTo_chain (k : Nat) (stop : Parse Bool) (separator : String) (p : Parse α) :
    (chain stop separator p).upTo k = (iterate [] fun read => do
      if ← stop then return .inr read.reverse
      let read := (← p) :: read
      if ← punct? separator then return .inl read else return .inr read.reverse : Parse (List α)).upTo k := rfl

/-! ### Texts, places and groups -/

@[simp]
theorem upTo_captured (k : Nat) (p : Parse α) :
    (captured p).upTo k = (do
      let before := (← input).printed
      reprint fun _ => []
      let value ← p
      let pieces := (← input).printed.reverse
      reprint fun _ => before
      return (value, pieces) : Parse (α × List Piece)).upTo k := rfl

@[simp]
theorem upTo_withText (k : Nat) (p : Parse α) :
    (withText p).upTo k = (do
      let (value, pieces) ← captured p
      reprint (pieces.reverse ++ ·)
      return (value, Piece.join pieces) : Parse (α × List Char)).upTo k := rfl

@[simp]
theorem upTo_withSpan (k : Nat) (p : Parse α) :
    (withSpan p).upTo k = (do
      let start ← here
      let value ← p
      return (value, ← spanFrom start) : Parse (α × Span)).upTo k := rfl

theorem upTo_attempt? (h : p.upTo k = q.upTo k) : (attempt? p).upTo k = (attempt? q).upTo k :=
  upTo_ext fun now hnow => by
    unfold attempt?
    dsimp only
    rw [run_eq_of_upTo h hnow]

theorem upTo_afresh (h : p.upTo k = q.upTo k) : (afresh p).upTo k = (afresh q).upTo k :=
  upTo_ext fun now hnow => by
    have hrun : p.run { rest := now.rest, scope := now.scope } = _ := run_eq_of_upTo h hnow
    unfold afresh
    dsimp only
    rw [hrun]

/-- A group in an input of fewer tokens than that. -/
def groupUpTo (k : Nat) (d : Delimiter) (p : Parse α) : Parse α := (group d p).upTo k

/-- What is in a group has fewer tokens. -/
@[simp high]
theorem upTo_group (k : Nat) (d : Delimiter) (p : Parse α) :
    (group d p).upTo (k + 1) = groupUpTo (k + 1) d (p.upTo k) :=
  upTo_ext fun now hnow => by
    unfold group
    dsimp only
    split
    · rename_i e body s rest heq
      have hbody : TokenTree.sizes body < k := by
        rw [heq, TokenTree.sizes, TokenTree.size] at hnow
        omega
      rw [run_upTo hbody]
    · rfl

@[simp]
theorem upTo_group_of_upTo (k : Nat) (d : Delimiter) (p : Parse α) :
    (group d p).upTo k = groupUpTo k d (p.upTo k) := by
  cases k with
  | zero => exact upTo_ext fun _ hnow => absurd hnow (Nat.not_lt_zero _)
  | succ k =>
    rw [upTo_group]
    unfold groupUpTo
    rw [upTo_group, upTo_group, upTo_upTo (Nat.le_succ k), upTo_upTo (le_refl k)]

theorem upTo_group_congr (d : Delimiter) (h : p.upTo k = q.upTo k) :
    (group d p).upTo (k + 1) = (group d q).upTo (k + 1) := by
  rw [upTo_group, upTo_group, h]

/-- A group that is taken without reading it has fewer tokens in it. -/
theorem upTo_anyGroup_congr {f f' : Delimiter × List TokenTree × Span → Parse β}
    (hf : ∀ d body s, TokenTree.sizes body < k → (f (d, body, s)).upTo k = (f' (d, body, s)).upTo k) :
    (anyGroup >>= f).upTo k = (anyGroup >>= f').upTo k :=
  upTo_ext fun now hnow => by
    rw [Parse.run_bind_eq, Parse.run_bind_eq]
    cases hrun : anyGroup.run now with
    | error e => rfl
    | ok r =>
      obtain ⟨⟨d, body, s⟩, after⟩ := r
      obtain ⟨u, hu⟩ := anyGroup.suffix hrun
      obtain ⟨s', rfl⟩ := takes_anyGroup now after _ u hrun hu.symm
      rw [← hu, sizes_append] at hnow
      change TokenTree.sizes body + 1 + TokenTree.sizes after.rest < k at hnow
      exact run_eq_of_upTo (hf d body s (by omega)) (by omega)

theorem readAll_eq (h : p.upTo k = q.upTo k) {tokens : List TokenTree} (htokens : TokenTree.sizes tokens < k)
    (scope : Span) : readAll p tokens scope = readAll q tokens scope := by
  have hrun : p.run { rest := tokens, scope } = _ := run_eq_of_upTo h htokens
  unfold readAll
  rw [hrun]

end UpTo

/-! ## Rules -/

/-- The grammar on inputs of fewer tokens than that. -/
def Grammar.upTo (k : Nat) (g : Grammar) : Grammar where
  expr allowStruct := (g.expr allowStruct).upTo k
  free := g.free.upTo k
  operand allowStruct := (g.operand allowStruct).upTo k
  climb allowStruct first base := (g.climb allowStruct first base).upTo k
  type plus := (g.type plus).upTo k
  pattern := g.pattern.upTo k
  stmts := g.stmts.upTo k
  item := g.item.upTo k
  importTree rootAllowed := (g.importTree rootAllowed).upTo k

section Fields

variable (k : Nat) (g : Grammar)

@[simp]
theorem upTo_expr (allowStruct : Bool) : (g.upTo k).expr allowStruct = (g.expr allowStruct).upTo k := rfl

@[simp]
theorem upTo_free : (g.upTo k).free = g.free.upTo k := rfl

@[simp]
theorem upTo_operand (allowStruct : Bool) : (g.upTo k).operand allowStruct = (g.operand allowStruct).upTo k := rfl

@[simp]
theorem upTo_climb (allowStruct : Bool) (first : Expr) (base : Precedence) :
    (g.upTo k).climb allowStruct first base = (g.climb allowStruct first base).upTo k := rfl

@[simp]
theorem upTo_type (plus : Bool) : (g.upTo k).type plus = (g.type plus).upTo k := rfl

@[simp]
theorem upTo_pattern : (g.upTo k).pattern = g.pattern.upTo k := rfl

@[simp]
theorem upTo_stmts : (g.upTo k).stmts = g.stmts.upTo k := rfl

@[simp]
theorem upTo_item : (g.upTo k).item = g.item.upTo k := rfl

@[simp]
theorem upTo_importTree (rootAllowed : Bool) :
    (g.upTo k).importTree rootAllowed = (g.importTree rootAllowed).upTo k := rfl

end Fields

section Rules

variable {j k : Nat} {g : Grammar} {b b' : BoundRules → Parse BoundKind}

/-! ### Types -/

@[simp]
theorem upTo_attributeBody : (attributeBody (g.upTo k)).upTo k = (attributeBody g).upTo k := by
  refine upTo_bind_congr rfl fun _ => ?_
  split
  all_goals
    -- the path, and what comes next
    refine upTo_bind_congr rfl fun path => upTo_bind_congr rfl fun _ => upTo_bind_congr rfl fun _ => ?_
    refine upTo_bind_congr rfl fun _ => upTo_ite_congr rfl (upTo_bind_congr rfl fun _ => upTo_ite_congr ?_ rfl)
    refine upTo_bind_congr rfl fun alone => ?_
    split <;> simp

@[simp]
theorem upTo_outerAttribute (hj : j ≤ k + 1) :
    (outerAttribute (g.upTo k)).upTo j = (outerAttribute g).upTo j := by
  refine upTo_congr hj ?_
  simp [outerAttribute]

@[simp]
theorem upTo_outerAttributes (hj : j ≤ k + 1) :
    (outerAttributes (g.upTo k)).upTo j = (outerAttributes g).upTo j := by
  refine upTo_congr hj ?_
  simp [outerAttributes]

@[simp]
theorem upTo_innerAttributes (hj : j ≤ k + 1) :
    (innerAttributes (g.upTo k)).upTo j = (innerAttributes g).upTo j := by
  refine upTo_congr hj ?_
  simp [innerAttributes]

@[simp]
theorem upTo_constArgument (hj : j ≤ k + 1) : (constArgument (g.upTo k)).upTo j = (constArgument g).upTo j := by
  refine upTo_congr hj ?_
  simp [constArgument]

theorem upTo_genericParamsWith (hb : ∀ rules, (b rules).upTo k = (b' rules).upTo k) (hj : j ≤ k + 1) :
    (genericParamsWith (g.upTo k) b).upTo j = (genericParamsWith g b').upTo j := by
  refine upTo_congr hj ?_
  simp [genericParamsWith, hb]

theorem upTo_binder? (hb : ∀ rules, (b rules).upTo k = (b' rules).upTo k) (hj : j ≤ k + 1) :
    (binder? (g.upTo k) b).upTo j = (binder? g b').upTo j := by
  refine upTo_congr hj ?_
  simp [binder?, upTo_genericParamsWith hb]

@[simp]
theorem upTo_resultType (hj : j ≤ k + 1) (plus : Bool) :
    (resultType (g.upTo k) plus).upTo j = (resultType g plus).upTo j := by
  refine upTo_congr hj ?_
  simp [resultType]

@[simp]
theorem upTo_parenthesizedArguments (hj : j ≤ k + 1) :
    (parenthesizedArguments (g.upTo k)).upTo j = (parenthesizedArguments g).upTo j := by
  refine upTo_congr hj ?_
  simp [parenthesizedArguments]

theorem upTo_angleArguments (hb : ∀ rules, (b rules).upTo k = (b' rules).upTo k) (hj : j ≤ k + 1) :
    (angleArguments (g.upTo k) b).upTo j = (angleArguments g b').upTo j := by
  refine upTo_congr hj ?_
  simp [angleArguments, hb]

theorem upTo_pathSegment (hb : ∀ rules, (b rules).upTo k = (b' rules).upTo k) (hj : j ≤ k + 1) (inExpr : Bool) :
    (pathSegment (g.upTo k) b inExpr).upTo j = (pathSegment g b' inExpr).upTo j := by
  refine upTo_congr hj ?_
  simp [pathSegment, upTo_angleArguments hb]

theorem upTo_pathRest (hb : ∀ rules, (b rules).upTo k = (b' rules).upTo k) (hj : j ≤ k + 1) (inExpr : Bool)
    (p : Path) :
    (pathRest (g.upTo k) b inExpr p).upTo j = (pathRest g b' inExpr p).upTo j := by
  refine upTo_congr hj ?_
  simp [pathRest, upTo_pathSegment hb]

theorem upTo_unqualifiedPath (hb : ∀ rules, (b rules).upTo k = (b' rules).upTo k) (hj : j ≤ k + 1) (inExpr : Bool) :
    (unqualifiedPath (g.upTo k) b inExpr).upTo j = (unqualifiedPath g b' inExpr).upTo j := by
  refine upTo_congr hj ?_
  simp [unqualifiedPath, upTo_pathSegment hb, upTo_pathRest hb]

theorem upTo_boundWith (hb : ∀ rules, (b rules).upTo k = (b' rules).upTo k) (hj : j ≤ k + 1) (rules : BoundRules) :
    (boundWith (g.upTo k) b rules).upTo j = (boundWith g b' rules).upTo j := by
  refine upTo_congr hj ?_
  simp [boundWith, upTo_binder? hb, upTo_unqualifiedPath hb]

theorem upTo_boundFor (n : Nat) (rules : BoundRules) (hj : j ≤ k + 1) :
    (boundFor (g.upTo k) n rules).upTo j = (boundFor g n rules).upTo j := by
  induction n generalizing j rules with
  | zero => rfl
  | succ n ih => exact upTo_boundWith (fun rules => ih rules (Nat.le_succ k)) hj rules

@[simp]
theorem upTo_bound (hj : j ≤ k + 1) (rules : BoundRules) :
    (bound (g.upTo k) rules).upTo j = (bound g rules).upTo j := by
  refine upTo_congr hj ?_
  simp [bound, upTo_boundFor]

theorem upTo_bound_below (rules : BoundRules) : (bound (g.upTo k) rules).upTo k = (bound g rules).upTo k :=
  upTo_bound (Nat.le_succ k) rules

@[simp]
theorem upTo_genericParams (hj : j ≤ k + 1) :
    (genericParamsWith (g.upTo k) (bound (g.upTo k))).upTo j = (genericParamsWith g (bound g)).upTo j :=
  upTo_genericParamsWith upTo_bound_below hj

@[simp]
theorem upTo_binder (hj : j ≤ k + 1) :
    (binder? (g.upTo k) (bound (g.upTo k))).upTo j = (binder? g (bound g)).upTo j :=
  upTo_binder? upTo_bound_below hj

@[simp]
theorem upTo_turbofish (hj : j ≤ k + 1) :
    (angleArguments (g.upTo k) (bound (g.upTo k))).upTo j = (angleArguments g (bound g)).upTo j :=
  upTo_angleArguments upTo_bound_below hj

@[simp]
theorem upTo_segment (hj : j ≤ k + 1) (inExpr : Bool) :
    (pathSegment (g.upTo k) (bound (g.upTo k)) inExpr).upTo j = (pathSegment g (bound g) inExpr).upTo j :=
  upTo_pathSegment upTo_bound_below hj inExpr

@[simp]
theorem upTo_segments (hj : j ≤ k + 1) (inExpr : Bool) (p : Path) :
    (pathRest (g.upTo k) (bound (g.upTo k)) inExpr p).upTo j = (pathRest g (bound g) inExpr p).upTo j :=
  upTo_pathRest upTo_bound_below hj inExpr p

@[simp]
theorem upTo_unqualified (hj : j ≤ k + 1) (inExpr : Bool) :
    (unqualifiedPath (g.upTo k) (bound (g.upTo k)) inExpr).upTo j = (unqualifiedPath g (bound g) inExpr).upTo j :=
  upTo_unqualifiedPath upTo_bound_below hj inExpr

@[simp]
theorem upTo_generics (hj : j ≤ k + 1) : (generics (g.upTo k)).upTo j = (generics g).upTo j := by
  refine upTo_congr hj ?_
  simp [generics]

@[simp]
theorem upTo_path (hj : j ≤ k + 1) (inExpr : Bool) :
    (path (g.upTo k) inExpr).upTo j = (path g inExpr).upTo j := by
  refine upTo_congr hj ?_
  simp [path]

@[simp]
theorem upTo_bounds (hj : j ≤ k + 1) (plus : Bool) (rules : BoundRules) :
    (bounds (g.upTo k) plus rules).upTo j = (bounds g plus rules).upTo j := by
  refine upTo_congr hj ?_
  simp [bounds]

@[simp]
theorem upTo_objectBounds (hj : j ≤ k + 1) (start : Span) (plus : Bool) :
    (objectBounds (g.upTo k) start plus).upTo j = (objectBounds g start plus).upTo j := by
  refine upTo_congr hj ?_
  simp [objectBounds]

@[simp]
theorem upTo_boundsAfterPlus (hj : j ≤ k + 1) :
    (boundsAfterPlus (g.upTo k)).upTo j = (boundsAfterPlus g).upTo j := by
  refine upTo_congr hj ?_
  simp [boundsAfterPlus]

@[simp]
theorem upTo_functionPointer (hj : j ≤ k + 1) :
    (functionPointer (g.upTo k)).upTo j = (functionPointer g).upTo j := by
  refine upTo_congr hj ?_
  simp [functionPointer]

@[simp]
theorem upTo_pathType (hj : j ≤ k + 1) : (pathType (g.upTo k)).upTo j = (pathType g).upTo j := by
  refine upTo_congr hj ?_
  simp [pathType]

@[simp]
theorem upTo_parenType (hj : j ≤ k + 1) (plus : Bool) :
    (parenType (g.upTo k) plus).upTo j = (parenType g plus).upTo j := by
  refine upTo_congr hj ?_
  refine upTo_eager_congr (eager_group _ _) (eager_group _ _) (by simp) fun inside => ?_
  split <;> simp

@[simp]
theorem upTo_typeRule (hj : j ≤ k + 1) (plus : Bool) :
    (typeRule (g.upTo k) plus).upTo j = (typeRule g plus).upTo j := by
  refine upTo_congr hj ?_
  simp [typeRule]

@[simp]
theorem upTo_typeExpr (plus : Bool) : (typeExpr (g.upTo k) plus).upTo k = (typeExpr g plus).upTo k := by
  simp [typeExpr]

@[simp]
theorem upTo_whereClause (hj : j ≤ k + 1) : (whereClause (g.upTo k)).upTo j = (whereClause g).upTo j := by
  refine upTo_congr hj ?_
  simp [whereClause]

/-! ### Patterns -/

@[simp]
theorem upTo_patterns : (patterns (g.upTo k)).upTo k = (patterns g).upTo k := by
  simp [patterns]

@[simp]
theorem upTo_rangeBound (hj : j ≤ k + 1) : (rangeBound (g.upTo k)).upTo j = (rangeBound g).upTo j := by
  refine upTo_congr hj ?_
  simp [rangeBound]

@[simp]
theorem upTo_rangeAfterStart (hj : j ≤ k + 1) (start : Span) :
    (rangeAfterStart (g.upTo k) start).upTo j = (rangeAfterStart g start).upTo j := by
  refine upTo_congr hj ?_
  simp [rangeAfterStart]

@[simp]
theorem upTo_fieldPattern (hj : j ≤ k + 1) : (fieldPattern (g.upTo k)).upTo j = (fieldPattern g).upTo j := by
  refine upTo_congr hj ?_
  refine upTo_bind_congr rfl fun boxed => upTo_bind_congr rfl fun byRef => upTo_bind_congr rfl fun mutable => ?_
  refine upTo_ite_congr rfl (upTo_bind_congr rfl fun _ => upTo_ite_congr (by simp) ?_)
  refine upTo_bind_congr rfl fun now => ?_
  split <;> simp

@[simp]
theorem upTo_pathPattern (hj : j ≤ k + 1) : (pathPattern (g.upTo k)).upTo j = (pathPattern g).upTo j := by
  refine upTo_congr hj ?_
  simp [pathPattern]

@[simp]
theorem upTo_namePattern (hj : j ≤ k + 1) : (namePattern (g.upTo k)).upTo j = (namePattern g).upTo j := by
  refine upTo_congr hj ?_
  simp [namePattern]

@[simp]
theorem upTo_patternRule (hj : j ≤ k + 1) : (patternRule (g.upTo k)).upTo j = (patternRule g).upTo j := by
  refine upTo_congr hj ?_
  simp [patternRule]

/-! ### Expressions -/

@[simp]
theorem upTo_rightSide (allowStruct : Bool) (p : Precedence) :
    (rightSide (g.upTo k) allowStruct p).upTo k = (rightSide g allowStruct p).upTo k := by
  simp [rightSide]

@[simp]
theorem upTo_rangeEnd (closed allowStruct : Bool) :
    (rangeEnd (g.upTo k) closed allowStruct).upTo k = (rangeEnd g closed allowStruct).upTo k := by
  simp [rangeEnd]

theorem head?_of_operator? {rest : List TokenTree} {o : Operator} (h : operator? rest = some o) :
    o.text.toList.head?.any (· ≠ ';') = true := by
  have hall : ∀ o ∈ operators, o.text.toList.head?.any (· ≠ ';') = true := by decide
  exact hall o (List.mem_of_find?_eq_some h)

@[simp]
theorem upTo_climbRule (hj : j ≤ k + 1) (allowStruct : Bool) (first : Expr) (base : Precedence) :
    (climbRule (g.upTo k) allowStruct first base).upTo j = (climbRule g allowStruct first base).upTo j := by
  refine upTo_congr hj ?_
  refine upTo_iterate_congr fun left => upTo_bind_congr rfl fun now => upTo_ite_congr rfl ?_
  split
  · rename_i o ho
    have heager : (punct o.text).Eager := eager_punct (head?_of_operator? ho)
    simp [heager]
  · simp

@[simp]
theorem upTo_arguments (hj : j ≤ k + 1) : (arguments (g.upTo k)).upTo j = (arguments g).upTo j := by
  refine upTo_congr hj ?_
  simp [arguments]

@[simp]
theorem upTo_afterPoint (hj : j ≤ k + 1) (e : Expr) :
    (afterPoint (g.upTo k) e).upTo j = (afterPoint g e).upTo j := by
  refine upTo_congr hj ?_
  refine upTo_bind_congr rfl fun number => ?_
  split
  · rfl
  · refine upTo_bind_congr rfl fun _ => upTo_ite_congr rfl (upTo_bind_congr rfl fun read => ?_)
    cases read <;> simp

@[simp]
theorem upTo_trailers (hj : j ≤ k + 1) (e : Expr) : (trailers (g.upTo k) e).upTo j = (trailers g e).upTo j := by
  refine upTo_congr hj ?_
  simp [trailers]

@[simp]
theorem upTo_blockWith (hj : j ≤ k + 1) (inner : Bool) :
    (blockWith (g.upTo k) inner).upTo j = (blockWith g inner).upTo j := by
  refine upTo_congr hj ?_
  simp [blockWith]

@[simp]
theorem upTo_block (hj : j ≤ k + 1) : (block (g.upTo k)).upTo j = (block g).upTo j := by
  refine upTo_congr hj ?_
  simp [block]

@[simp]
theorem upTo_ifExpr (hj : j ≤ k + 1) : (ifExpr (g.upTo k)).upTo j = (ifExpr g).upTo j := by
  refine upTo_congr hj ?_
  simp [ifExpr]

@[simp]
theorem upTo_whileExpr (hj : j ≤ k + 1) (start : Span) :
    (whileExpr (g.upTo k) start).upTo j = (whileExpr g start).upTo j := by
  refine upTo_congr hj ?_
  simp [whileExpr]

@[simp]
theorem upTo_forExpr (hj : j ≤ k + 1) (start : Span) :
    (forExpr (g.upTo k) start).upTo j = (forExpr g start).upTo j := by
  refine upTo_congr hj ?_
  simp [forExpr]

@[simp]
theorem upTo_loopExpr (hj : j ≤ k + 1) (start : Span) :
    (loopExpr (g.upTo k) start).upTo j = (loopExpr g start).upTo j := by
  refine upTo_congr hj ?_
  simp [loopExpr]

@[simp]
theorem upTo_blockExpr (hj : j ≤ k + 1) (start : Span) :
    (blockExpr (g.upTo k) start).upTo j = (blockExpr g start).upTo j := by
  refine upTo_congr hj ?_
  simp [blockExpr]

@[simp]
theorem upTo_labeled (hj : j ≤ k + 1) : (labeled (g.upTo k)).upTo j = (labeled g).upTo j := by
  refine upTo_congr hj ?_
  simp [labeled]

@[simp]
theorem upTo_matchExpr (hj : j ≤ k + 1) : (matchExpr (g.upTo k)).upTo j = (matchExpr g).upTo j := by
  refine upTo_congr hj ?_
  simp [matchExpr]

@[simp]
theorem upTo_structFields (hj : j ≤ k + 1) : (structFields (g.upTo k)).upTo j = (structFields g).upTo j := by
  refine upTo_congr hj ?_
  refine upTo_group_congr .brace (upTo_iterate_congr fun _ => upTo_bind_congr rfl fun _ => upTo_ite_congr rfl ?_)
  refine upTo_bind_congr rfl fun _ => upTo_ite_congr (by simp) (upTo_bind_congr (by simp) fun _ => ?_)
  refine upTo_bind_congr rfl fun read => ?_
  cases read <;> simp

@[simp]
theorem upTo_macroItems : (macroItems (g.upTo k)).upTo k = (macroItems g).upTo k := by
  simp [macroItems]

@[simp]
theorem upTo_macroCall (hj : j ≤ k + 1) (name : Option Ident) (pathSpan : Span) :
    (macroCall (g.upTo k) name pathSpan).upTo j = (macroCall g name pathSpan).upTo j := by
  refine upTo_congr hj ?_
  have heager : (punct "!").Eager := eager_punct (by decide)
  refine upTo_eager_congr heager heager rfl fun _ => upTo_anyGroup_congr fun d body s hbody => ?_
  dsimp only
  rw [readAll_eq upTo_macroItems hbody]

@[simp]
theorem upTo_pathExpr (hj : j ≤ k + 1) (allowStruct : Bool) :
    (pathExpr (g.upTo k) allowStruct).upTo j = (pathExpr g allowStruct).upTo j := by
  refine upTo_congr hj ?_
  simp [pathExpr]

@[simp]
theorem upTo_parenExpr (hj : j ≤ k + 1) : (parenExpr (g.upTo k)).upTo j = (parenExpr g).upTo j := by
  refine upTo_congr hj ?_
  simp [parenExpr]

@[simp]
theorem upTo_arrayExpr (hj : j ≤ k + 1) : (arrayExpr (g.upTo k)).upTo j = (arrayExpr g).upTo j := by
  refine upTo_congr hj ?_
  simp [arrayExpr]

@[simp]
theorem upTo_jumpValue : (jumpValue (g.upTo k)).upTo k = (jumpValue g).upTo k := by
  simp [jumpValue]

@[simp]
theorem upTo_breakExpr (hj : j ≤ k + 1) (allowStruct : Bool) :
    (breakExpr (g.upTo k) allowStruct).upTo j = (breakExpr g allowStruct).upTo j := by
  refine upTo_congr hj ?_
  simp [breakExpr]

@[simp]
theorem upTo_closureExpr (hj : j ≤ k + 1) (allowStruct : Bool) :
    (closureExpr (g.upTo k) allowStruct).upTo j = (closureExpr g allowStruct).upTo j := by
  refine upTo_congr hj ?_
  simp [closureExpr]

@[simp]
theorem upTo_letExpr (hj : j ≤ k + 1) (allowStruct : Bool) :
    (letExpr (g.upTo k) allowStruct).upTo j = (letExpr g allowStruct).upTo j := by
  refine upTo_congr hj ?_
  simp [letExpr]

@[simp]
theorem upTo_markedBlock (hj : j ≤ k + 1) (words : List String) (inner ends : Bool) :
    (markedBlock (g.upTo k) words inner ends).upTo j = (markedBlock g words inner ends).upTo j := by
  refine upTo_congr hj ?_
  simp [markedBlock]

@[simp]
theorem upTo_atom (hj : j ≤ k + 1) (allowStruct : Bool) :
    (atom (g.upTo k) allowStruct).upTo j = (atom g allowStruct).upTo j := by
  refine upTo_congr hj ?_
  simp [atom]

@[simp]
theorem upTo_operandRule (hj : j ≤ k + 1) (allowStruct : Bool) :
    (operandRule (g.upTo k) allowStruct).upTo j = (operandRule g allowStruct).upTo j := by
  refine upTo_congr hj ?_
  simp [operandRule]

/-! ### Items -/

@[simp]
theorem upTo_receiver (hj : j ≤ k + 1) : (receiver (g.upTo k)).upTo j = (receiver g).upTo j := by
  refine upTo_congr hj ?_
  simp [receiver]

@[simp]
theorem upTo_param (first receivers : Bool) :
    (param (g.upTo k) first receivers).upTo k = (param g first receivers).upTo k := by
  refine upTo_bind_congr rfl fun start => upTo_bind_congr (by simp) fun _ => ?_
  refine upTo_bind_congr rfl fun _ => upTo_ite_congr rfl (upTo_bind_congr (upTo_attempt? (by simp)) fun found => ?_)
  cases found <;> simp

@[simp]
theorem upTo_params (hj : j ≤ k + 1) : (params (g.upTo k)).upTo j = (params g).upTo j := by
  refine upTo_congr hj ?_
  simp [params]

@[simp]
theorem upTo_signature (hj : j ≤ k + 1) (safe : Bool) :
    (signature (g.upTo k) safe).upTo j = (signature g safe).upTo j := by
  refine upTo_congr hj ?_
  simp [signature]

@[simp]
theorem upTo_functionBody (hj : j ≤ k + 1) : (functionBody (g.upTo k)).upTo j = (functionBody g).upTo j := by
  refine upTo_congr hj ?_
  simp [functionBody]

@[simp]
theorem upTo_namedFields (hj : j ≤ k + 1) : (namedFields (g.upTo k)).upTo j = (namedFields g).upTo j := by
  refine upTo_congr hj ?_
  simp [namedFields]

@[simp]
theorem upTo_countedFields (hj : j ≤ k + 1) : (countedFields (g.upTo k)).upTo j = (countedFields g).upTo j := by
  refine upTo_congr hj ?_
  simp [countedFields]

@[simp]
theorem upTo_structDecl (hj : j ≤ k + 1) (docs : List (List Char)) :
    (structDecl (g.upTo k) docs).upTo j = (structDecl g docs).upTo j := by
  refine upTo_congr hj ?_
  simp [structDecl]

@[simp]
theorem upTo_enumDecl (hj : j ≤ k + 1) : (enumDecl (g.upTo k)).upTo j = (enumDecl g).upTo j := by
  refine upTo_congr hj ?_
  simp [enumDecl]

@[simp]
theorem upTo_boundsUntil (hj : j ≤ k + 1) (stop : Parse Bool) (rules : BoundRules) :
    (boundsUntil (g.upTo k) stop rules).upTo j = (boundsUntil g stop rules).upTo j := by
  refine upTo_congr hj ?_
  simp [boundsUntil]

@[simp]
theorem upTo_typeItem (hj : j ≤ k + 1) (before after : Bool) :
    (typeItem (g.upTo k) before after).upTo j = (typeItem g before after).upTo j := by
  refine upTo_congr hj ?_
  simp [typeItem]

@[simp]
theorem upTo_importTreeRule (hj : j ≤ k + 1) (rootAllowed : Bool) :
    (importTreeRule (g.upTo k) rootAllowed).upTo j = (importTreeRule g rootAllowed).upTo j := by
  refine upTo_congr hj ?_
  simp [importTreeRule]

@[simp]
theorem upTo_importItem (hj : j ≤ k + 1) : (importItem (g.upTo k)).upTo j = (importItem g).upTo j := by
  refine upTo_congr hj ?_
  simp [importItem]

@[simp]
theorem upTo_constantItem (hj : j ≤ k + 1) : (constantItem (g.upTo k)).upTo j = (constantItem g).upTo j := by
  refine upTo_congr hj ?_
  simp [constantItem]

@[simp]
theorem upTo_staticItem (hj : j ≤ k + 1) (typed : Bool) :
    (staticItem (g.upTo k) typed).upTo j = (staticItem g typed).upTo j := by
  refine upTo_congr hj ?_
  simp [staticItem]

@[simp]
theorem upTo_bodyOrSemicolon (hj : j ≤ k + 1) :
    (bodyOrSemicolon (g.upTo k)).upTo j = (bodyOrSemicolon g).upTo j := by
  refine upTo_congr hj ?_
  simp [bodyOrSemicolon]

@[simp]
theorem upTo_constantMember (hj : j ≤ k + 1) :
    (constantMember (g.upTo k)).upTo j = (constantMember g).upTo j := by
  refine upTo_congr hj ?_
  simp [constantMember]

@[simp]
theorem upTo_traitMember (hj : j ≤ k + 1) : (traitMember (g.upTo k)).upTo j = (traitMember g).upTo j := by
  refine upTo_congr hj ?_
  simp [traitMember]

@[simp]
theorem upTo_implMember (hj : j ≤ k + 1) : (implMember (g.upTo k)).upTo j = (implMember g).upTo j := by
  refine upTo_congr hj ?_
  simp [implMember]

@[simp]
theorem upTo_foreignMember (hj : j ≤ k + 1) : (foreignMember (g.upTo k)).upTo j = (foreignMember g).upTo j := by
  refine upTo_congr hj ?_
  simp [foreignMember]

theorem upTo_members {m m' : Parse Unit} (hm : m.upTo k = m'.upTo k) (hj : j ≤ k + 1) :
    (members (g.upTo k) m).upTo j = (members g m').upTo j := by
  refine upTo_congr hj ?_
  simp [members, hm]

@[simp]
theorem upTo_traitRest (hj : j ≤ k + 1) : (traitRest (g.upTo k)).upTo j = (traitRest g).upTo j := by
  refine upTo_congr hj ?_
  simp [traitRest, upTo_members (upTo_traitMember (Nat.le_succ k))]

@[simp]
theorem upTo_traitItem (hj : j ≤ k + 1) (aliasAllowed : Bool) :
    (traitItem (g.upTo k) aliasAllowed).upTo j = (traitItem g aliasAllowed).upTo j := by
  refine upTo_congr hj ?_
  simp [traitItem]

@[simp]
theorem upTo_implItem (hj : j ≤ k + 1) : (implItem (g.upTo k)).upTo j = (implItem g).upTo j := by
  refine upTo_congr hj ?_
  simp [implItem, upTo_members (upTo_implMember (Nat.le_succ k))]

@[simp]
theorem upTo_moduleItem (hj : j ≤ k + 1) : (moduleItem (g.upTo k)).upTo j = (moduleItem g).upTo j := by
  refine upTo_congr hj ?_
  simp [moduleItem, upTo_members (upTo_upTo (le_refl k) g.item)]

@[simp]
theorem upTo_foreignItem (hj : j ≤ k + 1) : (foreignItem (g.upTo k)).upTo j = (foreignItem g).upTo j := by
  refine upTo_congr hj ?_
  simp [foreignItem, upTo_members (upTo_foreignMember (Nat.le_succ k))]

@[simp]
theorem upTo_externItem (hj : j ≤ k + 1) : (externItem (g.upTo k)).upTo j = (externItem g).upTo j := by
  refine upTo_congr hj ?_
  simp [externItem]

@[simp]
theorem upTo_itemRest (hj : j ≤ k + 1) (docs : List (List Char)) :
    (itemRest (g.upTo k) docs).upTo j = (itemRest g docs).upTo j := by
  refine upTo_congr hj ?_
  simp [itemRest]

@[simp]
theorem upTo_itemRule (hj : j ≤ k + 1) : (itemRule (g.upTo k)).upTo j = (itemRule g).upTo j := by
  refine upTo_congr hj ?_
  simp [itemRule]

/-! ### Statements -/

@[simp]
theorem upTo_letStmt (hj : j ≤ k + 1) (start : Span) :
    (letStmt (g.upTo k) start).upTo j = (letStmt g start).upTo j := by
  refine upTo_congr hj ?_
  simp [letStmt]

@[simp]
theorem upTo_macroStmt (hj : j ≤ k + 1) (start : Span) :
    (macroStmt (g.upTo k) start).upTo j = (macroStmt g start).upTo j := by
  refine upTo_congr hj ?_
  simp [macroStmt]

/-! ## Rules in a row -/

/-- What a rule makes of few tokens is known from what the grammar makes of fewer. -/
theorem upTo_rule {α : Type} (rule : Grammar → Parse α)
    (hrule : ∀ g, (rule (g.upTo k)).upTo (k + 1) = (rule g).upTo (k + 1)) {g g' : Grammar}
    (h : g.upTo k = g'.upTo k) : (rule g).upTo (k + 1) = (rule g').upTo (k + 1) := by
  rw [← hrule g, h, hrule g']

/-- Grammars that read fewer tokens alike, and as many tokens as an expression or as what follows an operand. -/
structure Grammar.AlikeUpTo (k : Nat) (g g' : Grammar) : Prop where
  below : g.upTo k = g'.upTo k
  expr : ∀ allowStruct, (g.expr allowStruct).upTo (k + 1) = (g'.expr allowStruct).upTo (k + 1)
  climb : ∀ allowStruct first base,
    (g.climb allowStruct first base).upTo (k + 1) = (g'.climb allowStruct first base).upTo (k + 1)

variable {g' : Grammar}

theorem upTo_freeRule (h : g.AlikeUpTo k g') : (freeRule g).upTo (k + 1) = (freeRule g').upTo (k + 1) := by
  have hrule {α : Type} (rule : Grammar → Parse α)
      (hrule : ∀ g, (rule (g.upTo k)).upTo (k + 1) = (rule g).upTo (k + 1)) :
      (rule g).upTo (k + 1) = (rule g').upTo (k + 1) := upTo_rule rule hrule h.below
  have hchoice {c : Prop} [Decidable c] {p p' : Parse Expr} {o o' : Option (Parse Expr)}
      (hp : p.upTo (k + 1) = p'.upTo (k + 1)) (ho : o.map (Parse.upTo (k + 1)) = o'.map (Parse.upTo (k + 1))) :
      (if c then some p else o).map (Parse.upTo (k + 1)) = (if c then some p' else o').map (Parse.upTo (k + 1)) := by
    split
    · rw [Option.map_some, Option.map_some, hp]
    · exact ho
  refine upTo_bind_congr (hrule (fun g => discard (outerAttributes g)) (by simp)) fun _ => ?_
  refine upTo_bind_congr rfl fun start => upTo_bind_congr rfl fun now => upTo_bind_congr rfl fun generic => ?_
  extract_lets special special'
  have hspecial : special.map (Parse.upTo (k + 1)) = special'.map (Parse.upTo (k + 1)) := by
    refine hchoice (hrule ifExpr (by simp)) (hchoice (hrule (whileExpr · start) (by simp)) ?_)
    refine hchoice (hrule (forExpr · start) (by simp)) (hchoice (hrule (loopExpr · start) (by simp)) ?_)
    refine hchoice (hrule matchExpr (by simp)) (hchoice (hrule (markedBlock · _ _ _) (by simp)) ?_)
    refine hchoice (hrule (markedBlock · _ _ _) (by simp)) (hchoice (hrule (markedBlock · _ _ _) (by simp)) ?_)
    exact hchoice (hrule (blockExpr · start) (by simp)) (hchoice (hrule labeled (by simp)) rfl)
  clear_value special special'
  cases special with
  | none =>
    obtain rfl := Option.map_eq_none_iff.1 hspecial.symm
    exact h.expr true
  | some p =>
    obtain ⟨p', rfl, hp⟩ := Option.map_eq_some_iff.1 hspecial.symm
    refine upTo_bind_congr hp.symm fun e => upTo_bind_congr rfl fun after => upTo_ite_congr ?_ rfl
    exact upTo_bind_congr (hrule (trailers · e) (by simp)) fun e => h.climb true e .jump

theorem upTo_statement (h : g.AlikeUpTo k g') : (statement g).upTo (k + 1) = (statement g').upTo (k + 1) := by
  have hrule {α : Type} (rule : Grammar → Parse α)
      (hrule : ∀ g, (rule (g.upTo k)).upTo (k + 1) = (rule g).upTo (k + 1)) :
      (rule g).upTo (k + 1) = (rule g').upTo (k + 1) := upTo_rule rule hrule h.below
  refine upTo_bind_congr rfl fun start => upTo_bind_congr (hrule outerAttributes (by simp)) fun docs => ?_
  refine upTo_bind_congr rfl fun kind => ?_
  have hitem (kind : MacroStart) : (do
        let rest := (← input).rest
        if isWord "let" rest then letStmt g start
        else if itemAhead rest || kind = .item then
          let value ← itemRest g docs
          return .item value (← spanFrom start)
        else exprStmt g start : Parse Stmt).upTo (k + 1) = (do
        let rest := (← input).rest
        if isWord "let" rest then letStmt g' start
        else if itemAhead rest || kind = .item then
          let value ← itemRest g' docs
          return .item value (← spanFrom start)
        else exprStmt g' start : Parse Stmt).upTo (k + 1) := by
    refine upTo_bind_congr rfl fun now => upTo_ite_congr (hrule (letStmt · start) (by simp)) (upTo_ite_congr ?_ ?_)
    · exact upTo_bind_congr (hrule (itemRest · docs) (by simp)) fun _ => rfl
    · exact upTo_bind_congr (upTo_freeRule h) fun _ => rfl
  cases kind with
  | braces => exact hrule (macroStmt · start) (by simp)
  | item => exact hitem .item
  | none => exact hitem .none

theorem upTo_stmtsRule (h : g.AlikeUpTo k g') : (stmtsRule g).upTo (k + 1) = (stmtsRule g').upTo (k + 1) := by
  refine upTo_iterate_congr fun read => upTo_bind_congr rfl fun start => upTo_bind_congr rfl fun found => ?_
  refine upTo_ite_congr rfl (upTo_bind_congr rfl fun _ => upTo_ite_congr rfl ?_)
  exact upTo_bind_congr (upTo_afresh (upTo_statement h)) fun _ => rfl

end Rules

/-! ## Grammars -/

section Grammars

variable {n m k : Nat}

/-- The rules that need no other one for as many tokens. -/
theorem upTo_rules (h : (grammar n).upTo k = (grammar m).upTo k) :
    (∀ s, ((grammar (n + 1)).operand s).upTo (k + 1) = ((grammar (m + 1)).operand s).upTo (k + 1)) ∧
    (∀ s e p, ((grammar (n + 1)).climb s e p).upTo (k + 1) = ((grammar (m + 1)).climb s e p).upTo (k + 1)) ∧
    (∀ plus, ((grammar (n + 1)).type plus).upTo (k + 1) = ((grammar (m + 1)).type plus).upTo (k + 1)) ∧
    (grammar (n + 1)).pattern.upTo (k + 1) = (grammar (m + 1)).pattern.upTo (k + 1) ∧
    (grammar (n + 1)).item.upTo (k + 1) = (grammar (m + 1)).item.upTo (k + 1) ∧
    (∀ r, ((grammar (n + 1)).importTree r).upTo (k + 1) = ((grammar (m + 1)).importTree r).upTo (k + 1)) :=
  ⟨fun s => upTo_rule (operandRule · s) (by simp) h, fun s e p => upTo_rule (climbRule · s e p) (by simp) h,
    fun plus => upTo_rule (typeRule · plus) (by simp) h, upTo_rule patternRule (by simp) h,
    upTo_rule itemRule (by simp) h, fun r => upTo_rule (importTreeRule · r) (by simp) h⟩

/-- An expression needs an operand for as many tokens. -/
theorem alikeUpTo_succ (h : ∀ i, (grammar (n + i)).upTo k = (grammar (m + i)).upTo k) :
    (grammar (n + 2)).AlikeUpTo k (grammar (m + 2)) := by
  obtain ⟨hoperand, hclimb, -⟩ := upTo_rules (h 0)
  obtain ⟨-, hclimb', -⟩ := upTo_rules (h 1)
  exact ⟨h 2, fun s => upTo_bind_congr (hoperand s) fun e => hclimb s e .jump, hclimb'⟩

/-- Grammars that are three times as deep as there are tokens read them alike. -/
theorem upTo_grammar (hn : 3 * k ≤ n) (hm : 3 * k ≤ m) : (grammar n).upTo k = (grammar m).upTo k := by
  induction k generalizing n m with
  | zero => rfl
  | succ k ih =>
    obtain ⟨n, rfl⟩ : ∃ i, n = i + 3 := ⟨n - 3, by omega⟩
    obtain ⟨m, rfl⟩ : ∃ i, m = i + 3 := ⟨m - 3, by omega⟩
    have hbelow (i : Nat) : (grammar (n + i)).upTo k = (grammar (m + i)).upTo k := ih (by omega) (by omega)
    have halike : (grammar (n + 2)).AlikeUpTo k (grammar (m + 2)) := alikeUpTo_succ hbelow
    obtain ⟨hoperand, hclimb, htype, hpattern, hitem, himport⟩ := upTo_rules (hbelow 2)
    have hexpr (s : Bool) : ((grammar (n + 3)).expr s).upTo (k + 1) = ((grammar (m + 3)).expr s).upTo (k + 1) :=
      (alikeUpTo_succ fun i => ih (by omega) (by omega)).expr s
    unfold Grammar.upTo
    rw [Grammar.mk.injEq]
    refine ⟨funext hexpr, upTo_freeRule halike, funext hoperand, ?_, funext htype, hpattern, ?_, hitem,
      funext himport⟩
    · exact funext fun s => funext fun e => funext fun p => hclimb s e p
    · exact upTo_stmtsRule halike

/-- For statements, a grammar that is deeper than tokens need makes no difference. -/
theorem run_stmts_deeper (now : Input) (hn : depthFor now.rest ≤ n) :
    (grammar n).stmts.run now = (grammar (depthFor now.rest)).stmts.run now := by
  have h : (grammar n).upTo (TokenTree.sizes now.rest + 1) =
      (grammar (depthFor now.rest)).upTo (TokenTree.sizes now.rest + 1) := by
    unfold depthFor at hn ⊢
    exact upTo_grammar (by omega) (by omega)
  exact run_eq_of_upTo (congrArg Grammar.stmts h) (Nat.lt_succ_self _)

end Grammars

end Notebook.Syntax

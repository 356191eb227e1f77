import Notebook.Proofs.Syntax.Deepening
import Notebook.Proofs.Syntax.Seam.Rules

/-!
# Types and patterns before a seam

Paths and generic arguments do not end in braces.  A type may, but only by a macro call, which nothing of the type
follows.
-/

namespace Notebook.Syntax
open Notebook.Text

/-- The rules of the grammar, before a seam. -/
structure Grammar.Inside (g : Grammar) : Prop where
  expr : ∀ allowStruct, (g.expr allowStruct).Inside
  operand : ∀ allowStruct, (g.operand allowStruct).Inside
  climb : ∀ allowStruct first base, (g.climb allowStruct first base).Inside
  type : ∀ plus, (g.type plus).Inside
  pattern : g.pattern.Inside
  importTree : ∀ rootAllowed, (g.importTree rootAllowed).Inside

attribute [grind .] Grammar.Inside.expr Grammar.Inside.operand Grammar.Inside.climb Grammar.Inside.type
  Grammar.Inside.pattern Grammar.Inside.importTree

section Open

variable {g : Grammar} {bound : BoundRules → Parse BoundKind}

@[grind .]
theorem open_plainPath : plainPath.Open := by
  unfold plainPath
  grind

@[grind .]
theorem sharp_plainPath : plainPath.Sharp := by
  have hword : (peek isPathWord).Sharp := sharp_peek fun u back hu => isPathWord_append hu back
  refine sharp_bind (sharp_punct? _) (open_punct? _) fun rooted => ?_
  refine sharp_bind (sharp_iterate (fun read => ?_) (fun read => by grind) (fun read => ?_) []) (by grind)
    fun _ => sharp_pure _
  · refine sharp_bind hword (open_peek _) fun _ => sharp_ite (sharp_ite ?_ (sharp_wrong _)) ?_
    · exact sharp_bind (sharp_discard sharp_ident) (by grind) fun _ => sharp_pure _
    · exact sharp_bind sharp_anyWord (by grind) fun _ => sharp_bind (by grind) (by grind) fun _ => by grind
  · refine moves_after fun _ => moves_ite (moves_ite ?_ (moves_wrong _)) (moves_then eager_anyWord.bites)
    exact moves_then (eager_discard eager_ident).bites

@[grind .]
theorem open_outerAttribute (g : Grammar) : (outerAttribute g).Open := by
  unfold outerAttribute
  grind

@[grind .]
theorem open_outerAttributes (g : Grammar) : (outerAttributes g).Open := by
  unfold outerAttributes
  grind

theorem ends_genericParamsWith (g : Grammar) (bound : BoundRules → Parse BoundKind) :
    (genericParamsWith g bound).Ends :=
  .after fun _ => .after fun _ => ends_punct (by decide)

@[grind .]
theorem open_binder? (g : Grammar) (bound : BoundRules → Parse BoundKind) : (binder? g bound).Open :=
  open_bind (open_word? _) fun _ =>
    open_ite (open_bind (ends_genericParamsWith g bound).open fun _ => open_pure _) (open_pure _)

@[grind .]
theorem open_parensAhead : parensAhead.Open := by
  unfold parensAhead
  grind

@[grind .]
theorem open_dropColons : dropColons.Open := by
  unfold dropColons
  grind

theorem ends_angleArguments (g : Grammar) (bound : BoundRules → Parse BoundKind) : (angleArguments g bound).Ends :=
  .after fun _ => .after fun _ => .after fun _ => ends_punct (by decide)

@[grind .]
theorem open_pathSegment (g : Grammar) (bound : BoundRules → Parse BoundKind) (inExpr : Bool) :
    (pathSegment g bound inExpr).Open := by
  have hangles := (ends_angleArguments g bound).open
  refine open_bind open_input fun now => open_ite (by grind) (open_bind (open_peek _) fun _ => open_ite ?_ ?_)
  all_goals
    refine open_bind (by grind) fun name => open_bind (open_peek _) fun _ => open_bind (open_peek _) fun _ => ?_
    exact open_bind (open_peek _) fun _ => open_bind (open_peekThird _) fun _ => open_ite (by grind) (open_pure _)

@[grind .]
theorem open_pathRest (g : Grammar) (bound : BoundRules → Parse BoundKind) (inExpr : Bool) (p : Path) :
    (pathRest g bound inExpr p).Open := by
  unfold pathRest
  grind

@[grind .]
theorem open_unqualifiedPath (g : Grammar) (bound : BoundRules → Parse BoundKind) (inExpr : Bool) :
    (unqualifiedPath g bound inExpr).Open := by
  unfold unqualifiedPath
  grind

@[grind .]
theorem open_generics (g : Grammar) : (generics g).Open := by
  have hparams := (ends_genericParamsWith g (Syntax.bound g)).open
  unfold generics
  grind

@[grind .]
theorem open_path (g : Grammar) (inExpr : Bool) : (path g inExpr).Open := by
  -- segments after a type between angle brackets
  have hqualified {rest : Parse Path} (hrest : rest.Open) : (do
      punct ">"
      rest : Parse Path).Ends :=
    (ends_punct (by decide)).first fun _ => hrest
  refine open_bind (open_punct? _) fun _ => open_ite ?_ (open_unqualifiedPath g _ inExpr)
  refine Parse.Ends.open (Parse.Ends.after fun _ => Parse.Ends.after fun _ => ?_)
  exact Parse.Takes.ite (Parse.Ends.after fun _ => hqualified (by grind)) (hqualified (by grind))

end Open

section Inside

variable {g : Grammar} {b : BoundRules → Parse BoundKind}

@[grind .]
theorem inside_outerAttribute (g : Grammar) : (outerAttribute g).Inside := by
  unfold outerAttribute
  grind

@[grind .]
theorem inside_outerAttributes (g : Grammar) : (outerAttributes g).Inside := by
  have hbites : (outerAttribute g).Bites := bites_then (ends_punct (by decide)).bites
  exact inside_bind (inside_many (by grind) (inside_outerAttribute g) hbites) fun _ => by grind

@[grind .]
theorem inside_constArgument (g : Grammar) : (constArgument g).Inside := by
  unfold constArgument
  grind

theorem inside_genericParamsWith (hg : g.Inside) (hb : ∀ rules, (b rules).Inside) :
    (genericParamsWith g b).Inside := by
  refine inside_bind (by grind) fun _ => inside_bind (inside_discard ?_) fun _ => by grind
  refine inside_separatedUntil (by grind) (by decide) ?_
  -- a parameter is a lifetime, a type or a constant
  refine inside_bind (by grind) fun _ => inside_bind (by grind) fun _ => inside_ite ?_ ?_
  · refine inside_bind (by grind) fun _ => inside_bind (by grind) fun _ => inside_ite ?_ (by grind)
    exact inside_discard (inside_chain (by grind) (by decide) (by grind))
  refine inside_bind (by grind) fun _ => inside_ite ?_ (by grind)
  refine inside_bind (by grind) fun _ => inside_bind (by grind) fun _ => inside_ite ?_ (by grind)
  exact inside_bind (inside_discard (inside_chain (by grind) (by decide) (hb _))) fun _ => by grind

@[grind .]
theorem inside_binder? (hg : g.Inside) (hb : ∀ rules, (b rules).Inside) : (binder? g b).Inside := by
  have hparams := inside_genericParamsWith hg hb
  unfold binder?
  grind

@[grind .]
theorem inside_resultType (hg : g.Inside) (plus : Bool) : (resultType g plus).Inside := by
  unfold resultType
  grind

@[grind .]
theorem inside_parenthesizedArguments (hg : g.Inside) : (parenthesizedArguments g).Inside := by
  unfold parenthesizedArguments
  grind

@[grind .]
theorem sharp_parensAhead : parensAhead.Sharp :=
  sharp_bind (sharp_peek (sharp_isGroup _)) (open_peek _) fun _ =>
    sharp_peekThird (sharp_isGroup _) (fun _ => rfl) fun _ _ => sharp_pure _

@[grind .]
theorem inside_dropColons : dropColons.Inside := by
  unfold dropColons
  grind

theorem isGroup_of_isLifetime {u : List TokenTree} (h : isLifetime u = true) : isGroup .brace u = false := by
  unfold isLifetime at h
  split at h
  · rfl
  · cases h

@[grind .]
theorem inside_angleArguments (hg : g.Inside) (hb : ∀ rules, (b rules).Inside) : (angleArguments g b).Inside := by
  refine inside_bind (by grind) fun _ => inside_bind (inside_captured ?_) fun _ => ?_
  · refine inside_iterate (fun read => ?_) (fun read => ?_) []
    · refine inside_bind (by grind) fun _ => inside_ite (by grind)
        (inside_bind (inside_captured ?_) fun argument => ?_)
      · -- a lifetime, a constant, or a type that may be a name with what it stands for or its bounds
        refine inside_peekSecond sharp_isLifetime (sharp_isPunct _) (fun _ => isGroup_of_isLifetime) (fun _ => rfl)
          fun _ _ => inside_ite (by grind) ?_
        refine inside_bind (by grind) fun _ => inside_bind (by grind) fun _ => inside_ite (by grind) ?_
        refine inside_bind (hg.type true) fun type => inside_ite ?_ (by grind)
        refine inside_bind (by grind) fun _ => inside_ite (by grind) ?_
        refine inside_bind (by grind) fun _ => inside_ite ?_ (by grind)
        exact inside_bind (inside_discard (inside_chain (by grind) (by decide) (hb _))) fun _ => by grind
      · refine inside_bind (by grind) fun _ => inside_ite (by grind) (by grind)
    · refine moves_after fun _ => moves_ite (moves_inr _) (moves_after fun argument => moves_after fun _ => ?_)
      exact moves_ite (moves_inr _) (moves_then (ends_punct (by decide)).bites)
  · grind

@[grind .]
theorem inside_pathSegment (hg : g.Inside) (hb : ∀ rules, (b rules).Inside) (inExpr : Bool) :
    (pathSegment g b inExpr).Inside := by
  refine inside_look (fun now back hnow => ?_) fun now => inside_ite (by grind) ?_
  · simp [onto_rest, hnow]
  -- the name is read in one of two ways, and then what may follow it
  refine inside_bind (by grind) fun _ => inside_ite ?_ ?_
  all_goals
    refine inside_bind (by grind) fun name => inside_bind (by grind) fun _ => inside_bind (by grind) fun _ => ?_
    exact inside_peekThird (sharp_isPunct _) (fun _ => rfl) fun _ _ => inside_ite (by grind) (by grind)

@[grind .]
theorem inside_pathRest (hg : g.Inside) (hb : ∀ rules, (b rules).Inside) (inExpr : Bool) (p : Path) :
    (pathRest g b inExpr p).Inside := by
  refine inside_iterate (fun p => ?_) (fun p => ?_) p
  · exact inside_peekThird (sharp_isGroup _) (fun _ => rfl) fun _ _ => inside_ite (by grind) (by grind)
  · refine moves_after fun _ => moves_after fun _ => moves_ite ?_ (moves_inr _)
    exact moves_then (ends_punct (by decide)).bites

@[grind .]
theorem inside_unqualifiedPath (hg : g.Inside) (hb : ∀ rules, (b rules).Inside) (inExpr : Bool) :
    (unqualifiedPath g b inExpr).Inside := by
  unfold unqualifiedPath
  grind

theorem inside_boundWith (hg : g.Inside) (hb : ∀ rules, (b rules).Inside) (rules : BoundRules) :
    (boundWith g b rules).Inside := by
  have htail (binder : Bool) (kind : BoundKind) : Parse.Inside (do
      let mark ← here
      let maybe ← punct? "?"
      let binder ← if !binder && maybe then binder? g b else pure binder
      let path ← unqualifiedPath g b false
      if !path.endsInArgs && (← parensAhead) then
        dropColons
        discard (parenthesizedArguments g)
      if binder && maybe then
        wrongAt mark "`for<...>` binder not allowed with `?` trait polarity modifier"
      return kind) := by
    refine inside_bind (by grind) fun mark => inside_bind (by grind) fun maybe => inside_ite ?_ ?_
    all_goals
      refine inside_bind (by grind) fun binder => inside_bind (by grind) fun path => ?_
      exact inside_bind (by grind) fun _ => inside_ite (by grind) (by grind)
  refine inside_bind (by grind) fun _ => inside_ite ?_ ?_
  · refine inside_bind (by grind) fun _ => inside_bind (by grind) fun _ => ?_
    exact inside_look (fun _ _ _ => rfl) fun _ => by grind
  refine inside_bind (by grind) fun _ => inside_ite ?_ ?_
  · -- what may be captured stands between angle brackets
    refine inside_bind (by grind) fun start => inside_bind (by grind) fun _ => inside_bind (by grind) fun _ => ?_
    refine inside_bind (inside_discard (inside_separatedUntil (by grind) (by decide) (by grind))) fun _ => ?_
    refine inside_bind (by grind) fun _ => inside_bind (by grind) fun span => inside_ite ?_ ?_
    · exact inside_look (fun _ _ _ => rfl) fun _ => by grind
    · exact inside_wrongAt_bind _ _ _
  · refine inside_bind (by grind) fun _ => inside_ite (by grind) (inside_bind (by grind) fun binder => ?_)
    refine inside_bind (by grind) fun _ => inside_ite ?_ (inside_bind (by grind) fun _ => inside_ite ?_ ?_)
    · refine inside_bind (by grind) fun _ => inside_bind (by grind) fun _ => inside_ite (htail binder _) ?_
      exact inside_wrongAt_bind _ _ _
    · refine inside_bind (by grind) fun _ => inside_bind (by grind) fun _ => inside_ite (htail binder _) ?_
      exact inside_wrongAt_bind _ _ _
    · exact htail binder _

theorem inside_boundFor (hg : g.Inside) (n : Nat) (rules : BoundRules) : (boundFor g n rules).Inside := by
  induction n generalizing rules with
  | zero =>
    unfold boundFor
    exact (sharp_failWith _).inside
  | succ n ih => exact inside_boundWith hg ih rules

/-- A bound needs no more depth than there are tokens. -/
theorem upTo_boundFor_eq (g : Grammar) {k n m : Nat} (hn : k ≤ n) (hm : k ≤ m) (rules : BoundRules) :
    (boundFor g n rules).upTo k = (boundFor g m rules).upTo k := by
  induction k generalizing n m rules with
  | zero => exact upTo_ext fun _ hnow => absurd hnow (Nat.not_lt_zero _)
  | succ k ih =>
    obtain ⟨n, rfl⟩ : ∃ i, n = i + 1 := ⟨n - 1, by omega⟩
    obtain ⟨m, rfl⟩ : ∃ i, m = i + 1 := ⟨m - 1, by omega⟩
    have hbelow (rules : BoundRules) := ih (n := n) (m := m) (by omega) (by omega) rules
    have hsame := upTo_boundWith (g := g) (j := k + 1) (fun rules => rfl) le_rfl rules (b := boundFor g n)
    exact hsame.symm.trans (upTo_boundWith hbelow le_rfl rules)

theorem run_bound (g : Grammar) (rules : BoundRules) {n : Nat} {now : Input} (hn : TokenTree.sizes now.rest < n) :
    (bound g rules).run now = (boundFor g n rules).run now :=
  run_eq_of_upTo (upTo_boundFor_eq g le_rfl hn rules) (Nat.lt_succ_self _)

theorem run_bound_onto (g : Grammar) (rules : BoundRules) (now : Input) (back : List TokenTree) :
    ∃ n, (bound g rules).run now = (boundFor g n rules).run now ∧
      (bound g rules).run (now.onto back) = (boundFor g n rules).run (now.onto back) := by
  refine ⟨TokenTree.sizes (now.onto back).rest + 1, run_bound g rules ?_, rfl⟩
  rw [onto_rest, sizes_append]
  omega

@[grind .]
theorem inside_bound (hg : g.Inside) (rules : BoundRules) : (bound g rules).Inside := by
  intro now after back a hnow hafter hrun
  obtain ⟨n, hsame, honto⟩ := run_bound_onto g rules now back
  rw [honto] at hrun
  rw [hsame]
  exact inside_boundFor hg n rules now after back a hnow hafter hrun

@[grind .]
theorem inside_path (hg : g.Inside) (inExpr : Bool) : (path g inExpr).Inside := by
  refine inside_bind (by grind) fun _ => inside_ite ?_ (inside_unqualifiedPath hg (inside_bound hg) inExpr)
  -- a type between angle brackets, and segments after it
  refine inside_bind (by grind) fun _ => inside_bind (by grind) fun _ => ?_
  refine inside_ite (inside_bind (by grind) fun _ => ?_) ?_
  all_goals
    refine inside_bind (by grind) fun _ => inside_bind (by grind) fun _ => inside_bind (by grind) fun segment => ?_
    refine inside_iterate (fun p => by grind) (fun p => ?_) _
    exact moves_punct? (by decide) (moves_inr _)

@[grind .]
theorem open_boundAhead (const : Bool) : (boundAhead const).Open := by
  unfold boundAhead
  grind

@[grind .]
theorem sharp_boundAhead (const : Bool) : (boundAhead const).Sharp := by
  change (peek fun u => isAnyWord u || isPunct "::" u || isPunct "?" u || isLifetime u || isGroup .parenthesis u ||
    (const && (isGroup .bracket u || isWord "const" u))).Sharp
  exact sharp_peek fun u back hu => by simp [hu]

theorem moves_bounds {α : Type} {read : List α} (plus const : Bool) : Parse.Moves (do
    let more ← if plus then punct? "+" else pure false
    if !more then return .inr read.reverse
    else if ← boundAhead const then return .inl read
    else return .inr read.reverse : Parse (List α ⊕ List α)) := by
  cases plus with
  | true => exact moves_punct? (by decide) (moves_inr _)
  | false => exact moves_inr _

@[grind .]
theorem inside_bounds (hg : g.Inside) (plus : Bool) (rules : BoundRules) : (bounds g plus rules).Inside := by
  refine inside_iterate (fun read => ?_) (fun read => moves_after fun _ => moves_bounds plus rules.const) _
  refine inside_bind (inside_bound hg rules) fun kind => inside_ite ?_ ?_
  all_goals
    refine inside_bind (by grind) fun more => inside_ite (by grind) ?_
    exact inside_bind (by grind) fun _ => inside_ite (by grind) (by grind)

@[grind .]
theorem sharp_requireTrait (start : Span) (what : String) (kinds : List BoundKind) :
    (requireTrait start what kinds).Sharp := by
  unfold requireTrait
  grind

@[grind .]
theorem inside_objectBounds (hg : g.Inside) (start : Span) (plus : Bool) : (objectBounds g start plus).Inside := by
  unfold objectBounds
  grind

theorem inside_manyAfterPlus {α : Type} {p : Parse α} (hp : p.Inside) : (many (punct? "+") p).Inside := by
  refine inside_iterate (fun read => ?_) (fun read => moves_punct? (by decide) (moves_inr _)) []
  exact inside_bind (by grind) fun _ => inside_ite (by grind) (by grind)

@[grind .]
theorem inside_boundsAfterPlus (hg : g.Inside) : (boundsAfterPlus g).Inside :=
  inside_discard (inside_manyAfterPlus (inside_discard (inside_bound hg _)))

@[grind .]
theorem inside_functionPointer (hg : g.Inside) : (functionPointer g).Inside := by
  unfold functionPointer
  grind

theorem bites_parenthesizedArguments (g : Grammar) : (parenthesizedArguments g).Bites :=
  bites_then (eager_discard (eager_group _ _)).bites

@[grind .]
theorem inside_pathType (hg : g.Inside) : (pathType g).Inside := by
  refine inside_bind (inside_path hg false) fun start => inside_iterate (fun p => ?_) (fun p => ?_) start
  · exact inside_bind (by grind) fun _ => inside_ite (by grind) (by grind)
  · exact moves_after fun _ => moves_ite (moves_after fun _ => moves_then (bites_parenthesizedArguments g))
      (moves_inr _)

@[grind .]
theorem inside_parenType (hg : g.Inside) (plus : Bool) : (parenType g plus).Inside := by
  refine inside_bind (by grind) fun inside => ?_
  split <;> grind

theorem inside_typeRule (hg : g.Inside) (plus : Bool) : (typeRule g plus).Inside := by
  -- only some types may come after a binder
  refine inside_bind (by grind) fun binder => ?_
  refine inside_ite (inside_look (fun now back hnow => ?_) fun now => inside_ite (inside_expected_bind _ _) ?_) ?_
  · simp [onto_rest, hnow]
  all_goals
    refine inside_look (fun now back hnow => ?_) fun now => inside_ite (by grind)
      (inside_ite (by grind) (inside_ite ?_ ?_))
    · simp [onto_rest, hnow]
    · -- a path, perhaps with bounds behind it
      refine inside_bind (by grind) fun p => inside_ite (by grind) ?_
      refine inside_bind (by grind) fun _ => inside_bind (by grind) fun _ => inside_ite (by grind) ?_
      refine inside_bind (by grind) fun _ => inside_ite (inside_ite ?_ (by grind)) (by grind)
      refine inside_bind (inside_iterate (fun single => ?_) (fun single => ?_) true) fun _ => by grind
      · exact inside_bind (by grind) fun _ => inside_ite (by grind) (by grind)
      · exact moves_punct? (by decide) (moves_inr _)
    · refine inside_ite (by grind) (inside_ite (by grind) (inside_ite (by grind) (inside_ite (by grind) ?_)))
      refine inside_ite (by grind) (inside_ite (by grind) (inside_ite (by grind) (inside_ite (by grind) ?_)))
      exact (sharp_expected _).inside

@[grind .]
theorem inside_typeExpr (hg : g.Inside) (plus : Bool) : (typeExpr g plus).Inside := by
  unfold typeExpr
  grind

@[grind .]
theorem inside_generics (hg : g.Inside) : (generics g).Inside := by
  have hparams := inside_genericParamsWith hg (inside_bound hg)
  exact inside_peek_then (by decide) (sharp_isPunct _) (fun _ => by grind) (by grind)

@[grind .]
theorem inside_whereClause (hg : g.Inside) : (whereClause g).Inside := by
  refine inside_bind (by grind) fun _ => inside_ite ?_ (by grind)
  extract_lets stop
  have hstop : stop.Inside := by
    iterate 6 refine inside_bind (by grind) fun _ => ?_
    grind
  clear_value stop
  refine inside_bind (inside_discard (inside_chain hstop (by decide) ?_)) fun _ => by grind
  refine inside_peekSecond sharp_isLifetime (sharp_isPunct _) (fun _ => isGroup_of_isLifetime) (fun _ => rfl)
    fun _ _ => inside_ite ?_ ?_
  · refine inside_bind (by grind) fun _ => inside_bind (by grind) fun _ => ?_
    exact inside_discard (inside_chain hstop (by decide) (by grind))
  · refine inside_bind (by grind) fun _ => inside_bind (by grind) fun _ => inside_bind (by grind) fun _ => ?_
    exact inside_discard (inside_chain hstop (by decide) (by grind))

@[grind .]
theorem inside_patterns (hg : g.Inside) : (patterns g).Inside := by
  have hbar : barAhead.Inside := by
    unfold barAhead
    grind
  refine inside_bind (by grind) fun start => inside_bind (by grind) fun leading => inside_bind hg.pattern fun _ => ?_
  refine inside_bind hbar fun _ => inside_ite ?_ (by grind)
  refine inside_bind (inside_discard (inside_many hbar (by grind) ?_)) fun _ => by grind
  exact bites_then (ends_punct (by decide)).bites

@[grind .]
theorem inside_rangeDots (obsolete : Bool) : (rangeDots obsolete).Inside := by
  unfold rangeDots
  grind

@[grind .]
theorem inside_rangeBound (hg : g.Inside) : (rangeBound g).Inside := by
  iterate 8 refine inside_bind (by grind) fun _ => ?_
  refine inside_ite (by grind) (inside_look (fun now back hnow => ?_) fun now => inside_ite (by grind) ?_)
  · simp [onto_rest, hnow]
  -- a literal, a path, or a block for a constant
  exact inside_ite (by grind) (by grind)

@[grind .]
theorem inside_rangeAfterStart (hg : g.Inside) (start : Span) : (rangeAfterStart g start).Inside := by
  refine inside_bind (by grind) fun ends => inside_bind (by grind) fun bounded => inside_ite ?_ (by grind)
  exact inside_failWith_bind _ _

@[grind .]
theorem inside_pathPattern (hg : g.Inside) : (pathPattern g).Inside := by
  refine inside_bind (by grind) fun start => inside_bind (by grind) fun p => ?_
  refine inside_bind (by grind) fun _ => inside_bind (by grind) fun _ => inside_ite (by grind) ?_
  grind

@[grind .]
theorem inside_namePattern (hg : g.Inside) : (namePattern g).Inside := by
  refine inside_bind (by grind) fun start => inside_bind (by grind) fun _ => inside_bind (by grind) fun _ => ?_
  refine inside_bind (by grind) fun _ => inside_ite ?_ ?_
  all_goals
    refine inside_bind (by grind) fun name => inside_bind (by grind) fun _ => inside_ite (by grind) (by grind)

theorem inside_patternRule (hg : g.Inside) : (patternRule g).Inside := by
  refine inside_bind (by grind) fun start => inside_look (fun now back hnow => ?_) fun now => ?_
  · cases hbrace : isGroup .brace now.rest with
    | true => simp [onto_rest, hnow, hbrace, Parse.pure_bind]
    | false =>
      obtain ⟨hsecond, hskip⟩ := hnow.skipOne hbrace
      simp [onto_rest, hnow, hsecond, hskip, Parse.pure_bind]
  refine inside_bind (by grind) fun goesOn => ?_
  -- a path, an underscore, a box
  refine inside_ite (inside_pathPattern hg) (inside_ite (by grind) (inside_ite (by grind) ?_))
  -- a literal, or a range that starts with one
  refine inside_ite (by grind) (inside_ite (inside_namePattern hg) ?_)
  -- a reference, a tuple, a slice
  refine inside_ite (by grind) (inside_ite (by grind) (inside_ite (by grind) ?_))
  -- a range without a start
  refine inside_ite ?_ (sharp_expected _).inside
  refine inside_bind (by grind) fun ends => inside_bind (by grind) fun bounded => inside_ite (by grind) ?_
  exact inside_ite (by grind) (by grind)

end Inside

/-! ## At a seam -/

/-- The rules of the grammar that may come to a seam.  Operators that are not there leave an operand as it is. -/
structure Grammar.Local (back : List TokenTree) (g : Grammar) : Prop where
  inside : g.Inside
  expr : ∀ allowStruct, (g.expr allowStruct).Local back
  operand : ∀ allowStruct, (g.operand allowStruct).Local back
  climb : ∀ allowStruct first base, (g.climb allowStruct first base).Local back
  idle : ∀ allowStruct first base, (g.climb allowStruct first base).Idle back (g.climb allowStruct first base)
  returns : ∀ allowStruct first base, (g.climb allowStruct first base).Returns first
  type : (g.type false).Local back

section Local

variable {g : Grammar} {b : BoundRules → Parse BoundKind} {back : List TokenTree}

theorem local_resultType (hg : g.Local back) : (resultType g false).Local back :=
  local_after (sharp_punct? _).inside (open_punct? _)
    fun _ => local_ite (local_bind_pure hg.type) (sharp_pure _).local

theorem local_parenthesizedArguments (hg : g.Local back) : (parenthesizedArguments g).Local back := by
  refine local_after (by grind) (by grind) fun _ => local_bind (local_resultType hg) (fun result => ?_)
    fun result => ?_
  · cases result <;> exact (sharp_pure _).local
  · cases result <;> exact idle_pure _

theorem local_boundWith (hg : g.Local back) (hb : ∀ rules, (b rules).Inside) (rules : BoundRules) :
    (boundWith g b rules).Local back := by
  have htail (binder : Bool) (kind : BoundKind) : Parse.Local back (do
      let mark ← here
      let maybe ← punct? "?"
      let binder ← if !binder && maybe then binder? g b else pure binder
      let path ← unqualifiedPath g b false
      if !path.endsInArgs && (← parensAhead) then
        dropColons
        discard (parenthesizedArguments g)
      if binder && maybe then
        wrongAt mark "`for<...>` binder not allowed with `?` trait polarity modifier"
      return kind) := by
    have hbinder := inside_binder? hg.inside hb
    have hpath := inside_unqualifiedPath hg.inside hb false
    refine local_after (by grind) (by grind) fun mark =>
      local_after (by grind) (by grind) fun maybe => local_ite ?_ ?_
    all_goals
      refine local_after (by grind) (by grind) fun binder => local_after hpath (by grind) fun path => ?_
      refine local_after (by grind) (by grind) fun _ => local_ite (local_after (by grind) (by grind) fun _ => ?_) ?_
      · refine local_bind (local_discard (local_parenthesizedArguments hg)) (fun _ => ?_) fun _ => ?_
        · exact local_ite (local_wrongAt_bind _ _ _) (sharp_pure _).local
        · exact idle_ite (idle_wrongAt_bind _ _ _ _) (idle_pure _)
      · exact local_ite (local_wrongAt_bind _ _ _) (sharp_pure _).local
  have hbinder := inside_binder? hg.inside hb
  refine local_after (by grind) (by grind) fun _ => local_ite ?_ ?_
  · refine local_after (by grind) (by grind) fun _ => local_after (by grind) (by grind) fun _ => ?_
    exact local_look (fun _ _ _ => rfl) fun _ => (sharp_pure _).local
  refine local_after (by grind) (by grind) fun _ => local_ite ?_ ?_
  · -- what may be captured stands between angle brackets
    refine local_after (by grind) (by grind) fun start => local_after (by grind) (by grind) fun _ => ?_
    refine local_after (by grind) (by grind) fun _ => local_after ?_ (by grind) fun _ => ?_
    · exact inside_discard (inside_separatedUntil (by grind) (by decide) (by grind))
    refine local_after (by grind) (by grind) fun _ => local_after (by grind) (by grind) fun span => ?_
    exact local_ite (local_look (fun _ _ _ => rfl) fun _ => (sharp_pure _).local) (local_wrongAt_bind _ _ _)
  · refine local_after (by grind) (by grind) fun _ => local_ite (by grind)
      (local_after hbinder (by grind) fun binder => ?_)
    refine local_after (by grind) (by grind) fun _ => local_ite ?_
      (local_after (by grind) (by grind) fun _ => local_ite ?_ ?_)
    · refine local_after (by grind) (by grind) fun _ => local_after (by grind) (by grind) fun _ => ?_
      exact local_ite (htail binder _) (local_wrongAt_bind _ _ _)
    · refine local_after (by grind) (by grind) fun _ => local_after (by grind) (by grind) fun _ => ?_
      exact local_ite (htail binder _) (local_wrongAt_bind _ _ _)
    · exact htail binder _

theorem local_boundFor (hg : g.Local back) (n : Nat) (rules : BoundRules) : (boundFor g n rules).Local back := by
  cases n with
  | zero =>
    unfold boundFor
    exact (sharp_failWith _).local
  | succ n => exact local_boundWith hg (inside_boundFor hg.inside n) rules

theorem local_bound (hg : g.Local back) (rules : BoundRules) : (bound g rules).Local back := by
  intro now after a hnow hrun
  obtain ⟨n, hsame, honto⟩ := run_bound_onto g rules now back
  rw [honto] at hrun
  rw [hsame]
  exact local_boundFor hg n rules now after a hnow hrun

theorem local_bounds (hg : g.Local back) (plus : Bool) (rules : BoundRules) : (bounds g plus rules).Local back := by
  have hbites (kinds : List BoundKind) : Parse.Bites (do
      let read := (← bound g rules) :: kinds
      let more ← if plus then punct? "+" else pure false
      if !more then return .inr read.reverse
      else if ← boundAhead rules.const then return .inl read
      else return .inr read.reverse : Parse (List BoundKind ⊕ List BoundKind)) :=
    bites_then (eager_bound g rules).bites
  refine local_iterate (fun read => ?_) (fun read => idle_of_bites (hbites read))
    (fun read => moves_of_bites (hbites read)) _
  refine local_bind (local_bound hg rules) (fun kind => local_ite ?_ ?_) fun kind => ?_
  · refine local_after (by grind) (by grind) fun more => local_ite (by grind) ?_
    exact local_after (by grind) (by grind) fun _ => local_ite (by grind) (by grind)
  · exact (sharp_pure _).local
  · cases plus with
    | true => exact idle_punct? (by decide) (idle_pure _)
    | false => exact idle_pure _

theorem idle_requireTrait (start : Span) (what : String) (kinds : List BoundKind) :
    (requireTrait start what kinds).Idle back (requireTrait start what kinds) := by
  unfold requireTrait
  exact idle_ite (idle_pure _) (idle_wrongAt _ _)

theorem local_objectBounds (hg : g.Local back) (start : Span) (plus : Bool) :
    (objectBounds g start plus).Local back := by
  refine local_bind (local_bounds hg plus {}) (fun kinds => ?_) fun kinds => ?_
  · exact local_bind_pure (sharp_requireTrait _ _ _).local
  · exact idle_bind (idle_requireTrait _ _ _) fun _ => idle_pure _

theorem local_boundsAfterPlus (hg : g.Local back) : (boundsAfterPlus g).Local back := by
  refine local_discard (local_iterate (fun read => ?_) (fun read => ?_) (fun read => ?_) _)
  · exact local_after (sharp_punct? _).inside (open_punct? _) fun _ =>
      local_ite (local_bind_pure (local_discard (local_bound hg _))) (sharp_pure _).local
  · exact idle_punct? (by decide) (idle_pure _)
  · exact moves_punct? (by decide) (moves_inr _)

theorem local_functionPointer (hg : g.Local back) : (functionPointer g).Local back := by
  have htail (inside : Parse Unit) : Parse.Local back (do
      word "fn"
      group .parenthesis inside
      discard (resultType g false)) :=
    local_after (by grind) (by grind) fun _ =>
      local_after (by grind) (by grind) fun _ => local_discard (local_resultType hg)
  refine local_after (by grind) (by grind) fun _ => local_after (by grind) (by grind) fun _ => local_ite ?_ (htail _)
  refine local_after (by grind) (by grind) fun _ => local_ite ?_ (htail _)
  exact local_after (by grind) (by grind) fun _ => htail _

theorem idle_pathRest (g : Grammar) (b : BoundRules → Parse BoundKind) (inExpr : Bool) (p : Path) :
    (pathRest g b inExpr p).Idle back (pathRest g b inExpr p) := by
  have hcolons {β : Type} (f : Unit → Parse β) : (punct "::" >>= f).Bites := bites_then (ends_punct (by decide)).bites
  refine idle_of_returns (a := p) (returns_iterate ?_ fun p => ?_) fun now hnow => run_iterate_nil ?_
  · refine returns_after (looks_peek _) fun _ => returns_after (looks_peekThird _) fun _ => ?_
    exact returns_ite (returns_of_bites (hcolons _) _) (returns_pure _)
  · exact moves_after fun _ => moves_after fun _ => moves_ite (moves_of_bites (hcolons _)) (moves_inr _)
  · obtain ⟨rest, scope, printed, last, braced, leftover⟩ := now
    obtain rfl : rest = [] := hnow
    rfl

theorem local_pathType (hg : g.Local back) : (pathType g).Local back := by
  have hb (rules : BoundRules) := inside_bound hg.inside rules
  refine local_after (inside_path hg.inside false) (by grind) fun start => ?_
  refine local_iterate (fun p => ?_) (fun p => ?_) (fun p => ?_) start
  · refine local_after (by grind) (by grind) fun _ => local_ite ?_ (by grind)
    refine local_after inside_dropColons open_dropColons fun _ => ?_
    refine local_bind (local_parenthesizedArguments hg) (fun goesOn => local_ite ?_ (sharp_pure _).local)
      fun goesOn => ?_
    · exact local_after (inside_pathRest hg.inside hb false _) (by grind) fun _ => (sharp_pure _).local
    · exact idle_ite (idle_bind (idle_pathRest _ _ _ _) fun _ => idle_pure _) (idle_pure _)
  · refine idle_of_returns (a := .inr p) ?_ fun now hnow => ?_
    · have hlooks : parensAhead.Looks := by
        unfold parensAhead
        grind
      have hbites {β : Type} (f : Bool → Parse β) : (dropColons >>= fun _ => parenthesizedArguments g >>= f).Bites :=
        bites_after fun _ => bites_then (bites_parenthesizedArguments g)
      exact returns_after hlooks fun _ => returns_ite (returns_of_bites (hbites _) _) (returns_pure _)
    · obtain ⟨rest, scope, printed, last, braced, leftover⟩ := now
      obtain rfl : rest = [] := hnow
      change (if (!p.endsInArgs && false) = true then _ else pure (Sum.inr p) : Parse (Path ⊕ Path)).run _ = _
      rw [Bool.and_false]
      rfl
  · exact moves_after fun _ => moves_ite (moves_after fun _ => moves_then (bites_parenthesizedArguments g))
      (moves_inr _)

theorem local_parenType (hg : g.Local back) : (parenType g false).Local back := by
  refine local_after (by grind) (by grind) fun inside => ?_
  split
  · exact local_bind_pure (local_boundsAfterPlus hg)
  · refine local_after (by grind) (by grind) fun _ => local_ite ?_ (by grind)
    exact local_bind_pure (local_boundsAfterPlus hg)

/-- What may follow the path of a type, where no bounds joined by plus signs are allowed. -/
def afterPath (p : Path) (binder : Bool) (single : Parse Bool) : Parse ReadType := do
  if p.qualified then return { form := .other }
  if (← peek (isPunct "!")) && !(← peek (isPunct "!=")) && !p.hasArgs then
    punct "!"
    discard anyGroup
    return { form := .other }
  if binder || (false && (← peek (isPunct "+"))) then
    let single ← if false then single else pure true
    return { form := .other, isBound := single }
  return { form := .named p.last, isPath := true
           isSegment := !p.rooted && p.segments = 1 && !p.endsInParens }

theorem local_afterPath (p : Path) (binder : Bool) (single : Parse Bool) :
    (afterPath p binder single).Local back := by
  refine local_ite (by grind)
    (local_after (by grind) (by grind) fun _ => local_after (by grind) (by grind) fun _ => ?_)
  refine local_ite ?_ (local_after (by grind) (by grind) fun _ => local_ite ?_ (by grind))
  · exact local_after (by grind) (by grind) fun _ => local_bind_pure (local_discard sharp_anyGroup.local)
  · exact (sharp_pure _).local

theorem idle_afterPath (p : Path) (binder : Bool) (single : Parse Bool) :
    (afterPath p binder single).Idle back (afterPath p binder single) := by
  refine idle_ite (idle_pure _) (idle_peek fun exclaims => idle_peek fun differs => ?_)
  rw [isPunct_nil (by decide)]
  refine idle_ite_left (idle_of_bites (bites_then (ends_punct (by decide)).bites)) ?_
  exact idle_peek fun _ => idle_ite (idle_pure _) (idle_pure _)

theorem local_typeRule (hg : g.Local back) : (typeRule g false).Local back := by
  have hb (rules : BoundRules) := inside_bound hg.inside rules
  -- only some types may come after a binder
  refine local_after (inside_binder? hg.inside hb) (by grind) fun binder => ?_
  refine local_ite (local_look (fun now back hnow => ?_) fun now => local_ite (local_expected_bind _ _) ?_) ?_
  · simp [onto_rest, hnow]
  all_goals
    refine local_look (fun now back hnow => ?_) fun now => ?_
    · simp [onto_rest, hnow]
    refine local_ite (local_parenType hg) (local_ite (local_bind_pure (local_functionPointer hg)) (local_ite ?_ ?_))
    · exact local_bind (local_pathType hg) (fun p => local_afterPath p binder _) fun p => idle_afterPath p binder _
    refine local_ite ?_ (local_ite (local_bind_pure (sharp_group _ _).local) (local_ite ?_ (local_ite ?_ ?_)))
    · -- an object type
      refine local_after (by grind) (by grind) fun _ => local_after (by grind) (by grind) fun _ => ?_
      exact local_after (by grind) (by grind) fun _ => local_bind_pure (local_discard (local_objectBounds hg _ _))
    · -- a pointer
      have hpointee : (discard (g.type false) >>= fun _ => pure { form := .other } : Parse ReadType).Local back :=
        local_bind_pure (local_discard hg.type)
      refine local_after (by grind) (by grind) fun _ => local_after (by grind) (by grind) fun _ => ?_
      refine local_ite hpointee (local_after (by grind) (by grind) fun _ => ?_)
      exact local_ite hpointee (local_expected_bind _ _)
    · -- a reference
      refine local_after (by grind) (by grind) fun _ => local_after (by grind) (by grind) fun _ => ?_
      exact local_after (by grind) (by grind) fun _ => local_bind_pure hg.type
    refine local_ite (local_bind_pure (sharp_punct _).local) (local_ite ?_ (local_ite ?_ (local_ite ?_ ?_)))
    · -- bounds that stand for a type
      refine local_after (by grind) (by grind) fun start => local_after (by grind) (by grind) fun _ => ?_
      refine local_bind (local_bounds hg _ _) (fun kinds => local_bind_pure (by grind)) fun kinds => ?_
      exact idle_bind (idle_requireTrait _ _ _) fun _ => idle_pure _
    · exact local_bind_pure sharp_underscore.local
    · exact local_after (by grind) (by grind) fun start => local_bind_pure (local_objectBounds hg start true)
    · exact (sharp_expected _).local

theorem local_typeExpr (hg : g.Local back) : (typeExpr g false).Local back :=
  local_bind (local_withSpan (local_withText hg.type)) (fun _ => (sharp_pure _).local) fun _ => idle_pure _

end Local

end Notebook.Syntax

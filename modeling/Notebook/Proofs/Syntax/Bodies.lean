import Notebook.Proofs.Syntax.Apart
import Notebook.Proofs.Syntax.Expressions

/-!
# Statements are no deeper than their tokens

Whatever a grammar of any depth reads as a statement holds expressions that are no deeper than the tokens
they have been read from (`Grammar.sound_grammar`), and so does a text (`within_of_parse`).
-/

namespace Notebook.Syntax
open Notebook.Text

section Rules

variable {g : Grammar}

/-! ## Statements -/

theorem takes_freeRule (hg : g.Sound) : (freeRule g).Takes Sound := by
  refine .soundBehind (by grind) fun _ => .skip still_here fun start => .skip still_input fun now => ?_
  refine .skip (still_ahead? _) fun generic => ?_
  have hchoice {c : Prop} [Decidable c] {q : Parse Expr} {others : Option (Parse Expr)}
      (hq : q.Takes Sound) (hothers : ∀ p, others = some p → p.Takes Sound) :
      ∀ p, (if c then some q else others) = some p → p.Takes Sound := by
    intro p hp
    split at hp
    · exact Option.some.inj hp ▸ hq
    · exact hothers p hp
  extract_lets special
  have hspecial : ∀ p, special = some p → p.Takes Sound := by
    refine hchoice (takes_ifExpr hg) (hchoice (takes_whileExpr hg start) (hchoice (takes_forExpr hg start) ?_))
    refine hchoice (takes_loopExpr hg start) (hchoice (takes_matchExpr hg) (hchoice (takes_markedBlock hg _ _ _) ?_))
    refine hchoice (takes_markedBlock hg _ _ _) (hchoice (takes_markedBlock hg _ _ _) ?_)
    refine hchoice (takes_blockExpr hg start) (hchoice (takes_labeled hg) fun p hp => ?_)
    cases hp
  clear_value special
  cases special with
  | none => exact hg.expr true
  | some p =>
    refine (hspecial p rfl).bind fun e u he => .skip still_input fun after => .ite ?_ ?_
    · refine (takes_trailers hg e).bind fun e' v he' => (hg.climb true e' .jump).mono fun e'' w he'' => ?_
      exact (he'.trans he'').sound u he
    · exact .pure (by rwa [List.append_nil])

/-- What reads a statement takes all that the statement holds. -/
def Parse.Holds (p : Parse Stmt) : Prop := p.Takes fun s u => s.Within u

theorem Parse.Holds.after {α : Type} {p : Parse α} {f : α → Parse Stmt} (hf : ∀ a, (f a).Holds) :
    (p >>= f).Holds :=
  (Parse.Takes.any p).bind fun _ u _ => (hf _).mono fun _ v hs => hs.mono (List.suffix_append u v).isInfix

theorem holds_nothing {p : Parse Stmt} (hp : p.Takes fun s _ => s.exprs = []) : p.Holds :=
  hp.mono fun _ _ hs _ he => absurd (hs ▸ he) List.not_mem_nil

/-- An expression has been read, and it is what the statement holds. -/
theorem holds_behind {e : Expr} {u : List TokenTree} {p : Parse Stmt} (he : Sound e u)
    (hp : p.Takes fun s _ => s.exprs = [e]) : p.Takes fun s v => s.Within (u ++ v) := by
  refine hp.mono fun s v hs c hc => ?_
  rw [hs] at hc
  cases List.mem_singleton.1 hc
  exact he.held (List.prefix_append u v).isInfix

theorem takes_letStmt (hg : g.Sound) (start : Span) : (letStmt g start).Holds := by
  refine .after fun keyword => .after fun _ => .after fun p => ?_
  have hend (pattern : Pattern) (value : Option Expr) : Parse.Takes (do
      punct ";"
      return Stmt.bind pattern value keyword (← spanFrom start)) fun s _ => s.exprs = value.toList :=
    .after fun _ => .after fun _ => .pure rfl
  have hvalue (pattern : Pattern) : Parse.Holds (do
      let value ← if ← punct? "=" then
          let e ← g.expr true
          if !(← input).braced then
            if ← word? "else" then discard (block g)
          pure (some e)
        else pure none
      punct ";"
      return .bind pattern value keyword (← spanFrom start)) := by
    refine .after fun _ => Parse.Takes.ite ?_ (holds_nothing (.pure_bind (hend pattern none)))
    refine (hg.expr true).bind fun e u he => holds_behind he ?_
    -- with a value there may be a block for the case that the pattern does not match
    refine .after fun now => .ite (.after fun _ => .ite (.after fun _ => ?_) ?_) ?_
    all_goals exact .pure_bind (hend pattern (some e))
  refine .after fun _ => ?_
  split
  · exact .after fun type => .pure_bind (hvalue _)
  · exact .pure_bind (hvalue _)

theorem takes_macroStmt (hg : g.Sound) (start : Span) : (macroStmt g start).Holds := by
  refine .after fun read => (takes_macroCall hg _ _).bind fun call u hcall => ?_
  have hsound (span : Span) : Sound (.invocation call span) u := sound_around rfl hcall
  refine .skip (still_spanFrom _) fun span => holds_behind (hsound span) ?_
  exact .after fun _ => .after fun _ => .pure rfl

theorem takes_exprStmt (hg : g.Sound) (start : Span) : (exprStmt g start).Holds := by
  refine (takes_freeRule hg).bind fun e u he => ?_
  have he' : Sound (if start.start = e.span.start then e else e.extendLeft start.start) u := by
    split
    · exact he
    · exact sound_congr (fun p => (Expr.hasPath_extendLeft start.start e p).1) he
  exact holds_behind he' (.after fun _ => .after fun _ => .pure rfl)

/-! ## Items -/

/-- What reads an item takes all that the item holds. -/
def Parse.HoldsItem (p : Parse Item) : Prop := p.Takes fun i u => ∀ e ∈ i.exprs, Held e u

theorem Parse.HoldsItem.after {α : Type} {p : Parse α} {f : α → Parse Item} (hf : ∀ a, (f a).HoldsItem) :
    (p >>= f).HoldsItem := .over hf

theorem Parse.HoldsItem.ite {c : Prop} [Decidable c] {p q : Parse Item} (hp : p.HoldsItem)
    (hq : q.HoldsItem) : (if c then p else q).HoldsItem := Parse.Takes.ite hp hq

theorem holdsItem_nothing {p : Parse Item} (hp : p.Takes fun i _ => i.exprs = []) : p.HoldsItem :=
  hp.mono fun _ _ hi _ he => absurd (hi ▸ he) List.not_mem_nil

theorem Held.group {e : Expr} {body : List TokenTree} (he : Held e body) (d : Delimiter) (s : Span) :
    Held e [.group d body s] := by
  obtain ⟨part, hpart, hneat, hdeep⟩ := he
  exact ⟨_, List.infix_refl _, neat_of_group d body s, fun p hp =>
    (hdeep p hp).trans (deep_lt_reach hpart hneat).le⟩

theorem takes_functionBody (hg : g.Sound) :
    (functionBody g).Takes fun read u => ∀ e ∈ read.2.exprs, Held e u := by
  have hinside : Parse.Takes (do
      let docs ← innerAttributes g
      return (docs, ← g.stmts)) fun read u => ∀ e ∈ Stmt.exprsAll read.2, Held e u :=
    .over fun docs => .last (takes_stmts hg)
  refine .last ((takes_withSpan (takes_group .brace hinside)).mono fun read u hread e he => ?_)
  obtain ⟨v, w, s, hu, hheld⟩ := hread
  rw [show u = _ from hu]
  exact ((hheld e he).mono (List.prefix_append v w).isInfix).group .brace s

/-- The value has been read, if there is one, and it is all that the item may hold. -/
theorem holdsItem_behind {value : Option Expr} {u : List TokenTree} {p : Parse Item} (hvalue : End value u)
    (hp : p.Takes fun i _ => ∀ e ∈ i.exprs, value = some e) : p.Takes fun i v => ∀ e ∈ i.exprs, Held e (u ++ v) := by
  refine hp.mono fun i v hi e he => ?_
  rw [hi e he] at hvalue
  exact Sound.held hvalue (List.prefix_append u v).isInfix

theorem takes_constantItem (hg : g.Sound) : (constantItem g).HoldsItem := by
  refine .after fun _ => .after fun _ => .after fun _ => ?_
  -- the name is a word, or there is none and the reading fails
  refine .ite (.after fun name => ?_) (.after fun name => ?_)
  all_goals
    refine .after fun parameters => .after fun _ => .after fun _ => .after fun type => .after fun _ => ?_
    refine .ite ?_ (.pure_bind (holdsItem_nothing (.after fun _ => .after fun _ => .pure rfl)))
    have hsome : (some <$> g.expr true).Takes End := .map (hg.expr true)
    refine hsome.bind fun value u hu => holdsItem_behind hu (.after fun conditions => .after fun _ => ?_)
    cases value with
    | none => exact .pure fun c hc => absurd hc List.not_mem_nil
    | some e =>
      refine .pure fun c hc => ?_
      split at hc
      · exact absurd hc List.not_mem_nil
      · rw [List.mem_singleton.1 hc]

theorem takes_importItem (g : Grammar) : (importItem g).HoldsItem := by
  refine holdsItem_nothing (.after fun _ => .after fun _ => .after fun _ => .after fun read => .after fun _ => ?_)
  refine .pure ?_
  split <;> rfl

theorem takes_itemRest (hg : g.Sound) (docs : List (List Char)) : (itemRest g docs).HoldsItem := by
  refine .after fun visible => .after fun now => .after fun _ => ?_
  have hother (p : Parse Unit) : Parse.HoldsItem (do p; return .other) :=
    holdsItem_nothing (.after fun _ => .pure rfl)
  refine .ite (.after fun header => .after fun _ => .ite (holdsItem_nothing (.pure rfl)) ?_) ?_
  · -- a function
    exact .last (takes_functionBody hg)
  refine .ite (hother _) (.ite (takes_importItem g) (.ite (hother _) (.ite (takes_constantItem hg) (.ite ?_ ?_))))
  · -- what starts with the word `unsafe` and is no function
    refine .ite (hother _) (.ite (hother _) (.ite (hother _) (.ite (hother _) (.after fun _ => ?_))))
    exact Parse.Takes.failWith _
  refine .ite (hother _) (.ite (hother _) (.ite (.after fun d => ?_) (.ite (hother _) (.ite (hother _) ?_))))
  · exact holdsItem_nothing (.pure rfl)
  refine .ite (hother _) (.ite (hother _) (.ite (hother _) (.ite (hother _) (.ite (hother _) ?_))))
  exact Parse.Takes.failWith _

/-! ## The grammar -/

theorem takes_statement (hg : g.Sound) : (statement g).Holds := by
  refine .after fun start => .after fun docs => .after fun kind => ?_
  have hrest (kind : MacroStart) : Parse.Holds (do
      let rest := (← input).rest
      if isWord "let" rest then letStmt g start
      else if itemAhead rest || kind = .item then
        let value ← itemRest g docs
        return .item value (← spanFrom start)
      else exprStmt g start) := by
    refine .after fun now => Parse.Takes.ite (takes_letStmt hg start) (.ite ?_ (takes_exprStmt hg start))
    exact .spanned ((takes_itemRest hg docs).mono fun i u hi _ => hi)
  cases kind with
  | braces => exact takes_macroStmt hg start
  | item => exact hrest .item
  | none => exact hrest .none

theorem takes_stmtsRule (hg : g.Sound) : (stmtsRule g).Takes fun ss u => ∀ s ∈ ss, s.Within u := by
  refine .iterate (J := fun read u => ∀ s ∈ read, s.Within u) (fun _ h => absurd h List.not_mem_nil)
    fun read u hread => ?_
  have hkeep {v : List TokenTree} : ∀ s ∈ read, s.Within (u ++ v) := fun s hs =>
    (hread s hs).mono (List.prefix_append u v).isInfix
  have hreverse {ss : List Stmt} {v : List TokenTree} (h : ∀ s ∈ ss, s.Within v) : ∀ s ∈ ss.reverse, s.Within v :=
    fun s hs => h s (List.mem_reverse.1 hs)
  refine .skip still_here fun start => .ifPunct (fun v _ => .pure ?_) ?_
  · -- a semicolon by itself
    refine List.forall_mem_cons.2 ⟨fun e he => ?_, hkeep⟩
    have hempty : Sound e [] := sound_childless (by rw [List.mem_singleton.1 he]; rfl) neat_nil
    exact hempty.held List.nil_infix
  refine .skip still_atEnd fun _ => .ite (.pure (hreverse hkeep)) ?_
  refine (takes_statement hg).afresh.bind fun s v hs => .skip still_atEnd fun _ => ?_
  have hcons : ∀ t ∈ s :: read, t.Within (u ++ v) :=
    List.forall_mem_cons.2 ⟨hs.mono (List.suffix_append u v).isInfix, hkeep⟩
  refine .ite (.pure ?_) (.ite (.failWith _) (.pure ?_))
  · rw [List.append_nil]
    exact hreverse hcons
  · rwa [List.append_nil]

end Rules

/-- Whatever a grammar reads as an expression is no deeper than its tokens. -/
theorem Grammar.sound_grammar (n : Nat) : (grammar n).Sound := by
  induction n with
  | zero =>
    have hfail {α : Type} {Φ : α → List TokenTree → Prop} :
        (failWith fun _ => .unexpected none : Parse α).Takes Φ := .failWith _
    exact ⟨Grammar.neat_grammar 0, fun _ => hfail, fun _ => hfail, fun _ _ _ => hfail, hfail⟩
  | succ n ih =>
    exact ⟨Grammar.neat_grammar (n + 1), takes_exprRule ih, takes_operandRule ih, takes_climbRule ih,
      takes_stmtsRule ih⟩

/-! ## Texts -/

theorem flatten_parts (trees : List TokenTree) : (parts trees).flatten = trees.map TokenTree.settle := by
  induction trees with
  | nil => rfl
  | cons t trees ih =>
    rw [List.map_cons, ← ih]
    by_cases ht : ∃ joint s, t = .punct ';' joint s
    · obtain ⟨joint, s, rfl⟩ := ht
      rw [parts_semicolon, settle_semicolon, List.flatten_cons, List.singleton_append]
    · have ht : ∀ joint s, t ≠ .punct ';' joint s := fun joint s h => ht ⟨joint, s, h⟩
      rw [parts_cons ht, settle_of_ne ht]
      split
      · rename_i hparts
        rw [hparts]
        rfl
      · rename_i first others hparts
        rw [hparts]
        rfl

/-- Only the semicolon of a part is not as it stands in the trees. -/
theorem infix_of_mem_parts {trees part us : List TokenTree} (hpart : part ∈ parts trees) (hus : ';' ∉ signs us)
    (h : us <:+: part) : us <:+: trees := by
  have hsettled : us <:+: trees.map TokenTree.settle :=
    flatten_parts trees ▸ h.trans (List.infix_of_mem_flatten hpart)
  obtain ⟨vs, hvs, rfl⟩ := List.infix_map_iff.1 hsettled
  have hkept : vs.map TokenTree.settle = vs.map id := by
    refine List.map_congr_left fun t ht => settle_of_ne fun joint s heq => hus ?_
    subst heq
    exact List.mem_filterMap.2 ⟨_, List.mem_map_of_mem ht, by rw [settle_semicolon]; rfl⟩
  rwa [hkept, List.map_id]

theorem Held.of_part {e : Expr} {trees part : List TokenTree} (he : Held e part) (hpart : part ∈ parts trees) :
    Held e trees := by
  obtain ⟨us, hus, hneat, hdeep⟩ := he
  exact ⟨us, infix_of_mem_parts hpart hneat.semicolon hus, hneat, hdeep⟩

theorem within_of_readPart {part : List TokenTree} {stmts : List Stmt} {leftover : Option ParseError}
    (h : readPart part = .ok (stmts, leftover)) : ∀ s ∈ stmts, s.Within part := by
  obtain ⟨after, hrun, -⟩ := readPart_eq_ok.1 h
  obtain ⟨used, hused⟩ := (grammar (depthFor part)).stmts.suffix hrun
  have hwithin : ∀ s ∈ stmts, s.Within used :=
    (Grammar.sound_grammar _).stmts _ after stmts used hrun hused.symm
  exact fun s hs => (hwithin s hs).mono ⟨[], after.rest, hused⟩

/-- What the statements of a text hold is held by its tokens. -/
theorem within_of_parse {cs : List Char} {trees : List TokenTree} {stmts : List Stmt} (hlex : lex cs = .ok trees)
    (h : parse cs = .ok stmts) : ∀ s ∈ stmts, s.Within trees := by
  have hread : readStmts trees = .ok stmts := by rw [← h, parse, hlex]; rfl
  obtain ⟨each, heach, rfl⟩ := readStmts_eq_ok.1 hread
  intro s hs e he
  obtain ⟨ss, hss, hs⟩ := List.mem_flatten.1 hs
  have hpart : .ok (ss, none) ∈ (parts trees).map readPart := heach ▸ List.mem_map_of_mem hss
  obtain ⟨part, hpart, hread⟩ := List.mem_map.1 hpart
  exact (within_of_readPart hread s hs e he).of_part hpart

end Notebook.Syntax

import Notebook.Proofs.Syntax.Depth
import Notebook.Proofs.Syntax.Neatness

/-!
# Expressions are no deeper than their tokens

If the rules of a grammar read expressions that are no deeper than their tokens (`Grammar.Sound`), so do the
rules for operands (`takes_operandRule`) and for operators between them (`takes_climbRule`) that are built on
it: none adds more to a path than its own tokens add to the levels.
-/

namespace Notebook.Syntax
open Notebook.Text

/-! ## Readers -/

/-- Operators take no separator, and at least one sign. -/
def IsOperator (s : String) : Prop := s.toList ≠ [] ∧ s.toList.all (· ∉ [',', ';', '\x27']) = true

instance (s : String) : Decidable (IsOperator s) := inferInstanceAs (Decidable (_ ∧ _))

theorem raises_of_signs {s : String} (hs : IsOperator s) {u : List TokenTree} (hu : signs u = s.toList) :
    Raises u := by
  obtain ⟨hne, hs⟩ := hs
  rw [← hu] at hne hs
  have hs (c : Char) (hc : c ∈ signs u) : c ∉ [',', ';', '\x27'] := of_decide_eq_true (List.all_eq_true.1 hs c hc)
  obtain ⟨c, hc⟩ := List.exists_mem_of_ne_nil _ hne
  have hneat : Neat u := neat_of_signs (fun h => hs _ h (by simp)) fun h => hs _ h (by simp)
  exact ⟨hneat, ops_pos_of_sign hc (hs c hc)⟩

theorem takes_operator {s : String} (hs : IsOperator s) : (punct s).Takes fun _ u => Raises u :=
  (takes_punct s).mono fun _ _ => raises_of_signs hs

theorem raises_word {w : String} (hw : w ∈ TokenTree.levelWords) (s : Span) : Raises [.word w s] := by
  refine ⟨neat_of_word w s, ?_⟩
  simp [ops, TokenTree.weight, hw]

theorem takes_keyword {w : String} (hw : w ∈ TokenTree.levelWords) : (word w).Takes fun _ u => Raises u := by
  refine (takes_word w).mono fun _ u h => ?_
  obtain ⟨s, rfl⟩ := h
  exact raises_word hw s

/-- What a statement holds is held by the tokens it has been read from. -/
def Stmt.Within (s : Stmt) (u : List TokenTree) : Prop := ∀ e ∈ s.exprs, Held e u

theorem Stmt.Within.mono {s : Stmt} {u v : List TokenTree} (hs : s.Within u) (h : u <:+: v) : s.Within v :=
  fun e he => (hs e he).mono h

/-- The rules of a grammar read expressions that are no deeper than their tokens. -/
structure Grammar.Sound (g : Grammar) : Prop where
  types : g.Neat
  expr : ∀ allowStruct, (g.expr allowStruct).Takes Syntax.Sound
  operand : ∀ allowStruct, (g.operand allowStruct).Takes Syntax.Sound
  climb : ∀ allowStruct e p, (g.climb allowStruct e p).Takes (Extends e)
  stmts : g.stmts.Takes fun ss u => ∀ s ∈ ss, s.Within u

section Rules

variable {g : Grammar}

@[grind →]
theorem Grammar.Sound.neat (hg : g.Sound) : g.Neat := hg.types

@[grind .]
theorem Grammar.Sound.neat_expr (hg : g.Sound) (allowStruct : Bool) : (g.expr allowStruct).Neatly :=
  (hg.expr allowStruct).mono fun _ _ he => he.neat

@[grind .]
theorem Grammar.Sound.neat_operand (hg : g.Sound) (allowStruct : Bool) : (g.operand allowStruct).Neatly :=
  (hg.operand allowStruct).mono fun _ _ he => he.neat

@[grind .]
theorem Grammar.Sound.neat_climb (hg : g.Sound) (allowStruct : Bool) (e : Expr) (p : Precedence) :
    (g.climb allowStruct e p).Neatly :=
  (hg.climb allowStruct e p).mono fun _ _ he => he.neat

/-! ## Operators -/

theorem takes_iterate_extends {step : Expr → Parse (Expr ⊕ Expr)}
    (hstep : ∀ e, (step e).Takes fun next v => next.elim (Extends e · v) (Extends e · v)) (e : Expr) :
    (iterate e step).Takes (Extends e) := by
  refine .iterate (J := fun e' u => Extends e e' u) (extends_refl e) fun e' u he => ?_
  refine (hstep e').mono fun next v hnext => ?_
  cases next <;> exact he.trans hnext

theorem takes_rightSide (hg : g.Sound) (allowStruct : Bool) (p : Precedence) :
    (rightSide g allowStruct p).Takes Sound := by
  refine (hg.operand allowStruct).bind fun first u hfirst => ?_
  refine (takes_iterate_extends (fun e => ?_) first).mono fun e v he => he.sound u hfirst
  refine .skip still_input fun now => .ite ?_ (.pure (extends_refl e))
  refine (hg.climb allowStruct e _).bind fun e' v he => .skip still_input fun after => .ite ?_ ?_
  · exact .pure (by rwa [List.append_nil])
  · exact .pure (by rwa [List.append_nil])

theorem takes_rangeLimits : rangeLimits.Takes fun _ u => Raises u := by
  have hdots (limits : Bool × Span) {s : String} (hs : IsOperator s) (u : List TokenTree)
      (hu : signs u = s.toList) : (do return (limits.1, ← spanFrom limits.2) : Parse (Bool × Span)).Takes
        fun _ v => Raises (u ++ v) := by
    refine .skip (still_spanFrom _) fun _ => .pure ?_
    rw [List.append_nil]
    exact raises_of_signs hs hu
  have hrange : (rangeDots false).Takes fun _ u => Raises u := by
    refine .skip still_here fun start => .ifPunct (hdots (true, start) (by decide)) ?_
    refine .skip (still_peek _) fun _ => .ite (.failWith _) ?_
    exact .ifPunct (hdots (false, start) (by decide)) (.failWith _)
  exact hrange.bind fun limits u hu => .pure (by rwa [List.append_nil])

/-- The end of a range, or no end. -/
def End (last : Option Expr) (u : List TokenTree) : Prop :=
  match last with
  | none => Neat u
  | some e => Sound e u

theorem sound_getD {e : Option Expr} {u : List TokenTree} (h : End e u) : Sound (e.getD default) u := by
  cases e with
  | none => exact sound_childless rfl h
  | some e => exact h

/-- A keyword or an operator, and an expression behind it if there is one. -/
theorem sound_end {e : Expr} {last : Option Expr} {u v : List TokenTree}
    (he : e.children = last.toList.map (.right, ·)) (hu : Raises u) (hlast : End last v) : Sound e (u ++ v) := by
  cases last with
  | none => exact sound_childless he (hu.neat.append hlast)
  | some r => exact sound_unary he hu hlast

theorem takes_rangeEnd (hg : g.Sound) (closed allowStruct : Bool) :
    (rangeEnd g closed allowStruct).Takes End := by
  exact .skip still_input fun now => .ite (.pure neat_nil) (.last (takes_rightSide hg allowStruct .range))

theorem operators_isOperator : ∀ o ∈ operators, IsOperator o.text := by decide

theorem still_checkAfterCast : checkAfterCast.Still := by
  have hwrong (what : String) : (wrong what : Parse Unit).Still := .failWith _
  refine .skip still_input fun now => .ite ?_ (.ite (hwrong _) (.ite (hwrong _) ?_))
  · refine .skip (still_peekSecond _) fun _ => .ite (hwrong _) (.skip (still_peekSecond _) fun _ => ?_)
    refine .skip (still_peekThird _) fun _ => .skip (still_peekThird _) fun _ => ?_
    exact .ite (hwrong _) (hwrong _)
  · exact .ite (hwrong _) (.pure rfl)

theorem takes_climbRule (hg : g.Sound) (allowStruct : Bool) (first : Expr) (base : Precedence) :
    (climbRule g allowStruct first base).Takes (Extends first) := by
  refine takes_iterate_extends (fun left => ?_) first
  refine .skip still_input fun now => .ite (.pure (extends_refl left)) ?_
  split
  · rename_i o ho
    have hoperator := operators_isOperator o (List.mem_of_find?_eq_some ho)
    refine .ite (.pure (extends_refl left)) ?_
    have hbinary : Parse.Takes (do
        punct o.text
        let right ← rightSide g allowStruct o.precedence
        let span := left.span.upTo right.span
        return .inl (if o.assigns then .compound o.op left right span else .binary o.op left right span))
          fun next v => Sum.elim (Extends left · v) (Extends left · v) next := by
      refine (takes_operator hoperator).bind fun _ u hu => .last ?_
      refine (takes_rightSide hg allowStruct _).mono fun right v hright => extends_binary ?_ hu hright
      split <;> rfl
    exact .ite (.failWith_bind _ _) hbinary
  · refine .ite ?_ (.ite ?_ (.ite ?_ (.pure (extends_refl left))))
    · -- a plain equals sign
      refine (takes_operator (by decide)).bind fun _ u hu => .last ?_
      exact (takes_rightSide hg allowStruct _).mono fun right v hright => extends_binary rfl hu hright
    · -- the dots of a range
      refine takes_rangeLimits.bind fun closed u hu => .spanned ?_
      refine (takes_rangeEnd hg closed allowStruct).mono fun last v hlast span => ?_
      cases last with
      | none =>
        refine extends_left ?_ hu (around_nil hlast)
        rfl
      | some e => exact extends_binary rfl hu hlast
    · -- a cast
      refine (takes_keyword (by decide)).bind fun _ u hu => ?_
      refine (neat_typeExpr hg.types false).bind fun type v hv => .skip still_checkAfterCast fun _ => ?_
      refine .skip (still_spanFrom _) fun span => .pure ?_
      rw [List.append_nil]
      refine extends_left ?_ hu (around_nil hv)
      rfl

/-! ## What trails an operand -/

/-- What is read inside brackets has them around. -/
theorem takes_around {α : Type} {d : Delimiter} {p : Parse α} {cs : α → List Expr}
    (hp : p.Takes fun a u => ∀ c ∈ cs a, Held c u) : (group d p).Takes fun a u => Around (cs a) u := by
  refine (takes_group d hp).mono fun a u h => ?_
  obtain ⟨v, w, s, rfl, hcs⟩ := h
  exact ⟨neat_of_group .., fun c hc => ((hcs c hc).mono (List.prefix_append v w).isInfix).inside d s⟩

theorem takes_commaSeparated (hg : g.Sound) :
    (commaSeparated (g.expr true)).Takes fun es u => ∀ e ∈ es, Held e u :=
  takes_separatedUntil (fun _ _ _ huv he => he.mono huv) <|
    (hg.expr true).mono fun _ u he => he.held (List.infix_refl u)

theorem takes_arguments (hg : g.Sound) : (arguments g).Takes Around :=
  takes_around (takes_commaSeparated hg)

/-- What comes first takes no separator, and what has been said of the rest goes on to hold. -/
theorem Parse.Takes.behind {α β : Type} {Ω : β → List TokenTree → Prop} {p : Parse α} {f : α → Parse β}
    (hmono : ∀ b u v, Neat u → Ω b v → Ω b (u ++ v)) (hp : p.Neatly) (hf : ∀ a, (f a).Takes Ω) :
    (p >>= f).Takes Ω :=
  hp.bind fun a u hu => (hf a).mono fun b v hv => hmono b u v hu hv

/-- Behind an operator, the tokens make another expression of one. -/
def Trails (e e' : Expr) (v : List TokenTree) : Prop := ∀ u, Raises u → Extends e e' (u ++ v)

theorem Trails.behind {e e' : Expr} {u v : List TokenTree} (hu : Neat u) (h : Trails e e' v) :
    Trails e e' (u ++ v) := by
  intro t ht
  rw [← List.append_assoc]
  exact h (t ++ u) (ht.before hu)

theorem trails_childless {e e' : Expr} (he : e'.children = []) : Trails e e' [] :=
  fun _ hu => extends_childless he (hu.neat.append neat_nil)

@[grind .]
theorem neat_checkIndex (text : List Char) (s : Span) : (checkIndex text s).Neatly := by
  unfold checkIndex
  grind

@[grind .]
theorem neat_fieldNumber? : fieldNumber?.Neatly := by
  refine neat_bind neat_input fun now => ?_
  split
  · refine neat_ite ?_ (neat_pure _)
    split
    · refine neat_bind (by grind) fun _ => neat_bind (neat_forIn fun part _ => ?_) fun _ => neat_pure _
      exact neat_bind (neat_checkIndex _ _) fun _ => neat_pure _
    · exact neat_pure _
  · exact neat_pure _

@[grind .]
theorem neat_member : member.Neatly := by
  unfold member
  grind

theorem takes_afterPoint (hg : g.Sound) (e : Expr) : (afterPoint g e).Takes (Trails e) := by
  have hother : Parse.Takes (do return .other false (← spanFrom e.span)) (Trails e) :=
    .skip (still_spanFrom _) fun _ => .pure (trails_childless rfl)
  have hmono (e' : Expr) (u v : List TokenTree) : Neat u → Trails e e' v → Trails e e' (u ++ v) :=
    Trails.behind
  have hcall (name : Ident) : Parse.Takes (do
      let args ← arguments g
      return .method e name args (← spanFrom e.span)) (Trails e) :=
    .spanned ((takes_arguments hg).mono fun args v hargs span u hu => extends_left rfl hu hargs)
  refine .behind hmono neat_fieldNumber? fun number => ?_
  split
  · exact hother
  · refine .behind hmono (neat_word? _) fun _ => .ite hother (.behind hmono neat_member fun found => ?_)
    split
    · rename_i name
      refine .skip (still_peek _) fun _ => .ite ?_ (.skip (still_peek _) fun _ => .ite (hcall name) hother)
      refine .behind hmono (neat_punct (by decide)) fun _ => .behind hmono (by grind) fun _ => ?_
      exact .skip (still_peek _) fun _ => .ite (hcall name) hother
    · exact hother

theorem takes_trailers (hg : g.Sound) (e : Expr) : (trailers g e).Takes (Extends e) := by
  refine takes_iterate_extends (fun e => ?_) e
  refine .skip still_input fun now => .ite ?_ (.ite ?_ (.ite ?_ (.ite ?_ (.pure (extends_refl e)))))
  · -- a call
    exact .spanned ((takes_arguments hg).mono fun args u hargs span => extends_front rfl hargs)
  · -- a member
    refine (takes_operator (by decide)).bind fun _ u hu => .last ?_
    exact (takes_afterPoint hg e).mono fun e' v he => he u hu
  · -- an index
    have hposition : (g.expr true).Takes fun p u => ∀ c ∈ [p], Held c u :=
      (hg.expr true).mono fun p u hp c hc => List.mem_singleton.1 hc ▸ hp.held (List.infix_refl u)
    exact .spanned ((takes_around hposition).mono fun p u hp span => extends_front rfl hp)
  · -- a question mark
    exact .spanned ((takes_operator (by decide)).mono fun _ u hu span => extends_childless rfl hu.neat)

/-! ## Blocks -/

/-- What comes first does not matter for what is held. -/
theorem Parse.Takes.over {α β : Type} {cs : β → List Expr} {p : Parse α} {f : α → Parse β}
    (hf : ∀ a, (f a).Takes fun b v => ∀ c ∈ cs b, Held c v) :
    (p >>= f).Takes fun b v => ∀ c ∈ cs b, Held c v := by
  refine (Parse.Takes.any p).bind fun a u _ => (hf a).mono fun b v hb c hc => ?_
  exact (hb c hc).mono (List.suffix_append u v).isInfix

theorem takes_stmts (hg : g.Sound) : g.stmts.Takes fun ss u => ∀ e ∈ Stmt.exprsAll ss, Held e u := by
  refine hg.stmts.mono fun ss u h e he => ?_
  obtain ⟨s, hs, he⟩ := Stmt.mem_exprsAll.1 he
  exact h s hs e he

theorem takes_blockWith (hg : g.Sound) (inner : Bool) : (blockWith g inner).Takes fun b u => Around b.exprs u := by
  have hstmts : Parse.Takes (do
      if inner then discard (innerAttributes g)
      g.stmts) fun ss u => ∀ e ∈ Stmt.exprsAll ss, Held e u :=
    .ite (.over fun _ => takes_stmts hg) (takes_stmts hg)
  exact .last (takes_withSpan (takes_around hstmts))

theorem takes_block (hg : g.Sound) : (block g).Takes fun b u => Around b.exprs u := takes_blockWith hg false

@[grind .]
theorem neat_blockWith (hg : g.Sound) (inner : Bool) : (blockWith g inner).Neatly :=
  (takes_blockWith hg inner).mono fun _ _ h => h.neat

@[grind .]
theorem neat_block (hg : g.Sound) : (block g).Neatly := neat_blockWith hg false

@[grind .]
theorem neat_label : label.Neatly := by
  unfold label
  grind

theorem Parse.Takes.soundBehind {α : Type} {p : Parse α} {f : α → Parse Expr} (hp : p.Neatly)
    (hf : ∀ a, (f a).Takes Sound) : (p >>= f).Takes Sound :=
  .behind (fun _ _ _ => Sound.behind) hp hf

/-- What has no meaning is an expression without children. -/
theorem takes_other (ends : Bool) (start : Span) :
    (do return .other ends (← spanFrom start) : Parse Expr).Takes Sound :=
  .skip (still_spanFrom _) fun _ => .pure (sound_childless rfl neat_nil)

theorem takes_whileExpr (hg : g.Sound) (start : Span) : (whileExpr g start).Takes Sound := by
  refine .soundBehind (by grind) fun _ => .skip (still_peek _) fun _ => ?_
  have hloop : Parse.Takes (do
      word "while"
      let condition ← g.expr false
      let body ← blockWith g true
      return .whileLoop condition body (← spanFrom start)) Sound := by
    refine (takes_keyword (by decide)).bind fun _ u hu => (hg.expr false).bind fun condition v hv => ?_
    exact .spanned ((takes_blockWith hg true).mono fun body w hw span => sound_right rfl hu hv hw)
  exact .ite (.soundBehind neat_label fun _ => hloop) hloop

theorem takes_forExpr (hg : g.Sound) (start : Span) : (forExpr g start).Takes Sound := by
  refine .soundBehind (by grind) fun _ => .skip (still_peek _) fun _ => ?_
  have hloop : Parse.Takes (do
      word "for"
      let p ← patterns g
      word "in"
      let items ← g.expr false
      let body ← blockWith g true
      return .forLoop p.pattern items body (← spanFrom start)) Sound := by
    refine .soundBehind (neat_word _) fun _ => .soundBehind (neat_patterns hg.types) fun p => ?_
    refine (takes_keyword (by decide)).bind fun _ u hu => (hg.expr false).bind fun items v hv => ?_
    exact .spanned ((takes_blockWith hg true).mono fun body w hw span => sound_right rfl hu hv hw)
  exact .ite (.soundBehind neat_label fun _ => hloop) hloop

theorem takes_loopExpr (hg : g.Sound) (start : Span) : (loopExpr g start).Takes Sound := by
  refine .soundBehind (by grind) fun _ => .skip (still_peek _) fun _ => ?_
  have hloop : Parse.Takes (do
      word "loop"
      let body ← blockWith g true
      return .loop body (← spanFrom start)) Sound := by
    refine .soundBehind (neat_word _) fun _ => .spanned ?_
    exact (takes_blockWith hg true).mono fun body w hw span => sound_around rfl hw
  exact .ite (.soundBehind neat_label fun _ => hloop) hloop

theorem takes_blockExpr (hg : g.Sound) (start : Span) : (blockExpr g start).Takes Sound :=
  .spanned ((takes_blockWith hg true).mono fun _ _ hw _ => sound_around rfl hw)

theorem takes_labeled (hg : g.Sound) : (labeled g).Takes Sound := by
  refine .skip still_here fun start => .soundBehind neat_label fun _ => .skip still_input fun now => ?_
  refine .ite (takes_whileExpr hg start) (.ite (takes_forExpr hg start) (.ite (takes_loopExpr hg start) ?_))
  exact .ite (takes_blockExpr hg start) (.failWith _)

theorem takes_matchExpr (hg : g.Sound) : (matchExpr g).Takes Sound := by
  refine .skip still_here fun start => .soundBehind (by grind) fun _ => .soundBehind (by grind) fun _ => ?_
  refine .soundBehind (by grind) fun _ => .soundBehind (neat_group _ _) fun _ => takes_other true start

/-! ## Branches -/

/-- A branch with its condition, and what comes after the word `else`. -/
theorem sound_ifThen {c : Expr} {yes : Block} {no : Option Expr} {s : Span} {u v w l x : List TokenTree}
    (hu : Raises u) (hc : Sound c v) (hyes : Around yes.exprs w) (hl : Raises l) (hno : End no x) :
    Sound (.ifThen c yes no s) (u ++ (v ++ (w ++ (l ++ x)))) := by
  have hx : Neat x := by
    cases no with
    | none => exact hno
    | some e => exact hno.neat
  have hrest : Around yes.exprs (w ++ (l ++ x)) := hyes.before (hl.neat.append hx)
  have hbranch : Sound (.ifThen c yes none s) (u ++ (v ++ (w ++ (l ++ x)))) :=
    sound_right (by simp [Expr.children]) hu hc hrest
  cases no with
  | none => exact hbranch
  | some e =>
    refine ⟨hbranch.neat, fun p hp => ?_⟩
    cases p with
    | nil => exact fits_nil _
    | cons step p =>
      obtain ⟨d, hd, hp⟩ := hp
      rcases List.mem_append.1 hd with hd | hd
      · exact hbranch.within (step :: p) ⟨d, List.mem_append_left _ hd, hp⟩
      · -- what comes after the word `else`
        cases List.mem_singleton.1 hd
        refine (hno.within.right hl.ops p hp).mono ?_
        rw [← List.append_assoc, ← List.append_assoc]
        exact (List.suffix_append _ _).isInfix

/-- Branches put together, the last one first, with what comes after all of them. -/
def chained (stop : Position) (clauses : List (Span × Expr × Block)) (no : Option Expr) : Option Expr :=
  clauses.foldl (fun no (start, condition, yes) => some (.ifThen condition yes no ⟨start.start, stop⟩)) no

/-- The branches have been read from the tokens, up to the word `else` behind the last one. -/
def Opens (clauses : List (Span × Expr × Block)) (u : List TokenTree) : Prop :=
  ∀ stop no w, End no w → End (chained stop clauses no) (u ++ w)

/-- One more branch, and the word `else`. -/
theorem Opens.cons {clauses : List (Span × Expr × Block)} {start : Span} {c : Expr} {yes : Block}
    {t u v w l : List TokenTree} (ht : Opens clauses t) (hu : Raises u) (hc : Sound c v)
    (hyes : Around yes.exprs w) (hl : Raises l) :
    Opens ((start, c, yes) :: clauses) (t ++ (u ++ (v ++ (w ++ l)))) := by
  intro stop no x hno
  have hbranch := ht stop (some (.ifThen c yes no ⟨start.start, stop⟩)) _ (sound_ifThen hu hc hyes hl hno)
  simpa only [List.append_assoc, chained, List.foldl_cons] using hbranch

theorem takes_ifExpr (hg : g.Sound) : (ifExpr g).Takes Sound := by
  have hclauses : Parse.Takes (iterate [] fun clauses => do
      let start ← here
      word "if"
      let condition ← g.expr false
      let yes ← block g
      if ← word? "else" then
        let rest := (← input).rest
        if isWord "if" rest then return .inl ((start, condition, yes) :: clauses)
        else if isGroup .brace rest then
          let no ← block g
          return .inr ((start, condition, yes) :: clauses, some no)
        else expected ["`if`", "curly braces"]
      else return .inr ((start, condition, yes) :: clauses, none))
      fun (read : List (Span × Expr × Block) × Option Block) u =>
        ∀ stop, End (chained stop read.1 (read.2.map fun b => .block b b.span)) u := by
    refine .iterate (J := Opens) (fun stop no w h => h) fun clauses t ht => ?_
    refine .skip still_here fun start => (takes_keyword (by decide)).bind fun _ u hu => ?_
    refine (hg.expr false).bind fun c v hc => (takes_block hg).bind fun yes w hyes => ?_
    refine .ifWord (fun s => .skip still_input fun now => .ite ?_ (.ite ?_ (.failWith _))) ?_
    · exact .pure (ht.cons hu hc hyes (raises_word (by decide) s))
    · refine (takes_block hg).bind fun no x hno => .pure fun stop => ?_
      have helse : Raises [.word "else" s] := raises_word (by decide) s
      have hopens : Opens ((start, c, yes) :: clauses) _ := ht.cons hu hc hyes helse
      have hall := hopens stop (some (.block no no.span)) x (sound_around rfl hno)
      show End (chained stop _ (some (.block no no.span))) _
      simpa only [List.append_assoc, List.singleton_append, List.append_nil] using hall
    · refine .pure fun stop => ?_
      rw [List.append_nil]
      exact ht stop (some _) _ (sound_right (by simp [Expr.children]) hu hc hyes)
  refine .soundBehind (by grind) fun _ => hclauses.bind fun read u hread => .skip still_input fun now => .pure ?_
  rw [List.append_nil]
  exact sound_getD (hread now.last.stop)

/-! ## Operands -/

theorem of_readAll {α : Type} {p : Parse α} {Φ : α → List TokenTree → Prop} {tokens : List TokenTree}
    {scope : Span} {a : α} (hp : p.Takes Φ) (h : readAll p tokens scope = .ok a) : Φ a tokens := by
  unfold readAll at h
  cases hrun : p.run { rest := tokens, scope } with
  | error e =>
    rw [hrun] at h
    cases h
  | ok read =>
    obtain ⟨value, after⟩ := read
    rw [hrun] at h
    dsimp only [bind, Except.bind] at h
    split at h
    · cases h
    · cases h
    · rename_i hrest
      cases h
      exact hp _ after a tokens hrun (by rw [hrest, List.append_nil])

theorem takes_macroItems (hg : g.Sound) : (macroItems g).Takes fun read u => ∀ e ∈ read.1, Held e u := by
  have hitem : (withText (g.expr true)).Takes fun item u => Held item.1 u :=
    (takes_withText (hg.expr true)).mono fun _ u he => he.held (List.infix_refl u)
  have hitems : (commaSeparated (withText (g.expr true))).Takes fun items u =>
      ∀ item ∈ items, Held item.1 u :=
    takes_separatedUntil (Q := fun (item : Expr × List Char) u => Held item.1 u) (fun _ _ _ huv he => he.mono huv)
      hitem
  refine .last (hitems.mono fun items u h e he => ?_)
  obtain ⟨item, hitem, rfl⟩ := List.mem_map.1 he
  exact h item hitem

theorem takes_macroCall (hg : g.Sound) (name : Option Ident) (pathSpan : Span) :
    (macroCall g name pathSpan).Takes fun m u => Around m.exprs u := by
  refine .behind (fun _ _ _ => Around.behind) (neat_punct (by decide)) fun _ => ?_
  refine takes_anyGroup.bind fun read u hu => .skip (still_spanFrom _) fun span => .pure ?_
  obtain ⟨d, body, bodySpan⟩ := read
  obtain ⟨s, rfl⟩ := hu
  rw [List.append_nil]
  refine ⟨neat_of_group .., fun c hc => Held.inside ?_ d s⟩
  dsimp only at hc
  split at hc
  · rename_i hread
    exact of_readAll (takes_macroItems hg) hread c hc
  · exact absurd hc List.not_mem_nil

@[grind .]
theorem neat_structFields (g : Grammar) : (structFields g).Neatly := neat_group _ _

theorem takes_pathExpr (hg : g.Sound) (allowStruct : Bool) : (pathExpr g allowStruct).Takes Sound := by
  refine .soundBehind (neat_withSpan (neat_path hg.types true)) fun read => ?_
  obtain ⟨p, span⟩ := read
  refine .skip (still_peek _) fun _ => .skip (still_peek _) fun _ => .ite ?_ ?_
  · exact .spanned ((takes_macroCall hg p.plain span).mono fun m u hm _ => sound_around rfl hm)
  · refine .skip (still_peek _) fun _ => .ite ?_ ?_
    · exact .soundBehind (neat_structFields g) fun _ => takes_other false span
    · split <;> exact .pure (sound_childless rfl neat_nil)

theorem takes_parenExpr (hg : g.Sound) : (parenExpr g).Takes Sound := by
  have hinside : Parse.Takes (do
      if ← atEnd then return none
      let first ← g.expr true
      if ← atEnd then return some first
      punct ","
      discard (commaSeparated (g.expr true))
      return none) fun e u => ∀ c ∈ Option.toList e, Held c u := by
    have hnone (u : List TokenTree) : ∀ c ∈ Option.toList (none : Option Expr), Held c u :=
      fun c hc => absurd hc List.not_mem_nil
    refine .skip still_atEnd fun _ => .ite (.pure (hnone _)) ?_
    refine (hg.expr true).bind fun e u he => .skip still_atEnd fun _ => .ite (.pure ?_) ?_
    · rw [List.append_nil]
      exact fun c hc => List.mem_singleton.1 hc ▸ he.held (List.infix_refl u)
    · exact (Parse.Takes.any _).bind fun _ _ _ => (Parse.Takes.any _).bind fun _ _ _ => .pure (hnone _)
  refine (takes_withSpan (takes_around hinside)).bind fun read u hread => ?_
  obtain ⟨inside, span⟩ := read
  cases inside with
  | none => exact .pure (sound_childless rfl (by rw [List.append_nil]; exact hread.neat))
  | some e => exact .pure (sound_around rfl (by rw [List.append_nil]; exact hread))

theorem takes_arrayExpr (hg : g.Sound) : (arrayExpr g).Takes Sound := by
  have hinside : Parse.Takes (do
      if ← atEnd then return some []
      let first ← g.expr true
      if ← atEnd then return some [first]
      else if ← punct? "," then return some (first :: (← commaSeparated (g.expr true)))
      else if ← punct? ";" then
        discard (g.expr true)
        return none
      else wrong "expected `,` or `;`") fun es u => ∀ c ∈ Option.getD es [], Held c u := by
    refine .skip still_atEnd fun _ => .ite (.pure fun c hc => absurd hc List.not_mem_nil) ?_
    refine (hg.expr true).bind fun e u he => .skip still_atEnd fun _ => .ite (.pure ?_) ?_
    · exact fun c hc => List.mem_singleton.1 hc ▸ he.held (List.prefix_append u []).isInfix
    refine .ifPunct (fun v _ => (takes_commaSeparated hg).bind fun es w hes => .pure ?_) ?_
    · refine List.forall_mem_cons.2 ⟨he.held (List.prefix_append u _).isInfix, fun c hc => ?_⟩
      exact (hes c hc).mono ⟨u ++ v, [], by simp⟩
    · refine .ifPunct (fun v _ => (Parse.Takes.any _).bind fun _ _ _ => .pure ?_) (.failWith _)
      exact fun c hc => absurd hc List.not_mem_nil
  refine (takes_withSpan (takes_around hinside)).bind fun read u hread => ?_
  obtain ⟨items, span⟩ := read
  cases items with
  | none => exact .pure (sound_childless rfl (by rw [List.append_nil]; exact hread.neat))
  | some es => exact .pure (sound_around rfl (by rw [List.append_nil]; exact hread))

theorem takes_jumpValue (hg : g.Sound) : (jumpValue g).Takes End := by
  exact .skip (still_peek _) fun _ => .ite (.last (hg.expr true)) (.pure neat_nil)

@[grind .]
theorem neat_jumpValue (hg : g.Sound) : (jumpValue g).Neatly := by
  unfold jumpValue
  grind

theorem takes_breakExpr (hg : g.Sound) (allowStruct : Bool) : (breakExpr g allowStruct).Takes Sound := by
  refine .skip still_here fun start => .soundBehind (neat_word _) fun _ => .skip still_input fun now => ?_
  have hend (value : Option Expr) :
      (do return .breakLoop value.isSome (← spanFrom start) : Parse Expr).Takes Sound :=
    .skip (still_spanFrom _) fun _ => .pure (sound_childless rfl neat_nil)
  refine .ite ?_ (.soundBehind (by grind) fun _ => ?_)
  · refine .skip still_here fun name => .soundBehind (by grind) fun _ => .skip (still_spanFrom _) fun _ => ?_
    exact .fail_bind _ _
  refine .skip (still_peek _) fun _ => .skip (still_peek _) fun _ => .ite ?_ (hend none)
  exact .soundBehind (by grind) fun value => hend value

theorem takes_closureExpr (hg : g.Sound) (allowStruct : Bool) : (closureExpr g allowStruct).Takes Sound := by
  have hneat : (closureExpr g allowStruct).Neatly := by
    refine neat_bind neat_here fun start => neat_bind (by grind) fun _ => neat_bind ?_ fun _ => ?_
    · exact neat_forIn fun w _ => by grind
    refine neat_bars (unended_separatedUntil (neat_peek _) ?_).discard fun _ => ?_
    · grind
    · exact closes_then closes_bar fun _ => by grind
  have hchildless : (closureExpr g allowStruct).Takes fun e _ => e.children = [] := by
    refine .after fun start => .after fun _ => .after fun _ => .after fun _ => .after fun _ => .after fun _ => ?_
    refine .after fun _ => .ite (.after fun _ => .after fun _ => ?_) (.after fun _ => ?_)
    all_goals exact .after fun _ => .pure rfl
  exact fun now after e u hrun hrest =>
    sound_childless (hchildless now after e u hrun hrest) (hneat now after e u hrun hrest)

theorem takes_letExpr (hg : g.Sound) (allowStruct : Bool) : (letExpr g allowStruct).Takes Sound := by
  refine .skip still_here fun start => .soundBehind (neat_word _) fun _ => .soundBehind (by grind) fun _ => ?_
  refine .soundBehind (by grind) fun _ => .soundBehind (by grind) fun first => ?_
  exact .soundBehind (by grind) fun _ => takes_other false start

theorem takes_markedBlock (hg : g.Sound) (words : List String) (inner ends : Bool) :
    (markedBlock g words inner ends).Takes Sound := by
  refine .skip still_here fun start => .soundBehind (neat_forIn fun w _ => by grind) fun _ => ?_
  exact .soundBehind (by grind) fun _ => takes_other ends start

theorem takes_builtinExpr : builtinExpr.Takes Sound := by
  refine .skip still_here fun start => .soundBehind (by grind) fun _ => .soundBehind (by grind) fun _ => ?_
  exact .soundBehind (by grind) fun _ => .soundBehind (neat_group _ _) fun _ => takes_other false start

theorem takes_atom (hg : g.Sound) (allowStruct : Bool) : (atom g allowStruct).Takes Sound := by
  refine .skip still_here fun start => .skip still_input fun now => .ite ?_ ?_
  · -- a literal
    refine .soundBehind neat_literal fun value => .skip (still_spanFrom _) fun _ => .pure ?_
    exact sound_childless rfl neat_nil
  refine .ite (takes_markedBlock hg _ _ _) (.ite (takes_markedBlock hg _ _ _) ?_)
  have hparameters : atom.parametersAfterWord.Still := .skip (still_ahead? _) fun _ => .pure rfl
  refine .skip hparameters fun _ => .ite (takes_closureExpr hg allowStruct) ?_
  refine .ite takes_builtinExpr (.ite (takes_pathExpr hg allowStruct) (.ite (takes_parenExpr hg) ?_))
  -- jumps
  refine .ite (takes_breakExpr hg allowStruct) (.ite ?_ (.ite ?_ (.ite ?_ ?_)))
  · refine .soundBehind (by grind) fun _ => .soundBehind (by grind) fun _ => ?_
    exact .skip (still_spanFrom _) fun _ => .pure (sound_childless rfl neat_nil)
  · refine (takes_keyword (by decide)).bind fun _ u hu => .spanned ?_
    exact (takes_jumpValue hg).mono fun value v hv _ => sound_end rfl hu hv
  · exact .soundBehind (by grind) fun _ => .soundBehind (by grind) fun _ => takes_other false start
  refine .ite (takes_arrayExpr hg) (.ite (takes_letExpr hg allowStruct) (.ite (takes_ifExpr hg) ?_))
  refine .ite (takes_whileExpr hg start) (.ite (takes_forExpr hg start) (.ite (takes_loopExpr hg start) ?_))
  refine .ite (takes_matchExpr hg) (.ite ?_ (.ite ?_ (.ite ?_ (.ite (takes_blockExpr hg start) ?_))))
  · exact .soundBehind (by grind) fun _ => .soundBehind (by grind) fun _ => takes_other false start
  · exact .soundBehind (by grind) fun _ => .soundBehind (by grind) fun _ => takes_other true start
  · exact .soundBehind (by grind) fun _ => .soundBehind (by grind) fun _ => takes_other true start
  refine .ite ?_ (.ite ?_ (.ite (takes_labeled hg) (.failWith _)))
  · refine takes_rangeLimits.bind fun closed u hu => .spanned ?_
    exact (takes_rangeEnd hg closed allowStruct).mono fun last v hlast _ => sound_end rfl hu hlast
  · exact .soundBehind (by grind) fun _ => takes_other false start

theorem sound_withStart {e : Expr} {u : List TokenTree} (start : Position) (he : Sound e u) :
    Sound (e.withStart start) u :=
  sound_congr (fun p => (Expr.hasPath_withStart start e p).1) he

/-- Behind an operator, the tokens make up the expression. -/
def HasBehind (e : Expr) (v : List TokenTree) : Prop := ∀ u, Raises u → Sound e (u ++ v)

theorem HasBehind.behind {e : Expr} {u v : List TokenTree} (hu : Neat u) (h : HasBehind e v) :
    HasBehind e (u ++ v) := by
  intro t ht
  rw [← List.append_assoc]
  exact h (t ++ u) (ht.before hu)

theorem takes_operandRule (hg : g.Sound) (allowStruct : Bool) : (operandRule g allowStruct).Takes Sound := by
  refine .skip still_here fun start => .soundBehind (by grind) fun _ => .skip still_input fun now => .ite ?_ ?_
  · -- a reference, or a raw one
    have hinner (raw : Bool) : Parse.Takes (do
        let inner ← g.operand allowStruct
        let span ← spanFrom start
        return if raw then .other false span else .reference inner span) HasBehind := by
      refine .spanned ((hg.operand allowStruct).mono fun inner v hv span u hu => ?_)
      split
      · exact sound_childless rfl (hu.neat.append hv.neat)
      · exact sound_unary rfl hu hv
    have hmono (e : Expr) (u v : List TokenTree) : Neat u → HasBehind e v → HasBehind e (u ++ v) :=
      HasBehind.behind
    refine (takes_operator (by decide)).bind fun _ u hu => ?_
    have hmutable (raw : Bool) : Parse.Takes (do
        let mutable ← word? "mut"
        if raw && !mutable then word "const"
        let inner ← g.operand allowStruct
        let span ← spanFrom start
        return if raw then .other false span else .reference inner span) HasBehind := by
      refine .behind hmono (neat_word? _) fun _ => .ite (.behind hmono (neat_word _) fun _ => ?_) ?_
      all_goals exact hinner raw
    refine Parse.Takes.mono (.skip still_input fun now => .ite ?_ ?_) fun e v (h : HasBehind e v) => h u hu
    · exact .behind hmono (neat_word _) fun _ => hmutable _
    · exact hmutable _
  have hunary (text : String) (op : UnaryOp) (htext : IsOperator text) : Parse.Takes (do
      punct text
      let inner ← g.operand allowStruct
      return .unary op inner (← spanFrom start)) Sound := by
    refine (takes_operator htext).bind fun _ u hu => .spanned ?_
    exact (hg.operand allowStruct).mono fun inner v hv _ => sound_unary rfl hu hv
  refine .ite (hunary "*" .deref (by decide)) (.ite (hunary "!" .not (by decide)) ?_)
  refine .ite (hunary "-" .neg (by decide)) ?_
  refine (takes_atom hg allowStruct).bind fun first u hfirst => (takes_trailers hg first).bind fun e v he => ?_
  have hsound := he.sound u hfirst
  split
  · exact .ite (.pure (by rwa [List.append_nil])) (.fail _)
  · exact .pure (by rw [List.append_nil]; exact sound_withStart _ hsound)

theorem takes_exprRule (hg : g.Sound) (allowStruct : Bool) : (exprRule g allowStruct).Takes Sound :=
  (hg.operand allowStruct).bind fun first u hfirst =>
    (hg.climb allowStruct first .jump).mono fun _ _ he => he.sound u hfirst

end Rules

end Notebook.Syntax

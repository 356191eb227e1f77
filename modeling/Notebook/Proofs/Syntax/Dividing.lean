import Mathlib.Data.List.Chain
import Notebook.Proofs.Syntax.Bodies
import Notebook.Proofs.Syntax.Ending

/-!
# The tokens of each statement

The statements of a text divide its tokens (`divided_of_readStmts`): each one spans the tokens that it has
been read from, and all but the last one end with a token that may end a statement. So statements are
stretches of the text, one behind the other (`stretches_of_parse`).
-/

namespace Notebook.Syntax
open Notebook.Text

/-! ## Statements one behind the other -/

/-- A statement spans tokens: it starts where the first one starts, and stops where the last one stops. -/
def Spans (s : Stmt) (u : List TokenTree) : Prop :=
  ∃ first last, u.head? = some first ∧ u.getLast? = some last ∧ s.span = ⟨first.span.start, last.span.stop⟩

/-- Statements that divide tokens among them. -/
inductive Divided : List Stmt → List TokenTree → Prop
  | nil : Divided [] []
  | last {s : Stmt} {u : List TokenTree} (hs : Spans s u) : Divided [s] u
  | cons {s : Stmt} {u : List TokenTree} {stmts : List Stmt} {tokens : List TokenTree} (hs : Spans s u)
    (hu : Ends u) (rest : Divided stmts tokens) : Divided (s :: stmts) (u ++ tokens)

theorem Spans.ne_nil {s : Stmt} {u : List TokenTree} (h : Spans s u) : u ≠ [] := by
  rintro rfl
  obtain ⟨first, last, hfirst, -⟩ := h
  cases hfirst

theorem Divided.eq_nil {stmts : List Stmt} {tokens : List TokenTree} (h : Divided stmts tokens)
    (htokens : tokens = []) : stmts = [] := by
  cases h with
  | nil => rfl
  | last hs => exact absurd htokens hs.ne_nil
  | cons hs hu rest => exact absurd (List.append_eq_nil_iff.1 htokens).1 hs.ne_nil

theorem Ends.of_append {u v : List TokenTree} (h : Ends (u ++ v)) (hv : v ≠ []) : Ends v := by
  obtain ⟨t, ht, hend⟩ := h
  rw [List.getLast?_append_of_ne_nil _ hv] at ht
  exact ⟨t, ht, hend⟩

/-- More statements behind tokens that may end one. -/
theorem Divided.append {first others : List Stmt} {tokens more : List TokenTree} (h : Divided first tokens)
    (hends : tokens = [] ∨ Ends tokens) (h' : Divided others more) :
    Divided (first ++ others) (tokens ++ more) := by
  induction h with
  | nil => exact h'
  | last hs => exact .cons hs (hends.resolve_left hs.ne_nil) h'
  | @cons s u stmts tokens hs hu rest ih =>
    rw [List.append_assoc]
    refine .cons hs hu (ih ?_)
    by_cases htokens : tokens = []
    · exact .inl htokens
    · refine .inr (Ends.of_append (hends.resolve_left ?_) htokens)
      exact fun hnil => hs.ne_nil (List.append_eq_nil_iff.1 hnil).1

/-- Tokens in a row start one after the other. -/
theorem start_le_of_getLast? {u : List TokenTree} {first last : TokenTree} (hrow : u.Pairwise TokenTree.Precedes)
    (hfirst : u.head? = some first) (hlast : u.getLast? = some last) :
    first.span.start.key ≤ last.span.start.key := by
  obtain ⟨rest, rfl⟩ : ∃ rest, u = first :: rest := List.head?_eq_some_iff.1 hfirst
  rcases List.mem_cons.1 (List.mem_of_getLast? hlast) with rfl | hmem
  · exact le_refl _
  · exact ((List.pairwise_cons.1 hrow).1 last hmem).start

theorem Spans.stretch {cs : List Char} {s : Stmt} {u : List TokenTree} (h : Spans s u)
    (hstands : ∀ t ∈ u, ∃ a b, Stretch cs t.span a b) (hrow : u.Pairwise TokenTree.Precedes) :
    ∃ a b, Stretch cs s.span a b := by
  obtain ⟨first, last, hfirst, hlast, hspan⟩ := h
  obtain ⟨a, _, ha⟩ := hstands first (List.mem_of_head? hfirst)
  obtain ⟨_, b, hb⟩ := hstands last (List.mem_of_getLast? hlast)
  have hlt := (start_le_of_getLast? hrow hfirst hlast).trans_lt hb.key_lt
  rw [hspan]
  exact ⟨a, b, SolidAt.stretch_of_key_lt (s := ⟨first.span.start, last.span.stop⟩) ha.first hb.stop hb.le hlt⟩

/-- Statements are stretches of a text, one behind the other, if their tokens are. -/
theorem Divided.stretches {cs : List Char} {stmts : List Stmt} {tokens : List TokenTree}
    (h : Divided stmts tokens) (hstands : ∀ t ∈ tokens, ∃ a b, Stretch cs t.span a b)
    (hrow : tokens.Pairwise TokenTree.Precedes) :
    (∀ s ∈ stmts, ∃ a b, Stretch cs s.span a b) ∧
      (∀ s ∈ stmts, ∃ t ∈ tokens, s.span.start = t.span.start) ∧
      stmts.Pairwise fun s s' => s.span.stop.key ≤ s'.span.start.key := by
  induction h with
  | nil => exact ⟨List.forall_mem_nil _, List.forall_mem_nil _, .nil⟩
  | last hs =>
    have hstretch := hs.stretch hstands hrow
    obtain ⟨first, last, hfirst, -, hspan⟩ := hs
    refine ⟨List.forall_mem_singleton.2 hstretch, List.forall_mem_singleton.2 ?_, List.pairwise_singleton _ _⟩
    exact ⟨first, List.mem_of_head? hfirst, by rw [hspan]⟩
  | @cons s u stmts tokens hs hu rest ih =>
    obtain ⟨hrowu, hrowtokens, hacross⟩ := List.pairwise_append.1 hrow
    have hstretch := hs.stretch (fun t ht => hstands t (List.mem_append_left _ ht)) hrowu
    obtain ⟨hstretches, hstarts, hapart⟩ := ih (fun t ht => hstands t (List.mem_append_right _ ht)) hrowtokens
    obtain ⟨first, last, hfirst, hlast, hspan⟩ := hs
    obtain ⟨t, ht, hend⟩ := hu
    obtain rfl : last = t := Option.some.inj (hlast.symm.trans ht)
    refine ⟨List.forall_mem_cons.2 ⟨hstretch, hstretches⟩, List.forall_mem_cons.2 ⟨?_, fun s' hs' => ?_⟩, ?_⟩
    · exact ⟨first, List.mem_append_left _ (List.mem_of_head? hfirst), by rw [hspan]⟩
    · obtain ⟨t, ht, hstart⟩ := hstarts s' hs'
      exact ⟨t, List.mem_append_right _ ht, hstart⟩
    · refine List.pairwise_cons.2 ⟨fun s' hs' => ?_, hapart⟩
      obtain ⟨t, ht, hstart⟩ := hstarts s' hs'
      rw [hspan, hstart]
      exact (hacross last (List.mem_of_getLast? hlast) t ht).stop hend

/-! ## The place of a statement -/

/-- The statement that is read starts at the given place and stops where the last token stops. -/
def Parse.Reaching (p : Parse Stmt) (start : Span) : Prop :=
  ∀ now after s, p.run now = .ok (s, after) → s.span = ⟨start.start, after.last.stop⟩

section Reaching

variable {start : Span} {g : Grammar}

theorem Parse.Reaching.after {α : Type} {p : Parse α} {f : α → Parse Stmt} (hf : ∀ a, (f a).Reaching start) :
    (p >>= f).Reaching start := by
  intro now after s hrun
  obtain ⟨a, middle, -, hrun⟩ := Parse.run_bind hrun
  exact hf a middle after s hrun

theorem Parse.Reaching.ite {c : Prop} [Decidable c] {p q : Parse Stmt} (hp : p.Reaching start)
    (hq : q.Reaching start) : (if c then p else q).Reaching start := by
  split
  · exact hp
  · exact hq

/-- The statement is made with its place. -/
theorem reaching_end {f : Span → Stmt} (hf : ∀ s, (f s).span = s) :
    (spanFrom start >>= fun s => pure (f s)).Reaching start := by
  intro now after s hrun
  cases hrun
  exact hf _

theorem reaching_letStmt (g : Grammar) (start : Span) : (letStmt g start).Reaching start := by
  have hend (pattern : Pattern) (value : Option Expr) (keyword : Span) : Parse.Reaching (do
      punct ";"
      return Stmt.bind pattern value keyword (← spanFrom start)) start :=
    .after fun _ => reaching_end fun _ => rfl
  have hvalue (pattern : Pattern) (keyword : Span) : Parse.Reaching (do
      let value ← if ← punct? "=" then
          let e ← g.expr true
          if !(← input).braced then
            if ← word? "else" then discard (block g)
          pure (some e)
        else pure none
      punct ";"
      return Stmt.bind pattern value keyword (← spanFrom start)) start := by
    refine .after fun _ => .ite (.after fun e => .after fun _ => .ite ?_ ?_) (.after fun _ => hend _ _ _)
    · exact .after fun _ => .ite (.after fun _ => .after fun _ => hend _ _ _) (.after fun _ => hend _ _ _)
    · exact .after fun _ => hend _ _ _
  refine .after fun keyword => .after fun _ => .after fun p => .after fun _ => ?_
  exact .ite (.after fun _ => .after fun _ => hvalue _ _) (.after fun _ => hvalue _ _)

theorem reaching_macroStmt (g : Grammar) (start : Span) : (macroStmt g start).Reaching start :=
  .after fun _ => .after fun _ => .after fun _ => .after fun _ => reaching_end fun _ => rfl

theorem reaching_exprStmt (g : Grammar) (start : Span) : (exprStmt g start).Reaching start :=
  .after fun _ => .after fun _ => reaching_end fun _ => rfl

/-- A statement spans the tokens that it has been read from. -/
theorem spans_statement (g : Grammar) : (statement g).Takes fun s u => u ≠ [] → Spans s u := by
  have hkind (start : Span) (docs : List (List Char)) (kind : MacroStart) : Parse.Reaching (do
      let rest := (← input).rest
      if isWord "let" rest then letStmt g start
      else if itemAhead rest || kind = .item then
        let value ← itemRest g docs
        return .item value (← spanFrom start)
      else exprStmt g start) start := by
    refine .after fun now => .ite (reaching_letStmt g start) (.ite ?_ (reaching_exprStmt g start))
    exact .after fun _ => reaching_end fun _ => rfl
  intro now after s u hrun hrest hu
  obtain ⟨first, hfirst⟩ : ∃ first, u.head? = some first := ⟨_, List.head?_eq_some_head hu⟩
  obtain ⟨last, hlast⟩ : ∃ last, u.getLast? = some last := ⟨_, List.getLast?_eq_some_getLast hu⟩
  have hstop : after.last = last.span := by
    obtain ⟨used, hused, hlastSpan⟩ := (statement g).follows hrun
    obtain rfl : u = used := List.append_cancel_right (hrest.symm.trans hused)
    rw [hlastSpan, lastSpan, hlast]
    rfl
  obtain ⟨start, _, hhere, hrun⟩ := Parse.run_bind hrun
  have hstart : start = first.span := by
    cases hhere
    rw [hrest, List.head?_append, hfirst]
    rfl
  have hspan : s.span = ⟨start.start, after.last.stop⟩ := by
    refine (Parse.Reaching.after fun docs => .after fun kind => ?_) _ _ _ hrun
    cases kind with
    | braces => exact reaching_macroStmt g start
    | item => exact hkind start docs .item
    | none => exact hkind start docs .none
  exact ⟨first, last, hfirst, hlast, by rw [hspan, hstart, hstop]⟩

end Reaching

/-! ## The loop over statements -/

/-- A turn of the loop over statements. -/
def stmtStep (g : Grammar) (read : List Stmt) : Parse (List Stmt ⊕ List Stmt) := do
  let start ← here
  if ← punct? ";" then return .inl (.expr (.other false Span.none) true start :: read)
  else if ← atEnd then return .inr read.reverse
  else
    let s ← afresh (statement g)
    if ← atEnd then return .inr (s :: read).reverse
    else if s.wantsSemicolon then wrong "unexpected token, expected `;`"
    else return .inl (s :: read)

theorem stmtsRule_eq (g : Grammar) : stmtsRule g = iterate [] (stmtStep g) := rfl

/-- What a turn of the loop has done: it has read one more statement, which is ended, or the end. -/
inductive Turn (read : List Stmt) (u rest : List TokenTree) : List Stmt ⊕ List Stmt → Prop
  | next {s : Stmt} (hs : Spans s u) (hu : Ends u) : Turn read u rest (.inl (s :: read))
  | done (hu : u = []) (hrest : rest = []) : Turn read u rest (.inr read.reverse)
  | last {s : Stmt} (hs : Spans s u) (hrest : rest = []) : Turn read u rest (.inr (s :: read).reverse)

theorem run_atEnd (now : Input) : atEnd.run now = .ok (now.rest.isEmpty, now) := rfl

theorem turn_stmtStep {g : Grammar} (hg : g.Finishing) {read : List Stmt} {now after : Input}
    {next : List Stmt ⊕ List Stmt} {u : List TokenTree} (hrun : (stmtStep g read).run now = .ok (next, after))
    (hu : now.rest = u ++ after.rest) : Turn read u after.rest next := by
  obtain ⟨start, _, hhere, hrun⟩ := Parse.run_bind hrun
  cases hhere
  obtain ⟨found, middle, hfound, hrun⟩ := Parse.run_bind hrun
  obtain ⟨used, hused, -⟩ := (punct? ";").follows hfound
  have hsemicolon := takes_semicolon? _ _ _ used hfound hused
  cases found with
  | true =>
    -- a semicolon by itself
    obtain ⟨joint, s, rfl⟩ := hsemicolon
    cases hrun
    obtain rfl : u = [.punct ';' joint s] := List.append_cancel_right (hu.symm.trans hused)
    refine .next ⟨_, _, rfl, rfl, ?_⟩ (ends_singleton rfl)
    rw [hused]
    rfl
  | false =>
    obtain rfl : used = [] := hsemicolon
    rw [List.nil_append] at hused
    rw [if_neg Bool.false_ne_true, Parse.run_bind_of_ok (run_atEnd middle)] at hrun
    cases hempty : middle.rest.isEmpty with
    | true =>
      rw [hempty] at hrun
      cases hrun
      have hrest : after.rest = [] := List.isEmpty_iff.1 hempty
      rw [hused, hrest] at hu
      exact .done (List.append_eq_nil_iff.1 hu.symm).1 hrest
    | false =>
      rw [hempty] at hrun
      obtain ⟨s, behind, hstatement, hrun⟩ := Parse.run_bind hrun
      rw [Parse.run_bind_of_ok (run_atEnd behind)] at hrun
      obtain ⟨v, hv⟩ := (afresh (statement g)).suffix hstatement
      have hspans := (spans_statement g).afresh _ _ _ v hstatement hv.symm
      have hends := Parse.Takes.afresh (completing_statement hg) _ _ _ v hstatement hv.symm
      have huv (h : after = behind) : u = v := by
        rw [hused, ← hv, h] at hu
        exact (List.append_cancel_right hu).symm
      cases hbehind : behind.rest.isEmpty with
      | true =>
        rw [hbehind] at hrun
        cases hrun
        have hrest : after.rest = [] := List.isEmpty_iff.1 hbehind
        refine .last (huv rfl ▸ hspans ?_) hrest
        rintro rfl
        rw [← hv, hrest] at hempty
        cases hempty
      | false =>
        rw [hbehind] at hrun
        cases hwants : s.wantsSemicolon with
        | true =>
          rw [hwants] at hrun
          exact absurd hrun (not_run_failWith _)
        | false =>
          rw [hwants] at hrun
          cases hrun
          have hv := hends hwants
          obtain rfl := huv rfl
          exact .next (hspans hv.ne_nil) hv

/-- What the loop over statements has read, all of it ended. -/
def ReadUp (read : List Stmt) (u : List TokenTree) : Prop := Divided read.reverse u ∧ (u = [] ∨ Ends u)

theorem ReadUp.snoc {read : List Stmt} {s : Stmt} {u v : List TokenTree} (h : ReadUp read u) (hs : Spans s v)
    (hv : Ends v) : ReadUp (s :: read) (u ++ v) := by
  refine ⟨?_, .inr (hv.behind u)⟩
  rw [List.reverse_cons]
  exact h.1.append h.2 (.last hs)

theorem divided_stmtsRule {g : Grammar} (hg : g.Finishing) : (stmtsRule g).Takes Divided := by
  rw [stmtsRule_eq]
  refine .iterate (J := ReadUp) ⟨.nil, .inl rfl⟩ fun read u hread now after next v hrun hrest => ?_
  cases turn_stmtStep hg hrun hrest with
  | next hs hv => exact hread.snoc hs hv
  | done hv _ =>
    subst hv
    show Divided read.reverse _
    rw [List.append_nil]
    exact hread.1
  | last hs _ =>
    show Divided (List.reverse (_ :: read)) _
    rw [List.reverse_cons]
    exact hread.1.append hread.2 (.last hs)

/-- What holds behind the last step of a repetition. -/
theorem run_iterate {σ α : Type} {P : Input → Prop} {step : σ → Parse (σ ⊕ α)}
    (hstep : ∀ s now a after, (step s).run now = .ok (.inr a, after) → P after) {s : σ} {now after : Input}
    {a : α} (hrun : (iterate s step).run now = .ok (a, after)) : P after := by
  have hfor (n : Nat) (s : σ) (now : Input) (hrun : (iterateFor step n s).run now = .ok (a, after)) :
      P after := by
    induction n generalizing s now with
    | zero => exact absurd hrun (not_run_failWith _)
    | succ n ih =>
      obtain ⟨next, middle, hfirst, hrun⟩ := Parse.run_bind hrun
      cases next with
      | inl s => exact ih s middle hrun
      | inr _ =>
        cases hrun
        exact hstep s now _ _ hfirst
  exact hfor (now.rest.length + 1) s now hrun

/-- Statements are read up to the end. -/
theorem rest_stmtsRule {g : Grammar} (hg : g.Finishing) {now after : Input} {stmts : List Stmt}
    (hrun : (stmtsRule g).run now = .ok (stmts, after)) : after.rest = [] := by
  rw [stmtsRule_eq] at hrun
  refine run_iterate (P := fun after => after.rest = []) (fun read now stmts after hstep => ?_) hrun
  obtain ⟨u, hu, -⟩ := (stmtStep g read).follows hstep
  generalize hnext : Sum.inr stmts = next at hstep
  cases turn_stmtStep hg hstep hu with
  | next => cases hnext
  | done _ hrest => exact hrest
  | last _ hrest => exact hrest

/-! ## The statements of a text -/

theorem divided_of_readPart {part : List TokenTree} {stmts : List Stmt} {leftover : Option ParseError}
    (h : readPart part = .ok (stmts, leftover)) : Divided stmts part := by
  obtain ⟨after, hrun, -⟩ := readPart_eq_ok.1 h
  have hrun : (stmtsRule (grammar (3 * TokenTree.sizes part + 7))).run { rest := part, scope := Span.none } =
      .ok (stmts, after) := hrun
  have hfinishing := Grammar.finishing_grammar (3 * TokenTree.sizes part + 7)
  refine divided_stmtsRule hfinishing _ _ _ part hrun ?_
  rw [rest_stmtsRule hfinishing hrun, List.append_nil]

/-- A part that another one follows ends with a semicolon. -/
theorem ends_parts (trees : List TokenTree) : (parts trees).IsChain fun part _ => Ends part := by
  induction trees with
  | nil => exact .nil
  | cons t rest ih =>
    by_cases ht : ∃ joint s, t = .punct ';' joint s
    · obtain ⟨joint, s, rfl⟩ := ht
      rw [parts_semicolon]
      exact List.isChain_cons.2 ⟨fun _ _ => ends_singleton rfl, ih⟩
    · rw [parts_cons fun joint s h => ht ⟨joint, s, h⟩]
      split
      · exact .singleton _
      · rename_i first others hparts
        rw [hparts] at ih
        obtain ⟨hfirst, hothers⟩ := List.isChain_cons.1 ih
        exact List.isChain_cons.2 ⟨fun part hpart => (hfirst part hpart).behind [t], hothers⟩

theorem divided_of_parts {ps : List (List TokenTree)} {each : List (List Stmt)}
    (hends : ps.IsChain fun part _ => Ends part) (h : ps.map readPart = each.map fun ss => .ok (ss, none)) :
    Divided each.flatten ps.flatten := by
  induction ps generalizing each with
  | nil =>
    rw [List.map_eq_nil_iff.1 h.symm]
    exact .nil
  | cons part ps ih =>
    obtain ⟨ss, others, rfl, hpart, hps⟩ := List.map_eq_cons_iff.1 h.symm
    have hfirst := divided_of_readPart hpart.symm
    obtain ⟨hends, hrest⟩ := List.isChain_cons.1 hends
    have hothers := ih hrest hps.symm
    rw [List.flatten_cons, List.flatten_cons]
    cases ps with
    | nil =>
      rw [hothers.eq_nil rfl, List.append_nil, List.flatten_nil, List.append_nil]
      exact hfirst
    | cons next ps => exact hfirst.append (.inr (hends next rfl)) hothers

/-- The statements of token trees divide them, but for what is known of what follows a semicolon. -/
theorem divided_of_readStmts {trees : List TokenTree} {stmts : List Stmt} (h : readStmts trees = .ok stmts) :
    Divided stmts (trees.map TokenTree.settle) := by
  obtain ⟨each, heach, rfl⟩ := readStmts_eq_ok.1 h
  rw [← flatten_parts]
  exact divided_of_parts (ends_parts trees) heach

theorem span_settle (t : TokenTree) : t.settle.span = t.span := by
  unfold TokenTree.settle
  split <;> rfl

theorem mayEnd_settle (t : TokenTree) : t.settle.mayEnd = t.mayEnd := by
  unfold TokenTree.settle
  split <;> rfl

theorem precedes_settle {t u : TokenTree} : t.settle.Precedes u.settle ↔ t.Precedes u := by
  constructor
  · rintro ⟨hstart, hstop⟩
    rw [span_settle, span_settle] at hstart
    rw [mayEnd_settle, span_settle, span_settle] at hstop
    exact ⟨hstart, hstop⟩
  · rintro ⟨hstart, hstop⟩
    exact ⟨by rwa [span_settle, span_settle], by rwa [mayEnd_settle, span_settle, span_settle]⟩

/-- The statements of token trees that are stretches of a text in a row are so, too. -/
theorem stretches_of_readStmts {cs : List Char} {trees : List TokenTree} {stmts : List Stmt}
    (hstands : ∀ t ∈ trees, ∃ a b, Stretch cs t.span a b) (hrow : trees.Pairwise TokenTree.Precedes)
    (h : readStmts trees = .ok stmts) :
    (∀ s ∈ stmts, ∃ a b, Stretch cs s.span a b) ∧
      (∀ s ∈ stmts, ∃ t ∈ trees, s.span.start = t.span.start) ∧
      stmts.Pairwise fun s s' => s.span.stop.key ≤ s'.span.start.key := by
  have hsettledStands : ∀ t ∈ trees.map TokenTree.settle, ∃ a b, Stretch cs t.span a b :=
    List.forall_mem_map.2 fun t ht => by
      rw [span_settle]
      exact hstands t ht
  obtain ⟨hstretches, hstarts, hapart⟩ := (divided_of_readStmts h).stretches hsettledStands
    (List.pairwise_map.2 (hrow.imp precedes_settle.2))
  refine ⟨hstretches, fun s hs => ?_, hapart⟩
  obtain ⟨t, ht, hstart⟩ := hstarts s hs
  obtain ⟨u, hu, rfl⟩ := List.mem_map.1 ht
  exact ⟨u, hu, by rw [hstart, span_settle]⟩

/-- The statements of a text are stretches of it, one behind the other. -/
theorem stretches_of_parse {cs : List Char} {stmts : List Stmt} (h : parse cs = .ok stmts) :
    (∀ s ∈ stmts, ∃ a b, Stretch cs s.span a b) ∧
      stmts.Pairwise fun s s' => s.span.stop.key ≤ s'.span.start.key := by
  unfold parse at h
  cases hlex : lex cs with
  | error e =>
    rw [hlex] at h
    cases h
  | ok trees =>
    rw [hlex] at h
    obtain ⟨hstands, hrow⟩ := laid_of_lex hlex
    obtain ⟨hstretches, -, hapart⟩ := stretches_of_readStmts hstands hrow h
    exact ⟨hstretches, hapart⟩

/-- The statements of a text that stands behind another one stand in it. -/
theorem within_of_parseAt {front cs : List Char} {stmts : List Stmt}
    (h : parseAt (Position.origin.after front) cs = .ok stmts) {s : Stmt} (hs : s ∈ stmts) :
    (Position.origin.after front).key ≤ s.span.start.key ∧
      s.span.stop.key ≤ ((Position.origin.after front).after cs).key := by
  unfold parseAt at h
  cases hlex : lexFrom (Position.origin.after front) [] [] cs with
  | error e =>
    rw [hlex] at h
    cases h
  | ok trees =>
    rw [hlex] at h
    obtain ⟨hstands, hrow⟩ := laid_of_lexFrom front hlex
    obtain ⟨hstretches, hstarts, -⟩ := stretches_of_readStmts hstands hrow h
    obtain ⟨t, ht, hstart⟩ := hstarts s hs
    obtain ⟨a, b, hstretch⟩ := hstretches s hs
    refine ⟨hstart ▸ le_start_of_lexFrom hlex t ht, ?_⟩
    rw [hstretch.stop, ← Position.after_append]
    conv_rhs => rw [← List.take_append_drop b (front ++ cs), Position.after_append]
    exact Position.key_le_after _ _

end Notebook.Syntax

import Notebook.Proofs.Guest.Reached

/-!
# Code that is refused

Code is refused before it has any effect.  A unit that is nested too deeply or that cannot be read, and a
statement that the checks object to, leave one rejected snippet without a name behind and nothing else, in
the store and in the host (`refused_code_has_no_effect`).
-/

namespace Notebook.Guest
open Notebook.Text Notebook.Scan Notebook.Syntax

/-- The snippet of code that is refused: it has a complaint, and neither a name nor a meaning. -/
def refusal (kind : SnippetKind) (source : List Char) (origin : Position) (d : Diagnostic) : Record :=
  { kind, source, status := .rejected, name := none, origin, diagnostics := [d] }

/-- Nothing has been done but to keep a rejected snippet under the next number, to which no name is
bound, and to tell of it. -/
def Store.Refuses {σ : Type} (s : Store) (w : σ)
    (after : Except Interruption (List SnippetEvent) × Store × σ) : Prop :=
  ∃ kind source origin d e, e = (refusal kind source origin d).begun (s.records.length + 1) .rejected none ∧
    after = (.ok [e], { s with records := s.records ++ [refusal kind source origin d] }, w) ∧
    e.cause = none ∧ ∀ name, s.binding? name ≠ some (s.records.length + 1)

namespace Store

theorem Bound.binding?_ne_next {s : Store} (hs : s.Bound) (name : String) :
    s.binding? name ≠ some (s.records.length + 1) := by
  intro hid
  obtain ⟨r, hr, -⟩ := hs name _ hid
  rw [s.record?_eq_none _ (Nat.lt_succ_self _)] at hr
  cases hr

/-! ## The snippet of refused code -/

theorem update_allocate (s : Store) (r : Record) (f : Record → Record) :
    (s.allocate r).2.update (s.records.length + 1) f = (s.allocate (f r)).2 := by
  unfold update allocate
  rw [if_neg (Nat.succ_ne_zero _)]
  refine congrArg (fun records => ({ s with records } : Store)) ?_
  change (s.records ++ [r]).modify s.records.length f = _
  rw [List.modify_eq_set_getElem?]
  simp

theorem reject_eq (s : Store) (kind : SnippetKind) (source : List Char) (origin : Position)
    (d : Diagnostic) :
    s.reject kind source origin d =
      ([(refusal kind source origin d).begun (s.records.length + 1) .rejected none],
        { s with records := s.records ++ [refusal kind source origin d] }) := by
  have hself := s.record?_allocate { kind, source, name := none, origin, diagnostics := [d] }
    (s.records.length + 1)
  rw [if_pos rfl] at hself
  have hfinish := finish_eq hself .rejected none false
  rw [if_neg Bool.false_ne_true, update_allocate] at hfinish
  exact hfinish

/-! ## Snippets that take their place -/

theorem status_supersede (s : Store) (name : String) (id : SnippetId) :
    ∀ e ∈ (s.supersede name id).1, e.status = .overwritten := by
  have htransition (t : Store) (p : SnippetId) :
      ∀ e ∈ (t.transition p .overwritten (some id)).1, e.status = .overwritten := by
    unfold transition
    cases t.record? p with
    | none => exact fun _ he => absurd he List.not_mem_nil
    | some r => exact List.forall_mem_singleton.2 rfl
  unfold supersede
  cases s.binding? name with
  | none => exact fun _ he => absurd he List.not_mem_nil
  | some p =>
    dsimp only
    split
    · exact htransition _ p
    · exact fun _ he => absurd he List.not_mem_nil

theorem Looks.status_isActive {cause : SnippetId} {s s' : Store} {events : List SnippetEvent}
    (h : Looks cause s events s') : ∀ e ∈ events, e.status.isActive = true := by
  induction h with
  | done => exact fun _ he => absurd he List.not_mem_nil
  | @look s s' events id r d hr hd hactive _ ih =>
    exact List.forall_mem_cons.2 ⟨Record.isActive_rechecked r d s.globals, ih⟩

/-- A snippet that is not rejected brings about no event of a rejected snippet. -/
theorem status_ne_rejected_finish (s : Store) (id : SnippetId) {status : Status} (fault : Option FaultReport)
    (binds : Bool) (hstatus : status ≠ .rejected) :
    ∀ e ∈ (s.finish id status fault binds).1, e.status ≠ .rejected := by
  cases hr : s.record? id with
  | none =>
    unfold finish
    rw [hr]
    exact fun _ he => absurd he List.not_mem_nil
  | some r =>
    rw [finish_eq hr]
    split
    · exact List.forall_mem_singleton.2 hstatus
    · rw [bindName_eq]
      refine List.forall_mem_cons.2 ⟨hstatus, fun e he hrejected => ?_⟩
      rcases List.mem_append.1 he with he | he
      · rw [status_supersede _ _ id e he] at hrejected
        cases hrejected
      · have hactive := (recheckDependents_looks _ _ id).status_isActive e he
        rw [hrejected] at hactive
        cases hactive

end Store

/-! ## Evaluating a statement -/

namespace Engine

variable {σ α : Type}

/-- Nothing is told of a rejected snippet. -/
def Accepts (after : Except Interruption (List SnippetEvent) × Store × σ) : Prop :=
  ∀ events, after.1 = .ok events → ∀ e ∈ events, e.status ≠ .rejected

theorem accepts_bind {x : Engine σ α} {f : α → Engine σ (List SnippetEvent)}
    (hf : ∀ a s w, Accepts (outcome (f a) s w)) (s : Store) (w : σ) : Accepts (outcome (x >>= f) s w) := by
  rw [outcome_bind]
  rcases outcome x s w with ⟨i | a, t, v⟩
  · exact fun events h => by cases h
  · exact hf a t v

theorem accepts_finish (id : SnippetId) {status : Status} (fault : Option FaultReport) (binds : Bool)
    (hstatus : status ≠ .rejected) (s : Store) (w : σ) :
    Accepts (outcome (onStore fun s => s.finish id status fault binds) s w) := by
  intro events h
  rw [outcome_onStore] at h
  cases h
  exact s.status_ne_rejected_finish id fault binds hstatus

/-- The code has been refused without any effect, or what is told is of snippets that are not rejected. -/
def Sifts (s : Store) (w : σ) (after : Except Interruption (List SnippetEvent) × Store × σ) : Prop :=
  s.Refuses w after ∨ Accepts after

variable (calls : HostCalls σ) (fuel : Nat) {s : Store} (hs : s.Bound) (w : σ)

include hs

theorem refuses_reject (kind : SnippetKind) (piece : Slice) (e : CheckError) :
    s.Refuses w (outcome (reject kind piece e) s w) := by
  unfold reject
  rw [outcome_onStore, Store.reject_eq]
  exact ⟨kind, piece.source, piece.origin, e.diagnostic piece.origin, _, rfl, rfl, rfl, hs.binding?_ne_next⟩

theorem sifts_declare (d : Declaration) (piece : Slice) :
    Sifts s w (outcome (declare d piece) s w) := by
  unfold declare
  rw [outcome_bind, outcome_store]
  dsimp only
  cases hd : d.analyze s.globals with
  | error e => exact .inl (refuses_reject hs w .declaration piece e)
  | ok a =>
    have hstatus : a.status ≠ .rejected := by
      intro hrejected
      have hactive := isActive_of_analyze hd
      rw [hrejected] at hactive
      cases hactive
    exact .inr (accepts_bind (fun id => accepts_finish id none true hstatus) s w)

theorem sifts_importTree (t : ImportTree) (piece : Slice) :
    Sifts s w (outcome (importTree t piece) s w) := by
  unfold importTree
  rw [outcome_bind, outcome_store]
  dsimp only
  split
  · exact .inr (accepts_bind (fun id => accepts_finish id none true Status.noConfusion) s w)
  · exact .inl (refuses_reject hs w .imports piece _)

theorem sifts_declareVariable (name : String) (annotated : Option TypeExpr) (value : Expr)
    (piece : Slice) : Sifts s w (outcome (declareVariable calls fuel name annotated value piece) s w) := by
  unfold declareVariable
  rw [outcome_bind, outcome_store]
  dsimp only
  cases checkStrictly s (checkInitial annotated value) with
  | error e => exact .inl (refuses_reject hs w .declaration piece e)
  | ok checked =>
    -- whatever the initial value comes to, the variable is there afterwards
    refine .inr (accepts_bind (fun id => accepts_bind fun result => ?_) s w)
    cases result with
    | ok v => exact accepts_bind fun _ => accepts_bind fun _ => accepts_finish id _ true Status.noConfusion
    | error f =>
      exact accepts_bind fun _ => accepts_bind fun _ => accepts_finish id _ true Status.noConfusion

theorem sifts_evaluateExpr (e : Expr) (piece : Slice) :
    Sifts s w (outcome (evaluateExpr calls fuel e piece) s w) := by
  unfold evaluateExpr
  rw [outcome_bind, outcome_store]
  dsimp only
  cases checkStrictly s fun c => Check.expr c false e with
  | error error => exact .inl (refuses_reject hs w _ piece error)
  | ok checked =>
    obtain ⟨ty, refs⟩ := checked
    dsimp only
    split
    · refine .inr (accepts_bind (fun id => accepts_bind fun result => accepts_bind fun _ => ?_) s w)
      exact accepts_finish id _ false Status.noConfusion
    · refine .inr (accepts_bind (fun t => accepts_bind fun _ => accepts_bind fun id =>
        accepts_bind fun result => ?_) s w)
      cases result with
      | ok v => exact accepts_bind fun _ => accepts_finish id none true Status.noConfusion
      | error f => exact accepts_finish id (some f.report) false Status.noConfusion

/-- A statement is refused without any effect, or what it tells is of snippets that are not rejected. -/
theorem sifts_evaluateStmt (stmt : Stmt) (piece : Slice) :
    Sifts s w (outcome (evaluateStmt calls fuel stmt piece) s w) := by
  cases stmt with
  | bind p value keyword _ =>
    unfold evaluateStmt
    dsimp only
    split
    · exact .inl (refuses_reject hs w .declaration piece _)
    · exact .inl (refuses_reject hs w .declaration piece _)
    · exact sifts_declareVariable calls fuel hs w _ _ _ piece
  | expr e _ _ => exact sifts_evaluateExpr calls fuel hs w e piece
  | item i span =>
    cases i with
    | constant name type value => exact sifts_declareVariable calls fuel hs w name (some type) value piece
    | function h body => exact sifts_declare hs w (.function h body) piece
    | struct d => exact sifts_declare hs w (.struct d) piece
    | imports t => exact sifts_importTree hs w t piece
    | other => exact .inl (refuses_reject hs w .declaration piece _)

omit hs

/-! ## Evaluating a unit -/

/-- What an evaluation comes to if some events have been told before. -/
def prepend (events : List SnippetEvent) :
    Except Interruption (List SnippetEvent) × Store × σ → Except Interruption (List SnippetEvent) × Store × σ
  | (.ok more, s, w) => (.ok (events ++ more), s, w)
  | (.error i, s, w) => (.error i, s, w)

theorem prepend_nil (after : Except Interruption (List SnippetEvent) × Store × σ) :
    prepend [] after = after := by
  rcases after with ⟨i | more, s, w⟩ <;> rfl

theorem prepend_append (events more : List SnippetEvent)
    (after : Except Interruption (List SnippetEvent) × Store × σ) :
    prepend (events ++ more) after = prepend events (prepend more after) := by
  rcases after with ⟨i | last, s, w⟩
  · rfl
  · simp only [prepend, List.append_assoc]

theorem outcome_evaluateStmts_cons {stmt : Stmt} {piece : Slice} {events : List SnippetEvent} {s t : Store}
    {w v : σ} (h : outcome (evaluateStmt calls fuel stmt piece) s w = (.ok events, t, v))
    (rest : List (Stmt × Slice)) :
    outcome (evaluateStmts calls fuel ((stmt, piece) :: rest)) s w =
      prepend events (outcome (evaluateStmts calls fuel rest) t v) := by
  rw [evaluateStmts, outcome_bind, h]
  dsimp only
  rw [outcome_bind]
  rcases outcome (evaluateStmts calls fuel rest) t v with ⟨i | more, s', w'⟩ <;> rfl

/-- Once the first statements have been evaluated, the others are evaluated from there on. -/
theorem outcome_evaluateStmts_append {before : List (Stmt × Slice)} {earlier : List SnippetEvent}
    {s t : Store} {w v : σ} (h : outcome (evaluateStmts calls fuel before) s w = (.ok earlier, t, v))
    (rest : List (Stmt × Slice)) :
    outcome (evaluateStmts calls fuel (before ++ rest)) s w =
      prepend earlier (outcome (evaluateStmts calls fuel rest) t v) := by
  induction before generalizing s w earlier with
  | nil =>
    cases h
    exact (prepend_nil _).symm
  | cons first before ih =>
    obtain ⟨stmt, piece⟩ := first
    obtain ⟨events, t', v', hstmt, h⟩ := outcome_of_bind_ok h
    obtain ⟨more, t'', v'', hbefore, h⟩ := outcome_of_bind_ok h
    cases h
    rw [List.cons_append, outcome_evaluateStmts_cons calls fuel hstmt, ih hbefore, prepend_append]

/-- A unit that can be read is evaluated statement by statement. -/
theorem outcome_evaluate_of_parse {s : Store} (hlive : s.stopped = false) {unit : List Char}
    {stmts : List Stmt} (hnesting : nestingOverflow? unit nestingLimit = none)
    (hparse : parseUnit unit = .ok stmts) (w : σ) :
    outcome (evaluate calls fuel unit) s w =
      outcome (evaluateStmts calls fuel (stmts.zip (Slice.ofStmts unit stmts))) s w := by
  unfold evaluate
  rw [outcome_bind, outcome_store]
  dsimp only
  rw [hlive, if_neg Bool.false_ne_true, hnesting]
  dsimp only
  rw [hparse]

/-- A unit that is nested too deeply or cannot be read is refused. -/
theorem refuses_evaluate {s : Store} (hs : s.Bound) (hlive : s.stopped = false) {unit : List Char}
    (h : (nestingOverflow? unit nestingLimit).isSome = true ∨ ∃ e, parseUnit unit = .error e) (w : σ) :
    s.Refuses w (outcome (evaluate calls fuel unit) s w) := by
  unfold evaluate
  rw [outcome_bind, outcome_store]
  dsimp only
  rw [hlive, if_neg Bool.false_ne_true]
  cases hnesting : nestingOverflow? unit nestingLimit with
  | some t => exact refuses_reject hs w (guessKind unit) (.whole unit) _
  | none =>
    rw [hnesting] at h
    obtain ⟨e, he⟩ := h.resolve_left Bool.false_ne_true
    dsimp only
    rw [he]
    exact refuses_reject hs w (guessKind unit) (.whole unit) _

end Engine

open Engine in
/-- Code that is refused has no effect, unless the engine has been stopped, when it takes no code at all.
A unit that is nested too deeply or cannot be read leaves one rejected snippet and runs no statement. A
unit that can be read is evaluated statement by statement, and a statement of it that tells of a rejected
snippet has changed nothing but to leave that snippet, whatever the statements before it have done. -/
theorem refused_code_has_no_effect {σ : Type} (calls : HostCalls σ) {s : Store} {w : σ}
    (hs : Reached calls s w) (hlive : s.stopped = false) (fuel : Nat) (unit : List Char) :
    ((nestingOverflow? unit nestingLimit).isSome = true ∨ (∃ e, parseUnit unit = .error e) →
      s.Refuses w (outcome (evaluate calls fuel unit) s w)) ∧
    ∀ stmts before stmt piece rest earlier events t v t' v',
      nestingOverflow? unit nestingLimit = none → parseUnit unit = .ok stmts →
      stmts.zip (Slice.ofStmts unit stmts) = before ++ (stmt, piece) :: rest →
      outcome (evaluateStmts calls fuel before) s w = (.ok earlier, t, v) →
      outcome (evaluateStmt calls fuel stmt piece) t v = (.ok events, t', v') →
      outcome (evaluate calls fuel unit) s w =
          prepend (earlier ++ events) (outcome (evaluateStmts calls fuel rest) t' v') ∧
        ((∃ e ∈ events, e.status = .rejected) → t.Refuses v (.ok events, t', v')) := by
  refine ⟨fun h => refuses_evaluate calls fuel hs.bound hlive h w, ?_⟩
  intro stmts before stmt piece rest earlier events t v t' v' hnesting hparse hstmts hbefore hstmt
  refine ⟨?_, fun ⟨e, he, hrejected⟩ => ?_⟩
  · rw [outcome_evaluate_of_parse calls fuel hlive hnesting hparse, hstmts,
      outcome_evaluateStmts_append calls fuel hbefore, outcome_evaluateStmts_cons calls fuel hstmt,
      prepend_append]
  · have hreached := hs.statements fuel before
    rw [hbefore] at hreached
    have hsifts := sifts_evaluateStmt calls fuel hreached.bound v stmt piece
    rw [hstmt] at hsifts
    rcases hsifts with hrefuses | haccepts
    · exact hrefuses
    · exact (haccepts events rfl e he hrejected).elim

/-- Its second statement uses a name that is not there, after the first one has declared a variable. -/
def refusedInTheMiddle : List Char := "let a = 1; let b = c; a".toList

/-- A unit that cannot be read. -/
def unreadable : List Char := "let = 1;".toList

theorem parseUnit_unreadable : ∃ e, parseUnit unreadable = .error e := by
  have hnone : (parseUnit unreadable).toOption = none := by decide +kernel
  cases hparse : parseUnit unreadable with
  | error e => exact ⟨e, rfl⟩
  | ok stmts =>
    rw [hparse] at hnone
    cases hnone

open Engine in
theorem statement_refused_in_the_middle :
    Reached errorCalls {} () ∧ ({} : Store).stopped = false ∧ (∃ e, parseUnit unreadable = .error e) ∧
      ({} : Store).Refuses () (outcome (evaluate errorCalls 20 unreadable) {} ()) ∧
      ∃ stmts before stmt piece rest earlier events t v t' v',
        nestingOverflow? refusedInTheMiddle nestingLimit = none ∧
        parseUnit refusedInTheMiddle = .ok stmts ∧
        stmts.zip (Slice.ofStmts refusedInTheMiddle stmts) = before ++ (stmt, piece) :: rest ∧
        outcome (evaluateStmts errorCalls 20 before) {} () = (.ok earlier, t, v) ∧
        outcome (evaluateStmt errorCalls 20 stmt piece) t v = (.ok events, t', v') ∧
        outcome (evaluate errorCalls 20 refusedInTheMiddle) {} () =
          prepend (earlier ++ events) (outcome (evaluateStmts errorCalls 20 rest) t' v') ∧
        t.binding? "a" = some 1 ∧ (∃ e ∈ events, e.status = .rejected) ∧
        t.Refuses v (.ok events, t', v') := by
  have hnesting : nestingOverflow? refusedInTheMiddle nestingLimit = none :=
    Option.isNone_iff_eq_none.1 (by decide +kernel)
  have hruns : (parseUnit refusedInTheMiddle).toOption.any (fun stmts =>
      let slices := stmts.zip (Slice.ofStmts refusedInTheMiddle stmts)
      let before := outcome (evaluateStmts errorCalls 20 (slices.take 1)) {} ()
      before.1.toOption.isSome && slices[1]?.any fun next =>
        let after := outcome (evaluateStmt errorCalls 20 next.1 next.2) before.2.1 before.2.2
        after.1.toOption.any fun events =>
          decide (before.2.1.binding? "a" = some 1 ∧ ∃ e ∈ events, e.status = .rejected)) = true := by
    decide +kernel
  obtain ⟨stmts, hstmts, hruns⟩ := (Option.any_eq_true _ _).1 hruns
  have hstmts := ok_of_toOption_eq_some hstmts
  obtain ⟨hbefore, hruns⟩ := Bool.and_eq_true_iff.1 hruns
  obtain ⟨earlier, hbefore⟩ := Option.isSome_iff_exists.1 hbefore
  obtain ⟨⟨stmt, piece⟩, hnext, hruns⟩ := (Option.any_eq_true _ _).1 hruns
  obtain ⟨events, hevents, hruns⟩ := (Option.any_eq_true _ _).1 hruns
  obtain ⟨hvariable, hrejected⟩ := of_decide_eq_true hruns
  have hzip := (List.take_append_drop 1 (stmts.zip (Slice.ofStmts refusedInTheMiddle stmts))).symm
  rw [List.drop_eq_getElem?_toList_append, hnext] at hzip
  have hbefore : outcome (evaluateStmts errorCalls 20 _) {} () = (.ok earlier, _, _) :=
    Prod.ext (ok_of_toOption_eq_some hbefore) rfl
  have hstmt : outcome (evaluateStmt errorCalls 20 stmt piece) _ _ = (.ok events, _, _) :=
    Prod.ext (ok_of_toOption_eq_some hevents) rfl
  have hstart : Reached errorCalls {} () := .start ()
  obtain ⟨hunit, hrefuses⟩ := (refused_code_has_no_effect errorCalls hstart rfl 20 refusedInTheMiddle).2
    stmts _ stmt piece _ earlier events _ _ _ _ hnesting hstmts hzip hbefore hstmt
  exact ⟨hstart, rfl, parseUnit_unreadable,
    (refused_code_has_no_effect errorCalls hstart rfl 20 unreadable).1 (.inr parseUnit_unreadable),
    stmts, _, stmt, piece, _, earlier, events, _, _, _, _, hnesting, hstmts, hzip, hbefore, hstmt, hunit,
    hvariable, hrejected, hrefuses hrejected⟩

open Engine in
/-- A stopped engine takes no code, so it keeps no snippet of a unit that cannot be read. -/
theorem stopped_engine_keeps_no_refusal :
    Reached errorCalls (outcome (perform errorCalls .stop) {} ()).2.1 () ∧
      (∃ e, parseUnit unreadable = .error e) ∧
      ¬ (outcome (perform errorCalls .stop) {} ()).2.1.Refuses ()
        (outcome (evaluate errorCalls 20 unreadable) (outcome (perform errorCalls .stop) {} ()).2.1 ()) := by
  refine ⟨(Reached.start ()).request .stop, parseUnit_unreadable, ?_⟩
  rintro ⟨kind, source, origin, d, e, -, hafter, -⟩
  cases hafter

end Notebook.Guest

import Notebook.Proofs.Guest.Records
import Notebook.Guest.Engine

/-!
# What a statement does to the store

A statement that is evaluated to its end makes one snippet and has it take its place
(`evaluateStmt_makes`).  One that is broken off, because the host failed or the fuel ran out, leaves a
snippet without a status.
-/

namespace Notebook.Guest
open Notebook.Text Notebook.Syntax

/-! ## The snippet that a statement makes -/

def Definition.isStruct : Definition → Bool
  | .struct .. => true
  | _ => false

/-- A snippet that is only just there and is no declaration to be looked at again. -/
structure Record.Plain (r : Record) : Prop where
  status : r.status = .nonexistent
  declaration : r.declaration = none
  definition : r.definition.isStruct = false

/-- The second snippet is the first one with what running its code has given it: the names that it
uses and, it may be, a value. -/
def Record.Fills (r r' : Record) : Prop :=
  ∃ definition refs, r' = { r with definition, refs } ∧
    (definition = r.definition ∨ ∃ ty v, definition = .variable ty v)

/-- The snippet of a declaration that has been understood. -/
def Declaration.made (d : Declaration) (a : Analysis) (piece : Slice) : Record :=
  { kind := .declaration, source := piece.source, name := some d.name, origin := piece.origin
    definition := a.definition, refs := a.refs, unresolved := a.unresolved, declaration := some d }

namespace Store

/-- What a statement makes of the store, with the events that tell of it: its code is refused, or it
declares a function or a struct, or it runs and its snippet then takes its place. -/
inductive Makes (s : Store) : List SnippetEvent × Store → Prop
  | refuses (kind : SnippetKind) (source : List Char) (origin : Position) (d : Diagnostic) :
      Makes s (s.reject kind source origin d)
  | declares (d : Declaration) (a : Analysis) (piece : Slice) (h : d.analyze s.globals = .ok a) :
      Makes s ((s.allocate (d.made a piece)).2.finish (s.records.length + 1) a.status none true)
  | runs (nextValue : Nat) (r : Record) (t : Store) (f : Record → Record)
      (fault : Option FaultReport) (binds : Bool) (hnew : r.Plain)
      (hruns : ({ s with nextValue }.allocate r).2.Runs t) (hf : ∀ r, Record.Fills r (f r)) :
      Makes s ((t.update (s.records.length + 1) f).finish (s.records.length + 1) .valid fault binds)

/-- What a statement leaves of the store if it is broken off. -/
def Breaks (s s' : Store) : Prop :=
  ∃ (nextValue : Nat) (r : Record), r.Plain ∧ ({ s with nextValue }.allocate r).2.Runs s'

end Store

/-! ## Evaluating a statement -/

/-- Work that may fail, followed by more work. -/
theorem run_bind {ε τ α β : Type} (x : ExceptT ε (StateM τ) α) (f : α → ExceptT ε (StateM τ) β)
    (t : τ) :
    (ExceptT.run (x >>= f) : StateM τ _).run t =
      match (ExceptT.run x : StateM τ _).run t with
      | (.ok a, t') => (ExceptT.run (f a) : StateM τ _).run t'
      | (.error e, t') => (.error e, t') := by
  simp only [ExceptT.run_bind, StateT.run_bind]
  rcases (ExceptT.run x : StateM τ _).run t with ⟨result, t'⟩
  cases result <;> rfl

namespace Engine

variable {σ α β : Type}

/-- What code comes to from a store and a state of the host on, and what it makes of the two. -/
def outcome (e : Engine σ α) (s : Store) (w : σ) : Except Interruption α × Store × σ :=
  (ExceptT.run e : StateM (Store × σ) _).run (s, w)

theorem outcome_bind (e : Engine σ α) (f : α → Engine σ β) (s : Store) (w : σ) :
    outcome (e >>= f) s w =
      match outcome e s w with
      | (.ok a, s', w') => outcome (f a) s' w'
      | (.error i, s', w') => (.error i, s', w') := by
  unfold outcome
  rw [run_bind]
  rcases (ExceptT.run e : StateM (Store × σ) _).run (s, w) with ⟨i | a, s', w'⟩
  · rfl
  · rfl

theorem outcome_of_bind_ok {e : Engine σ α} {f : α → Engine σ β} {s s' : Store} {w w' : σ} {b : β}
    (h : outcome (e >>= f) s w = (.ok b, s', w')) :
    ∃ a t v, outcome e s w = (.ok a, t, v) ∧ outcome (f a) t v = (.ok b, s', w') := by
  rw [outcome_bind] at h
  rcases he : outcome e s w with ⟨i | a, t, v⟩
  · rw [he] at h
    cases h
  · rw [he] at h
    exact ⟨a, t, v, rfl, h⟩

theorem outcome_onStore (f : Store → α × Store) (s : Store) (w : σ) :
    outcome (onStore f : Engine σ α) s w = (.ok (f s).1, (f s).2, w) := rfl

theorem outcome_changeStore (f : Store → Store) (s : Store) (w : σ) :
    outcome (changeStore f : Engine σ Unit) s w = (.ok (), f s, w) := rfl

theorem outcome_store (s : Store) (w : σ) : outcome (store : Engine σ Store) s w = (.ok s, s, w) := rfl

/-- What an engine makes of the way in which code ends. -/
theorem outcome_run_eq (calls : HostCalls σ) (fuel : Nat) (frame : Frame) (e : Expr) (s : Store) (w : σ) :
    outcome (Engine.run calls fuel frame e) s w =
      match Run.topLevel calls fuel frame e s w with
      | (.value v, t, w') => (.ok (.ok v), t, w')
      | (.fault f, t, w') => (.ok (.error f), t, w')
      | (.panicked message, t, w') => (.error (.panicked message), t, w')
      | (.outOfFuel, t, w') => (.error .outOfFuel, t, w') := by
  unfold Engine.run
  rw [outcome_bind]
  rcases htop : Run.topLevel calls fuel frame e s w with ⟨ending, t, w'⟩
  have hget : outcome (get : Engine σ (Store × σ)) s w = (.ok (s, w), s, w) := rfl
  rw [hget]
  dsimp only
  rw [htop, outcome_bind]
  cases ending <;> rfl

/-- However code that runs ends, it leaves a store that running code can leave. -/
theorem outcome_run (calls : HostCalls σ) (fuel : Nat) (frame : Frame) (e : Expr) (s : Store)
    (w : σ) : s.Runs (outcome (Engine.run calls fuel frame e) s w).2.1 := by
  have hruns := Run.topLevel_runs calls fuel frame e s w
  rw [outcome_run_eq]
  rcases htop : Run.topLevel calls fuel frame e s w with ⟨ending, t, w'⟩
  rw [htop] at hruns
  cases ending <;> exact hruns

end Engine

/-- An evaluation from the store on has made a snippet, or it was broken off. -/
def Store.Yields {σ : Type} (s : Store) : Except Interruption (List SnippetEvent) × Store × σ → Prop
  | (.ok events, s', _) => s.Makes (events, s')
  | (.error _, s', _) => s.Breaks s'

namespace Engine

variable {σ : Type} (calls : HostCalls σ) (fuel : Nat) (s : Store) (w : σ)

theorem yields_reject (kind : SnippetKind) (piece : Slice) (e : CheckError) :
    s.Yields (outcome (reject kind piece e) s w) :=
  Store.Makes.refuses kind piece.source piece.origin (e.diagnostic piece.origin)

theorem yields_declare (d : Declaration) (piece : Slice) :
    s.Yields (outcome (declare d piece) s w) := by
  unfold declare
  rw [outcome_bind, outcome_store]
  dsimp only
  cases hd : d.analyze s.globals with
  | error e => exact yields_reject s w .declaration piece e
  | ok a => exact Store.Makes.declares d a piece hd

theorem yields_importTree (t : ImportTree) (piece : Slice) :
    s.Yields (outcome (importTree t piece) s w) := by
  unfold importTree
  rw [outcome_bind, outcome_store]
  dsimp only
  split
  · have hmade := Store.Makes.runs (s := s) s.nextValue
      { kind := .imports, source := piece.source, origin := piece.origin, definition := .imports
        name := some ("use " ++ String.ofList (compactTokens t.text)) }
      _ id none true ⟨rfl, rfl, rfl⟩ .refl fun r => ⟨_, _, rfl, .inl rfl⟩
    rw [Store.update_id] at hmade
    exact hmade
  · exact yields_reject s w .imports piece _

/-- A snippet whose code runs takes its place afterwards, with what running its code has given it. -/
theorem yields_run (nextValue : Nat) {r : Record} {begun : Store} (hr : r.Plain)
    (hbegun : begun = ({ s with nextValue }.allocate r).2) (frame : Frame) (e : Expr)
    {next : Except Fault Value → Engine σ (List SnippetEvent)}
    (hnext : ∀ result, ∃ f fault binds, (∀ r, Record.Fills r (f r)) ∧ ∀ t w',
      outcome (next result) t w' =
        (.ok ((t.update (s.records.length + 1) f).finish (s.records.length + 1) .valid fault binds).1,
          ((t.update (s.records.length + 1) f).finish (s.records.length + 1) .valid fault binds).2,
          w')) :
    s.Yields (outcome (Engine.run calls fuel frame e >>= next) begun w) := by
  rw [outcome_bind]
  have hruns := outcome_run calls fuel frame e begun w
  rcases hrun : outcome (Engine.run calls fuel frame e) begun w with ⟨i | result, t, w'⟩
  · rw [hrun, hbegun] at hruns
    exact ⟨nextValue, r, hr, hruns⟩
  · rw [hrun, hbegun] at hruns
    obtain ⟨f, fault, binds, hf, hnext⟩ := hnext result
    dsimp only
    rw [hnext]
    exact Store.Makes.runs nextValue r t f fault binds hr hruns hf

theorem yields_declareVariable (name : String) (annotated : Option TypeExpr) (value : Expr)
    (piece : Slice) :
    s.Yields (outcome (declareVariable calls fuel name annotated value piece) s w) := by
  unfold declareVariable
  rw [outcome_bind, outcome_store]
  dsimp only
  cases hc : checkStrictly s (checkInitial annotated value) with
  | error e => exact yields_reject s w .declaration piece e
  | ok checked =>
    obtain ⟨ty, refs⟩ := checked
    dsimp only
    rw [outcome_bind, outcome_onStore]
    refine yields_run calls fuel s w s.nextValue ⟨rfl, rfl, rfl⟩ rfl _ value ?_
    intro result
    cases result with
    | ok v => exact ⟨_, none, true, fun r => ⟨_, _, rfl, .inr ⟨_, _, rfl⟩⟩, fun _ _ => rfl⟩
    | error f =>
      exact ⟨_, some f.report, true, fun r => ⟨_, _, rfl, .inr ⟨_, _, rfl⟩⟩, fun _ _ => rfl⟩

theorem yields_evaluateExpr (e : Expr) (piece : Slice) :
    s.Yields (outcome (evaluateExpr calls fuel e piece) s w) := by
  unfold evaluateExpr
  rw [outcome_bind, outcome_store]
  dsimp only
  cases hc : checkStrictly s (fun c => Check.expr c false e) with
  | error error => exact yields_reject s w _ piece error
  | ok checked =>
    obtain ⟨ty, refs⟩ := checked
    dsimp only
    split
    · rw [outcome_bind, outcome_onStore]
      refine yields_run calls fuel s w s.nextValue ⟨rfl, rfl, rfl⟩ rfl _ e ?_
      intro result
      exact ⟨fun r => { r with refs }, _, false, fun r => ⟨_, _, rfl, .inl rfl⟩, fun _ _ => rfl⟩
    · rw [outcome_bind, outcome_store]
      dsimp only
      rw [outcome_bind, outcome_changeStore]
      dsimp only
      rw [outcome_bind, outcome_onStore]
      refine yields_run calls fuel s w (s.nextValue + 1) ⟨rfl, rfl, rfl⟩ rfl _ e ?_
      intro result
      cases result with
      | ok v => exact ⟨_, none, true, fun r => ⟨_, _, rfl, .inr ⟨_, _, rfl⟩⟩, fun _ _ => rfl⟩
      | error f =>
        -- an expression that fails gives its snippet no value and takes no name
        refine ⟨id, some f.report, false, fun r => ⟨_, _, rfl, .inl rfl⟩, fun t w' => ?_⟩
        rw [Store.update_id]
        rfl

/-- A statement makes a snippet, or it is broken off. -/
theorem evaluateStmt_makes (stmt : Stmt) (piece : Slice) :
    s.Yields (outcome (evaluateStmt calls fuel stmt piece) s w) := by
  cases stmt with
  | bind p value keyword _ =>
    unfold evaluateStmt
    dsimp only
    split
    · exact yields_reject s w .declaration piece _
    · exact yields_reject s w .declaration piece _
    · exact yields_declareVariable calls fuel s w _ _ _ piece
  | expr e _ _ => exact yields_evaluateExpr calls fuel s w e piece
  | item i span =>
    cases i with
    | constant name type value =>
      exact yields_declareVariable calls fuel s w name (some type) value piece
    | function h body => exact yields_declare s w (.function h body) piece
    | struct d => exact yields_declare s w (.struct d) piece
    | imports t => exact yields_importTree s w t piece
    | other => exact yields_reject s w .declaration piece _

/-- What statements leave: what the first one leaves, if it is broken off, and else what the others make of
that. -/
theorem outcome_evaluateStmts_cons_snd (stmt : Stmt) (piece : Slice) (stmts : List (Stmt × Slice)) :
    (outcome (evaluateStmts calls fuel ((stmt, piece) :: stmts)) s w).2 =
      match outcome (evaluateStmt calls fuel stmt piece) s w with
      | (.ok _, s', w') => (outcome (evaluateStmts calls fuel stmts) s' w').2
      | (.error _, s', w') => (s', w') := by
  rw [evaluateStmts, outcome_bind]
  rcases outcome (evaluateStmt calls fuel stmt piece) s w with ⟨i | events, s', w'⟩
  · rfl
  · dsimp only
    rw [outcome_bind]
    rcases outcome (evaluateStmts calls fuel stmts) s' w' with ⟨i | more, s'', w''⟩ <;> rfl

/-- What every statement of a unit keeps, the unit keeps, also if it is broken off. -/
theorem keeps_evaluateStmts {P : Store → σ → Prop} {stmts : List (Stmt × Slice)}
    (hkeeps : ∀ q ∈ stmts, ∀ s w, P s w →
      P (outcome (evaluateStmt calls fuel q.1 q.2) s w).2.1 (outcome (evaluateStmt calls fuel q.1 q.2) s w).2.2)
    (h : P s w) :
    P (outcome (evaluateStmts calls fuel stmts) s w).2.1 (outcome (evaluateStmts calls fuel stmts) s w).2.2 := by
  induction stmts generalizing s w with
  | nil => exact h
  | cons first stmts ih =>
    obtain ⟨stmt, piece⟩ := first
    rw [List.forall_mem_cons] at hkeeps
    have hfirst := hkeeps.1 s w h
    rw [outcome_evaluateStmts_cons_snd]
    rcases houtcome : outcome (evaluateStmt calls fuel stmt piece) s w with ⟨i | events, s', w'⟩
    · rw [houtcome] at hfirst
      exact hfirst
    · rw [houtcome] at hfirst
      exact ih s' w' hkeeps.2 hfirst

end Engine

end Notebook.Guest

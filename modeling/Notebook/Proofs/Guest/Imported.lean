import Notebook.Proofs.Guest.Lasting
import Notebook.Proofs.Guest.Namespace
import Notebook.Proofs.Guest.Reached

/-!
# The names of imports

An import is kept under a name with a space in it. No program can give such a name to anything else, so in
every session what has a name like that means nothing to code (`Engine.each_unmixed_live`).
-/

namespace Notebook.Guest
open Notebook.Text Notebook.Syntax

/-- The name is one that an import could be kept under. -/
def IsImportKey (name : String) : Prop := "use ".toList <+: name.toList

theorem not_isImportKey_of_isWord {name : String} (h : IsWord name) : ¬ IsImportKey name := by
  intro hkey
  exact h.unspaced (hkey.subset (by decide))

theorem not_isImportKey_valueName (k : Nat) : ¬ IsImportKey (valueName k) := by
  unfold IsImportKey
  rw [toList_valueName]
  intro hkey
  exact absurd (List.cons_prefix_cons.1 hkey).1 (by decide)

/-- What a name means that stands for a snippet with the definition. -/
def Definition.meaning? : Definition → Option GlobalKind
  | .variable ty _ => some (.variable ty)
  | .function f => some (.function (f.params.map (·.2)) f.result)
  | .struct .. => some .struct
  | .none | .imports => Option.none

theorem Definition.meaning?_known (d : Definition) : d.known.meaning? = d.meaning? := by
  cases d <;> rfl

/-- The snippet has no name, or one that no import could have. -/
def Record.Sayable (r : Record) : Prop := ∀ name, r.name = some name → ¬ IsImportKey name

/-- If the snippet has a name that an import could have, then it means nothing, and never will. -/
def Record.Unmixed (r : Record) : Prop :=
  ∀ name, r.name = some name → IsImportKey name → r.declaration = none ∧ r.definition.meaning? = none

theorem Record.Sayable.unmixed {r : Record} (h : r.Sayable) : r.Unmixed :=
  fun name hname hkey => absurd hkey (h name hname)

theorem Record.Sayable.sameCode {r r' : Record} (h : r.Sayable) (hcode : r.SameCode r') : r'.Sayable :=
  fun name hname => h name (hcode.name.symm.trans hname)

theorem lasting_unmixed : Record.Lasting Record.Unmixed := by
  refine ⟨fun r d g h hd name hname hkey => ?_, fun r h => h, fun r h => h⟩
  have hname' : r.name = some name := (Record.sameCode_rechecked r d g).name.symm.trans hname
  rw [(h name hname' hkey).1] at hd
  cases hd

theorem Record.Unmixed.of_known {r r' : Record} (h : r.Unmixed) (hknown : r'.known = r.known) : r'.Unmixed := by
  intro name hname hkey
  have hcode := Record.sameCode_of_known hknown
  obtain ⟨hdeclaration, hmeaning⟩ := h name (hcode.name.symm.trans hname) hkey
  have hdefinition : r'.definition.known = r.definition.known := congrArg Record.definition hknown
  refine ⟨hcode.declaration.trans hdeclaration, ?_⟩
  rw [← Definition.meaning?_known, hdefinition, Definition.meaning?_known]
  exact hmeaning

theorem Store.Each.sameBut {s t : Store} (hs : s.Each Record.Unmixed) (h : s.SameBut t) :
    t.Each Record.Unmixed := by
  intro id r hr
  obtain ⟨r', hr', hknown⟩ := h.symm.of_record? hr
  exact (hs id r' hr').of_known hknown.symm

namespace Engine

variable {σ : Type} {s : Store}

/-! ## Statements -/

theorem each_unmixed_reject (hs : s.Each Record.Unmixed) (kind : SnippetKind) (source : List Char)
    (origin : Position) (d : Diagnostic) : (s.reject kind source origin d).2.Each Record.Unmixed := by
  have hallocated := hs.allocate (r := { kind, source, name := none, origin, diagnostics := [d] }) nofun
  exact hallocated.finish lasting_unmixed (hallocated _) none false

/-- A snippet that has a status and its code takes its place. -/
theorem each_unmixed_allocate (hs : s.Each Record.Unmixed) {r : Record} (hr : r.Unmixed) (status : Status) :
    ((s.allocate r).2.finish (s.records.length + 1) status none true).2.Each Record.Unmixed := by
  have hallocated := hs.allocate hr
  exact hallocated.finish lasting_unmixed (hallocated _) none true

section

variable (hs : s.Each Record.Unmixed) (calls : HostCalls σ) (fuel : Nat) (w : σ)

include hs

theorem each_unmixed_declare {d : Declaration} (hname : IsWord d.name) (piece : Slice) :
    (outcome (declare d piece) s w).2.1.Each Record.Unmixed := by
  unfold declare
  rw [outcome_bind, outcome_store]
  dsimp only
  cases d.analyze s.globals with
  | error e => exact each_unmixed_reject hs _ _ _ _
  | ok a =>
    have hsayable : (d.made a piece).Sayable := by
      rintro _ ⟨⟩
      exact not_isImportKey_of_isWord hname
    exact each_unmixed_allocate hs hsayable.unmixed a.status

theorem each_unmixed_importTree (t : ImportTree) (piece : Slice) :
    (outcome (importTree t piece) s w).2.1.Each Record.Unmixed := by
  unfold importTree
  rw [outcome_bind, outcome_store]
  dsimp only
  split
  · exact each_unmixed_allocate hs (r := {
      kind := .imports, source := piece.source, origin := piece.origin, definition := .imports
      name := some ("use " ++ String.ofList (compactTokens t.text)) }) (fun _ _ _ => ⟨rfl, rfl⟩) .valid
  · exact each_unmixed_reject hs _ _ _ _

/-- A snippet that code runs for, and which then takes its place with what the code has given it. -/
theorem each_unmixed_run (nextValue : Nat) {r : Record} (hr : r.Sayable) {begun : Store}
    (hbegun : begun = ({ s with nextValue }.allocate r).2) (frame : Frame) (e : Expr)
    {next : Except Fault Value → Engine σ (List SnippetEvent)}
    (hnext : ∀ result, ∃ f fault binds, (∀ r, Record.Fills r (f r)) ∧
      ∀ t w', (outcome (next result) t w').2.1 =
        ((t.update (s.records.length + 1) f).finish (s.records.length + 1) .valid fault binds).2) :
    (outcome (Engine.run calls fuel frame e >>= next) begun w).2.1.Each Record.Unmixed := by
  have heach : begun.Each Record.Unmixed := by
    rw [hbegun]
    exact Store.Each.allocate (hs.of_records_eq rfl) hr.unmixed
  have hself : begun.record? (s.records.length + 1) = some r := by
    rw [hbegun, Store.record?_allocate, if_pos rfl]
  have hruns := outcome_run calls fuel frame e begun w
  rw [outcome_bind]
  rcases hrun : outcome (Engine.run calls fuel frame e) begun w with ⟨i | result, t, w'⟩
  · rw [hrun] at hruns
    exact heach.sameBut hruns.sameBut
  · rw [hrun] at hruns
    have hran : t.Each Record.Unmixed := heach.sameBut hruns.sameBut
    obtain ⟨f, fault, binds, hf, hends⟩ := hnext result
    have hfilled : (t.update (s.records.length + 1) f).Each Record.Unmixed := by
      refine hran.update fun r' hr' => ?_
      -- the snippet has the name that it was made with
      obtain ⟨r₁, hr₁, hknown⟩ := hruns.sameBut.of_record? hself
      cases hr'.symm.trans hr₁
      have hkept := hr.sameCode (Record.sameCode_of_known hknown)
      exact (hkept.sameCode (Record.sameCode_of_fills (hf r'))).unmixed
    dsimp only
    rw [hends]
    exact hfilled.finish lasting_unmixed (hfilled _) fault binds

theorem each_unmixed_declareVariable {name : String} (hname : IsWord name) (annotated : Option TypeExpr)
    (value : Expr) (piece : Slice) :
    (outcome (declareVariable calls fuel name annotated value piece) s w).2.1.Each Record.Unmixed := by
  have hsayable (r : Record) (hr : r.name = some name) : r.Sayable := by
    intro name' hname'
    cases hr.symm.trans hname'
    exact not_isImportKey_of_isWord hname
  unfold declareVariable
  rw [outcome_bind, outcome_store]
  dsimp only
  cases checkStrictly s (checkInitial annotated value) with
  | error e => exact each_unmixed_reject hs _ _ _ _
  | ok checked =>
    obtain ⟨ty, refs⟩ := checked
    dsimp only
    rw [outcome_bind, outcome_onStore]
    refine each_unmixed_run hs calls fuel w s.nextValue (hsayable _ rfl) rfl _ value fun result => ?_
    cases result with
    | ok v => exact ⟨_, none, true, fun r => ⟨_, _, rfl, .inr ⟨_, _, rfl⟩⟩, fun _ _ => rfl⟩
    | error f => exact ⟨_, some f.report, true, fun r => ⟨_, _, rfl, .inr ⟨_, _, rfl⟩⟩, fun _ _ => rfl⟩

theorem each_unmixed_evaluateExpr (e : Expr) (piece : Slice) :
    (outcome (evaluateExpr calls fuel e piece) s w).2.1.Each Record.Unmixed := by
  unfold evaluateExpr
  rw [outcome_bind, outcome_store]
  dsimp only
  cases checkStrictly s (fun c => Check.expr c false e) with
  | error error => exact each_unmixed_reject hs _ _ _ _
  | ok checked =>
    obtain ⟨ty, refs⟩ := checked
    dsimp only
    split
    · rw [outcome_bind, outcome_onStore]
      refine each_unmixed_run hs calls fuel w s.nextValue (fun _ hname => by cases hname) rfl _ e fun result => ?_
      exact ⟨fun r => { r with refs }, _, false, fun r => ⟨_, _, rfl, .inl rfl⟩, fun _ _ => rfl⟩
    · rw [outcome_bind, outcome_store]
      dsimp only
      rw [outcome_bind, outcome_changeStore]
      dsimp only
      rw [outcome_bind, outcome_onStore]
      refine each_unmixed_run hs calls fuel w (s.nextValue + 1) ?_ rfl _ e fun result => ?_
      · intro name hname
        obtain rfl := Option.some.inj hname
        exact not_isImportKey_valueName s.nextValue
      · cases result with
        | ok v => exact ⟨_, none, true, fun r => ⟨_, _, rfl, .inr ⟨_, _, rfl⟩⟩, fun _ _ => rfl⟩
        | error f =>
          -- an expression that fails gives its snippet nothing
          refine ⟨id, some f.report, false, fun r => ⟨_, _, rfl, .inl rfl⟩, fun t w' => ?_⟩
          rw [Store.update_id]
          rfl

theorem each_unmixed_evaluateStmt {stmt : Stmt} (hstmt : stmt.Plain) (piece : Slice) :
    (outcome (evaluateStmt calls fuel stmt piece) s w).2.1.Each Record.Unmixed := by
  cases stmt with
  | bind p value keyword _ =>
    unfold evaluateStmt
    dsimp only
    split
    · exact each_unmixed_reject hs _ _ _ _
    · exact each_unmixed_reject hs _ _ _ _
    · rename_i name annotated e hbinding
      exact each_unmixed_declareVariable hs calls fuel w (hstmt name annotated hbinding) annotated e piece
  | expr e _ _ => exact each_unmixed_evaluateExpr hs calls fuel w e piece
  | item i span =>
    cases i with
    | constant name type value =>
      exact each_unmixed_declareVariable hs calls fuel w hstmt (some type) value piece
    | function h body => exact each_unmixed_declare hs w (d := .function h body) hstmt piece
    | struct d => exact each_unmixed_declare hs w (d := .struct d) hstmt piece
    | imports t => exact each_unmixed_importTree hs w t piece
    | other => exact each_unmixed_reject hs _ _ _ _

end

/-! ## Requests -/

theorem each_unmixed_evaluateStmts (calls : HostCalls σ) (fuel : Nat) (stmts : List (Stmt × Slice))
    (hstmts : ∀ stmt ∈ stmts, stmt.1.Plain) (hs : s.Each Record.Unmixed) (w : σ) :
    (outcome (evaluateStmts calls fuel stmts) s w).2.1.Each Record.Unmixed :=
  keeps_evaluateStmts calls fuel s w (P := fun s _ => s.Each Record.Unmixed)
    (fun q hq _ w hs => each_unmixed_evaluateStmt hs calls fuel w (hstmts q hq) q.2) hs

theorem each_unmixed_evaluate (calls : HostCalls σ) (fuel : Nat) (unit : List Char)
    (hs : s.Each Record.Unmixed) (w : σ) :
    (outcome (evaluate calls fuel unit) s w).2.1.Each Record.Unmixed := by
  unfold evaluate
  rw [outcome_bind, outcome_store]
  dsimp only
  split
  · exact hs
  · split
    · exact each_unmixed_reject hs _ _ _ _
    · split
      · exact each_unmixed_reject hs _ _ _ _
      · rename_i stmts hparse
        refine each_unmixed_evaluateStmts calls fuel _ (fun stmt hstmt => ?_) hs w
        exact parseUnit_declares hparse stmt.1 (List.of_mem_zip hstmt).1

theorem each_unmixed_perform (calls : HostCalls σ) (request : Request σ) (hs : s.Each Record.Unmixed)
    (hbound : s.Bound) (w : σ) : (outcome (perform calls request) s w).2.1.Each Record.Unmixed := by
  cases request with
  | evaluate fuel unit => exact each_unmixed_evaluate calls fuel unit hs w
  | drop id => exact hs.drop lasting_unmixed hbound id
  | bindHost name object =>
    unfold perform
    rw [outcome_onStore]
    unfold Store.bindHost
    split_ifs
    · exact hs.of_records_eq rfl
    · exact hs
  | addLibrary path =>
    show (s.addLibrary path).Each Record.Unmixed
    unfold Store.addLibrary
    split
    · exact hs.of_records_eq rfl
    · exact hs
  | takeOutput => exact hs.of_records_eq rfl
  | stop => exact hs.of_records_eq rfl
  | host change => exact hs

/-- Whatever a session is asked for, what has a name that an import could have means nothing. -/
theorem each_unmixed_live (calls : HostCalls σ) (requests : List (Request σ)) (hs : s.Each Record.Unmixed)
    (hbound : s.Bound) (w : σ) :
    (live calls requests s w).2.1.Each Record.Unmixed ∧ (live calls requests s w).2.1.Bound := by
  induction requests generalizing s w with
  | nil => exact ⟨hs, hbound⟩
  | cons request requests ih =>
    exact ih (each_unmixed_perform calls request hs hbound w) (bound_perform request hbound w) _

end Engine

end Notebook.Guest

import Notebook.Proofs.Guest.Naming
import Notebook.Proofs.Guest.Resolution

/-!
# The names of a session

At any time, the names of a session are a partial function to the snippets that take part in it
(`names_are_held`).  Every request keeps names and snippets together: a statement gives its name to one new
snippet, and nothing else but a drop takes a name away.
-/

namespace Notebook.Guest
open Notebook.Text Notebook.Syntax

namespace Store

theorem named_empty : Named [] ({} : Store) := by
  have hnone (id : SnippetId) (name : String) : ¬ ({} : Store).Carries id name := by
    rintro ⟨r, hr, -⟩
    have hle := le_length_of_record? hr
    exact absurd (pos_of_record? hr) (Nat.not_lt.2 hle)
  have hfailed (id : SnippetId) : ¬ Failed [] id := by
    rintro ⟨e, he, -⟩
    cases he
  refine ⟨List.nodup_nil, bound_empty, ?_, ?_, ?_, ?_, ?_, ?_⟩
  · exact fun i j name hi => absurd hi (hnone i name)
  · exact fun _ id name hid => absurd hid (hnone id name)
  · exact fun id name hid => absurd hid (hfailed id)
  · exact fun id hid => absurd hid (hfailed id)
  · exact fun id name hid => absurd hid (hfailed id)
  · exact fun id name hid => absurd hid (hnone id name)

/-- What an evaluation leaves is in order, also if it was broken off. -/
def EndsWorking {σ : Type} (events : List SnippetEvent) :
    Except Interruption (List SnippetEvent) × Store × σ → Prop
  | (.ok more, s, _) => s.Working (events ++ more)
  | (.error _, s, _) => s.Working events

end Store

/-! ## Statements -/

namespace Engine

variable {σ : Type} {s : Store} {events : List SnippetEvent}

/-- What an import is kept under is no made-up name. -/
theorem not_isMadeUp_importKey (text : List Char) : ¬ IsMadeUp ("use " ++ String.ofList text) := by
  unfold IsMadeUp
  rw [String.toList_append]
  intro h
  have hhead : ("use ".toList ++ (String.ofList text).toList).head? = some 'u' := rfl
  rw [hhead] at h
  exact absurd h (by decide)

section

variable (hs : s.Working events) (calls : HostCalls σ) (fuel : Nat) (w : σ)

include hs

theorem working_reject (kind : SnippetKind) (piece : Slice) (e : CheckError) :
    Store.EndsWorking events (outcome (reject kind piece e) s w) :=
  hs.finish_unnamed (Store.begins_allocate rfl) rfl .rejected fun _ => rfl

theorem working_declare {d : Declaration} (hname : ¬ IsMadeUp d.name) (piece : Slice) :
    Store.EndsWorking events (outcome (declare d piece) s w) := by
  unfold declare
  rw [outcome_bind, outcome_store]
  dsimp only
  cases hd : d.analyze s.globals with
  | error e => exact working_reject hs w .declaration piece e
  | ok a =>
    exact hs.finish_named (Store.begins_allocate rfl) rfl (Store.free_of_not_isMadeUp hname)
      (isActive_of_analyze hd) fun _ => rfl

theorem working_importTree (t : ImportTree) (piece : Slice) :
    Store.EndsWorking events (outcome (importTree t piece) s w) := by
  unfold importTree
  rw [outcome_bind, outcome_store]
  dsimp only
  split
  · exact hs.finish_named (Store.begins_allocate rfl) rfl
      (Store.free_of_not_isMadeUp (not_isMadeUp_importKey _)) rfl fun _ => rfl
  · exact working_reject hs w .imports piece _

/-- Code that runs for a new snippet touches no names, and the snippet then takes its place. -/
theorem working_run {r : Record} {begun : Store} (hbegins : s.Begins r begun) (frame : Frame) (e : Expr)
    {next : Except Fault Value → Engine σ (List SnippetEvent)}
    (hnext : ∀ result t w', s.Begins r t → Store.EndsWorking events (outcome (next result) t w')) :
    Store.EndsWorking events (outcome (Engine.run calls fuel frame e >>= next) begun w) := by
  have hruns := outcome_run calls fuel frame e begun w
  rw [outcome_bind]
  rcases hrun : outcome (Engine.run calls fuel frame e) begun w with ⟨i | result, t, w'⟩
  · rw [hrun] at hruns
    exact hs.of_sameNames (hbegins.runs hruns).names
  · rw [hrun] at hruns
    exact hnext result t w' (hbegins.runs hruns)

theorem working_declareVariable {name : String} (hname : ¬ IsMadeUp name) (annotated : Option TypeExpr)
    (value : Expr) (piece : Slice) :
    Store.EndsWorking events (outcome (declareVariable calls fuel name annotated value piece) s w) := by
  unfold declareVariable
  rw [outcome_bind, outcome_store]
  dsimp only
  cases checkStrictly s (checkInitial annotated value) with
  | error e => exact working_reject hs w .declaration piece e
  | ok checked =>
    obtain ⟨ty, refs⟩ := checked
    dsimp only
    rw [outcome_bind, outcome_onStore]
    refine working_run hs calls fuel w (Store.begins_allocate rfl) _ value fun result t w' ht => ?_
    have hfree := s.free_of_not_isMadeUp hname
    have hfill (v : Value) := ht.fill (f := fun r =>
      { r with definition := .variable (settledType ty v) v, refs }) fun r => ⟨_, _, rfl, .inr ⟨_, _, rfl⟩⟩
    -- a variable takes its name in any case, and a declaration is no expression
    cases result with
    | ok v => exact hs.finish_named (hfill v) rfl hfree rfl fun h => by cases h
    | error f => exact hs.finish_named (hfill _) rfl hfree rfl fun h => by cases h

theorem working_evaluateExpr (e : Expr) (piece : Slice) :
    Store.EndsWorking events (outcome (evaluateExpr calls fuel e piece) s w) := by
  unfold evaluateExpr
  rw [outcome_bind, outcome_store]
  dsimp only
  cases checkStrictly s (fun c => Check.expr c false e) with
  | error error => exact working_reject hs w _ piece error
  | ok checked =>
    obtain ⟨ty, refs⟩ := checked
    dsimp only
    split
    · rw [outcome_bind, outcome_onStore]
      refine working_run hs calls fuel w (Store.begins_allocate rfl) _ e fun result t w' ht => ?_
      have hfill := ht.fill (f := fun r => { r with refs }) fun r => ⟨_, _, rfl, .inl rfl⟩
      exact hs.finish_unnamed hfill rfl .valid fun h => by cases h
    · rw [outcome_bind, outcome_store]
      dsimp only
      rw [outcome_bind, outcome_changeStore]
      dsimp only
      rw [outcome_bind, outcome_onStore]
      -- the name is counted before the snippet is there
      have hcounted : s.SameNames { s with nextValue := s.nextValue + 1 } :=
        Store.sameNames_of_eq rfl rfl rfl (Nat.le_succ _)
      have hs' := hs.of_sameNames hcounted
      have hfree := hs.named.free_valueName
      refine working_run hs' calls fuel w (Store.begins_allocate rfl) _ e fun result t w' ht => ?_
      cases result with
      | ok v =>
        have hfill := ht.fill (f := fun r =>
          { r with definition := .variable (settledType ty v) v, refs })
          fun r => ⟨_, _, rfl, .inr ⟨_, _, rfl⟩⟩
        exact hs'.finish_named hfill rfl hfree rfl fun _ => rfl
      | error f => exact hs'.finish_failed ht rfl (isMadeUp_valueName _) hfree rfl f.report

/-- A statement that declares no made-up name leaves names and snippets in order. -/
theorem working_evaluateStmt {stmt : Stmt} (hstmt : stmt.Plain) (piece : Slice) :
    Store.EndsWorking events (outcome (evaluateStmt calls fuel stmt piece) s w) := by
  cases stmt with
  | bind p value keyword _ =>
    unfold evaluateStmt
    dsimp only
    split
    · exact working_reject hs w .declaration piece _
    · exact working_reject hs w .declaration piece _
    · rename_i name annotated e hbinding
      exact working_declareVariable hs calls fuel w (hstmt name annotated hbinding).notMadeUp annotated e piece
  | expr e _ _ => exact working_evaluateExpr hs calls fuel w e piece
  | item i span =>
    cases i with
    | constant name type value =>
      exact working_declareVariable hs calls fuel w (IsWord.notMadeUp hstmt) (some type) value piece
    | function h body =>
      have hname : ¬ IsMadeUp (Declaration.function h body).name := IsWord.notMadeUp hstmt
      exact working_declare hs w hname piece
    | struct d =>
      have hname : ¬ IsMadeUp (Declaration.struct d).name := IsWord.notMadeUp hstmt
      exact working_declare hs w hname piece
    | imports t => exact working_importTree hs w t piece
    | other => exact working_reject hs w .declaration piece _

end

/-! ## Requests -/

theorem working_evaluateStmts (calls : HostCalls σ) (fuel : Nat) (stmts : List (Stmt × Slice))
    (hstmts : ∀ stmt ∈ stmts, stmt.1.Plain) (hs : s.Working events) (w : σ) :
    (outcome (evaluateStmts calls fuel stmts) s w).2.1.Working
      (events ++ toldStmts calls fuel stmts s w) := by
  induction stmts generalizing s events w with
  | nil =>
    rw [toldStmts, List.append_nil]
    exact hs
  | cons first stmts ih =>
    obtain ⟨stmt, piece⟩ := first
    rw [List.forall_mem_cons] at hstmts
    have hends := working_evaluateStmt hs calls fuel w hstmts.1 piece
    rw [outcome_evaluateStmts_cons_snd, toldStmts]
    rcases hfirst : outcome (evaluateStmt calls fuel stmt piece) s w with ⟨i | one, s', w'⟩
    · rw [hfirst] at hends
      dsimp only
      rw [List.append_nil]
      exact hends
    · rw [hfirst] at hends
      have hrest := ih hstmts.2 hends w'
      rw [List.append_assoc] at hrest
      exact hrest

theorem named_evaluate (calls : HostCalls σ) (fuel : Nat) (unit : List Char) (hs : s.Named events) (w : σ) :
    (outcome (evaluate calls fuel unit) s w).2.1.Named
      (events ++ told calls (.evaluate fuel unit) s w) := by
  unfold told perform evaluate
  rw [outcome_bind, outcome_store]
  dsimp only
  split_ifs with hstopped
  · show s.Named (events ++ [])
    rw [List.append_nil]
    exact hs
  have hworking : s.Working events := ⟨hs, Bool.eq_false_of_not_eq_true hstopped⟩
  cases Scan.nestingOverflow? unit Scan.nestingLimit with
  | some t =>
    exact (working_reject hworking w (guessKind unit) (.whole unit)
      ⟨.tooDeep Scan.nestingLimit, ⟨positionOf unit t.start, positionOf unit t.stop⟩⟩).named
  | none =>
    cases hparse : parseUnit unit with
    | error e =>
      exact (working_reject hworking w (guessKind unit) (.whole unit) ⟨.parse e.problem, e.span⟩).named
    | ok stmts =>
      dsimp only
      have hplain : ∀ stmt ∈ stmts.zip (Slice.ofStmts unit stmts), stmt.1.Plain :=
        fun stmt hstmt => parseUnit_declares hparse stmt.1 (List.of_mem_zip hstmt).1
      have hall := working_evaluateStmts calls fuel _ hplain hworking w
      cases hresult : (outcome (evaluateStmts calls fuel
          (stmts.zip (Slice.ofStmts unit stmts))) s w).1 with
      | error i =>
        -- what was told before the statement that is broken off is lost, but its snippets are there
        dsimp only
        rw [hparse]
        exact hall.named
      | ok more =>
        dsimp only
        rw [eq_toldStmts calls fuel _ s w hresult]
        exact hall.named

/-- Whatever is asked for, names and snippets belong together afterwards. -/
theorem named_perform (calls : HostCalls σ) (request : Request σ) (hs : s.Named events) (w : σ) :
    (outcome (perform calls request) s w).2.1.Named (events ++ told calls request s w) := by
  have quiet {t : Store} (h : s.SameNames t) : t.Named (events ++ []) := by
    rw [List.append_nil]
    exact hs.of_sameNames h
  cases request with
  | evaluate fuel unit => exact named_evaluate calls fuel unit hs w
  | drop id => exact hs.drop id
  | bindHost name object =>
    unfold told perform
    rw [outcome_onStore]
    unfold Store.bindHost
    split_ifs
    · exact quiet (Store.sameNames_of_eq rfl rfl rfl (Nat.le_refl _))
    · exact quiet (.refl s)
  | addLibrary path =>
    refine quiet ?_
    change s.SameNames (s.addLibrary path)
    unfold Store.addLibrary
    split
    · exact Store.sameNames_of_eq rfl rfl rfl (Nat.le_refl _)
    · exact .refl s
  | takeOutput => exact quiet (Store.sameNames_of_eq rfl rfl rfl (Nat.le_refl _))
  | stop =>
    show s.stop.Named (events ++ [])
    rw [List.append_nil]
    exact hs.stop
  | host change => exact quiet (.refl s)

theorem named_live (calls : HostCalls σ) (requests : List (Request σ)) (hs : s.Named events) (w : σ) :
    (live calls requests s w).2.1.Named (events ++ (live calls requests s w).1) := by
  induction requests generalizing s events w with
  | nil =>
    rw [live, List.append_nil]
    exact hs
  | cons request requests ih =>
    have hrest := ih (named_perform calls request hs w)
      (outcome (perform calls request) s w).2.2
    rw [List.append_assoc] at hrest
    exact hrest

end Engine

/-! ## The namespace -/

/-- The names of a store are a partial function to the snippets that take part in the session.  An
expression that failed, as events tell, is the one kind of snippet that takes part in the session under a
name that is not bound to it. -/
structure Store.Namespace (events : List SnippetEvent) (s : Store) : Prop where
  /-- No name is bound twice. -/
  nodup : (s.bindings.map (·.1)).Nodup
  /-- What a name is bound to takes part in the session under this name. -/
  carried : ∀ name id, (name, id) ∈ s.bindings → s.Carries id name
  /-- No two snippets take part in the session under one name. -/
  unique : ∀ i j name, s.Carries i name → s.Carries j name → i = j
  /-- Until the session ends, what takes part in it under a name is what the name is bound to. -/
  held : s.stopped = false → ∀ id name, s.Carries id name →
    (name, id) ∈ s.bindings ∨ Failed events id
  /-- Nothing is bound to an expression that failed. -/
  unbound : ∀ id, Failed events id → ∀ name, (name, id) ∉ s.bindings

/-- Whatever has been asked for, the names of a session are a partial function to the snippets that take
part in it. -/
theorem names_are_held {σ : Type} (calls : HostCalls σ) (requests : List (Request σ)) (w : σ) :
    (Engine.live calls requests {} w).2.1.Namespace (Engine.live calls requests {} w).1 := by
  have h := Engine.named_live calls requests Store.named_empty w
  rw [List.nil_append] at h
  refine ⟨h.nodup, fun name id hid => ?_, h.unique, fun hrunning id name hid => ?_, fun id hid name hname => ?_⟩
  · exact h.bound name id (Table.get?_of_mem h.nodup hid)
  · exact (h.held hrunning id name hid).imp_left Table.mem_of_get?
  · exact h.unbound id name hid (Table.get?_of_mem h.nodup hname)

-- the second value is there and has a name, but the name is not bound to it
example : (match Engine.live errorCalls [.evaluate 20 "7".toList, .evaluate 20 "1 / 0".toList] {} () with
    | (_, s, _) => ((s.record? 2).map fun r => (r.name, r.status), s.bindings)) =
    (some (some "$2", .valid), [("$1", 1)]) := by
  decide +kernel

end Notebook.Guest

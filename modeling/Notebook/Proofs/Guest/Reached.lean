import Notebook.Proofs.Guest.Timeline

/-!
# The states that an engine can be in

An engine is in one of these states before and after whatever it is asked for, however that ends, and
between the statements of a unit (`Engine.Reached`).  In each of them a name is bound only to a snippet
that has the name and takes part in the session (`Engine.Reached.bound`).
-/

namespace Notebook.Guest
open Notebook.Text Notebook.Syntax

theorem ok_of_toOption_eq_some {ε α : Type} {x : Except ε α} {a : α} (h : x.toOption = some a) :
    x = .ok a := by
  cases x with
  | error e => cases h
  | ok b => exact congrArg _ (Option.some.inj h)

namespace Engine

variable {σ : Type}

/-- The states that an engine can be in, beside the state of its host. -/
inductive Reached (calls : HostCalls σ) : Store → σ → Prop
  | start (w : σ) : Reached calls {} w
  | request {s : Store} {w : σ} (request : Request σ) (h : Reached calls s w) :
    Reached calls (outcome (perform calls request) s w).2.1 (outcome (perform calls request) s w).2.2
  /-- A statement of a unit has been evaluated or broken off. -/
  | statement {s : Store} {w : σ} (fuel : Nat) (stmt : Stmt) (piece : Slice) (h : Reached calls s w) :
    Reached calls (outcome (evaluateStmt calls fuel stmt piece) s w).2.1
      (outcome (evaluateStmt calls fuel stmt piece) s w).2.2

/-- After the first statements of a unit, the engine is in one of its states. -/
theorem Reached.statements {calls : HostCalls σ} {s : Store} {w : σ} (h : Reached calls s w)
    (fuel : Nat) (stmts : List (Stmt × Slice)) :
    Reached calls (outcome (evaluateStmts calls fuel stmts) s w).2.1
      (outcome (evaluateStmts calls fuel stmts) s w).2.2 :=
  keeps_evaluateStmts calls fuel s w (fun q _ _ _ hreached => hreached.statement fuel q.1 q.2) h

theorem Reached.live {calls : HostCalls σ} {s : Store} {w : σ} (h : Reached calls s w)
    (requests : List (Request σ)) :
    Reached calls (Engine.live calls requests s w).2.1 (Engine.live calls requests s w).2.2 := by
  induction requests generalizing s w with
  | nil => exact h
  | cons request requests ih => exact ih (h.request request)

end Engine

/-! ## Names in these states -/

namespace Store

theorem Bound.breaks {s s' : Store} (hs : s.Bound) (h : s.Breaks s') : s'.Bound := by
  obtain ⟨nextValue, r, -, hruns⟩ := h
  have hs' : ({ s with nextValue } : Store).Bound := hs
  exact (hs'.allocate r).sameBut hruns.sameBut

end Store

namespace Engine

variable {σ : Type} {calls : HostCalls σ}

theorem bound_evaluateStmt (fuel : Nat) (stmt : Stmt) (piece : Slice) {s : Store} (hs : s.Bound) (w : σ) :
    (outcome (evaluateStmt calls fuel stmt piece) s w).2.1.Bound := by
  have hyields := evaluateStmt_makes calls fuel s w stmt piece
  rcases hstmt : outcome (evaluateStmt calls fuel stmt piece) s w with ⟨i | events, s', w'⟩
  · rw [hstmt] at hyields
    exact hs.breaks hyields
  · rw [hstmt] at hyields
    exact (Store.told_of_makes hs hyields).bound

/-- One thing that an engine does binds no name to a snippet that does not take part in the session. -/
theorem Step.bound {s t : Store} {w v : σ} {happenings : List Happening}
    (h : Step calls s w happenings t v) (hs : s.Bound) : t.Bound := by
  cases h with
  | stmt fuel stmt piece => exact bound_evaluateStmt fuel stmt piece hs w
  | refuse kind source origin d =>
    exact (Store.told_of_makes hs (.refuses kind source origin d)).bound
  | drop id => exact (Store.told_drop hs id).bound
  | host name object => exact hs
  | idle libraries output => exact hs

theorem Steps.bound {s t : Store} {w v : σ} {happenings : List Happening}
    (h : Steps calls s w happenings t v) (hs : s.Bound) : t.Bound := by
  induction h with
  | none => exact hs
  | next step _ ih => exact ih (step.bound hs)

theorem bound_perform (request : Request σ) {s : Store} (hs : s.Bound) (w : σ) :
    (outcome (perform calls request) s w).2.1.Bound := by
  by_cases hstops : request.stops = true
  · cases request with
    | stop => exact (Store.told_nil hs rfl (.inr rfl) : s.Told [] s.stop).bound
    | _ => cases hstops
  · exact (steps_perform calls (Bool.not_eq_true _ ▸ hstops) s w).bound hs

theorem Reached.bound {s : Store} {w : σ} (h : Reached calls s w) : s.Bound := by
  induction h with
  | start => exact bound_empty
  | request request _ ih => exact bound_perform request ih _
  | statement fuel stmt piece _ ih => exact bound_evaluateStmt fuel stmt piece ih _

/-! ## What holds in all states -/

section

variable {P : Store → Prop}
  (hstep : ∀ {s t : Store} {w v : σ} {happenings : List Happening}, Step calls s w happenings t v →
    s.Bound → P s → P t)

include hstep

theorem Steps.keeps {s t : Store} {w v : σ} {happenings : List Happening} (h : Steps calls s w happenings t v)
    (hbound : s.Bound) (hs : P s) : P t := by
  induction h with
  | none => exact hs
  | next step _ ih => exact ih (step.bound hbound) (hstep step hbound hs)

/-- What each thing that an engine does keeps, and the end of the session too, holds in all of its states. -/
theorem Reached.of_steps (hempty : P {}) (hstop : ∀ s, P s → P s.stop) {s : Store} {w : σ}
    (h : Reached calls s w) : P s := by
  induction h with
  | start => exact hempty
  | @request s w request h ih =>
    by_cases hstops : request.stops = true
    · cases request with
      | stop => exact hstop s ih
      | _ => cases hstops
    · exact (steps_perform calls (Bool.not_eq_true _ ▸ hstops) s w).keeps hstep h.bound ih
  | @statement s w fuel stmt piece h ih => exact hstep (.stmt fuel stmt piece s w) h.bound ih

end

end Engine

end Notebook.Guest

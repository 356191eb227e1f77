import Notebook.Guest.Evaluation

/-!
# Code that never has a value

Some code never has a value, as its shape tells: it returns, jumps, panics, or ends in such code
(`leaves_eval`).  Whatever type is expected of it, no value of another one comes of it.
-/

namespace Notebook.Guest
open Notebook.Syntax

namespace Leaves

mutual

/-- Whether an expression leaves, and has no value. -/
def expr : Expr → Bool
  | .returnFn .. | .breakLoop .. | .continueLoop _ => true
  | .invocation (.mk name _ _ _ _) _ => MacroKind.ofName? name = some .panic
  | .paren e _ => expr e
  | .ifThen _ yes no _ => block yes && optional no
  | .block b _ => block b
  | _ => false

def optional : Option Expr → Bool
  | none => false
  | some e => expr e

def block : Block → Bool
  | .mk ss _ => stmts ss

def stmts : List Stmt → Bool
  | [] => false
  | s :: ss => stmt s || stmts ss

def stmt : Stmt → Bool
  | .expr e _ _ => expr e
  | _ => false

end

end Leaves

namespace Run

variable {σ α β : Type}

/-- The code has no value, whatever the state in which it starts. -/
def Leaves (r : Run σ α) : Prop := ∀ (m m' : Machine σ) (a : α), r.run.run m ≠ (.ok a, m')

theorem leaves_throw (e : Exit) : Leaves (throw e : Run σ α) := by
  intro m m' a h
  cases h

theorem leaves_fault (cause : FaultCause) : Leaves (fault cause : Run σ α) := by
  intro m m' a h
  cases h

theorem Leaves.bind {r : Run σ α} (hr : r.Leaves) (f : α → Run σ β) : Leaves (r >>= f) := by
  intro m m' b h
  simp only [ExceptT.run_bind, StateT.run_bind] at h
  rcases hrun : r.run.run m with ⟨a | e, t⟩
  · rw [hrun] at h
    cases h
  · exact hr m t e hrun

theorem leaves_bind (r : Run σ α) {f : α → Run σ β} (hf : ∀ a, Leaves (f a)) : Leaves (r >>= f) := by
  intro m m' b h
  simp only [ExceptT.run_bind, StateT.run_bind] at h
  rcases hrun : r.run.run m with ⟨e | a, t⟩
  · rw [hrun] at h
    cases h
  · rw [hrun] at h
    exact hf a t m' b h

theorem Leaves.inScope {r : Run σ α} (hr : r.Leaves) (scope : Scope) : Leaves (Run.inScope scope r) := by
  refine leaves_bind _ fun _ m m' a h => ?_
  rcases hrun : r.run.run m with ⟨result, t⟩
  have : (followedBy r fun m => { m with scopes := m.scopes.tail }).run.run m =
      (result, { t with scopes := t.scopes.tail }) := by
    change ((r.run.run m).1, { (r.run.run m).2 with scopes := (r.run.run m).2.scopes.tail }) = _
    rw [hrun]
  rw [this] at h
  cases h
  exact hr m t a hrun

section

variable {eval : Evaluator σ} (heval : ∀ e, Leaves.expr e = true → (eval e).Leaves)

include heval

theorem leaves_stmt {s : Stmt} (h : Leaves.stmt s = true) : (stmt eval s).Leaves := by
  cases s with
  | expr e ended span => exact (heval e h).bind _
  | bind => cases h
  | item => cases h

theorem leaves_stmts {ss : List Stmt} (h : Leaves.stmts ss = true) : (stmts eval ss).Leaves := by
  fun_induction stmts eval ss with
  | case1 => cases h
  | case2 s =>
    rw [Leaves.stmts, Leaves.stmts, Bool.or_false] at h
    exact leaves_stmt heval h
  | case3 s t ss ih =>
    rw [Leaves.stmts, Bool.or_eq_true] at h
    -- one statement that leaves is enough, since those after it are not reached
    rcases h with h | h
    · exact ((leaves_stmt heval h).bind fun _ => pure ()).bind _
    · exact leaves_bind _ fun _ => ih h

theorem leaves_block {b : Block} (h : Leaves.block b = true) : (block eval b).Leaves := by
  obtain ⟨ss, span⟩ := b
  exact (leaves_stmts heval h).inScope []

theorem leaves_step (calls : HostCalls σ) (fuel : Nat) {e : Expr} (h : Leaves.expr e = true) :
    (step calls fuel eval e).Leaves := by
  cases e with
  | returnFn value _ =>
    cases value with
    | none => exact leaves_throw _
    | some e => exact leaves_bind _ fun _ => leaves_throw _
  | breakLoop => exact leaves_throw _
  | continueLoop => exact leaves_throw _
  | invocation m _ =>
    obtain ⟨name, nameSpan, args, braced, span⟩ := m
    have hkind : MacroKind.ofName? name = some .panic := of_decide_eq_true h
    change (invocation eval (.mk name nameSpan args braced span)).Leaves
    simp only [invocation, hkind]
    cases args with
    | malformed e => exact leaves_fault _
    | items es first =>
      dsimp only
      split
      · exact leaves_fault _
      · exact leaves_bind _ fun _ => leaves_fault _
  | paren e _ => exact heval e h
  | ifThen condition yes no _ =>
    obtain ⟨hyes, hno⟩ := Bool.and_eq_true_iff.1 h
    -- both branches leave, whichever is taken
    refine leaves_bind _ fun holds => ?_
    cases holds with
    | true => exact leaves_block heval hyes
    | false =>
      cases no with
      | none => cases hno
      | some e => exact heval e hno
  | block b _ => exact leaves_block heval h
  | _ => cases h

end

/-- Evaluating code that leaves comes to no value. -/
theorem leaves_eval (calls : HostCalls σ) (fuel : Nat) {e : Expr} (h : Leaves.expr e = true) :
    (eval calls fuel e).Leaves := by
  induction fuel generalizing e with
  | zero => exact leaves_throw _
  | succ fuel ih => exact leaves_step (fun _ he => ih he) calls fuel h

end Run

end Notebook.Guest

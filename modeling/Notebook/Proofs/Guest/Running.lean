import Notebook.Proofs.Guest.Stepwise

/-!
# What running code does to the store

Code that runs prints and gives variables new values; it does nothing else to the store, however it
ends (`topLevel_runs`).
-/

namespace Notebook.Guest
open Notebook.Syntax

/-- The second store is what code that ran has made of the first one. -/
inductive Store.Runs (s : Store) : Store → Prop
  | refl : Runs s s
  | print {t : Store} (text : List Char) : Runs s t → Runs s (t.print text)
  | write {t u : Store} {name : String} {v : Value} : Runs s t → t.write? name v = some u → Runs s u

theorem Store.Runs.trans {s t u : Store} (hst : Runs s t) (htu : Runs t u) : Runs s u := by
  induction htu with
  | refl => exact hst
  | print text _ ih => exact ih.print text
  | write _ hwrite ih => exact ih.write hwrite

namespace Run

variable {σ α β : Type}

/-- Whatever the state in which the code starts, it leaves a store that running code can leave. -/
def Runs (r : Run σ α) : Prop := ∀ m : Machine σ, m.store.Runs (r.run.run m).2.store

/-! ## Code that is put together -/

theorem runs_pure (a : α) : Runs (pure a : Run σ α) := fun _ => .refl

theorem runs_throw (e : Exit) : Runs (throw e : Run σ α) := fun _ => .refl

theorem Runs.bind {r : Run σ α} {f : α → Run σ β} (hr : Runs r) (hf : ∀ a, Runs (f a)) :
    Runs (r >>= f) := by
  intro m
  have hm := hr m
  simp only [ExceptT.run_bind, StateT.run_bind]
  rcases hrun : r.run.run m with ⟨result, m'⟩
  rw [hrun] at hm
  cases result with
  | ok a => exact hm.trans (hf a m')
  | error e => exact hm

theorem runs_get : Runs (get : Run σ (Machine σ)) := fun _ => .refl

/-- Code that looks at the state first, and goes on from the state that it has seen. -/
theorem runs_get_bind {f : Machine σ → Run σ α}
    (hf : ∀ m : Machine σ, m.store.Runs ((f m).run.run m).2.store) : Runs (get >>= f) := by
  intro m
  exact hf m

/-- A change of the state that leaves the store alone. -/
theorem runs_modify {f : Machine σ → Machine σ} (hf : ∀ m, (f m).store = m.store) :
    Runs (modify f : Run σ Unit) := by
  intro m
  have : ((modify f : Run σ Unit).run.run m).2 = f m := rfl
  rw [this, hf]
  exact .refl

/-- Code after which, however it ended, the state is changed, but not the store. -/
theorem Runs.followedBy {r : Run σ α} {f : Machine σ → Machine σ} (hr : Runs r)
    (hf : ∀ m, (f m).store = m.store) : Runs (Run.followedBy r f) := by
  intro m
  have hm := hr m
  have : ((Run.followedBy r f).run.run m).2 = f (r.run.run m).2 := rfl
  rw [this, hf]
  exact hm

/-- Code whose ending is looked at and taken for another one, after which more code may run. -/
theorem Runs.settle {r : Run σ α} {f : Except Exit α → StateM (Machine σ) (Except Exit β)}
    (hr : Runs r) (hf : ∀ ending (m : Machine σ), m.store.Runs ((f ending).run m).2.store) :
    Runs (ExceptT.mk (r.run >>= f)) := by
  intro m
  exact (hr m).trans (hf (r.run.run m).1 (r.run.run m).2)

/-! ## The steps that code is made of -/

theorem runs_declare (name : String) (v : Value) : Runs (declare name v : Run σ Unit) := by
  refine runs_modify fun m => ?_
  cases m.scopes <;> rfl

theorem runs_assign (name : String) (v : Value) : Runs (assign name v : Run σ Unit) := by
  refine runs_get_bind fun m => ?_
  -- a local variable is kept in the machine; only a variable of the session is in the store
  cases assignLocal? name v m.scopes with
  | some scopes => exact .refl
  | none =>
    cases hwrite : m.store.write? name v with
    | some store => exact .write .refl hwrite
    | none => exact .refl

theorem runs_print (text : List Char) : Runs (print text : Run σ Unit) :=
  fun _ => Store.Runs.refl.print text

theorem Runs.inScope {r : Run σ α} (scope : Scope) (hr : Runs r) : Runs (Run.inScope scope r) := by
  unfold Run.inScope
  refine Runs.bind ?_ fun _ => hr.followedBy ?_
  · exact runs_modify fun _ => rfl
  · intro m
    rfl

theorem Runs.loopBody {r : Run σ Value} (hr : Runs r) : Runs (Run.loopBody r) := by
  unfold Run.loopBody
  refine hr.settle fun ending m => ?_
  cases ending with
  | ok v => exact .refl
  | error e => cases e <;> exact .refl

theorem Runs.inFrame {r : Run σ Value} (frame : Frame) (scope : Scope) (hr : Runs r) :
    Runs (Run.inFrame frame scope r) := by
  unfold Run.inFrame
  refine runs_get.bind fun outside => Runs.bind ?_ fun _ => Runs.followedBy ?_ ?_
  · exact runs_modify fun _ => rfl
  · refine hr.settle fun ending m => ?_
    cases ending with
    | ok v => exact .refl
    | error e => cases e <;> exact .refl
  · intro m
    rfl

theorem runs_callHost (calls : HostCalls σ) (object : HostObject) (method : String)
    (args : List Value) : Runs (callHost calls object method args) := by
  unfold callHost
  refine runs_get_bind fun m => ?_
  rcases hcall : calls.call object method args m.world with ⟨reply, world⟩
  cases reply <;> exact .refl

/-- Running code does to a store what its steps do. -/
theorem stepwise_runs (calls : HostCalls σ) : Stepwise calls (σ := σ) fun r => Runs r where
  pure := runs_pure
  leave := runs_throw
  bind := Runs.bind
  look := fun _ hf => runs_get.bind hf
  declare := runs_declare
  assign := runs_assign
  print := runs_print
  inScope := Runs.inScope
  loopBody := Runs.loopBody
  inFrame := Runs.inFrame
  callHost := runs_callHost calls

/-- Evaluating an expression prints and gives variables new values. -/
theorem runs_eval (calls : HostCalls σ) (fuel : Nat) (e : Expr) : Runs (eval calls fuel e) :=
  (stepwise_runs calls).eval fuel e

theorem topLevel_runs (calls : HostCalls σ) (fuel : Nat) (frame : Frame) (e : Expr)
    (store : Store) (world : σ) :
    store.Runs (topLevel calls fuel frame e store world).2.1 :=
  runs_eval calls fuel e { frames := [frame], store, world }

end Run

end Notebook.Guest

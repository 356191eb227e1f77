import Notebook.Proofs.Capability.Registry
import Notebook.Proofs.Guest.Watched
import Notebook.Proofs.Session.Units

/-!
# Capabilities that fail to be activated

To activate a capability, an instance is made and registered, the guest gets it under a name, and code is
run.  A failure before the code runs leaves the instances of the session and the host objects of the guest
as they were, so the capability can be tried again.  A failure of the code undoes nothing: the instance
stays, and it is what later activations answer (`failed_activation_is_undone_up_to_code`).
-/

namespace Notebook
open Notebook.Text Notebook.Guest Notebook.Capability

/-! ## Code leaves the host objects alone -/

namespace Guest.Store

theorem Looks.hosts {cause : SnippetId} {s s' : Store} {events : List SnippetEvent}
    (h : Looks cause s events s') : s'.hosts = s.hosts := by
  induction h with
  | done => rfl
  | look hr hd hactive hrest ih => rw [ih, hosts_update]

theorem hosts_finish (s : Store) (id : SnippetId) (status : Status) (fault : Option FaultReport)
    (binds : Bool) : (s.finish id status fault binds).2.hosts = s.hosts := by
  cases hr : s.record? id with
  | none =>
    unfold finish
    rw [hr]
  | some r =>
    rw [finish_eq hr]
    split
    · exact hosts_update ..
    · rw [bindName_eq]
      exact (recheckDependents_looks _ _ id).hosts.trans ((hosts_supersede ..).trans (hosts_update ..))

theorem Makes.hosts {s s' : Store} {events : List SnippetEvent} (h : s.Makes (events, s')) :
    s'.hosts = s.hosts := by
  generalize hmade : (events, s') = made at h
  have hs' : s' = made.2 := congrArg Prod.snd hmade
  rw [hs']
  cases h with
  | refuses kind source origin d => exact hosts_finish ..
  | declares d a piece ha => exact hosts_finish ..
  | runs nextValue r t f fault binds hnew hruns hf =>
    exact (hosts_finish ..).trans ((hosts_update ..).trans hruns.sameBut.hosts)

theorem Breaks.hosts {s s' : Store} (h : s.Breaks s') : s'.hosts = s.hosts := by
  obtain ⟨nextValue, r, -, hruns⟩ := h
  exact hruns.sameBut.hosts

end Guest.Store

namespace Guest.Engine

variable {σ : Type} (calls : HostCalls σ) (fuel : Nat)

theorem hosts_evaluateStmt (stmt : Syntax.Stmt) (piece : Slice) (s : Store) (w : σ) :
    (outcome (evaluateStmt calls fuel stmt piece) s w).2.1.hosts = s.hosts := by
  have hyields := evaluateStmt_makes calls fuel s w stmt piece
  rcases hstmt : outcome (evaluateStmt calls fuel stmt piece) s w with ⟨i | events, s', w'⟩
  · rw [hstmt] at hyields
    exact Store.Breaks.hosts hyields
  · rw [hstmt] at hyields
    exact Store.Makes.hosts hyields

theorem hosts_evaluateStmts (stmts : List (Syntax.Stmt × Slice)) (s : Store) (w : σ) :
    (outcome (evaluateStmts calls fuel stmts) s w).2.1.hosts = s.hosts :=
  keeps_evaluateStmts calls fuel s w (P := fun t _ => t.hosts = s.hosts)
    (fun q _ t w ht => (hosts_evaluateStmt calls fuel q.1 q.2 t w).trans ht) rfl

theorem hosts_reject (kind : SnippetKind) (piece : Slice) (e : CheckError) (s : Store) (w : σ) :
    (outcome (reject kind piece e) s w).2.1.hosts = s.hosts := by
  unfold reject
  rw [outcome_onStore]
  exact Store.hosts_finish ..

/-- Only a host gives names to host objects, and evaluating code does not. -/
theorem hosts_evaluate (unit : List Char) (s : Store) (w : σ) :
    (outcome (evaluate calls fuel unit) s w).2.1.hosts = s.hosts := by
  unfold evaluate
  rw [outcome_bind, outcome_store]
  dsimp only
  split
  · rfl
  · split
    · exact hosts_reject ..
    · split
      · exact hosts_reject ..
      · exact hosts_evaluateStmts calls fuel _ s w

end Guest.Engine

/-- The session, its instances and the host objects of the guest are the same. -/
structure Workspace.SameCapabilities (w w' : Workspace) : Prop where
  session : w'.kernel.session = w.kernel.session
  registry : w'.registry = w.registry
  hosts : w'.kernel.store.hosts = w.kernel.store.hosts

theorem Workspace.SameCapabilities.refl (w : Workspace) : w.SameCapabilities w := ⟨rfl, rfl, rfl⟩

theorem Workspace.SameCapabilities.trans {u v w : Workspace} (huv : u.SameCapabilities v)
    (hvw : v.SameCapabilities w) : u.SameCapabilities w :=
  ⟨hvw.session.trans huv.session, hvw.registry.trans huv.registry, hvw.hosts.trans huv.hosts⟩

namespace Kernel

/-- Work that leaves the capabilities of its session alone, also if it fails. -/
def KeepsCapabilities {α : Type} (t : Task α) : Prop :=
  ∀ w : Workspace, w.SameCapabilities (outcome t w).2

theorem KeepsCapabilities.bind {α β : Type} {t : Task α} {f : α → Task β} (ht : KeepsCapabilities t)
    (hf : ∀ a, KeepsCapabilities (f a)) : KeepsCapabilities (t >>= f) := by
  intro w
  have hfirst := ht w
  rw [outcome_bind]
  rcases houtcome : outcome t w with ⟨e | a, w'⟩
  · rw [houtcome] at hfirst
    exact hfirst
  · rw [houtcome] at hfirst
    exact hfirst.trans (hf a w')

theorem keepsCapabilities_pure {α : Type} (a : α) : KeepsCapabilities (pure a : Task α) := .refl

theorem hosts_meetDemands (demands : List Demand) (s : Store) :
    (demands.foldl meetDemand s).hosts = s.hosts := by
  have hone (s : Store) (d : Demand) : (meetDemand s d).hosts = s.hosts := by
    cases d with
    | display output => rfl
    | library path =>
      unfold meetDemand Store.addLibrary
      dsimp only
      split <;> rfl
  induction demands generalizing s with
  | nil => rfl
  | cons d demands ih => exact (ih (meetDemand s d)).trans (hone s d)

theorem keepsCapabilities_evaluateUnit (fuel : Nat) (unit : List Char) (r : EvaluationResult) :
    KeepsCapabilities (evaluateUnit fuel unit r) := by
  intro w
  have hhosts := Engine.hosts_evaluate Host.calls fuel unit w.kernel.store w.kernel.host
  rw [outcome_evaluateUnit]
  unfold afterUnit
  rcases hevaluate : Engine.outcome (Engine.evaluate Host.calls fuel unit) w.kernel.store w.kernel.host
    with ⟨i | events, store, host⟩
  · rw [hevaluate] at hhosts
    exact ⟨rfl, rfl, hhosts⟩
  · rw [hevaluate] at hhosts
    exact ⟨rfl, rfl, (hosts_meetDemands host.demands store).trans hhosts⟩

theorem keepsCapabilities_evaluateFrom (fuel : Nat) (source : List Char) (start : Nat)
    (r : EvaluationResult) : KeepsCapabilities (evaluateFrom fuel source start r) := by
  fun_induction evaluateFrom fuel source start r with
  | case1 => exact keepsCapabilities_pure _
  | case2 => exact keepsCapabilities_pure _
  | case3 start r unit hunit ih => exact (keepsCapabilities_evaluateUnit fuel unit.text r).bind ih

theorem keepsCapabilities_evaluate (fuel : Nat) (source : List Char) :
    KeepsCapabilities (evaluate fuel source) := by
  intro w
  have hfrom := keepsCapabilities_evaluateFrom fuel source 0 {} { w with evaluations := w.evaluations + 1 }
  rw [outcome_evaluate]
  exact ⟨hfrom.session, hfrom.registry, hfrom.hosts⟩

/-! ## Activating a capability -/

end Kernel

/-- Whether the code of a capability is begun: there is some, an instance is made, and its name, if it has one,
is a proper one. -/
def Capability.Factory.ReachesCode (f : Factory) : Prop :=
  (∃ typeName methods service, f.create = .made typeName methods service) ∧
    (∀ name ∈ f.variableName, Store.isHostName name = true) ∧ f.initialCode.isSome = true

/-- An instance is registered, the guest has it under the name of its capability, and nothing else has been
done. -/
structure Workspace.Prepares (w : Workspace) (f : Factory) (object : HostObject) (w' : Workspace) : Prop where
  session : w'.kernel.session = w.kernel.session
  registry : w'.registry = (w.registry.register w.kernel.session f.kind f.name object).2
  hosts : w'.kernel.store.hosts =
    f.variableName.elim w.kernel.store.hosts fun name => putOrdered name object w.kernel.store.hosts

theorem Workspace.Prepares.keeps {w w' w'' : Workspace} {f : Factory} {object : HostObject}
    (h : w.Prepares f object w') (hkeeps : w'.SameCapabilities w'') : w.Prepares f object w'' :=
  ⟨hkeeps.session.trans h.session, hkeeps.registry.trans h.registry, hkeeps.hosts.trans h.hosts⟩

/-- The instance that has been registered is the one that the session has from then on. -/
theorem Workspace.Prepares.instance? {w w' : Workspace} {f : Factory} {object : HostObject}
    (h : w.Prepares f object w') (hnone : w.registry.instance? w.kernel.session f.kind = none) :
    w'.registry.instance? w'.kernel.session f.kind = some object := by
  rw [h.registry, h.session, Registry.register, hnone, Registry.instance?, Table.get?_put, if_pos rfl]
  rfl

namespace Kernel

/-- Runs the code of a capability, if there is any, and answers an instance. -/
def runCode (fuel : Nat) (f : Factory) (object : HostObject) : Task HostObject := do
  if let some code := f.initialCode then
    let r ← evaluate fuel code
    if !r.success then throw (.activation f.name "init code failed")
  return object

theorem keepsCapabilities_runCode (fuel : Nat) (f : Factory) (object : HostObject) :
    KeepsCapabilities (runCode fuel f object) := by
  unfold runCode
  cases f.initialCode with
  | none => exact keepsCapabilities_pure _
  | some code =>
    refine (keepsCapabilities_evaluate fuel code).bind fun r => ?_
    intro w
    cases hsuccess : r.success <;> exact .refl w

/-- What is done to activate a capability of which the session has no instance. -/
def attempt (fuel : Nat) (f : Factory) : Task HostObject := do
  let object ← register f (← make f)
  if let some name := f.variableName then Kernel.bind f name object
  runCode fuel f object

/-- An instance that the session has is answered, and nothing is done. -/
theorem outcome_activate (fuel : Nat) (f : Factory) (w : Workspace) :
    outcome (activate fuel f) w =
      match w.registry.instance? w.kernel.session f.kind with
      | some existing => (.ok existing, w)
      | none => outcome (attempt fuel f) w := by
  unfold activate
  rw [outcome_bind]
  change outcome _ w = _
  dsimp only
  cases w.registry.instance? w.kernel.session f.kind <;> rfl

theorem outcome_make (f : Factory) (w : Workspace) :
    outcome (make f) w =
      match f.create with
      | .made typeName methods service =>
        let (object, host) := w.kernel.host.make typeName methods service
        (.ok object, { w with kernel := { w.kernel with host } })
      | .failed failure => (.error (.activation f.name failure.message), w)
      | .panicked message => (.error (.kernelFault message), w) := by
  unfold make
  cases f.create <;> rfl

theorem outcome_register {f : Factory} {w : Workspace}
    (hnone : w.registry.instance? w.kernel.session f.kind = none) (object : HostObject) :
    outcome (register f object) w =
      (.ok object,
        { w with registry := (w.registry.register w.kernel.session f.kind f.name object).2 }) := by
  have hfirst : (w.registry.register w.kernel.session f.kind f.name object).1 = object := by
    unfold Registry.register
    rw [hnone]
  unfold register
  rw [outcome_bind]
  change outcome _ w = _
  exact congrArg (fun registered => (Except.ok registered, _)) hfirst

/-- An attempt fails before any code is begun and leaves the capabilities alone, or it registers an instance
and comes to what its code comes to. -/
theorem attempt_cases (fuel : Nat) {f : Factory} {w : Workspace}
    (hnone : w.registry.instance? w.kernel.session f.kind = none) :
    (¬ f.ReachesCode ∧ ∃ e w', outcome (attempt fuel f) w = (.error e, w') ∧ w.SameCapabilities w') ∨
      ((f.initialCode.isSome = true → f.ReachesCode) ∧ ∃ object w', w.Prepares f object w' ∧
        outcome (attempt fuel f) w = outcome (runCode fuel f object) w') := by
  unfold attempt
  rw [outcome_bind, outcome_make]
  cases hcreate : f.create with
  | failed failure =>
    exact .inl ⟨fun ⟨⟨_, _, _, hmade⟩, _⟩ => (nomatch hcreate.symm.trans hmade), _, w, rfl, .refl w⟩
  | panicked message =>
    exact .inl ⟨fun ⟨⟨_, _, _, hmade⟩, _⟩ => (nomatch hcreate.symm.trans hmade), _, w, rfl, .refl w⟩
  | made typeName methods service =>
    dsimp only
    generalize (w.kernel.host.make typeName methods service).1 = object
    generalize (w.kernel.host.make typeName methods service).2 = host
    rw [outcome_bind, outcome_register (w := { w with kernel := { w.kernel with host } }) hnone]
    dsimp only
    have hreaches (hproper : ∀ name ∈ f.variableName, Store.isHostName name = true)
        (hcode : f.initialCode.isSome = true) : f.ReachesCode := ⟨⟨_, _, _, hcreate⟩, hproper, hcode⟩
    cases hname : f.variableName with
    | none =>
      refine .inr ⟨hreaches (by simp [hname]), object, _, ?_, rfl⟩
      exact ⟨rfl, rfl, by rw [hname]; rfl⟩
    | some name =>
      dsimp only
      rw [outcome_bind, outcome_bindName]
      by_cases hproper : Store.isHostName name = true
      · rw [if_pos hproper]
        refine .inr ⟨hreaches (by simpa [hname] using hproper), object, _, ?_, rfl⟩
        exact ⟨rfl, rfl, by rw [hname]; rfl⟩
      · rw [if_neg hproper]
        refine .inl ⟨fun ⟨_, hnames, _⟩ => hproper (hnames name hname), _, _, rfl, ?_⟩
        exact ⟨rfl, Registry.remove_register hnone f.name object, rfl⟩

/-- An activation that fails before its code is begun leaves the instances of the session and the host objects
of the guest as they were, and the next one is attempted afresh.  One that fails in its code has left its
instance behind, which every later activation answers without doing anything. -/
theorem failed_activation_is_undone_up_to_code (fuel : Nat) (f : Factory) (w w' : Workspace) (e : Failure)
    (h : outcome (activate fuel f) w = (.error e, w')) :
    (¬ f.ReachesCode → w.SameCapabilities w' ∧
        ∀ (again : Nat) (g : Factory), g.kind = f.kind →
          outcome (activate again g) w' = outcome (attempt again g) w') ∧
      (f.ReachesCode → ∃ object, w.Prepares f object w' ∧
        ∀ (again : Nat) (g : Factory), g.kind = f.kind → outcome (activate again g) w' = (.ok object, w')) := by
  rw [outcome_activate] at h
  cases hinstance : w.registry.instance? w.kernel.session f.kind with
  | some existing =>
    rw [hinstance] at h
    cases h
  | none =>
    rw [hinstance] at h
    dsimp only at h
    rcases attempt_cases fuel hinstance with
      ⟨hearly, _, v, houtcome, hsame⟩ | ⟨hcode, object, v, hprepares, houtcome⟩
    · obtain ⟨-, rfl⟩ := Prod.mk.inj (houtcome.symm.trans h)
      refine ⟨fun _ => ⟨hsame, fun again g hkind => ?_⟩, fun hreaches => absurd hreaches hearly⟩
      rw [outcome_activate, hkind, hsame.session, hsame.registry, hinstance]
    · have hkeeps := keepsCapabilities_runCode fuel f object v
      rw [← houtcome, h] at hkeeps
      refine ⟨fun hnot => ?_, fun _ => ⟨object, hprepares.keeps hkeeps, fun again g hkind => ?_⟩⟩
      · cases hinitial : f.initialCode with
        | none =>
          unfold runCode at houtcome
          rw [hinitial, h] at houtcome
          cases houtcome
        | some code => exact absurd (hcode (by rw [hinitial]; rfl)) hnot
      · rw [outcome_activate, hkind, (hprepares.keeps hkeeps).instance? hinstance]

/-- A capability that the guest gets under a name and that has code which divides by zero. -/
def dividing (name : String) : Factory where
  name := "probe"
  mode := .onDemand
  kind := .custom 0
  variableName := some name
  initialCode := some "1 / 0".toList
  create := .made "Probe" [] (.custom fun _ _ => .value .unit)

/-- A name that does not begin with a letter is refused before the division is tried. -/
theorem improper_name_is_undone :
    ∃ e w', outcome (activate 20 (dividing "1st")) emptyWorkspace = (.error e, w') ∧
      emptyWorkspace.SameCapabilities w' ∧
      outcome (activate 20 (dividing "first")) w' = outcome (attempt 20 (dividing "first")) w' := by
  obtain ⟨e, w', h⟩ : ∃ e w', outcome (activate 20 (dividing "1st")) emptyWorkspace = (.error e, w') := by
    refine ⟨_, _, Prod.ext (?_ : _ = Except.error (.activation "probe" "`1st` is not a valid identifier")) rfl⟩
    decide +kernel
  have hearly : ¬ (dividing "1st").ReachesCode := by
    rintro ⟨-, hproper, -⟩
    exact absurd (hproper "1st" rfl) (by decide +kernel)
  obtain ⟨hsame, hafresh⟩ :=
    (failed_activation_is_undone_up_to_code 20 (dividing "1st") emptyWorkspace w' e h).1 hearly
  exact ⟨e, w', h, hsame, hafresh 20 (dividing "first") rfl⟩

/-- The division by zero makes the first activation fail, and the second one answers the instance that the first
one has left. -/
theorem failed_code_leaves_instance :
    ∃ w', outcome (activate 20 (dividing "probe")) emptyWorkspace =
        (.error (.activation "probe" "init code failed"), w') ∧
      w'.registry ≠ emptyWorkspace.registry ∧
      w'.kernel.store.hosts ≠ emptyWorkspace.kernel.store.hosts ∧
      outcome (activate 20 (dividing "probe")) w' = (.ok ⟨"Probe", 0, []⟩, w') := by
  have hfirst : (outcome (activate 20 (dividing "probe")) emptyWorkspace).1 =
      .error (.activation "probe" "init code failed") := by
    decide +kernel
  generalize hsecond : (outcome (activate 20 (dividing "probe")) emptyWorkspace).2 = w'
  have hinstance : w'.registry.instance? w'.kernel.session (dividing "probe").kind = some ⟨"Probe", 0, []⟩ := by
    rw [← hsecond]
    decide +kernel
  have hhosts : w'.kernel.store.hosts = [("probe", ⟨"Probe", 0, []⟩)] := by
    rw [← hsecond]
    decide +kernel
  refine ⟨w', Prod.ext hfirst hsecond, fun hsame => ?_, fun hsame => ?_, ?_⟩
  · rw [hsame] at hinstance
    cases hinstance
  · rw [hsame] at hhosts
    cases hhosts
  · rw [outcome_activate, hinstance]

end Kernel

end Notebook

import Notebook.Proofs.Session.Activation
import Notebook.Proofs.Session.Output

/-!
# A session has one instance of a kind

However sessions that share a registry go on, all activations of a kind that succeed in a session answer the
same instance.  Once one has succeeded, the others do nothing: no instance is made and no code is evaluated.
As long as the session goes on, the instance is what is found under its kind
(`activations_share_instance`).

What carries the proof is that no job takes an instance out of the registry that was there before it
(`Job.retains_perform`); an instance that cannot get its name is taken out by the activation that has put it
in.
-/

namespace Notebook
open Notebook.Guest Notebook.Capability

/-- Every instance that was there is still there. -/
def Workspace.Retains (w w' : Workspace) : Prop :=
  ∀ id kind object, w.registry.instance? id kind = some object → w'.registry.instance? id kind = some object

theorem Workspace.retains_of_eq {w w' : Workspace} (h : w'.registry = w.registry) : w.Retains w' := by
  intro id kind object hobject
  rw [h]
  exact hobject

/-- An instance is registered only if the session has none of its kind. -/
theorem Workspace.Prepares.retains {w w' : Workspace} {f : Factory} {object : HostObject}
    (h : w.Prepares f object w') (hnone : w.registry.instance? w.kernel.session f.kind = none) :
    w.Retains w' := by
  intro id kind other hother
  -- the new entry stands at a key that had none
  have hkey : (w.kernel.session, f.kind) ≠ (id, kind) := by
    intro hkey
    cases hkey
    exact Option.some_ne_none _ (hother.symm.trans hnone)
  rw [h.registry, Registry.register, hnone, Registry.instance?, Table.get?_put, if_neg hkey]
  exact hother

namespace Kernel

/-! ## Activations -/

/-- The code of a capability has no say in what is answered. -/
theorem eq_of_runCode {fuel : Nat} {f : Factory} {object answered : HostObject} {w w' : Workspace}
    (h : outcome (runCode fuel f object) w = (.ok answered, w')) : answered = object := by
  unfold runCode at h
  cases hcode : f.initialCode with
  | none =>
    rw [hcode] at h
    cases h
    rfl
  | some code =>
    rw [hcode] at h
    dsimp only at h
    rw [outcome_bind] at h
    rcases hrun : outcome (evaluate fuel code) w with ⟨e | r, w''⟩
    · rw [hrun] at h
      cases h
    · rw [hrun] at h
      dsimp only at h
      split at h
      · cases h
      · cases h
        rfl

/-- An activation takes nothing from the registry, and what it answers is what the session has then. -/
theorem retains_activate (fuel : Nat) (f : Factory) (w : Workspace) :
    w.Retains (outcome (activate fuel f) w).2 ∧
      ∀ object w', outcome (activate fuel f) w = (.ok object, w') →
        w'.registry.instance? w.kernel.session f.kind = some object := by
  rw [outcome_activate]
  cases hinstance : w.registry.instance? w.kernel.session f.kind with
  | some existing =>
    refine ⟨Workspace.retains_of_eq rfl, fun object w' h => ?_⟩
    cases h
    exact hinstance
  | none =>
    dsimp only
    rcases attempt_cases fuel hinstance with
      ⟨-, e, v, houtcome, hsame⟩ | ⟨-, object, v, hprepares, houtcome⟩
    · rw [houtcome]
      exact ⟨Workspace.retains_of_eq hsame.registry, nofun⟩
    · -- the instance is registered before the code is run, and the code does not touch the registry
      have hprepares := hprepares.keeps (keepsCapabilities_runCode fuel f object v)
      rw [houtcome]
      refine ⟨hprepares.retains hinstance, fun answered w' h => ?_⟩
      rw [h] at hprepares
      rw [eq_of_runCode h, ← hprepares.session]
      exact hprepares.instance? hinstance

theorem activateNamed_of_onDemand {f : Factory} (h : f.mode = .onDemand) (fuel : Nat) (name : String) :
    activateNamed fuel name (some f) = activate fuel f := if_pos h

theorem activateNamed_of_ne {f : Factory} (h : f.mode ≠ .onDemand) (fuel : Nat) (name : String) :
    activateNamed fuel name (some f) =
      throw (.activation name (f.mode.title ++ " capabilities cannot be activated explicitly")) := if_neg h

/-! ## Other work -/

/-- Work that leaves the registry alone, also if it fails. -/
def KeepsRegistry {α : Type} (t : Task α) : Prop := ∀ w : Workspace, (outcome t w).2.registry = w.registry

theorem KeepsRegistry.bind {α β : Type} {t : Task α} {f : α → Task β} (ht : KeepsRegistry t)
    (hf : ∀ a, KeepsRegistry (f a)) : KeepsRegistry (t >>= f) := by
  intro w
  have hfirst := ht w
  rw [outcome_bind]
  rcases houtcome : outcome t w with ⟨e | a, w'⟩
  · rw [houtcome] at hfirst
    exact hfirst
  · rw [houtcome] at hfirst
    exact (hf a w').trans hfirst

theorem keepsRegistry_pure {α : Type} (a : α) : KeepsRegistry (pure a : Task α) := fun _ => rfl

theorem keepsRegistry_throw {α : Type} (e : Failure) : KeepsRegistry (throw e : Task α) := fun _ => rfl

theorem keepsRegistry_current : KeepsRegistry current := fun _ => rfl

theorem keepsRegistry_runAction (action : Except String Unit) : KeepsRegistry (runAction action) := by
  unfold runAction
  split
  · exact keepsRegistry_pure _
  · exact keepsRegistry_throw _

theorem keepsRegistry_evaluate (fuel : Nat) (source : List Char) : KeepsRegistry (evaluate fuel source) :=
  fun w => (keepsCapabilities_evaluate fuel source w).registry

theorem keepsRegistry_drop (id : SnippetId) : KeepsRegistry (drop id) :=
  KeepsRegistry.bind (fun _ => rfl) fun _ => keepsRegistry_pure _

end Kernel

/-! ## Jobs -/

namespace Job
open Kernel

/-- The capability that a job activates. One that was asked for by its name is activated if it may be. -/
def factory? : Job → Option Factory
  | activateSystem f | request (.activate f) => some f
  | request (.activateNamed _ (some f)) => if f.mode = .onDemand then some f else none
  | _ => none

/-- Whether an activation is asked for that is refused at once: there is no capability of the name, or it may
not be activated by its name. -/
def isRefused : Job → Bool
  | request (.activateNamed _ none) => true
  | request (.activateNamed _ (some f)) => f.mode ≠ .onDemand
  | _ => false

/-- What a job comes to that does a task. -/
def performing (t : Task Response) (w : Workspace) : (Reply × List Touch) × Workspace :=
  let (reply, w) := outcome t { w with evaluations := 0 }
  ((reply, Touch.ofEvaluations w.evaluations), w)

/-- Activations are the same whoever asks for them. -/
theorem perform_of_factory? {job : Job} {f : Factory} (h : job.factory? = some f) (fuel : Nat)
    (w : Workspace) : job.perform fuel w = performing (do return .capability (← activate fuel f)) w := by
  cases job with
  | activateSystem g => cases h; rfl
  | becomeReady => cases h
  | request r =>
    cases r with
    | activate g => cases h; rfl
    | activateNamed name found =>
      cases found with
      | none => cases h
      | some g =>
        by_cases hmode : g.mode = .onDemand
        · obtain rfl : g = f := Option.some.inj ((if_pos hmode).symm.trans h)
          rw [← activateNamed_of_onDemand hmode fuel name]
          rfl
        · exact absurd ((if_neg hmode).symm.trans h) nofun
    | evaluate | complete | documentation | highlight | snippet | drop | act => cases h

/-- What an activation comes to. -/
theorem performing_activate (fuel : Nat) (f : Factory) (w : Workspace) :
    performing (do return .capability (← activate fuel f)) w =
      match outcome (activate fuel f) { w with evaluations := 0 } with
      | (.ok object, w') => ((.ok (.capability object), Touch.ofEvaluations w'.evaluations), w')
      | (.error e, w') => ((.error e, Touch.ofEvaluations w'.evaluations), w') := by
  unfold performing
  rw [outcome_bind]
  rcases outcome (activate fuel f) { w with evaluations := 0 } with ⟨e | object, w'⟩ <;> rfl

/-- An activation that is refused does nothing. -/
theorem perform_of_isRefused {job : Job} (h : job.isRefused = true) (fuel : Nat) (w : Workspace) :
    ∃ e, job.perform fuel w = ((.error e, []), { w with evaluations := 0 }) := by
  cases job with
  | activateSystem | becomeReady => cases h
  | request r =>
    cases r with
    | activateNamed name found =>
      cases found with
      | none => exact ⟨_, rfl⟩
      | some f =>
        refine ⟨.activation name (f.mode.title ++ " capabilities cannot be activated explicitly"), ?_⟩
        show performing (do return .capability (← activateNamed fuel name (some f))) w = _
        rw [activateNamed_of_ne (of_decide_eq_true h)]
        rfl
    | activate | evaluate | complete | documentation | highlight | snippet | drop | act => cases h

theorem keepsRegistry_request {r : Request} (h : (request r).factory? = none) (fuel : Nat) :
    KeepsRegistry (r.perform fuel) := by
  cases r with
  | evaluate before source =>
    exact (keepsRegistry_runAction before).bind fun _ => (keepsRegistry_evaluate fuel source).bind fun _ =>
      keepsRegistry_pure _
  | complete | documentation | snippet => exact keepsRegistry_current.bind fun _ => keepsRegistry_pure _
  | highlight => exact keepsRegistry_pure _
  | drop id => exact (keepsRegistry_drop id).bind fun _ => keepsRegistry_pure _
  | activate f => cases h
  | activateNamed name found =>
    refine KeepsRegistry.bind ?_ fun _ => keepsRegistry_pure _
    cases found with
    | none => exact keepsRegistry_throw _
    | some f =>
      by_cases hmode : f.mode = .onDemand
      · exact absurd ((if_pos hmode).symm.trans h) nofun
      · rw [activateNamed_of_ne hmode]
        exact keepsRegistry_throw _
  | act action => exact (keepsRegistry_runAction action).bind fun _ => keepsRegistry_pure _

/-- Jobs that activate nothing leave the registry alone. -/
theorem registry_perform {job : Job} (h : job.factory? = none) (fuel : Nat) (w : Workspace) :
    (job.perform fuel w).2.registry = w.registry := by
  cases job with
  | activateSystem f => cases h
  | becomeReady => rfl
  | request r => exact keepsRegistry_request h fuel { w with evaluations := 0 }

theorem retains_perform (job : Job) (fuel : Nat) (w : Workspace) : w.Retains (job.perform fuel w).2 := by
  cases hfactory : job.factory? with
  | none => exact Workspace.retains_of_eq (registry_perform hfactory fuel w)
  | some f =>
    have hretains := (retains_activate fuel f { w with evaluations := 0 }).1
    rw [perform_of_factory? hfactory, performing_activate]
    rcases houtcome : outcome (activate fuel f) { w with evaluations := 0 } with ⟨e | object, w'⟩ <;>
      rwa [houtcome] at hretains

/-- An activation that succeeds answers what the session has of its kind then. -/
theorem instance?_perform {job : Job} {f : Factory} (h : job.factory? = some f) {fuel : Nat} {w : Workspace}
    {r : Response} (hok : (job.perform fuel w).1.1 = .ok r) :
    ∃ object, r = .capability object ∧
      (job.perform fuel w).2.registry.instance? w.kernel.session f.kind = some object := by
  rw [perform_of_factory? h, performing_activate] at hok ⊢
  rcases houtcome : outcome (activate fuel f) { w with evaluations := 0 } with ⟨e | object, w'⟩
  · rw [houtcome] at hok
    cases hok
  · rw [houtcome] at hok
    cases hok
    exact ⟨object, rfl, (retains_activate fuel f { w with evaluations := 0 }).2 object w' houtcome⟩

/-- An activation of a kind of which the session has an instance answers the instance and does nothing,
whatever it would take to make another one and whatever its code is. -/
theorem perform_of_instance? {job : Job} {f : Factory} (h : job.factory? = some f) (fuel : Nat)
    {w : Workspace} {object : HostObject}
    (hinstance : w.registry.instance? w.kernel.session f.kind = some object) :
    job.perform fuel w = ((.ok (.capability object), []), { w with evaluations := 0 }) := by
  rw [perform_of_factory? h, performing_activate, outcome_activate]
  dsimp only
  rw [hinstance]
  rfl

end Job

/-! ## Sessions side by side -/

/-- What the worker of a session works on. -/
def Seat.workspace (seat : Seat) (registry : Instances) : Workspace := { kernel := seat.kernel, registry }

theorem Manager.shares_onSession {α : Type} (m : Manager) (id : SessionId)
    (f : Session Job Reply → α × Session Job Reply) :
    (m.onSession id f).2.registry = m.registry ∧ (m.onSession id f).2.fuel = m.fuel := by
  unfold onSession
  split <;> exact ⟨rfl, rfl⟩

namespace Traffic

/-- What the worker of a session begins with if something is done. -/
def beginning (t : Traffic) (id : SessionId) : Deed → List (Beginning Workspace Job)
  | .move other _ move =>
    match t.manager.seats[other]? with
    | none => []
    | some seat =>
      if other = id then seat.session.beginning (seat.workspace t.manager.registry) move else []
  | _ => []

/-- What the worker of a session begins with, in order, when several things are done. -/
def begun (t : Traffic) (id : SessionId) : List Deed → List (Beginning Workspace Job)
  | [] => []
  | deed :: deeds => t.beginning id deed ++ (t.step deed).begun id deeds

/-- A session is closed. -/
def Closed (t : Traffic) (id : SessionId) : Prop :=
  ∃ seat, t.manager.seats[id]? = some seat ∧ seat.session.stage = .closed

/-- Unless the session is closed, this is its instance of a kind. -/
def Keeps (t : Traffic) (id : SessionId) (kind : Kind) (object : HostObject) : Prop :=
  t.manager.instance? id kind = some object ∨ t.Closed id

variable {t : Traffic} {id : SessionId} {kind : Kind} {object : HostObject}

theorem Closed.step (ht : t.Lawful) (h : t.Closed id) (deed : Deed) : (t.step deed).Closed id := by
  obtain ⟨seat, hseat, hclosed⟩ := h
  obtain ⟨later, hlater, -, hstays⟩ := (lawful_step ht deed).2 id seat hseat
  exact ⟨later, hlater, hstays hclosed⟩

theorem beginning_eq_nil_or_singleton (t : Traffic) (id : SessionId) (deed : Deed) :
    t.beginning id deed = [] ∨ ∃ b, t.beginning id deed = [b] := by
  cases deed with
  | openSession | look | attempt => exact .inl rfl
  | move other starts move =>
    unfold beginning
    dsimp only
    split
    · exact .inl rfl
    · split
      · rcases Session.beginning_cases _ _ move with hnone | ⟨job, -, hone⟩
        · exact .inl hnone
        · exact .inr ⟨_, hone⟩
      · exact .inl rfl

/-- What the worker of a session begins with it begins with in a move of the session, which is not closed. -/
theorem of_mem_beginning {deed : Deed} {b : Beginning Workspace Job} (h : b ∈ t.beginning id deed) :
    ∃ starts move seat, deed = .move id starts move ∧ t.manager.seats[id]? = some seat ∧
      seat.session.stage ≠ .closed ∧
      b.workspace = seat.workspace t.manager.registry ∧
      seat.session.beginning (seat.workspace t.manager.registry) move = [b] := by
  cases deed with
  | openSession | look | attempt => cases h
  | move other starts move =>
    unfold beginning at h
    dsimp only at h
    split at h
    · cases h
    · rename_i seat hseat
      split at h
      · rename_i hother
        subst hother
        rcases Session.beginning_cases seat.session (seat.workspace t.manager.registry) move with
          hnone | ⟨job, hbegins, hone⟩
        · rw [hnone] at h
          cases h
        · rw [hone, List.mem_singleton] at h
          subst h
          have hopen := (Session.begins?_eq_some hbegins).1
          refine ⟨starts, move, seat, rfl, hseat, fun hclosed => ?_, rfl, hone⟩
          rw [hclosed] at hopen
          cases hopen
      · cases h

/-- The moves of a session make of the registry what they make of it in the session's workspace. -/
theorem step_move {other : SessionId} {seat : Seat} (hseat : t.manager.seats[other]? = some seat)
    (starts : Bool) (move : Session.Move Job) :
    let moved := seat.session.step (duties starts t.manager.fuel) (seat.workspace t.manager.registry) move
    (t.step (.move other starts move)).manager.registry = moved.2.registry ∧
      (t.step (.move other starts move)).manager.seats[other]? = some ⟨moved.1, moved.2.kernel⟩ := by
  obtain ⟨hlt, -⟩ := List.getElem?_eq_some_iff.1 hseat
  unfold step
  dsimp only
  rw [hseat]
  unfold Manager.inWorkspace
  dsimp only
  rw [hseat]
  exact ⟨rfl, List.getElem?_set_self hlt⟩

theorem step_attempt (t : Traffic) (place : Nat) :
    (t.step (.attempt place)).manager.registry = t.manager.registry ∧
      (t.step (.attempt place)).manager.fuel = t.manager.fuel := by
  unfold step
  dsimp only
  split
  · exact ⟨rfl, rfl⟩
  · rename_i id seen hplace
    have hshares := t.manager.shares_onSession id (·.tryShutdown seen)
    split <;> rename_i heq
    · exact ⟨rfl, rfl⟩
    · rwa [heq] at hshares
    · rwa [heq] at hshares

theorem fuel_step (t : Traffic) (deed : Deed) : (t.step deed).manager.fuel = t.manager.fuel := by
  cases deed with
  | openSession => rfl
  | look other =>
    unfold step
    dsimp only
    split <;> rfl
  | attempt place => exact (t.step_attempt place).2
  | move other starts move =>
    unfold step
    dsimp only
    split
    · rfl
    · rename_i seat hseat
      unfold Manager.inWorkspace
      rw [hseat]

/-- A worker that has stopped has closed its session. -/
theorem closed_of_hasStopped (ht : t.Lawful) {seat : Seat} (hseat : t.manager.seats[id]? = some seat)
    (h : seat.session.worker.hasStopped = true) : t.Closed id :=
  ⟨seat, hseat, (ht.seated id seat hseat).orderly.allows.closed h⟩

/-- An instance stays until its session is closed. -/
theorem instance?_step (ht : t.Lawful) (h : t.manager.instance? id kind = some object) (deed : Deed) :
    (t.step deed).Keeps id kind object := by
  cases deed with
  | openSession => exact .inl h
  | look other =>
    unfold step
    dsimp only
    split <;> exact .inl h
  | attempt place =>
    refine .inl ?_
    rw [Manager.instance?, (t.step_attempt place).1]
    exact h
  | move other starts move =>
    cases hseat : t.manager.seats[other]? with
    | none =>
      unfold step
      dsimp only
      rw [hseat]
      exact .inl h
    | some seat =>
      obtain ⟨hregistry, hafter⟩ := step_move hseat starts move
      have hown := (ht.seated other seat hseat).own
      unfold Keeps Manager.instance?
      rw [hregistry]
      obtain ⟨hworkspace | ⟨hstopped, hstop⟩, -⟩ := Session.workspace_of_step (duties starts t.manager.fuel)
        seat.session (seat.workspace t.manager.registry) move
      · rw [hworkspace]
        rcases Session.beginning_cases seat.session (seat.workspace t.manager.registry) move with
          hnone | ⟨job, -, hone⟩
        · rw [hnone]
          exact .inl h
        · rw [hone]
          exact .inl (job.retains_perform t.manager.fuel _ id kind object h)
      · -- the worker has stopped and taken out the instances of its session
        by_cases hother : id = other
        · subst hother
          exact .inr (closed_of_hasStopped (lawful_step ht _).1 hafter hstopped)
        · have hcleanup : (t.manager.registry.cleanup seat.kernel.session).2.instance? id kind = some object :=
            (Registry.instance?_congr (Registry.partOf_cleanup (hown.symm ▸ hother) _) kind).trans h
          rw [hstop]
          exact .inl hcleanup

theorem Keeps.step (ht : t.Lawful) (h : t.Keeps id kind object) (deed : Deed) :
    (t.step deed).Keeps id kind object :=
  h.elim (fun h => instance?_step ht h deed) fun h => .inr (h.step ht deed)

/-- An activation that succeeds answers the instance that the session has from then on. -/
theorem keeps_of_activation (ht : t.Lawful) {deed : Deed} {b : Beginning Workspace Job}
    (hb : b ∈ t.beginning id deed) {f : Factory} (hf : b.job.factory? = some f) {r : Response}
    (hok : (b.job.perform t.manager.fuel b.workspace).1.1 = .ok r) :
    ∃ object, r = .capability object ∧ (t.step deed).Keeps id f.kind object := by
  obtain ⟨starts, move, seat, rfl, hseat, -, hworkspace, hbeginning⟩ := of_mem_beginning hb
  obtain ⟨object, hr, hobject⟩ := Job.instance?_perform hf hok
  refine ⟨object, hr, ?_⟩
  obtain ⟨hregistry, hafter⟩ := step_move hseat starts move
  have hown := (ht.seated id seat hseat).own
  obtain ⟨hmoved | ⟨hstopped, -⟩, -⟩ := Session.workspace_of_step (duties starts t.manager.fuel)
    seat.session (seat.workspace t.manager.registry) move
  · refine .inl ?_
    rw [Manager.instance?, hregistry, hmoved, hbeginning]
    rw [hworkspace] at hobject
    exact hown ▸ hobject
  · exact .inr (closed_of_hasStopped (lawful_step ht _).1 hafter hstopped)

/-- Activations of the kind of an instance that the session has answer it and do nothing. -/
theorem perform_of_keeps (ht : t.Lawful) (h : t.Keeps id kind object) {deed : Deed}
    {b : Beginning Workspace Job} (hb : b ∈ t.beginning id deed) {f : Factory}
    (hf : b.job.factory? = some f) (hkind : f.kind = kind) :
    b.job.perform t.manager.fuel b.workspace = ((.ok (.capability object), []), b.workspace) := by
  obtain ⟨starts, move, seat, rfl, hseat, hopen, hworkspace, -⟩ := of_mem_beginning hb
  have hinstance : t.manager.registry.instance? seat.kernel.session f.kind = some object := by
    rw [(ht.seated id seat hseat).own, hkind]
    refine h.resolve_right ?_
    rintro ⟨seat', hseat', hclosed⟩
    cases hseat.symm.trans hseat'
    exact hopen hclosed
  rw [hworkspace]
  exact Job.perform_of_instance? hf _ hinstance

/-- A job finds that no evaluation has been counted. -/
theorem evaluations_of_mem_begun {deeds : List Deed} {b : Beginning Workspace Job} (h : b ∈ t.begun id deeds) :
    b.workspace.evaluations = 0 := by
  induction deeds generalizing t with
  | nil => cases h
  | cons deed deeds ih =>
    rw [begun, List.mem_append] at h
    rcases h with h | h
    · obtain ⟨_, _, _, _, _, _, hworkspace, _⟩ := of_mem_beginning h
      rw [hworkspace]
      rfl
    · exact ih h

/-- From then on that a session has an instance, all activations of its kind answer it. -/
theorem Keeps.run (ht : t.Lawful) (h : t.Keeps id kind object) (deeds : List Deed) :
    (∀ b ∈ t.begun id deeds, ∀ f, b.job.factory? = some f → f.kind = kind →
      b.job.perform t.manager.fuel b.workspace = ((.ok (.capability object), []), b.workspace)) ∧
      (t.run deeds).Keeps id kind object := by
  induction deeds generalizing t with
  | nil => exact ⟨fun b hb => absurd hb List.not_mem_nil, h⟩
  | cons deed deeds ih =>
    obtain ⟨hlater, hkeeps⟩ := ih (lawful_step ht deed).1 (h.step ht deed)
    refine ⟨fun b hb f hf hkind => ?_, hkeeps⟩
    rw [begun, List.mem_append] at hb
    rcases hb with hb | hb
    · exact perform_of_keeps ht h hb hf hkind
    · rw [fuel_step] at hlater
      exact hlater b hb f hf hkind

/-- From an activation on that succeeds, all activations of its kind answer what it has answered. -/
theorem keeps_of_begun (ht : t.Lawful) {deeds : List Deed} {before later : List (Beginning Workspace Job)}
    {b : Beginning Workspace Job} (hbegun : t.begun id deeds = before ++ b :: later) {f : Factory}
    (hf : b.job.factory? = some f) {r : Response}
    (hok : (b.job.perform t.manager.fuel b.workspace).1.1 = .ok r) :
    ∃ object, r = .capability object ∧
      (∀ c ∈ later, ∀ g, c.job.factory? = some g → g.kind = f.kind →
        c.job.perform t.manager.fuel c.workspace = ((.ok (.capability object), []), c.workspace)) ∧
      (t.run deeds).Keeps id f.kind object := by
  induction deeds generalizing t before with
  | nil => cases before <;> cases hbegun
  | cons deed deeds ih =>
    have hlawful := (lawful_step ht deed).1
    have hfuel := t.fuel_step deed
    rw [begun] at hbegun
    -- the activation is begun in this step, or with one of the later ones
    rcases t.beginning_eq_nil_or_singleton id deed with hnone | ⟨c, hone⟩
    · rw [hnone, List.nil_append] at hbegun
      rw [← hfuel] at hok ⊢
      exact ih hlawful hbegun hok
    · rw [hone, List.singleton_append] at hbegun
      cases before with
      | nil =>
        obtain ⟨rfl, rfl⟩ := List.cons.inj hbegun
        obtain ⟨object, hr, hkeeps⟩ := keeps_of_activation ht (hone ▸ List.mem_singleton_self c) hf hok
        have hrun := hkeeps.run hlawful deeds
        rw [hfuel] at hrun
        exact ⟨object, hr, hrun⟩
      | cons d before =>
        rw [List.cons_append] at hbegun
        rw [← hfuel] at hok ⊢
        exact ih hlawful (List.cons.inj hbegun).2 hok

/-- Whatever is done to sessions that share a registry, and whatever comes of the jobs of a session: if an
activation of a kind succeeds in the session, it answers an instance, and all other activations of this kind
that succeed in it answer the same one.  Those that come later do succeed, and do nothing at all, whatever
they have to make an instance with and whatever code they have: the workspace is the same afterwards, and no
evaluation is begun.  Nor is anything done if one is asked for by a name and refused.  As long as the session is
not closed, the instance is what is found under the kind. -/
theorem activations_share_instance (config : Config) (catalog : Catalog) (fuel : Nat) (deeds : List Deed)
    (id : SessionId) (before later : List (Beginning Workspace Job)) (b : Beginning Workspace Job)
    (f : Factory) (r : Response)
    (hbegun : (empty config catalog fuel).begun id deeds = before ++ b :: later)
    (hf : b.job.factory? = some f) (hok : (b.job.perform fuel b.workspace).1.1 = .ok r) :
    let t := (empty config catalog fuel).run deeds
    ∃ object, r = .capability object ∧
      (∀ c ∈ before, ∀ g, c.job.factory? = some g → g.kind = f.kind →
        ∀ answer, (c.job.perform fuel c.workspace).1.1 = .ok answer → answer = .capability object) ∧
      (∀ c ∈ later, ∀ g, c.job.factory? = some g → g.kind = f.kind →
        c.job.perform fuel c.workspace = ((.ok (.capability object), []), c.workspace)) ∧
      (∀ c ∈ later, c.job.isRefused = true →
        ∃ e, c.job.perform fuel c.workspace = ((.error e, []), c.workspace)) ∧
      ∀ seat, t.manager.seats[id]? = some seat → seat.session.stage ≠ .closed →
        t.manager.instance? id f.kind = some object := by
  intro t
  have hempty := lawful_empty config catalog fuel
  obtain ⟨object, hr, hlater, hkeeps⟩ := keeps_of_begun hempty hbegun hf hok
  refine ⟨object, hr, fun c hc g hg hkind answer hanswer => ?_, hlater, fun c hc hrefused => ?_,
    fun seat hseat hopen => ?_⟩
  · -- seen from an earlier one, this one is later
    obtain ⟨first, rest, rfl⟩ := List.append_of_mem hc
    rw [List.append_assoc, List.cons_append] at hbegun
    obtain ⟨object', hobject', hafter, -⟩ := keeps_of_begun hempty hbegun hg hanswer
    have hsame := hafter b (List.mem_append_right _ List.mem_cons_self) f hf hkind.symm
    have hfuel : (empty config catalog fuel).manager.fuel = fuel := rfl
    rw [hfuel] at hsame
    rw [hsame] at hok
    cases hok
    rw [hobject', hr]
  · obtain ⟨e, he⟩ := Job.perform_of_isRefused hrefused fuel c.workspace
    have hnone : c.workspace.evaluations = 0 :=
      evaluations_of_mem_begun (hbegun ▸ List.mem_append_right _ (List.mem_cons_of_mem _ hc))
    refine ⟨e, he.trans (congrArg (Prod.mk _) ?_)⟩
    rw [← hnone]
  · refine hkeeps.resolve_right ?_
    rintro ⟨seat', hseat', hclosed⟩
    cases hseat.symm.trans hseat'
    exact hopen hclosed

/-- Three activations of one kind: the first one wants a name that is none, the second one has code, and in the
third one it would panic to make an instance. -/
def rivals : List Job :=
  [.request (.activate (Kernel.dividing "1st")),
    .activateSystem { Kernel.dividing "probe" with mode := .system, initialCode := some "let a = 1;".toList },
    .request (.activateNamed "probe" (some { Kernel.dividing "probe" with create := .panicked "out of luck" }))]

/-- They are submitted to a new session one after the other, each when the one before has been done. -/
def rivalDeeds : List Deed :=
  .openSession :: .move 0 true .work :: rivals.zipIdx.flatMap fun (job, ticket) =>
    .move 0 true (.submit job) :: .move 0 true (.finish ticket) :: List.replicate 6 (.move 0 true .work)

theorem rivals_share_instance :
    ∃ first second third object, (empty {} {} 20).begun 0 rivalDeeds = [first, second, third] ∧
      (∃ e, (first.job.perform 20 first.workspace).1.1 = .error e) ∧
      (second.job.perform 20 second.workspace).1.1 = .ok (.capability object) ∧
      third.job.perform 20 third.workspace = ((.ok (.capability object), []), third.workspace) := by
  have hlength : ((empty {} {} 20).begun 0 rivalDeeds).length = 3 := by decide +kernel
  have hkinds : ((empty {} {} 20).begun 0 rivalDeeds).map (fun b => b.job.factory?.map (·.kind)) =
      List.replicate 3 (some (.custom 0)) := by
    decide +kernel
  have hsuccess : ((empty {} {} 20).begun 0 rivalDeeds).map
      (fun b => (b.job.perform 20 b.workspace).1.1.toBool) = [false, true, true] := by
    decide +kernel
  obtain ⟨first, second, third, hbegun⟩ := List.length_eq_three.1 hlength
  simp only [hbegun, List.map_cons, List.map_nil, List.cons.injEq, List.replicate, and_true] at hkinds hsuccess
  obtain ⟨f, hf, hfkind⟩ := Option.map_eq_some_iff.1 hkinds.2.1
  obtain ⟨g, hg, hgkind⟩ := Option.map_eq_some_iff.1 hkinds.2.2
  obtain ⟨r, hr⟩ : ∃ r, (second.job.perform 20 second.workspace).1.1 = .ok r := by
    cases hreply : (second.job.perform 20 second.workspace).1.1 with
    | ok r => exact ⟨r, rfl⟩
    | error e => rw [hreply] at hsuccess; exact absurd hsuccess.2.1 Bool.false_ne_true
  obtain ⟨object, rfl, -, hlater, -, -⟩ :=
    activations_share_instance {} {} 20 rivalDeeds 0 [first] [third] second f r hbegun hf hr
  refine ⟨first, second, third, object, hbegun, ?_, hr, ?_⟩
  · cases hreply : (first.job.perform 20 first.workspace).1.1 with
    | ok r => rw [hreply] at hsuccess; exact absurd hsuccess.1.symm Bool.false_ne_true
    | error e => exact ⟨e, rfl⟩
  · exact hlater third List.mem_cons_self g hg (hgkind.trans hfkind.symm)

end Traffic

end Notebook

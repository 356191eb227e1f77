import Notebook.Proofs.Capability.Registry
import Notebook.Proofs.Session.Stages
import Notebook.Proofs.Session.Units
import Notebook.Session.Manager

/-!
# Sessions end closed

Sessions share the registry of instances.  However the steps of their clients and workers come, a session
that is closing stays so, and when it has been shut down, or its worker has ended in some other way, it is
closed and has no instance in the registry (`sessions_end_closed`).
-/

namespace Notebook
open Notebook.Guest Notebook.Capability

/-! ## Work for one session -/

/-- What was done in a workspace was done for its session, and leaves the instances of the others alone. -/
structure Workspace.Minds (w w' : Workspace) : Prop where
  session : w'.kernel.session = w.kernel.session
  others : ∀ id, id ≠ w.kernel.session → w'.registry.ofSession id = w.registry.ofSession id

theorem Workspace.Minds.refl (w : Workspace) : w.Minds w := ⟨rfl, fun _ _ => rfl⟩

theorem Workspace.Minds.trans {u v w : Workspace} (huv : u.Minds v) (hvw : v.Minds w) : u.Minds w := by
  refine ⟨hvw.session.trans huv.session, fun id hid => ?_⟩
  rw [hvw.others id (huv.session ▸ hid), huv.others id hid]

theorem Workspace.minds_stop (w : Workspace) : w.Minds w.stop :=
  ⟨rfl, fun _ hid => Registry.ofSession_cleanup hid _⟩

namespace Kernel

/-- Work that minds its own session only, also if it fails. -/
def Minds {α : Type} (t : Task α) : Prop := ∀ w : Workspace, w.Minds (outcome t w).2

variable {α β : Type}

theorem minds_pure (a : α) : Minds (pure a : Task α) := Workspace.Minds.refl

theorem minds_throw (e : Failure) : Minds (throw e : Task α) := Workspace.Minds.refl

theorem minds_bind {t : Task α} {f : α → Task β} (ht : Minds t) (hf : ∀ a, Minds (f a)) :
    Minds (t >>= f) := by
  intro w
  have hfirst := ht w
  rw [outcome_bind]
  split
  · rename_i a w' houtcome
    rw [houtcome] at hfirst
    exact hfirst.trans (hf a w')
  · rename_i e w' houtcome
    rw [houtcome] at hfirst
    exact hfirst

theorem minds_onStore (f : Store → α × Store) : Minds (onStore f) := fun _ => ⟨rfl, fun _ _ => rfl⟩

theorem minds_onHost (f : Host → α × Host) : Minds (onHost f) := fun _ => ⟨rfl, fun _ _ => rfl⟩

theorem minds_current : Minds current := Workspace.Minds.refl

theorem minds_engine (e : Engine Host α) : Minds (engine e) := by
  intro w
  rw [outcome_engine]
  rcases Engine.outcome e w.kernel.store w.kernel.host with ⟨i | a, store, host⟩
  · exact ⟨rfl, fun _ _ => rfl⟩
  · exact ⟨rfl, fun _ _ => rfl⟩

theorem minds_meetDemands : Minds meetDemands :=
  minds_bind (minds_onHost _) fun _ => minds_bind (minds_onStore _) fun _ => minds_pure _

theorem minds_evaluateUnit (fuel : Nat) (unit : List Char) (r : EvaluationResult) :
    Minds (evaluateUnit fuel unit r) :=
  minds_bind (minds_engine _) fun _ => minds_bind minds_current fun _ =>
    minds_bind minds_meetDemands fun _ => minds_bind (minds_onStore _) fun _ => minds_pure _

theorem minds_evaluateFrom (fuel : Nat) (source : List Char) (start : Nat) (r : EvaluationResult) :
    Minds (evaluateFrom fuel source start r) := by
  fun_induction evaluateFrom fuel source start r with
  | case1 => exact minds_pure _
  | case2 => exact minds_pure _
  | case3 start r unit hunit ih => exact minds_bind (minds_evaluateUnit fuel unit.text r) ih

theorem minds_evaluate (fuel : Nat) (source : List Char) : Minds (evaluate fuel source) := by
  refine minds_bind (fun _ => ⟨rfl, fun _ _ => rfl⟩) fun _ =>
    minds_bind (minds_evaluateFrom fuel source 0 {}) fun r => ?_
  dsimp only
  split
  · exact minds_bind minds_current fun _ => minds_pure _
  · exact minds_pure _

theorem minds_drop (id : SnippetId) : Minds (drop id) :=
  minds_bind (minds_onStore _) fun _ => minds_pure _

theorem minds_make (f : Factory) : Minds (make f) := by
  unfold make
  split
  · exact minds_onHost _
  · exact minds_throw _
  · exact minds_throw _

theorem minds_register (f : Factory) (object : HostObject) : Minds (register f object) :=
  fun _ => ⟨rfl, fun _ hid => Registry.ofSession_register hid _ _ _ _⟩

theorem minds_bindName (f : Factory) (name : String) (object : HostObject) :
    Minds (Kernel.bind f name object) := by
  intro w
  unfold Kernel.bind
  rw [outcome_bind]
  change w.Minds (outcome _ w).2
  dsimp only
  split
  · exact ⟨rfl, fun _ _ => rfl⟩
  · exact ⟨rfl, fun _ hid => Registry.ofSession_remove hid _ _⟩

theorem minds_activate (fuel : Nat) (f : Factory) : Minds (activate fuel f) := by
  have hcode (code : List Char) (object : HostObject) : Minds (do
      let r ← evaluate fuel code
      if !r.success then throw (.activation f.name "init code failed")
      return object : Task HostObject) := by
    refine minds_bind (minds_evaluate fuel code) fun r => ?_
    split
    · exact minds_bind (minds_throw _) fun _ => minds_pure _
    · exact minds_pure _
  intro w
  unfold activate
  rw [outcome_bind]
  change w.Minds (outcome _ w).2
  dsimp only
  split
  · exact Workspace.Minds.refl w
  · refine minds_bind (minds_make f) (fun made => minds_bind (minds_register f made) fun object => ?_) w
    -- the object may get a name before the code is run
    split
    · refine minds_bind (minds_bindName f _ object) fun _ => ?_
      split
      · exact hcode _ object
      · exact minds_pure _
    · split
      · exact hcode _ object
      · exact minds_pure _

theorem minds_activateNamed (fuel : Nat) (name : String) (found : Option Factory) :
    Minds (activateNamed fuel name found) := by
  unfold activateNamed
  split
  · exact minds_throw _
  · split
    · exact minds_activate fuel _
    · exact minds_throw _

theorem minds_runAction (action : Except String Unit) : Minds (runAction action) := by
  unfold runAction
  split
  · exact minds_pure _
  · exact minds_throw _

end Kernel

open Kernel in
theorem Request.minds_perform (fuel : Nat) (r : Request) : Minds (r.perform fuel) := by
  cases r with
  | evaluate before source =>
    exact minds_bind (minds_runAction before) fun _ => minds_bind (minds_evaluate fuel source) fun _ =>
      minds_pure _
  | complete | documentation | snippet => exact minds_bind minds_current fun _ => minds_pure _
  | highlight => exact minds_pure _
  | drop id => exact minds_bind (minds_drop id) fun _ => minds_pure _
  | activate f => exact minds_bind (minds_activate fuel f) fun _ => minds_pure _
  | activateNamed name found => exact minds_bind (minds_activateNamed fuel name found) fun _ => minds_pure _
  | act action => exact minds_bind (minds_runAction action) fun _ => minds_pure _

theorem Job.minds_perform (fuel : Nat) (job : Job) (w : Workspace) : w.Minds (job.perform fuel w).2 := by
  -- a job counts its evaluations anew
  have hcounting {t : Task Response} (h : Kernel.Minds t) :
      w.Minds (Kernel.outcome t { w with evaluations := 0 }).2 := by
    obtain ⟨hsession, hothers⟩ := h { w with evaluations := 0 }
    exact ⟨hsession, hothers⟩
  cases job with
  | activateSystem f =>
    exact hcounting (Kernel.minds_bind (Kernel.minds_activate fuel f) fun _ => Kernel.minds_pure _)
  | becomeReady => exact .refl w
  | request r => exact hcounting (r.minds_perform fuel)

/-- Also in a job that fails in the middle of an evaluation, every evaluation that has begun ends. -/
theorem Job.paired_perform (fuel : Nat) (job : Job) (w : Workspace) :
    Touch.Paired false (job.perform fuel w).1.2 := by
  cases job with
  | activateSystem f => exact Touch.paired_ofEvaluations _
  | becomeReady => exact ⟨rfl, rfl⟩
  | request r => exact Touch.paired_ofEvaluations _

/-! ## Moves of one session -/

/-- The worker has made an engine, and has not stopped it yet. -/
def Worker.hasEngine {J α : Type} : Worker J α → Bool
  | .waiting | .holding _ | .running .. | .closing _ => true
  | _ => false

/-- A session without an engine has no instances. -/
def Session.Vacates (s : Session Job Reply) (w : Workspace) : Prop :=
  s.worker.hasEngine = false → w.registry.ofSession w.kernel.session = []

namespace Session

theorem work?_vacates {starts : Bool} {fuel : Nat} {s s' : Session Job Reply} {w w' : Workspace}
    (h : work? (duties starts fuel) s w = some (s', w')) (hs : s.Vacates w) :
    w.Minds w' ∧ s'.Vacates w' := by
  have hrefuse (c : Command Job) : (s.refuse c).worker = s.worker := worker_refuse s c
  unfold work? at h
  unfold Vacates at hs ⊢
  cases hworker : s.worker with
  | starting =>
    rw [hworker] at h hs
    dsimp only at h
    split at h
    · cases h
      exact ⟨.refl w, nofun⟩
    · cases h
      exact ⟨.refl w, fun _ => hs rfl⟩
  | waiting =>
    rw [hworker] at h
    dsimp only at h
    split at h
    · cases h
    · cases h
      exact ⟨.refl w, nofun⟩
  | holding c =>
    rw [hworker] at h
    cases c with
    | run t job =>
      dsimp only at h
      split at h
      · cases h
        exact ⟨.refl w, nofun⟩
      · cases h
        exact ⟨job.minds_perform fuel w, nofun⟩
    | shutdown t =>
      cases h
      exact ⟨.refl w, nofun⟩
  | running t entered touches result =>
    rw [hworker] at h
    cases touches with
    | nil =>
      cases h
      exact ⟨.refl w, nofun⟩
    | cons touch touches =>
      cases h
      exact ⟨.refl w, nofun⟩
  | closing t =>
    rw [hworker] at h
    dsimp only at h
    split at h
    · rename_i c rest hqueue
      cases h
      refine ⟨.refl w, fun hvacant => ?_⟩
      have hstill : (s.refuse c).worker.hasEngine = false := hvacant
      rw [hrefuse, hworker] at hstill
      cases hstill
    · cases h
      -- stopping the engine takes the instances out
      exact ⟨w.minds_stop, fun _ => Registry.ofSession_cleanup_self _ _⟩
  | leaving t =>
    rw [hworker] at h hs
    cases h
    exact ⟨.refl w, fun _ => hs rfl⟩
  | broken =>
    rw [hworker] at h hs
    cases h
    exact ⟨.refl w, fun _ => hs rfl⟩
  | abandoning =>
    rw [hworker] at h hs
    dsimp only at h
    split at h
    · cases h
      exact ⟨.refl w, fun _ => hs rfl⟩
    · cases h
      exact ⟨.refl w, fun _ => hs rfl⟩
  | ended =>
    rw [hworker] at h
    cases h

theorem step_vacates (starts : Bool) (fuel : Nat) {s : Session Job Reply} {w : Workspace}
    (move : Move Job) (hs : s.Vacates w) :
    w.Minds (s.step (duties starts fuel) w move).2 ∧
      (s.step (duties starts fuel) w move).1.Vacates (s.step (duties starts fuel) w move).2 := by
  unfold step
  cases move with
  | submit job => exact ⟨.refl w, hs⟩
  | shutdown =>
    refine ⟨.refl w, fun h => hs ?_⟩
    exact worker_beginShutdown s ▸ h
  | finish ticket =>
    refine ⟨.refl w, fun h => hs ?_⟩
    exact worker_finishCall s ticket ▸ h
  | work =>
    dsimp only
    cases hwork : work? (duties starts fuel) s w with
    | none => exact ⟨.refl w, hs⟩
    | some after => exact work?_vacates hwork hs

end Session

/-! ## Sessions side by side -/

/-- Starts a session that no job has been submitted to. -/
def Manager.openSession (m : Manager) : Manager :=
  { m with
    seats := m.seats ++ [⟨{}, { session := m.seats.length, config := m.config }⟩]
    live := m.live ++ [m.seats.length] }

/-- A session is created by starting it and submitting its first jobs. -/
theorem Manager.create_eq (m : Manager) :
    m.create = (m.seats.length,
      (m.catalog.system.map Job.activateSystem ++ [Job.becomeReady]).foldl
        (fun (n : Manager) job => (n.submit m.seats.length job).2) m.openSession) := by
  have hjobs (jobs : List Job) (s : Session Job Reply) (k : Kernel) (live : List SessionId) :
      jobs.foldl (fun (n : Manager) job => (n.submit m.seats.length job).2)
          { m with seats := m.seats ++ [⟨s, k⟩], live } =
        { m with
          seats := m.seats ++ [⟨jobs.foldl (fun (s : Session Job Reply) job => (s.submit job).2) s, k⟩]
          live } := by
    induction jobs generalizing s with
    | nil => rfl
    | cons job jobs ih =>
      -- a job is submitted to the last session, and the others stay as they are
      have hget : (m.seats ++ [(⟨s, k⟩ : Seat)])[m.seats.length]? = some ⟨s, k⟩ := by simp
      have hset : (m.seats ++ [(⟨s, k⟩ : Seat)]).set m.seats.length ⟨(s.submit job).2, k⟩ =
          m.seats ++ [⟨(s.submit job).2, k⟩] := by simp
      rw [List.foldl_cons, List.foldl_cons, ← ih, ← hset]
      unfold submit onSession
      dsimp only
      rw [hget]
  unfold openSession
  rw [hjobs]
  rfl

/-- Sessions, and clients that are in the loop that begins to shut one of them down. -/
structure Traffic where
  manager : Manager
  /-- The clients in the loop, by the session and the stage that they have seen. -/
  attempts : List (SessionId × Stage) := []
  /-- The sessions that were called to shut down, once for every call. -/
  called : List SessionId := []

/-- Something that is done to the sessions. -/
inductive Deed
  | openSession
  /-- A client or the worker of a session makes a move. `starts` tells whether an engine can be made. -/
  | move (id : SessionId) (starts : Bool) (move : Session.Move Job)
  /-- A client looks at the stage of a session that it wants to shut down. -/
  | look (id : SessionId)
  /-- The client in a place of the list of those in the loop goes through one round. -/
  | attempt (place : Nat)

namespace Traffic

/-- Before there are any sessions. -/
def empty (config : Config) (catalog : Catalog) (fuel : Nat) : Traffic :=
  { manager := { config, catalog, fuel } }

/-- Does something to the sessions. Nothing comes of it if there is no such session, or no client in this
place. -/
def step (t : Traffic) : Deed → Traffic
  | .openSession => { t with manager := t.manager.openSession }
  | .move id starts move =>
    match t.manager.seats[id]? with
    | none => t
    | some seat =>
      { t with
        manager := t.manager.inWorkspace id fun s w => s.step (duties starts t.manager.fuel) w move
        called := t.called ++ (seat.session.newShutdown move).map fun _ => id }
  | .look id =>
    match t.manager.seats[id]? with
    | none => t
    | some seat =>
      { t with attempts := t.attempts ++ [(id, seat.session.stage)], called := t.called ++ [id] }
  | .attempt place =>
    match t.attempts[place]? with
    | none => t
    | some (id, seen) =>
      match t.manager.onSession id (·.tryShutdown seen) with
      | (none, _) => t
      | (some none, manager) => { t with manager, attempts := t.attempts.eraseIdx place }
      | (some (some stage), manager) => { t with manager, attempts := t.attempts.set place (id, stage) }

/-- Does several things. -/
def run (t : Traffic) (deeds : List Deed) : Traffic := deeds.foldl step t

/-- How many clients are in the loop that begins to shut a session down. -/
def attemptsOf (t : Traffic) (id : SessionId) : Nat := t.attempts.countP (·.1 = id)

/-- What holds of a session among others. -/
structure Seated (t : Traffic) (id : SessionId) (seat : Seat) : Prop where
  orderly : seat.session.Orderly
  own : seat.kernel.session = id
  vacates : seat.session.worker.hasEngine = false → t.manager.registry.ofSession id = []
  /-- A call is in the loop, or on its way, or it was answered. -/
  called : t.called.count id = t.attemptsOf id + seat.session.shutdowns.length

/-- What holds of all sessions. -/
structure Lawful (t : Traffic) : Prop where
  seated : ∀ id seat, t.manager.seats[id]? = some seat → t.Seated id seat
  unseated : ∀ id, t.manager.seats[id]? = none →
    t.manager.registry.ofSession id = [] ∧ t.called.count id = 0 ∧ t.attemptsOf id = 0
  /-- What a client has seen closing is closing still. -/
  attempts : ∀ attempt ∈ t.attempts, ∀ seat, t.manager.seats[attempt.1]? = some seat →
    attempt.2.isClosing = true → seat.session.stage.isClosing = true

/-- Sessions stay, and what is closing stays so. -/
def Leads (t t' : Traffic) : Prop :=
  ∀ (id : SessionId) (seat : Seat), t.manager.seats[id]? = some seat →
    ∃ later : Seat, t'.manager.seats[id]? = some later ∧
      (seat.session.stage.isClosing = true → later.session.stage.isClosing = true) ∧
      (seat.session.stage = .closed → later.session.stage = .closed)

theorem Leads.refl (t : Traffic) : t.Leads t := fun _ seat h => ⟨seat, h, fun h => h, fun h => h⟩

theorem Leads.trans {t u v : Traffic} (htu : t.Leads u) (huv : u.Leads v) : t.Leads v := by
  intro id seat hseat
  obtain ⟨later, hlater, hclosing, hclosed⟩ := htu id seat hseat
  obtain ⟨last, hlast, hclosing', hclosed'⟩ := huv id later hlater
  exact ⟨last, hlast, fun h => hclosing' (hclosing h), fun h => hclosed' (hclosed h)⟩

/-- A session is changed, and the others are left alone. -/
structure Changes (t : Traffic) (id : SessionId) (seat seat' : Seat) (t' : Traffic) : Prop where
  before : t.manager.seats[id]? = some seat
  after : t'.manager.seats = t.manager.seats.set id seat'
  registry : ∀ other, other ≠ id → t'.manager.registry.ofSession other = t.manager.registry.ofSession other
  counts : ∀ other, other ≠ id →
    t'.called.count other = t.called.count other ∧ t'.attemptsOf other = t.attemptsOf other
  attempts : ∀ attempt ∈ t'.attempts, attempt ∈ t.attempts ∨ attempt = (id, seat'.session.stage)
  closing : seat.session.stage.isClosing = true → seat'.session.stage.isClosing = true
  closed : seat.session.stage = .closed → seat'.session.stage = .closed

variable {t t' : Traffic} {id : SessionId} {seat seat' : Seat}

theorem Changes.getElem? (h : t.Changes id seat seat' t') (other : SessionId) :
    t'.manager.seats[other]? = if other = id then some seat' else t.manager.seats[other]? := by
  obtain ⟨hlt, -⟩ := List.getElem?_eq_some_iff.1 h.before
  rw [h.after, List.getElem?_set]
  by_cases hother : other = id
  · subst hother
    rw [if_pos rfl, if_pos rfl, if_pos hlt]
  · rw [if_neg hother, if_neg (Ne.symm hother)]

theorem Changes.leads (h : t.Changes id seat seat' t') : t.Leads t' := by
  intro other old hold
  rw [h.getElem? other]
  by_cases hother : other = id
  · subst hother
    rw [h.before] at hold
    cases hold
    exact ⟨seat', if_pos rfl, h.closing, h.closed⟩
  · exact ⟨old, (if_neg hother).trans hold, fun h => h, fun h => h⟩

theorem Changes.lawful (h : t.Changes id seat seat' t') (ht : t.Lawful) (hseat : t'.Seated id seat') :
    t'.Lawful := by
  refine ⟨fun other now hnow => ?_, fun other hnone => ?_, fun attempt hattempt now hnow hclosing => ?_⟩
  · rw [h.getElem? other] at hnow
    by_cases hother : other = id
    · subst hother
      rw [if_pos rfl] at hnow
      cases hnow
      exact hseat
    · rw [if_neg hother] at hnow
      obtain ⟨horderly, hown, hvacates, hcalled⟩ := ht.seated other now hnow
      refine ⟨horderly, hown, fun hengine => ?_, ?_⟩
      · rw [h.registry other hother]
        exact hvacates hengine
      · rw [(h.counts other hother).1, (h.counts other hother).2]
        exact hcalled
  · rw [h.getElem? other] at hnone
    by_cases hother : other = id
    · rw [if_pos hother] at hnone
      cases hnone
    · rw [if_neg hother] at hnone
      rw [h.registry other hother, (h.counts other hother).1, (h.counts other hother).2]
      exact ht.unseated other hnone
  · rcases h.attempts attempt hattempt with hold | rfl
    · rw [h.getElem? attempt.1] at hnow
      split at hnow
      · rename_i hid
        cases hnow
        exact h.closing (ht.attempts attempt hold seat (hid ▸ h.before) hclosing)
      · exact ht.attempts attempt hold now hnow hclosing
    · rw [h.getElem? id, if_pos rfl] at hnow
      cases hnow
      exact hclosing

theorem lawful_openSession (ht : t.Lawful) :
    (t.step .openSession).Lawful ∧ t.Leads (t.step .openSession) := by
  have hseats (id : SessionId) : (t.step .openSession).manager.seats[id]? =
      (t.manager.seats ++ [⟨{}, { session := t.manager.seats.length, config := t.manager.config }⟩])[id]? := rfl
  have hold {id : SessionId} {seat : Seat} (hseat : t.manager.seats[id]? = some seat) :
      (t.step .openSession).manager.seats[id]? = some seat := by
    obtain ⟨hlt, -⟩ := List.getElem?_eq_some_iff.1 hseat
    rw [hseats, List.getElem?_append_left hlt]
    exact hseat
  refine ⟨⟨fun id seat hseat => ?_, fun id hnone => ?_, fun attempt hattempt seat hseat => ?_⟩,
    fun id seat hseat => ⟨seat, hold hseat, fun h => h, fun h => h⟩⟩
  · rcases hbefore : t.manager.seats[id]? with _ | old
    · obtain ⟨hregistry, hcalled, hattempts⟩ := ht.unseated id hbefore
      -- the session is the new one
      have hle := List.getElem?_eq_none_iff.1 hbefore
      rw [hseats, List.getElem?_append_right hle] at hseat
      obtain ⟨hlt, rfl⟩ := List.getElem?_eq_some_iff.1 hseat
      have hid : id = t.manager.seats.length :=
        Nat.le_antisymm (Nat.le_of_sub_eq_zero (Nat.lt_one_iff.1 hlt)) hle
      subst hid
      simp only [Nat.sub_self, List.getElem_cons_zero]
      refine ⟨Session.orderly_empty, rfl, fun _ => hregistry, ?_⟩
      exact hcalled.trans hattempts.symm
    · have hsame := (hold hbefore).symm.trans hseat
      cases hsame
      obtain ⟨horderly, hown, hvacates, hcalled⟩ := ht.seated id seat hbefore
      exact ⟨horderly, hown, hvacates, hcalled⟩
  · refine ht.unseated id ?_
    rcases hbefore : t.manager.seats[id]? with _ | old
    · rfl
    · rw [hold hbefore] at hnone
      cases hnone
  · rcases hbefore : t.manager.seats[attempt.1]? with _ | old
    · -- nobody is about to shut down a session that is not there
      obtain ⟨-, -, hnone⟩ := ht.unseated attempt.1 hbefore
      have hmem := List.countP_eq_zero.1 hnone attempt hattempt
      exact absurd (decide_eq_true rfl) hmem
    · have hsame := (hold hbefore).symm.trans hseat
      cases hsame
      exact ht.attempts attempt hattempt seat hbefore

theorem lawful_move (ht : t.Lawful) (id : SessionId) (starts : Bool) (move : Session.Move Job) :
    (t.step (.move id starts move)).Lawful ∧ t.Leads (t.step (.move id starts move)) := by
  unfold step
  dsimp only
  cases hseat : t.manager.seats[id]? with
  | none => exact ⟨ht, .refl t⟩
  | some seat =>
    dsimp only
    unfold Manager.inWorkspace
    rw [hseat]
    dsimp only
    obtain ⟨horderly, hown, hvacates, hcalled⟩ := ht.seated id seat hseat
    have hpaired (job : Job) (w : Workspace) :
        Touch.Paired false ((duties starts t.manager.fuel).perform job w).1.2 :=
      job.paired_perform t.manager.fuel w
    -- what the move does to the session, and what it does to the registry
    have hnext := horderly.step hpaired { kernel := seat.kernel, registry := t.manager.registry } move
    have hturns := Session.turns_step hpaired horderly.numbered
      { kernel := seat.kernel, registry := t.manager.registry } move
    obtain ⟨⟨hsession, hothers⟩, hempty⟩ := Session.step_vacates starts t.manager.fuel
      (s := seat.session) (w := { kernel := seat.kernel, registry := t.manager.registry }) move
      (fun h => by rw [hown]; exact hvacates h)
    generalize seat.session.step (duties starts t.manager.fuel)
      { kernel := seat.kernel, registry := t.manager.registry } move = after at *
    obtain ⟨s', w'⟩ := after
    dsimp only at *
    have hchanges : t.Changes id seat ⟨s', w'.kernel⟩
        { t with
          manager := { t.manager with registry := w'.registry, seats := t.manager.seats.set id ⟨s', w'.kernel⟩ }
          called := t.called ++ (seat.session.newShutdown move).map fun _ => id } := by
      refine ⟨hseat, rfl, fun other hother => ?_, fun other hother => ⟨?_, rfl⟩, fun _ h => .inl h,
        hturns.closing, hturns.closed⟩
      · exact hothers other (hown ▸ hother)
      · rw [List.count_append, Nat.add_eq_left, List.count_eq_zero]
        intro hmem
        obtain ⟨-, -, rfl⟩ := List.mem_map.1 hmem
        exact hother rfl
    refine ⟨hchanges.lawful ht ⟨hnext, hsession.trans hown, fun hengine => ?_, ?_⟩, hchanges.leads⟩
    · have hnone := hempty hengine
      rw [hsession, hown] at hnone
      exact hnone
    · have hlength := hturns.shutdowns.length_eq
      rw [List.length_append] at hlength
      rw [List.count_append, hcalled, hlength, ← Nat.add_assoc]
      congr 1
      rw [List.count_eq_length.2, List.length_map]
      intro other hmem
      obtain ⟨-, -, hother⟩ := List.mem_map.1 hmem
      exact hother

theorem lawful_look (ht : t.Lawful) (id : SessionId) :
    (t.step (.look id)).Lawful ∧ t.Leads (t.step (.look id)) := by
  unfold step
  dsimp only
  cases hseat : t.manager.seats[id]? with
  | none => exact ⟨ht, .refl t⟩
  | some seat =>
    obtain ⟨horderly, hown, hvacates, hcalled⟩ := ht.seated id seat hseat
    have hcounts (other : SessionId) : (t.attempts ++ [(id, seat.session.stage)]).countP (·.1 = other) =
        t.attemptsOf other + if id = other then 1 else 0 := by
      rw [List.countP_append, List.countP_singleton]
      simp only [decide_eq_true_eq]
      rfl
    have hchanges : t.Changes id seat seat
        { t with attempts := t.attempts ++ [(id, seat.session.stage)], called := t.called ++ [id] } := by
      refine ⟨hseat, ?_, fun _ _ => rfl, fun other hother => ⟨?_, ?_⟩, fun attempt hattempt => ?_,
        fun h => h, fun h => h⟩
      · obtain ⟨hlt, hget⟩ := List.getElem?_eq_some_iff.1 hseat
        rw [← hget]
        exact (List.set_getElem_self hlt).symm
      · rw [List.count_append, List.count_singleton, if_neg (by simpa using hother.symm)]
        rfl
      · exact (hcounts other).trans (by rw [if_neg hother.symm]; rfl)
      · rw [List.mem_append, List.mem_singleton] at hattempt
        exact hattempt
    refine ⟨hchanges.lawful ht ⟨horderly, hown, hvacates, ?_⟩, hchanges.leads⟩
    have hone := hcounts id
    rw [if_pos rfl] at hone
    unfold attemptsOf
    rw [hone, List.count_append, List.count_singleton_self, hcalled]
    omega

theorem lawful_attempt (ht : t.Lawful) (place : Nat) :
    (t.step (.attempt place)).Lawful ∧ t.Leads (t.step (.attempt place)) := by
  unfold step
  dsimp only
  cases hplace : t.attempts[place]? with
  | none => exact ⟨ht, .refl t⟩
  | some attempt =>
    obtain ⟨id, seen⟩ := attempt
    obtain ⟨hlt, hget⟩ := List.getElem?_eq_some_iff.1 hplace
    unfold Manager.onSession
    dsimp only
    cases hseat : t.manager.seats[id]? with
    | none => exact ⟨ht, .refl t⟩
    | some seat =>
      obtain ⟨horderly, hown, hvacates, hcalled⟩ := ht.seated id seat hseat
      have hmem : (id, seen) ∈ t.attempts := hget ▸ List.getElem_mem hlt
      -- the clients in the loop are this one and the others
      have hothers : t.attempts.Perm ((id, seen) :: t.attempts.eraseIdx place) := by
        rw [← hget]
        exact (List.getElem_cons_eraseIdx_perm hlt).symm
      have hcounts (other : SessionId) : t.attemptsOf other =
          (t.attempts.eraseIdx place).countP (·.1 = other) + if id = other then 1 else 0 := by
        unfold attemptsOf
        rw [hothers.countP_eq, List.countP_cons]
        simp only [decide_eq_true_eq]
      rcases Session.tryShutdown_eq (ht.attempts _ hmem seat hseat) with htry | htry
      · -- the client leaves the loop with the first step of its call
        have hturns := seat.session.turns_beginShutdown
        have hchanges : t.Changes id seat ⟨seat.session.beginShutdown.2, seat.kernel⟩
            { t with
              manager := { t.manager with
                seats := t.manager.seats.set id ⟨seat.session.beginShutdown.2, seat.kernel⟩ }
              attempts := t.attempts.eraseIdx place } := by
          refine ⟨hseat, rfl, fun _ _ => rfl, fun other hother => ⟨rfl, ?_⟩, fun attempt h => .inl ?_,
            hturns.closing, hturns.closed⟩
          · rw [hcounts, if_neg hother.symm]
            rfl
          · exact List.mem_of_mem_eraseIdx h
        dsimp only at htry ⊢
        rw [htry]
        refine ⟨hchanges.lawful ht ⟨horderly.turns (Session.goes_beginShutdown _) hturns, hown,
          fun h => hvacates ?_, ?_⟩, hchanges.leads⟩
        · exact Session.worker_beginShutdown seat.session ▸ h
        · have hlength := hturns.shutdowns.length_eq
          rw [List.length_append, List.length_singleton] at hlength
          have hone := hcounts id
          rw [if_pos rfl] at hone
          change t.called.count id = (t.attempts.eraseIdx place).countP (·.1 = id) + _
          rw [hcalled, hlength, hone]
          omega
      · -- somebody else has changed the stage, and the client has seen what it is now
        have hset : (t.attempts.set place (id, seat.session.stage)).Perm
            ((id, seat.session.stage) :: t.attempts.eraseIdx place) :=
          List.set_perm_cons_eraseIdx hlt _
        have hsame (other : SessionId) :
            (t.attempts.set place (id, seat.session.stage)).countP (·.1 = other) = t.attemptsOf other := by
          rw [hset.countP_eq, List.countP_cons, hcounts]
          simp only [decide_eq_true_eq]
        have hchanges : t.Changes id seat seat
            { t with
              manager := { t.manager with seats := t.manager.seats.set id ⟨seat.session, seat.kernel⟩ }
              attempts := t.attempts.set place (id, seat.session.stage) } := by
          refine ⟨hseat, rfl, fun _ _ => rfl, fun other _ => ⟨rfl, hsame other⟩, fun attempt h => ?_,
            fun h => h, fun h => h⟩
          exact List.mem_or_eq_of_mem_set h
        dsimp only at htry ⊢
        rw [htry]
        refine ⟨hchanges.lawful ht ⟨horderly, hown, hvacates, ?_⟩, hchanges.leads⟩
        exact hcalled.trans (congrArg (· + _) (hsame id).symm)

theorem lawful_step (ht : t.Lawful) (deed : Deed) : (t.step deed).Lawful ∧ t.Leads (t.step deed) := by
  cases deed with
  | openSession => exact lawful_openSession ht
  | move id starts move => exact lawful_move ht id starts move
  | look id => exact lawful_look ht id
  | attempt place => exact lawful_attempt ht place

theorem lawful_run (ht : t.Lawful) (deeds : List Deed) : (t.run deeds).Lawful ∧ t.Leads (t.run deeds) := by
  induction deeds generalizing t with
  | nil => exact ⟨ht, .refl t⟩
  | cons deed deeds ih =>
    obtain ⟨hnext, hleads⟩ := lawful_step ht deed
    obtain ⟨hlast, hrest⟩ := ih hnext
    exact ⟨hlast, hleads.trans hrest⟩

theorem lawful_empty (config : Config) (catalog : Catalog) (fuel : Nat) :
    (empty config catalog fuel).Lawful := by
  refine ⟨fun id seat h => ?_, fun _ _ => ⟨rfl, rfl, rfl⟩, fun _ h => absurd h List.not_mem_nil⟩
  rw [empty, List.getElem?_nil] at h
  cases h

/-- Whatever clients and workers do to sessions that share a registry, and in whatever order their steps
come, with any number of calls to shut a session down at a time, each in its own loop, and with engines
that cannot be made and jobs that panic: a session that is closing stays so, and one that is closed stays
closed.  While no job is being done, the stage of a session that is not closing is the first one or the
one in which it is ready, also if the last job has panicked in the middle of an evaluation.  At most one
call to shut a session down is answered that it has done so.  All others are refused, and none is lost:
once the worker has ended and no client is in the middle of a call, all of them have been answered.  When
a call has been answered that it has shut the session down, or when the worker has ended, the session is
closed, and it has no instance in the registry. -/
theorem sessions_end_closed (config : Config) (catalog : Catalog) (fuel : Nat) (deeds more : List Deed)
    (id : SessionId) (seat : Seat)
    (hseat : ((empty config catalog fuel).run deeds).manager.seats[id]? = some seat) :
    let t := (empty config catalog fuel).run deeds
    let s := seat.session
    (∃ later : Seat, (t.run more).manager.seats[id]? = some later ∧
      (s.stage.isClosing = true → later.session.stage.isClosing = true) ∧
      (s.stage = .closed → later.session.stage = .closed)) ∧
    (s.worker.running? = none → s.stage.isClosing = false → s.stage = .created ∨ s.stage = .ready) ∧
    s.successes.length ≤ 1 ∧ (s.closings.map (·.1)).Nodup ∧
    (∀ closing ∈ s.closings, closing ∉ s.successes → closing.2 = .refused) ∧
    t.called.count id = t.attemptsOf id + s.shuttingDown.length + s.closings.length ∧
    (s.worker = .ended → s.calls.filterMap Call.shutdown? = [] → t.attemptsOf id = 0 →
      s.closings.length = t.called.count id) ∧
    (s.successes ≠ [] ∨ s.worker = .ended →
      s.stage = .closed ∧ t.manager.registry.ofSession id = []) := by
  intro t s
  obtain ⟨hlawful, -⟩ := lawful_run (lawful_empty config catalog fuel) deeds
  obtain ⟨-, hmore⟩ := lawful_run hlawful more
  obtain ⟨horderly, -, hvacates, hcalled⟩ := hlawful.seated id seat hseat
  have hcount : t.called.count id = t.attemptsOf id + s.shuttingDown.length + s.closings.length := by
    rw [hcalled, Session.shutdowns, List.length_append, List.length_map, Nat.add_assoc]
  refine ⟨hmore id seat hseat, fun hrests hopen => ?_, ?_, ?_, fun closing hmem hnot => ?_, hcount,
    fun hended hpending hattempts => ?_, fun h => ?_⟩
  · have hnot := horderly.allows.not_evaluating hrests
    revert hopen hnot
    cases seat.session.stage <;> decide
  · exact Nat.le_trans (Nat.le_add_left ..) horderly.winner
  · exact (List.nodup_append.1 horderly.distinct).2.1
  · cases hanswer : closing.2 with
    | refused => rfl
    | done =>
      refine absurd (List.mem_filter.2 ⟨hmem, ?_⟩) hnot
      exact decide_eq_true hanswer
  · -- the queue is empty, and the worker has no call in its hands
    have hqueue : s.queue = [] := horderly.drained.queue (by rw [hended]; rfl)
    have hnone : s.shuttingDown = [] := by
      unfold Session.shuttingDown
      rw [hpending, hqueue, hended]
      rfl
    rw [hcount, hattempts, hnone]
    exact (Nat.zero_add _).symm
  · have hended : s.worker = .ended := h.elim horderly.ended fun h => h
    have hallows := horderly.allows
    refine ⟨hallows.closed (by rw [hended]; rfl), hvacates ?_⟩
    rw [hended]
    rfl

/-- Two clients want to shut a session down once it is ready, and have both looked at its stage. A third one
submits a job that panics. The second client gets through, and the first one has to look again. -/
def racingShutdowns : List Deed :=
  [.openSession, .move 0 true .work, .move 0 true (.submit .becomeReady), .move 0 true (.finish 0),
    .move 0 true .work, .move 0 true .work, .move 0 true .work, .move 0 true .work, .look 0, .look 0,
    .move 0 true (.submit (.request (.act (.error "out of luck")))), .move 0 true (.finish 1),
    .move 0 true .work, .move 0 true .work, .attempt 1, .attempt 0, .attempt 0, .move 0 true (.finish 2),
    .move 0 true .work, .move 0 true .work, .move 0 true .work, .move 0 true .work, .move 0 true .work]

theorem racingShutdowns_end_closed :
    ∃ seat : Seat, ((empty {} {} 0).run racingShutdowns).manager.seats[0]? = some seat ∧
      seat.session.closings = [(3, .refused), (2, .done ())] ∧ seat.session.stage = .closed ∧
      ((empty {} {} 0).run racingShutdowns).manager.registry.ofSession 0 = [] := by
  obtain ⟨seat, hseat, hended, hclosings⟩ : ∃ seat : Seat,
      ((empty {} {} 0).run racingShutdowns).manager.seats[0]? = some seat ∧ seat.session.worker = .ended ∧
        seat.session.closings = [(3, .refused), (2, .done ())] :=
    ⟨_, rfl, rfl, rfl⟩
  obtain ⟨-, -, -, -, -, -, -, hclosed⟩ := sessions_end_closed {} {} 0 racingShutdowns [] 0 seat hseat
  exact ⟨seat, hseat, hclosings, hclosed (.inr hended)⟩

end Traffic

end Notebook

import Notebook.Proofs.Session.Jobs

/-!
# What is done for jobs

A job that is submitted is invoked once, with the kernel or, if the session is closing, without it, and is answered
then (`jobs_are_answered_once`).  What happens to jobs accounts for everything that is done: the workspace is what
the jobs that have been begun have made of it, one after the other, and a job is answered with what came of it in
the workspace that the jobs before it had left.

What a step does for jobs is said once (`Turn`), and what is known of a whole run (`Performed`) is kept by each
such step.
-/

namespace Notebook

/-- The job that a move submits. -/
def Session.Move.job? {J : Type} : Session.Move J → Option J
  | .submit job => some job
  | _ => none

/-- The job that the worker is doing, and what has come of it. -/
def Worker.result? {J α : Type} : Worker J α → Option (Ticket × α)
  | .running ticket _ _ result => some (ticket, result)
  | _ => none

section

variable {W J α : Type}

theorem Worker.hasDrained_of_result? {worker : Worker J α} {r : Ticket × α} (h : worker.result? = some r) :
    worker.hasDrained = false := by
  cases worker with
  | running => rfl
  | _ => cases h

/-- Nothing is done to the workspace, and no job is done with. -/
def Incident.IsIdle (i : Incident J α) : Prop :=
  i.usesEngine = false ∧ i.finished? = none

theorem Incident.effect_of_not_usesEngine {i : Incident J α} (h : i.usesEngine = false)
    (duties : Duties W J α) (w : W) : i.effect duties w = w := by
  cases i with
  | begun | stopped => cases h
  | _ => rfl

theorem workspaceAfter_append (duties : Duties W J α) (w : W) (log new : List (Incident J α)) :
    workspaceAfter duties w (log ++ new) = workspaceAfter duties (workspaceAfter duties w log) new :=
  List.foldl_append

theorem workspaceAfter_idle (duties : Duties W J α) (w : W) {new : List (Incident J α)}
    (h : ∀ i ∈ new, i.IsIdle) : workspaceAfter duties w new = w := by
  induction new with
  | nil => rfl
  | cons i new ih =>
    have hi : i.effect duties w = w := Incident.effect_of_not_usesEngine (h i List.mem_cons_self).1 duties w
    unfold workspaceAfter
    rw [List.foldl_cons, hi]
    exact ih fun j hj => h j (List.mem_cons_of_mem _ hj)

/-- A job comes to a result: it was begun, and this is what it came to in the workspace that there was then. -/
def Yields (duties : Duties W J α) (w : W) (log : List (Incident J α)) (t : Ticket) (result : α) : Prop :=
  ∃ job before after, log = before ++ .begun t job :: after ∧
    result = (duties.perform job (workspaceAfter duties w before)).1.1

theorem Yields.append {duties : Duties W J α} {w : W} {log : List (Incident J α)} {t : Ticket} {result : α}
    (h : Yields duties w log t result) (new : List (Incident J α)) :
    Yields duties w (log ++ new) t result := by
  obtain ⟨job, before, after, rfl, hresult⟩ := h
  exact ⟨job, before, after ++ new, List.append_assoc .., hresult⟩

end

namespace Session

variable {W J α : Type} {duties : Duties W J α} {s s' : Session J α} {w w' : W} {new : List (Incident J α)}

/-! ## What a step does -/

/-- A job is on its way to the worker, under a number. -/
inductive Holds (s : Session J α) (t : Ticket) (job : J) : Prop
  | called (closing : Bool) (h : Call.submit t job closing ∈ s.calls)
  | queued (h : Command.run t job ∈ s.queue)
  | held (h : s.worker = .holding (.run t job))

/-- What a step of a session does for jobs.  A job that is on its way afterwards was so before, or is submitted. -/
inductive Turn (duties : Duties W J α) (s : Session J α) (w : W) :
    List (Incident J α) → Session J α → W → Prop
  | rests {new : List (Incident J α)} {s' : Session J α} (hidle : ∀ i ∈ new, i.IsIdle)
      (hsingle : new.length ≤ 1)
      (hholds : ∀ t job, s'.Holds t job → s.Holds t job ∨ .submitted t job ∈ new)
      (hresult : s'.worker.result? = s.worker.result?)
      (hdrained : s.worker.hasDrained = true → s'.worker.hasDrained = true) : Turn duties s w new s' w
  | begins {t : Ticket} {job : J} {s' : Session J α} (hheld : s.worker = .holding (.run t job))
      (hholds : ∀ t job, s'.Holds t job → s.Holds t job)
      (hresult : s'.worker.result? = some (t, (duties.perform job w).1.1)) :
      Turn duties s w [.begun t job] s' (duties.perform job w).2
  | finishes {t : Ticket} {result : α} {s' : Session J α} (hrunning : s.worker.result? = some (t, result))
      (hholds : ∀ t job, s'.Holds t job → s.Holds t job) (hresult : s'.worker.result? = none) :
      Turn duties s w [.answered t (.done result)] s' w
  | stops {s' : Session J α} (hholds : ∀ t job, s'.Holds t job → s.Holds t job)
      (hresult : s'.worker.result? = none) (hbefore : s.worker.hasDrained = false)
      (hdrained : s'.worker.hasDrained = true) : Turn duties s w [.stopped] s' (duties.stop w)

/-- Jobs are taken off their way where they are not held. -/
theorem Holds.of_subset {t : Ticket} {job : J} (h : s'.Holds t job) (hcalls : s'.calls ⊆ s.calls)
    (hqueue : s'.queue ⊆ s.queue) (hworker : s'.worker = .holding (.run t job) → s.Holds t job) :
    s.Holds t job := by
  cases h with
  | called closing h => exact .called closing (hcalls h)
  | queued h => exact .queued (hqueue h)
  | held h => exact hworker h

/-- A job is held as before where the calls and the queue are the same. -/
theorem Holds.of_same {t : Ticket} {job : J} (h : s'.Holds t job) (hcalls : s'.calls = s.calls)
    (hqueue : s'.queue = s.queue)
    (hworker : s'.worker = .holding (.run t job) → s.worker = .holding (.run t job)) : s.Holds t job :=
  h.of_subset (hcalls ▸ List.Subset.refl _) (hqueue ▸ List.Subset.refl _) fun h => .held (hworker h)

theorem calls_refuse (s : Session J α) (c : Command J) : (s.refuse c).calls = s.calls := by
  cases c <;> rfl

theorem idle_refusal (c : Command J) : ∀ i ∈ (c.refusal : List (Incident J α)), i.IsIdle := by
  cases c with
  | run t job =>
    intro i hi
    cases List.mem_singleton.1 hi
    exact ⟨rfl, rfl⟩
  | shutdown t => exact fun i hi => (List.not_mem_nil hi).elim

theorem length_refusal_le (c : Command J) : (c.refusal : List (Incident J α)).length ≤ 1 := by
  cases c with
  | run => exact Nat.le_refl _
  | shutdown => exact Nat.zero_le _

/-- The worker refuses the first command of the queue. -/
theorem turn_refuseNext {c : Command J} {rest : List (Command J)} (hqueue : s.queue = c :: rest) :
    Turn duties s w c.refusal { s.refuse c with queue := rest } w := by
  have hworker : ({ s.refuse c with queue := rest } : Session J α).worker = s.worker := worker_refuse s c
  refine .rests (idle_refusal c) (length_refusal_le c) (fun t job h => .inl ?_) (congrArg _ hworker) ?_
  · refine h.of_subset ?_ ?_ fun h => .held (hworker ▸ h)
    · exact calls_refuse s c ▸ List.Subset.refl _
    · rw [hqueue]
      exact List.subset_cons_self _ _
  · rw [hworker]
    exact fun h => h

/-- A step of the worker in which nothing happens to a job. -/
theorem turn_rests (hcalls : s'.calls = s.calls) (hqueue : s'.queue ⊆ s.queue)
    (hworker : ∀ t job, s'.worker = .holding (.run t job) → s.Holds t job)
    (hresult : s'.worker.result? = s.worker.result?)
    (hdrained : s.worker.hasDrained = true → s'.worker.hasDrained = true) : Turn duties s w [] s' w := by
  refine .rests (fun i hi => (List.not_mem_nil hi).elim) (Nat.zero_le _) (fun t job h => .inl ?_) hresult
    hdrained
  exact h.of_subset (hcalls ▸ List.Subset.refl _) hqueue (hworker t job)

theorem turn_work? (h : work? duties s w = some (s', w')) : Turn duties s w s.incidentsOfWork s' w' := by
  rcases s with ⟨stage, queue, accepting, worker, calls, next, answers, closings⟩
  unfold work? at h
  unfold incidentsOfWork
  cases worker with
  | starting =>
    dsimp only at h
    split at h <;> cases h <;>
      exact turn_rests rfl (List.Subset.refl _) (fun _ _ h => nomatch h) rfl (fun h => nomatch h)
  | waiting =>
    cases queue with
    | nil => cases h
    | cons c rest =>
      cases h
      refine turn_rests rfl (List.subset_cons_self _ _) (fun t job hheld => ?_) rfl fun h => nomatch h
      cases hheld
      exact .queued List.mem_cons_self
  | holding c =>
    cases c with
    | run t job =>
      dsimp only at h ⊢
      -- once the session is closing, a job that has been taken is done without the kernel
      split at h
      · rename_i hclosing
        cases h
        rw [if_pos hclosing]
        refine .rests (idle_refusal (.run t job)) (Nat.le_refl _) (fun t job h => .inl ?_) rfl
          fun h => nomatch h
        exact h.of_same rfl rfl fun h => nomatch h
      · rename_i hclosing
        cases h
        rw [if_neg hclosing]
        refine .begins rfl (fun t job h => ?_) rfl
        exact h.of_same rfl rfl fun h => nomatch h
    | shutdown t =>
      cases h
      exact turn_rests rfl (List.Subset.refl _) (fun _ _ h => nomatch h) rfl fun h => nomatch h
  | running t entered touches result =>
    cases touches with
    | nil =>
      cases h
      refine .finishes rfl (fun t job h => ?_) rfl
      exact h.of_same rfl rfl fun h => nomatch h
    | cons touch touches =>
      cases h
      exact turn_rests rfl (List.Subset.refl _) (fun _ _ h => nomatch h) rfl fun h => nomatch h
  | closing t =>
    -- the engine is stopped when nothing is left in the queue
    cases queue with
    | nil =>
      cases h
      refine .stops (fun t job h => ?_) rfl rfl rfl
      exact h.of_same rfl rfl fun h => nomatch h
    | cons c rest =>
      cases h
      exact turn_refuseNext rfl
  | leaving t =>
    cases h
    exact turn_rests rfl (List.Subset.refl _) (fun _ _ h => nomatch h) rfl fun _ => rfl
  | broken =>
    cases h
    exact turn_rests rfl (List.Subset.refl _) (fun _ _ h => nomatch h) rfl fun h => nomatch h
  | abandoning =>
    cases queue with
    | nil =>
      cases h
      exact turn_rests rfl (List.Subset.refl _) (fun _ _ h => nomatch h) rfl fun h => nomatch h
    | cons c rest =>
      cases h
      exact turn_refuseNext rfl
  | ended => cases h

/-- A client that takes a step leaves the worker alone. -/
theorem turn_client (hworker : s'.worker = s.worker) (hidle : ∀ i ∈ new, i.IsIdle) (hsingle : new.length ≤ 1)
    (hholds : ∀ t job, s'.Holds t job → s.Holds t job ∨ .submitted t job ∈ new) :
    Turn duties s w new s' w := by
  refine .rests hidle hsingle hholds (congrArg _ hworker) ?_
  rw [hworker]
  exact fun h => h

theorem turn_beginSubmit (s : Session J α) (job : J) :
    Turn duties s w [.submitted s.nextTicket job] (s.beginSubmit job).2 w := by
  refine turn_client rfl (fun i hi => ?_) (Nat.le_refl _) fun t j h => ?_
  · cases List.mem_singleton.1 hi
    exact ⟨rfl, rfl⟩
  · cases h with
    | called closing h =>
      rcases List.mem_append.1 h with h | h
      · exact .inl (.called closing h)
      · cases List.mem_singleton.1 h
        exact .inr List.mem_cons_self
    | queued h => exact .inl (.queued h)
    | held h => exact .inl (.held h)

theorem turn_beginShutdown (s : Session J α) : Turn duties s w [] s.beginShutdown.2 w := by
  refine turn_client (worker_beginShutdown s) (fun i hi => (List.not_mem_nil hi).elim) (Nat.zero_le _) ?_
  intro t job h
  unfold beginShutdown at h
  dsimp only at h
  split at h
  · exact .inl (h.of_same rfl rfl fun h => h)
  · cases h with
    | called closing h =>
      rcases List.mem_append.1 h with h | h
      · exact .inl (.called closing h)
      · cases List.mem_singleton.1 h
    | queued h => exact .inl (.queued h)
    | held h => exact .inl (.held h)

theorem holds_send {c : Command J} {t : Ticket} {job : J} (h : (s.send c).Holds t job) :
    s.Holds t job ∨ c = .run t job := by
  unfold send at h
  split at h
  · cases h with
    | called closing h => exact .inl (.called closing h)
    | queued h =>
      rcases List.mem_append.1 h with h | h
      · exact .inl (.queued h)
      · exact .inr (List.mem_singleton.1 h).symm
    | held h => exact .inl (.held h)
  · cases c <;> exact .inl (h.of_same rfl rfl fun h => h)

theorem idle_incidentsOfCall (s : Session J α) (call : Call J) :
    (∀ i ∈ s.incidentsOfCall call, i.IsIdle) ∧ (s.incidentsOfCall call).length ≤ 1 := by
  unfold incidentsOfCall
  cases call with
  | submit t job closing =>
    dsimp only
    split
    · exact ⟨idle_refusal (.run t job), Nat.le_refl _⟩
    · refine ⟨fun i hi => ?_, Nat.le_refl _⟩
      cases List.mem_singleton.1 hi
      exact ⟨rfl, rfl⟩
  | shutdown t => exact ⟨fun i hi => (List.not_mem_nil hi).elim, Nat.zero_le _⟩

theorem turn_finishCall (s : Session J α) (ticket : Ticket) :
    Turn duties s w (s.incidents (.finish ticket)) (s.finishCall ticket) w := by
  have hworker := worker_finishCall s ticket
  unfold incidents
  unfold finishCall at hworker ⊢
  dsimp only
  cases hcall : s.calls.find? (·.ticket = ticket) with
  | none => exact turn_rests rfl (List.Subset.refl _) (fun t job h => .held h) rfl fun h => h
  | some call =>
    rw [hcall] at hworker
    obtain ⟨hidle, hsingle⟩ := idle_incidentsOfCall s call
    refine turn_client hworker hidle hsingle fun t job h => .inl ?_
    -- a job that the client sends was on its way with the call
    have hmem : call ∈ s.calls := List.mem_of_find?_eq_some hcall
    have hrest {t : Ticket} {job : J}
        (h : ({ s with calls := s.calls.filter (·.ticket ≠ ticket) } : Session J α).Holds t job) :
        s.Holds t job :=
      h.of_subset (List.filter_subset_self _) (List.Subset.refl _) fun h => .held h
    cases call with
    | submit t' job' closing =>
      cases closing with
      | true => exact hrest (h.of_same rfl rfl fun h => h)
      | false =>
        rcases holds_send h with h | h
        · exact hrest h
        · cases h
          exact .called false hmem
    | shutdown t' =>
      rcases holds_send h with h | h
      · exact hrest h
      · cases h

theorem turn_step (duties : Duties W J α) (s : Session J α) (w : W) (move : Move J) :
    Turn duties s w (s.incidents move) (s.step duties w move).1 (s.step duties w move).2 := by
  cases move with
  | submit job => exact turn_beginSubmit s job
  | shutdown => exact turn_beginShutdown s
  | finish ticket => exact turn_finishCall s ticket
  | work =>
    unfold step incidents
    dsimp only
    cases hwork : work? duties s w with
    | none =>
      rw [incidentsOfWork_of_none hwork]
      exact turn_rests rfl (List.Subset.refl _) (fun t job h => .held h) rfl fun h => h
    | some after => exact turn_work? hwork

/-! ## Whole runs -/

theorem Turn.workspace (h : Turn duties s w new s' w') : w' = workspaceAfter duties w new := by
  cases h with
  | rests hidle => exact (workspaceAfter_idle duties w hidle).symm
  | _ => rfl

theorem Turn.holds (h : Turn duties s w new s' w') {t : Ticket} {job : J} (hjob : s'.Holds t job) :
    s.Holds t job ∨ .submitted t job ∈ new := by
  cases h with
  | rests _ _ hholds => exact hholds t job hjob
  | begins _ hholds | finishes _ hholds | stops hholds => exact .inl (hholds t job hjob)

theorem Turn.begun (h : Turn duties s w new s' w') {t : Ticket} {job : J} (hjob : .begun t job ∈ new) :
    s.Holds t job := by
  cases h with
  | rests hidle => cases (hidle _ hjob).1
  | begins hheld =>
    cases List.mem_singleton.1 hjob
    exact .held hheld
  | finishes | stops => cases List.mem_singleton.1 hjob

theorem Turn.running (h : Turn duties s w new s' w') {t : Ticket} {result : α}
    (hresult : s'.worker.result? = some (t, result)) :
    s.worker.result? = some (t, result) ∨
      ∃ job, new = [.begun t job] ∧ result = (duties.perform job w).1.1 := by
  cases h with
  | rests _ _ _ hsame => exact .inl (hsame ▸ hresult)
  | begins _ _ hbegun =>
    cases hbegun.symm.trans hresult
    exact .inr ⟨_, rfl, rfl⟩
  | finishes _ _ hnone | stops _ hnone => cases hnone.symm.trans hresult

theorem Turn.finished (h : Turn duties s w new s' w') {t : Ticket} {result : α}
    (hanswer : .answered t (.done result) ∈ new) : s.worker.result? = some (t, result) := by
  cases h with
  | rests hidle => cases (hidle _ hanswer).2
  | finishes hrunning =>
    cases List.mem_singleton.1 hanswer
    exact hrunning
  | begins | stops => cases List.mem_singleton.1 hanswer

theorem Turn.stopped (h : Turn duties s w new s' w')
    (hstopped : s.worker.hasDrained = true ∨ .stopped ∈ new) : s'.worker.hasDrained = true := by
  cases h with
  | rests hidle _ _ _ hdrained =>
    rcases hstopped with hstopped | hstopped
    · exact hdrained hstopped
    · cases (hidle _ hstopped).1
  | begins hheld =>
    rw [hheld] at hstopped
    rcases hstopped with hstopped | hstopped
    · cases hstopped
    · cases List.mem_singleton.1 hstopped
  | finishes hrunning =>
    rcases hstopped with hstopped | hstopped
    · cases (Worker.hasDrained_of_result? hrunning).symm.trans hstopped
    · cases List.mem_singleton.1 hstopped
  | stops _ _ _ hdrained => exact hdrained

/-- A worker that has stopped the engine does not use it. -/
theorem Turn.usesEngine (h : Turn duties s w new s' w') (hdrained : s.worker.hasDrained = true) :
    ∀ i ∈ new, i.usesEngine = false := by
  cases h with
  | rests hidle => exact fun i hi => (hidle i hi).1
  | begins hheld =>
    rw [hheld] at hdrained
    cases hdrained
  | finishes =>
    intro i hi
    cases List.mem_singleton.1 hi
    rfl
  | stops _ _ hbefore => cases hbefore.symm.trans hdrained

theorem Turn.pairwise (h : Turn duties s w new s' w') (R : Incident J α → Incident J α → Prop) :
    new.Pairwise R := by
  cases h with
  | rests _ hsingle =>
    match new, hsingle with
    | [], _ => exact .nil
    | [i], _ => exact List.pairwise_singleton R i
  | _ => exact List.pairwise_singleton R _

/-- What is known of a session, of its workspace and of what has happened. -/
structure Performed (duties : Duties W J α) (w₀ : W) (log : List (Incident J α)) (s : Session J α) (w : W) :
    Prop where
  workspace : w = workspaceAfter duties w₀ log
  holds : ∀ t job, s.Holds t job → .submitted t job ∈ log
  begun : ∀ t job, .begun t job ∈ log → .submitted t job ∈ log
  running : ∀ t result, s.worker.result? = some (t, result) → Yields duties w₀ log t result
  finished : ∀ t result, .answered t (.done result) ∈ log → Yields duties w₀ log t result
  stopped : .stopped ∈ log → s.worker.hasDrained = true
  /-- The engine is not used any more once it has been stopped. -/
  last : log.Pairwise fun i j => i = .stopped → j.usesEngine = false

theorem Performed.turn {w₀ : W} {log : List (Incident J α)} (h : Performed duties w₀ log s w)
    (hturn : Turn duties s w new s' w') : Performed duties w₀ (log ++ new) s' w' where
  workspace := by rw [workspaceAfter_append, ← h.workspace, hturn.workspace]
  holds t job hjob := by
    rw [List.mem_append]
    exact (hturn.holds hjob).imp_left (h.holds t job)
  begun t job hjob := by
    rcases List.mem_append.1 hjob with hjob | hjob
    · exact List.mem_append_left _ (h.begun t job hjob)
    · exact List.mem_append_left _ (h.holds t job (hturn.begun hjob))
  running t result hresult := by
    rcases hturn.running hresult with hbefore | ⟨job, hnew, hperform⟩
    · exact (h.running t result hbefore).append new
    · -- the job has been done in the workspace of all that has happened so far
      refine ⟨job, log, [], congrArg (log ++ ·) hnew, ?_⟩
      rw [← h.workspace]
      exact hperform
  finished t result hanswer := by
    rcases List.mem_append.1 hanswer with hanswer | hanswer
    · exact (h.finished t result hanswer).append new
    · exact (h.running t result (hturn.finished hanswer)).append new
  stopped hstopped := hturn.stopped ((List.mem_append.1 hstopped).imp_left h.stopped)
  last := by
    refine List.pairwise_append.2 ⟨h.last, hturn.pairwise _, ?_⟩
    rintro i hi j hj rfl
    exact hturn.usesEngine (h.stopped hi) j hj

theorem performed_empty (duties : Duties W J α) (w : W) : Performed duties w [] ({} : Session J α) w where
  workspace := rfl
  holds t job h := by
    cases h with
    | called closing h => cases h
    | queued h => cases h
    | held h => cases h
  begun t job h := nomatch h
  running t result h := nomatch h
  finished t result h := nomatch h
  stopped h := nomatch h
  last := .nil

theorem Performed.run {w₀ : W} (moves : List (Move J)) {log : List (Incident J α)}
    (h : Performed duties w₀ log s w) :
    Performed duties w₀ (log ++ (run duties moves s w).1) (run duties moves s w).2.1
      (run duties moves s w).2.2 := by
  induction moves generalizing s w log with
  | nil =>
    rw [Session.run, List.append_nil]
    exact h
  | cons move moves ih =>
    rw [Session.run, ← List.append_assoc]
    exact ih (h.turn (turn_step duties s w move))

theorem submission?_refusal (c : Command J) :
    (c.refusal : List (Incident J α)).filterMap Incident.submission? = [] := by
  cases c <;> rfl

theorem submission?_incidentsOfWork (s : Session J α) :
    s.incidentsOfWork.filterMap Incident.submission? = [] := by
  unfold incidentsOfWork
  split
  · split <;> rfl
  · rfl
  · cases s.queue with
    | nil => rfl
    | cons c rest => exact submission?_refusal c
  · cases s.queue with
    | nil => rfl
    | cons c rest => exact submission?_refusal c
  · rfl

theorem submission?_incidents (s : Session J α) (move : Move J) :
    (s.incidents move).filterMap Incident.submission? = move.job?.toList := by
  cases move with
  | submit job => rfl
  | shutdown => rfl
  | finish ticket =>
    unfold incidents
    dsimp only
    cases s.calls.find? (·.ticket = ticket) with
    | none => rfl
    | some call =>
      cases call with
      | submit t job closing =>
        rw [Option.map_some, Option.getD_some, incidentsOfCall]
        split <;> rfl
      | shutdown t => rfl
  | work => exact submission?_incidentsOfWork s

/-- The jobs that are submitted are those of the moves. -/
theorem submissions_run (duties : Duties W J α) (moves : List (Move J)) (s : Session J α) (w : W) :
    (run duties moves s w).1.filterMap Incident.submission? = moves.filterMap Move.job? := by
  induction moves generalizing s w with
  | nil => rfl
  | cons move moves ih =>
    rw [Session.run, List.filterMap_append, submission?_incidents, ih]
    cases move <;> rfl

/-- Whatever clients and the worker do, and in whatever order their steps come: no job is invoked twice,
be it with the kernel or without it.  Jobs are done one at a time, and those that have been begun are the
first ones of the queue.  All other jobs are on their way, or they have been refused.  Once the worker
has ended and no client is about to take the second step of a call, none is on its way any more, and
every job has been answered once.

What has been done to the workspace is what the jobs have done that have been begun, in this order, and
stopping the engine, after which it is not used any more.  A job is answered with what came of it when it
was begun. -/
theorem jobs_are_answered_once (duties : Duties W J α) (moves : List (Move J)) (w : W) :
    let (log, s, w') := run duties moves {} w
    log.filterMap Incident.submission? = moves.filterMap Move.job? ∧
      (log.filterMap Incident.submitted?).Nodup ∧
      (log.filterMap Incident.begun? ++ log.filterMap Incident.refused?).Nodup ∧
      (log.filterMap Incident.submitted?).Perm
        (s.pending ++ (s.worker.held?.toList ++ s.queued) ++
          (log.filterMap Incident.begun? ++ log.filterMap Incident.refused?)) ∧
      log.filterMap Incident.begun? =
        log.filterMap Incident.finished? ++ s.worker.running?.toList ∧
      log.filterMap Incident.begun? <+: log.filterMap Incident.enqueued? ∧
      (s.stage.isClosing = false → s.worker.takesJobs = true →
        log.filterMap Incident.enqueued? =
          log.filterMap Incident.begun? ++ (s.worker.held?.toList ++ s.queued)) ∧
      s.answers = log.filterMap Incident.answer? ∧
      (s.worker = .ended → s.pending = [] →
        (log.filterMap Incident.submitted?).Perm
            (log.filterMap Incident.begun? ++ log.filterMap Incident.refused?) ∧
          (log.filterMap Incident.submitted?).Perm (s.answers.map (·.1))) ∧
      (∀ t job, .begun t job ∈ log → .submitted t job ∈ log) ∧
      w' = workspaceAfter duties w log ∧
      (log.Pairwise fun i j => i = .stopped → j.usesEngine = false) ∧
      ∀ t result, (t, .done result) ∈ s.answers → Yields duties w log t result := by
  have haccounted := accounted_empty.run duties moves w
  have hperformed := (performed_empty duties w).run moves
  have hsubmissions := submissions_run duties moves {} w
  rcases hrun : run duties moves {} w with ⟨log, s, w'⟩
  rw [hrun, List.nil_append] at haccounted hperformed
  rw [hrun] at hsubmissions
  dsimp only at haccounted hperformed hsubmissions ⊢
  obtain ⟨-, hclosed, htallies, hanswers⟩ := haccounted
  have hperm : (log.filterMap Incident.submitted?).Perm
      (s.pending ++ (s.worker.held?.toList ++ s.queued) ++
        (log.filterMap Incident.begun? ++ log.filterMap Incident.refused?)) := by
    rw [List.perm_iff_count]
    intro t
    have hwaiting : s.flow.waiting.count t = s.worker.held?.toList.count t + s.queued.count t :=
      List.count_append
    rw [htallies.counted t, hwaiting]
    simp only [List.count_append]
    rfl
  refine ⟨hsubmissions, htallies.distinct, ?_, hperm, htallies.running, htallies.first, ?_, hanswers, ?_,
    hperformed.begun, hperformed.workspace, hperformed.last, fun t result h => ?_⟩
  · exact (List.nodup_append.1 (hperm.nodup htallies.distinct)).2.1
  · exact fun hopen htakes => htallies.waits ((working_iff s).2 ⟨hopen, htakes⟩)
  · intro hended hpending
    -- a worker that has ended has drained the queue and holds no job
    have hqueued : s.queued = [] := by
      unfold queued
      rw [hclosed.queue (by rw [hended]; rfl)]
      rfl
    have hfinished : log.filterMap Incident.begun? = log.filterMap Incident.finished? := by
      have hrunning := htallies.running
      rw [show s.flow.running = none from congrArg Worker.running? hended] at hrunning
      exact hrunning.trans (List.append_nil _)
    rw [hpending, hqueued, hended] at hperm
    have hinvoked : (log.filterMap Incident.submitted?).Perm
        (log.filterMap Incident.begun? ++ log.filterMap Incident.refused?) := hperm
    refine ⟨hinvoked, hinvoked.trans ?_⟩
    rw [hanswers, hfinished]
    exact (perm_answered log).symm
  · rw [hanswers, List.mem_filterMap] at h
    obtain ⟨i, hmem, hi⟩ := h
    cases i with
    | answered t' a =>
      cases hi
      exact hperformed.finished t result hmem
    | _ => cases hi

/-- A worker that notes the jobs that it does. -/
def recorder : Duties (List Nat) Nat Nat := ⟨true, fun job w => ((job, []), w ++ [job]), id⟩

/-- A job is begun. A second one is sent before the session is shut down, by a client that has looked at
the stage before, and a third one comes too late. -/
def lateJobs : List (Move Nat) :=
  [.submit 7, .finish 0, .work, .work, .work, .submit 8, .shutdown, .finish 1, .finish 2, .submit 9,
    .work, .work, .work, .finish 3, .work, .work, .work, .work]

theorem lateJobs_are_answered :
    ∃ log s, run recorder lateJobs {} [] = (log, s, [7]) ∧ s.worker = .ended ∧ s.pending = [] ∧
      s.answers = [(0, .done 7), (1, .refused), (3, .refused)] ∧
      (log.filterMap Incident.submitted?).Perm (s.answers.map (·.1)) ∧
      Yields recorder [] log 0 7 := by
  obtain ⟨-, -, -, -, -, -, -, -, hended, -, -, -, hyields⟩ := jobs_are_answered_once recorder lateJobs []
  refine ⟨_, _, rfl, rfl, rfl, rfl, (hended rfl rfl).2, hyields 0 7 ?_⟩
  exact List.mem_cons_self

end Session

end Notebook

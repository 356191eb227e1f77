import Notebook.Proofs.Session.Closing

/-!
# Sessions open before they serve

A session that is created has its first jobs submitted at once: the capabilities that every session has
are tried in the order of the catalog, and then the session becomes ready.  Whatever comes of these jobs,
and however the worker's steps and what clients do come after that, a job of a client is begun only in a
session that is ready (`system_capabilities_come_first`).

What carries the proof is that an open session has lost nothing: the jobs that were begun, the one in the
worker's hands and those in the queue are the jobs that were sent, in order (`Session.Aligned`).
-/

namespace Notebook
open Notebook.Guest Notebook.Capability

/-- A job that the worker has begun with: what it found then. -/
structure Beginning (W J : Type) where
  job : J
  stage : Stage
  workspace : W

/-- The job that a command is about. -/
def Command.content? {J : Type} : Command J → Option J
  | .run _ job => some job
  | .shutdown _ => none

/-- The job that the worker has in its hands and has not begun with. -/
def Worker.inHand {J α : Type} : Worker J α → List J
  | .holding c => c.content?.toList
  | _ => []

namespace Session

variable {W J α : Type}

/-! ## What the worker begins with -/

/-- The job that the worker begins with if it takes a step. -/
def begins? (s : Session J α) : Option J :=
  match s.worker with
  | .holding (.run _ job) => if s.stage.isClosing then none else some job
  | _ => none

/-- What a move begins with. -/
def beginning (s : Session J α) (w : W) : Move J → List (Beginning W J)
  | .work => s.begins?.toList.map (⟨·, s.stage, w⟩)
  | _ => []

/-- What the worker begins with, in order, when moves are made one after the other. -/
def beginnings (duties : Duties W J α) : List (Move J) → Session J α → W → List (Beginning W J)
  | [], _, _ => []
  | move :: moves, s, w =>
    s.beginning w move ++
      beginnings duties moves (s.step duties w move).1 (s.step duties w move).2

/-- The workspace after some jobs. -/
def afterJobs (duties : Duties W J α) (w : W) (history : List (Beginning W J)) : W :=
  history.foldl (fun w b => (duties.perform b.job w).2) w

/-- The jobs that the worker has not begun with, in order. -/
def ahead (s : Session J α) : List J := s.worker.inHand ++ s.queue.filterMap Command.content?

theorem begins?_eq_some {s : Session J α} {job : J} (h : s.begins? = some job) :
    s.stage.isClosing = false ∧ ∃ t, s.worker = .holding (.run t job) := by
  unfold begins? at h
  split at h
  · rename_i t job' hworker
    split at h
    · cases h
    · rename_i hopen
      cases h
      exact ⟨Bool.eq_false_of_not_eq_true hopen, t, hworker⟩
  · cases h

/-- In an open session the worker has not been told to shut it down. -/
theorem Orderly.takesJobs {s : Session J α} (hs : s.Orderly) (hopen : s.stage.isClosing = false) :
    s.worker.takesJobs = true ∧ s.worker.shutdown? = none := by
  have hnone : s.worker.shutdown? = none := by
    by_contra hsome
    obtain ⟨t, ht⟩ := Option.ne_none_iff_exists'.1 hsome
    have hwon : 0 < s.winners := by
      unfold winners shuttingDown
      rw [ht]
      simp
    rw [hs.closing hwon] at hopen
    cases hopen
  have hrunning : s.worker.hasStopped = false := by
    by_contra hstopped
    rw [hs.allows.closed (Bool.eq_true_of_not_eq_false hstopped)] at hopen
    cases hopen
  refine ⟨?_, hnone⟩
  revert hnone hrunning
  cases s.worker with
  | starting | waiting | holding | running => exact fun _ _ => rfl
  | closing => nofun
  | leaving | broken | abandoning | ended => nofun

/-- What a step of the worker does as long as the session is open afterwards. -/
structure KeepsOpen (duties : Duties W J α) (s : Session J α) (w : W) (s' : Session J α) (w' : W) :
    Prop where
  wasOpen : s.stage.isClosing = false
  accepting : s'.accepting = s.accepting
  ahead : s.ahead = s.begins?.toList ++ s'.ahead
  workspace : w' = (s.begins?.map fun job => (duties.perform job w).2).getD w

theorem keepsOpen_work? {duties : Duties W J α}
    (hduties : ∀ job w, Touch.Paired false (duties.perform job w).1.2) {s s' : Session J α} {w w' : W}
    (hs : s.Orderly) (h : work? duties s w = some (s', w')) (hopen' : s'.stage.isClosing = false) :
    KeepsOpen duties s w s' w' := by
  have hopen : s.stage.isClosing = false := by
    by_contra hclosing
    rw [(turns_work? hduties h).closing (Bool.eq_true_of_not_eq_false hclosing)] at hopen'
    cases hopen'
  obtain ⟨htakes, hnone⟩ := hs.takesJobs hopen
  rcases s with ⟨stage, queue, accepting, worker, calls, next, answers, closings⟩
  unfold work? at h
  cases worker with
  | starting =>
    dsimp only at h
    split at h
    · cases h
      exact ⟨hopen, rfl, rfl, rfl⟩
    · cases h
      cases hopen'
  | waiting =>
    cases queue with
    | nil => cases h
    | cons c rest =>
      cases h
      cases c <;> exact ⟨hopen, rfl, rfl, rfl⟩
  | holding c =>
    cases c with
    | run t job =>
      have hbegins : begins? (α := α) ⟨stage, queue, accepting, .holding (.run t job), calls, next, answers,
          closings⟩ = some job := if_neg (by rw [hopen]; exact Bool.false_ne_true)
      dsimp only at h
      rw [if_neg (by rw [hopen]; exact Bool.false_ne_true)] at h
      cases h
      refine ⟨hopen, rfl, ?_, ?_⟩
      · rw [hbegins]
        rfl
      · rw [hbegins]
        rfl
    | shutdown t => cases hnone
  | running t entered touches result =>
    cases touches <;> cases h <;> exact ⟨hopen, rfl, rfl, rfl⟩
  | closing | leaving | broken | abandoning | ended => cases htakes

/-! ## Jobs in the order in which they were sent -/

/-- The jobs that were begun are the first ones of those that were sent.  In an open session the others
have not been lost: the worker is yet to come to them. -/
structure Aligned (s : Session J α) (begun sent : List J) : Prop where
  first : begun <+: sent
  waits : s.stage.isClosing = false → begun ++ s.ahead = sent

/-- In a closing session it makes no difference what is sent. -/
theorem Aligned.append {s : Session J α} {begun sent : List J} (h : s.Aligned begun sent)
    (hclosing : s.stage.isClosing = true) (more : List J) : s.Aligned begun (sent ++ more) := by
  refine ⟨h.first.trans (List.prefix_append _ _), fun hopen => ?_⟩
  rw [hclosing] at hopen
  cases hopen

theorem Aligned.of_eq {s s' : Session J α} {begun sent : List J} (h : s.Aligned begun sent)
    (hopen : s'.stage.isClosing = false → s.stage.isClosing = false) (hahead : s'.ahead = s.ahead) :
    s'.Aligned begun sent :=
  ⟨h.first, fun hopen' => hahead ▸ h.waits (hopen hopen')⟩

theorem ahead_of_begins? {s : Session J α} {job : J} (h : s.begins? = some job) :
    s.ahead = job :: s.queue.filterMap Command.content? := by
  obtain ⟨-, t, hworker⟩ := begins?_eq_some h
  unfold ahead
  rw [hworker]
  rfl

/-- What the worker begins with comes next among the jobs that were sent. -/
theorem Aligned.work? {duties : Duties W J α}
    (hduties : ∀ job w, Touch.Paired false (duties.perform job w).1.2) {s s' : Session J α} {w w' : W}
    {begun sent : List J} (h : s.Aligned begun sent) (hs : s.Orderly)
    (hwork : Session.work? duties s w = some (s', w')) :
    s'.Aligned (begun ++ s.begins?.toList) sent := by
  refine ⟨?_, fun hopen => ?_⟩
  · cases hbegins : s.begins? with
    | none =>
      rw [Option.toList_none, List.append_nil]
      exact h.first
    | some job =>
      rw [← h.waits (begins?_eq_some hbegins).1, ahead_of_begins? hbegins]
      exact (List.prefix_append_right_inj _).2 (List.prefix_append [job] _)
  · have hkeeps := keepsOpen_work? hduties hs hwork hopen
    rw [List.append_assoc, ← hkeeps.ahead]
    exact h.waits hkeeps.wasOpen

/-- What the second step of a call leaves alone. -/
theorem exists_finishCall (s : Session J α) (ticket : Ticket) :
    ∃ queue answers closings, s.finishCall ticket =
      { s with queue, answers, closings, calls := s.calls.filter (·.ticket ≠ ticket) } := by
  have hsend (s : Session J α) (c : Command J) : ∃ queue answers closings, s.send c =
      { s with queue, answers, closings } := by
    unfold send
    split
    · exact ⟨_, _, _, rfl⟩
    · cases c <;> exact ⟨_, _, _, rfl⟩
  unfold finishCall
  split
  · rename_i hnone
    have hall : s.calls.filter (·.ticket ≠ ticket) = s.calls := by
      refine List.filter_eq_self.2 fun c hc => ?_
      have hne := List.find?_eq_none.1 hnone c hc
      simpa using hne
    rw [hall]
    exact ⟨_, _, _, rfl⟩
  · dsimp only
    split
    · exact ⟨_, _, _, rfl⟩
    · obtain ⟨queue, answers, closings, heq⟩ := hsend { s with calls := s.calls.filter (·.ticket ≠ ticket) }
        (.run _ _)
      exact ⟨queue, answers, closings, heq⟩
    · obtain ⟨queue, answers, closings, heq⟩ := hsend { s with calls := s.calls.filter (·.ticket ≠ ticket) }
        (.shutdown _)
      exact ⟨queue, answers, closings, heq⟩

/-- The job that the second step of a call sends. -/
def sends (s : Session J α) (ticket : Ticket) : List J :=
  match s.calls.find? (·.ticket = ticket) with
  | some (.submit _ job false) => [job]
  | _ => []

theorem ahead_send {s : Session J α} (haccepting : s.accepting = true) (c : Command J) :
    (s.send c).ahead = s.ahead ++ c.content?.toList := by
  unfold send
  rw [if_pos haccepting]
  unfold ahead
  dsimp only
  rw [List.filterMap_append, List.append_assoc]
  cases c <;> rfl

theorem ahead_finishCall {s : Session J α} (haccepting : s.accepting = true) (ticket : Ticket) :
    (s.finishCall ticket).ahead = s.ahead ++ s.sends ticket := by
  unfold finishCall sends
  cases s.calls.find? (·.ticket = ticket) with
  | none => exact (List.append_nil _).symm
  | some call =>
    cases call with
    | submit t job closing =>
      cases closing with
      | true => exact (List.append_nil _).symm
      | false =>
        exact ahead_send (s := { s with calls := s.calls.filter (·.ticket ≠ ticket) }) haccepting (.run t job)
    | shutdown t =>
      exact ahead_send (s := { s with calls := s.calls.filter (·.ticket ≠ ticket) }) haccepting (.shutdown t)

/-- An open session takes commands. -/
def Accepts (s : Session J α) : Prop := s.stage.isClosing = false → s.accepting = true

theorem Aligned.finishCall {s : Session J α} {begun sent : List J} (h : s.Aligned begun sent)
    (haccepts : s.Accepts) (ticket : Ticket) :
    (s.finishCall ticket).Aligned begun (sent ++ s.sends ticket) := by
  refine ⟨h.first.trans (List.prefix_append _ _), fun hopen => ?_⟩
  have hbefore : s.stage.isClosing = false := by
    obtain ⟨queue, answers, closings, heq⟩ := s.exists_finishCall ticket
    rw [heq] at hopen
    exact hopen
  rw [ahead_finishCall (haccepts hbefore), ← List.append_assoc, h.waits hbefore]

/-! ## The first jobs of a session -/

/-- The calls that submit the first jobs, each of which is made after the one before. -/
def openingFrom : Ticket → List J → List (Move J)
  | _, [] => []
  | ticket, job :: jobs => .submit job :: .finish ticket :: openingFrom (ticket + 1) jobs

/-- The calls that submit the first jobs of a session. -/
def openingMoves (jobs : List J) : List (Move J) := openingFrom 0 jobs

/-- Whether a move is one of the worker's. -/
def Move.isWork : Move J → Bool
  | .work => true
  | _ => false

/-- What clients do, without the worker's steps. -/
def clientMoves (moves : List (Move J)) : List (Move J) := moves.filter (!·.isWork)

/-- Without the worker, the first calls of a session put the jobs into the queue one after the other. -/
theorem run_openingFrom (duties : Duties W J α) (jobs : List J) (s : Session J α) (w : W) :
    (run duties (openingFrom s.nextTicket jobs) s w).2 =
      (jobs.foldl (fun (s : Session J α) job => (s.submit job).2) s, w) := by
  induction jobs generalizing s with
  | nil => rfl
  | cons job jobs ih =>
    have hnext : (s.submit job).2.nextTicket = s.nextTicket + 1 := by
      obtain ⟨queue, answers, closings, heq⟩ := (s.beginSubmit job).2.exists_finishCall s.nextTicket
      exact congrArg Session.nextTicket heq
    rw [List.foldl_cons, ← ih, hnext]
    rfl

/-- How far a session has come with its first jobs, and what its clients are still to do: the next one of
the jobs of `opening` is to be submitted, it is about to be sent, or all of them have been sent and what
comes after them are jobs of clients. -/
inductive Phase (opening : List J) (client : J → Prop) (others : List (Move J)) (s : Session J α)
    (begun : List J) : List (Move J) → Prop
  | between {done rest : List J} {job : J} (hopening : opening = done ++ job :: rest)
      (hcalls : s.calls = []) (hnext : s.nextTicket = done.length) (hsent : s.Aligned begun done) :
      Phase opening client others s begun (openingFrom done.length (job :: rest) ++ others)
  | within {done rest : List J} {job : J} {closing : Bool} (hopening : opening = done ++ job :: rest)
      (hcalls : s.calls = [.submit done.length job closing])
      (hseen : closing = true → s.stage.isClosing = true) (hnext : s.nextTicket = done.length + 1)
      (hsent : s.Aligned begun done) :
      Phase opening client others s begun
        (.finish done.length :: (openingFrom (done.length + 1) rest ++ others))
  | serving {served : List J} {todo : List (Move J)} (hserved : ∀ job ∈ served, client job)
      (hcalls : ∀ t job closing, Call.submit t job closing ∈ s.calls → client job)
      (htodo : ∀ job, Move.submit job ∈ todo → client job) (hsent : s.Aligned begun (opening ++ served)) :
      Phase opening client others s begun todo

namespace Phase

variable {opening : List J} {client : J → Prop} {others todo : List (Move J)} {s s' : Session J α}
  {begun : List J}

/-- Some jobs of the opening have been sent, maybe all. -/
theorem of_sent (hothers : ∀ job, Move.submit job ∈ others → client job) {done rest : List J}
    (hopening : opening = done ++ rest) (hcalls : s.calls = []) (hnext : s.nextTicket = done.length)
    (hsent : s.Aligned begun done) :
    Phase opening client others s begun (openingFrom done.length rest ++ others) := by
  cases rest with
  | nil =>
    rw [List.append_nil] at hopening
    subst hopening
    have hsent' : s.Aligned begun (opening ++ []) := (List.append_nil opening).symm ▸ hsent
    refine .serving ?_ (fun t job closing hmem => ?_) hothers hsent'
    · exact fun job hmem => (List.not_mem_nil hmem).elim
    · rw [hcalls] at hmem
      cases hmem
  | cons job rest => exact .between hopening hcalls hnext hsent

/-- The jobs that were begun are first those of the opening and then jobs of clients. -/
theorem begun_first (h : Phase opening client others s begun todo) :
    ∃ served : List J, (∀ job ∈ served, client job) ∧ begun <+: opening ++ served := by
  cases h with
  | between hopening _ _ hsent =>
    refine ⟨[], nofun, hsent.first.trans ?_⟩
    rw [hopening, List.append_nil]
    exact List.prefix_append _ _
  | within hopening _ _ _ hsent =>
    refine ⟨[], nofun, hsent.first.trans ?_⟩
    rw [hopening, List.append_nil]
    exact List.prefix_append _ _
  | serving hserved _ _ hsent => exact ⟨_, hserved, hsent.first⟩

/-- The worker's steps do not change what clients are to do. -/
theorem work (h : Phase opening client others s begun todo) {begun' : List J}
    (hcalls : s'.calls = s.calls) (hnext : s'.nextTicket = s.nextTicket)
    (hclosing : s.stage.isClosing = true → s'.stage.isClosing = true)
    (hsent : ∀ sent, s.Aligned begun sent → s'.Aligned begun' sent) :
    Phase opening client others s' begun' todo := by
  cases h with
  | between hopening hnone hticket h =>
    exact .between hopening (hcalls.trans hnone) (hnext.trans hticket) (hsent _ h)
  | within hopening hone hseen hticket h =>
    exact .within hopening (hcalls.trans hone) (fun hc => hclosing (hseen hc)) (hnext.trans hticket)
      (hsent _ h)
  | serving hserved hclients htodo h =>
    exact .serving hserved (fun t job closing hmem => hclients t job closing (hcalls ▸ hmem)) htodo
      (hsent _ h)

theorem submit {job : J} (h : Phase opening client others s begun (.submit job :: todo)) :
    Phase opening client others (s.beginSubmit job).2 begun todo := by
  generalize hscript : Move.submit job :: todo = script at h
  cases h with
  | between hopening hcalls hnext hsent =>
    cases hscript
    refine .within hopening ?_ (fun h => h) ?_ (hsent.of_eq (fun h => h) rfl)
    · unfold beginSubmit
      rw [hcalls, hnext]
      rfl
    · exact congrArg (· + 1) hnext
  | within => cases hscript
  | serving hserved hclients htodo hsent =>
    subst hscript
    refine .serving hserved (fun t job' closing hmem => ?_) (fun job' hmem => ?_)
      (hsent.of_eq (fun h => h) rfl)
    · rcases List.mem_append.1 hmem with hmem | hmem
      · exact hclients t job' closing hmem
      · cases List.mem_singleton.1 hmem
        exact htodo job List.mem_cons_self
    · exact htodo job' (List.mem_cons_of_mem _ hmem)

theorem shutdown (h : Phase opening client others s begun (.shutdown :: todo)) :
    Phase opening client others s.beginShutdown.2 begun todo := by
  generalize hscript : Move.shutdown :: todo = script at h
  cases h with
  | between => cases hscript
  | within => cases hscript
  | serving hserved hclients htodo hsent =>
    subst hscript
    have hahead : s.beginShutdown.2.ahead = s.ahead := by
      unfold beginShutdown
      dsimp only
      split <;> rfl
    have hopen : s.beginShutdown.2.stage.isClosing = false → s.stage.isClosing = false := by
      intro h
      by_contra hclosing
      rw [s.turns_beginShutdown.closing (Bool.eq_true_of_not_eq_false hclosing)] at h
      cases h
    refine .serving hserved (fun t job closing hmem => ?_)
      (fun job hmem => htodo job (List.mem_cons_of_mem _ hmem)) (hsent.of_eq hopen hahead)
    unfold beginShutdown at hmem
    dsimp only at hmem
    split at hmem
    · exact hclients t job closing hmem
    · refine hclients t job closing ((List.mem_append.1 hmem).resolve_right ?_)
      rw [List.mem_singleton]
      nofun

theorem finish (hothers : ∀ job, Move.submit job ∈ others → client job) {ticket : Ticket}
    (haccepts : s.Accepts) (h : Phase opening client others s begun (.finish ticket :: todo)) :
    Phase opening client others (s.finishCall ticket) begun todo := by
  obtain ⟨queue, answers, closings, heq⟩ := s.exists_finishCall ticket
  generalize hscript : Move.finish ticket :: todo = script at h
  cases h with
  | between => cases hscript
  | @within done rest job closing hopening hcalls hseen hnext hsent =>
    cases hscript
    have hlength : done.length + 1 = (done ++ [job]).length := by rw [List.length_append]; rfl
    rw [hlength]
    refine .of_sent hothers ?_ ?_ ?_ ?_
    · rw [hopening, List.append_assoc]
      rfl
    · rw [heq, hcalls]
      simp [Call.ticket]
    · rw [heq, ← hlength]
      exact hnext
    · -- the job is sent, or it is refused in a session that is closing
      cases closing with
      | true =>
        have hstage : (s.finishCall done.length).stage.isClosing = true := by
          rw [heq]
          exact hseen rfl
        have hsends : s.sends done.length = [] := by
          unfold sends
          rw [hcalls]
          simp [Call.ticket]
        have haligned := hsent.finishCall haccepts done.length
        rw [hsends, List.append_nil] at haligned
        exact haligned.append hstage [job]
      | false =>
        have hsends : s.sends done.length = [job] := by
          unfold sends
          rw [hcalls]
          simp [Call.ticket]
        rw [← hsends]
        exact hsent.finishCall haccepts done.length
  | @serving served _ hserved hclients htodo hsent =>
    subst hscript
    have hsends : ∀ job ∈ s.sends ticket, client job := by
      intro job hmem
      unfold sends at hmem
      split at hmem
      · rename_i t job' hcall
        cases List.mem_singleton.1 hmem
        exact hclients t job false (List.mem_of_find?_eq_some hcall)
      · cases hmem
    have hsent' : (s.finishCall ticket).Aligned begun (opening ++ (served ++ s.sends ticket)) := by
      rw [← List.append_assoc]
      exact hsent.finishCall haccepts ticket
    refine .serving (fun job hmem => ?_) (fun t job closing hmem => ?_)
      (fun job hmem => htodo job (List.mem_cons_of_mem _ hmem)) hsent'
    · exact (List.mem_append.1 hmem).elim (hserved job) (hsends job)
    · rw [heq] at hmem
      exact hclients t job closing (List.mem_filter.1 hmem).1

end Phase

/-! ## Becoming ready -/

/-- Once the session has begun to become ready, it leaves the first stage at the next step. -/
def Awaits (ready : J) (s : Session J α) (begun : List J) : Prop :=
  ready ∈ begun → s.stage = .created →
    begun.getLast? = some ready ∧ ∃ t entered result, s.worker = .running t entered [.becomeReady] result

theorem Awaits.of_eq {ready : J} {s s' : Session J α} {begun : List J} (h : s.Awaits ready begun)
    (hworker : s'.worker = s.worker) (hstage : s'.stage = .created → s.stage = .created) :
    s'.Awaits ready begun := by
  intro hmem hcreated
  rw [hworker]
  exact h hmem (hstage hcreated)

/-- A session that has left the first stage does not come back to it. -/
theorem created_of_work? {duties : Duties W J α} {s s' : Session J α} {w w' : W}
    (h : work? duties s w = some (s', w')) (hcreated : s'.stage = .created) : s.stage = .created := by
  have hrefuse (c : Command J) : (s.refuse c).stage = s.stage := by cases c <;> rfl
  have happly {entered : Bool} {touch : Touch} {stage : Stage} :
      (touch.apply entered stage).2 = .created → stage = .created := by
    cases touch <;> cases entered <;> cases stage <;> decide
  unfold work? at h
  split at h
  · split at h
    · cases h
      exact hcreated
    · cases h
      cases hcreated
  · split at h
    · cases h
    · cases h
      exact hcreated
  · split at h <;> cases h <;> exact hcreated
  · cases h
    exact hcreated
  · cases h
    exact happly hcreated
  · cases h
    exact hcreated
  · split at h
    · cases h
      exact (hrefuse _).symm.trans hcreated
    · cases h
      cases hcreated
  · cases h
    exact hcreated
  · cases h
    exact hcreated
  · split at h
    · cases h
      exact (hrefuse _).symm.trans hcreated
    · cases h
      exact hcreated
  · cases h

theorem Awaits.work? {duties : Duties W J α} {ready : J}
    (hready : ∀ w, (duties.perform ready w).1.2 = [.becomeReady]) {s s' : Session J α} {w w' : W}
    {begun : List J} (h : s.Awaits ready begun) (hwork : Session.work? duties s w = some (s', w')) :
    s'.Awaits ready (begun ++ s.begins?.toList) := by
  intro hmem hcreated
  have hbefore := created_of_work? hwork hcreated
  cases hbegins : s.begins? with
  | none =>
    -- the next thing that the worker does is to let the session be ready
    rw [hbegins, Option.toList_none, List.append_nil] at hmem
    obtain ⟨-, t, entered, result, hworker⟩ := h hmem hbefore
    unfold Session.work? at hwork
    rw [hworker] at hwork
    cases hwork
    change Stage.move .created .ready s.stage = .created at hcreated
    rw [hbefore] at hcreated
    cases hcreated
  | some job =>
    obtain ⟨hopen, t, hworker⟩ := begins?_eq_some hbegins
    rw [hbegins, Option.toList_some, List.mem_append, List.mem_singleton] at hmem
    have hjob : ready = job := by
      refine hmem.resolve_left fun hmem => ?_
      obtain ⟨-, t', entered, result, hrunning⟩ := h hmem hbefore
      rw [hworker] at hrunning
      cases hrunning
    subst hjob
    refine ⟨by rw [Option.toList_some, List.getLast?_append]; rfl, t, false, (duties.perform ready w).1.1, ?_⟩
    unfold Session.work? at hwork
    rw [hworker] at hwork
    dsimp only at hwork
    rw [if_neg (by rw [hopen]; exact Bool.false_ne_true)] at hwork
    cases hwork
    change Worker.running t false (duties.perform ready w).1.2 _ = _
    rw [hready]

/-! ## What clients find -/

theorem work?_calls {duties : Duties W J α} {s s' : Session J α} {w w' : W}
    (h : work? duties s w = some (s', w')) : s'.calls = s.calls ∧ s'.nextTicket = s.nextTicket := by
  have hrefuse (c : Command J) :
      (s.refuse c).calls = s.calls ∧ (s.refuse c).nextTicket = s.nextTicket := by
    cases c <;> exact ⟨rfl, rfl⟩
  unfold work? at h
  split at h
  · split at h <;> cases h <;> exact ⟨rfl, rfl⟩
  · split at h <;> cases h
    exact ⟨rfl, rfl⟩
  · split at h <;> cases h <;> exact ⟨rfl, rfl⟩
  · cases h
    exact ⟨rfl, rfl⟩
  · cases h
    exact ⟨rfl, rfl⟩
  · cases h
    exact ⟨rfl, rfl⟩
  · split at h <;> cases h
    · exact hrefuse _
    · exact ⟨rfl, rfl⟩
  · cases h
    exact ⟨rfl, rfl⟩
  · cases h
    exact ⟨rfl, rfl⟩
  · split at h <;> cases h
    · exact hrefuse _
    · exact ⟨rfl, rfl⟩
  · cases h

/-- Everything that has been begun was begun after what came before it: it found the workspace that the
jobs before it have left, and if it is a job of a client, the opening was over and the session was ready. -/
def FindsReady (duties : Duties W J α) (opening : List J) (client : J → Prop) (w₀ : W)
    (history : List (Beginning W J)) : Prop :=
  ∀ before b later, history = before ++ b :: later →
    b.workspace = afterJobs duties w₀ before ∧
    (client b.job → opening <+: before.map (·.job) ∧ b.stage = .ready)

theorem FindsReady.append {duties : Duties W J α} {opening : List J} {client : J → Prop} {w₀ : W}
    {history : List (Beginning W J)} (h : FindsReady duties opening client w₀ history) {b : Beginning W J}
    (hworkspace : b.workspace = afterJobs duties w₀ history)
    (hclient : client b.job → opening <+: history.map (·.job) ∧ b.stage = .ready) :
    FindsReady duties opening client w₀ (history ++ [b]) := by
  intro before b' later heq
  rcases List.eq_nil_or_concat later with rfl | ⟨later, last, rfl⟩
  · obtain ⟨rfl, hb⟩ := List.append_inj' heq rfl
    cases hb
    exact ⟨hworkspace, hclient⟩
  · rw [List.concat_eq_append, ← List.cons_append, ← List.append_assoc] at heq
    obtain ⟨rfl, -⟩ := List.append_inj' heq rfl
    exact h before b' later rfl

/-- A job that comes after some others, and is not one of them, comes after all of them. -/
theorem prefix_of_concat_prefix {A : Type} {opening served begun : List A} {job : A}
    (h : begun ++ [job] <+: opening ++ served) (hnot : job ∉ opening) : opening <+: begun := by
  have hbegun : begun <+: opening ++ served := (List.prefix_append _ _).trans h
  refine List.prefix_of_prefix_length_le (List.prefix_append _ _) hbegun ?_
  by_contra hshort
  have hall : begun ++ [job] <+: opening := by
    refine List.prefix_of_prefix_length_le h (List.prefix_append _ _) ?_
    rw [List.length_append, List.length_singleton]
    omega
  exact hnot (hall.subset (List.mem_append_right _ List.mem_cons_self))

/-- What the jobs of an opening are, and what clients do after it. -/
structure Opens (duties : Duties W J α) (opening : List J) (ready : J) (client : J → Prop)
    (others : List (Move J)) : Prop where
  paired : ∀ job w, Touch.Paired false (duties.perform job w).1.2
  mem_ready : ready ∈ opening
  ready : ∀ w, (duties.perform ready w).1.2 = [.becomeReady]
  notClient : ∀ job ∈ opening, ¬ client job
  others : ∀ job, Move.submit job ∈ others → client job

/-- What holds of a session from its beginning on, if `history` is what has been begun in it and `todo` is
what clients are still to do. -/
structure Opened (duties : Duties W J α) (opening : List J) (ready : J) (client : J → Prop)
    (others : List (Move J)) (w₀ : W) (s : Session J α) (w : W) (history : List (Beginning W J))
    (todo : List (Move J)) : Prop where
  orderly : s.Orderly
  accepts : s.Accepts
  workspace : s.stage.isClosing = false → w = afterJobs duties w₀ history
  awaits : s.Awaits ready (history.map (·.job))
  found : FindsReady duties opening client w₀ history
  phase : Phase opening client others s (history.map (·.job)) todo

section

variable {duties : Duties W J α} {opening : List J} {ready : J} {client : J → Prop}
  {others todo : List (Move J)} {w₀ w : W} {s : Session J α} {history : List (Beginning W J)}

/-- A session in which a job of a client has been begun has left the first stage, and stays so. -/
theorem Opened.left (hopens : Opens duties opening ready client others)
    (h : Opened duties opening ready client others w₀ s w history todo)
    (hclient : ∃ b ∈ history, client b.job) : s.stage ≠ .created := by
  intro hcreated
  obtain ⟨b, hb, hclient⟩ := hclient
  obtain ⟨before, later, rfl⟩ := List.append_of_mem hb
  obtain ⟨-, hfound⟩ := h.found before b later rfl
  obtain ⟨hopening, -⟩ := hfound hclient
  have hmem : ready ∈ before.map (·.job) := hopening.subset hopens.mem_ready
  obtain ⟨hlast, -⟩ := h.awaits (by rw [List.map_append]; exact List.mem_append_left _ hmem) hcreated
  -- the last job is one of a client, since everything after the opening is
  obtain ⟨served, hserved, hfirst⟩ := h.phase.begun_first
  obtain ⟨early, hearly⟩ := hopening
  rw [List.map_append, List.map_cons, ← hearly, List.append_assoc] at hlast hfirst
  have hafter := (List.prefix_append_right_inj opening).1 hfirst
  rw [List.getLast?_append_of_ne_nil _ (by simp)] at hlast
  exact hopens.notClient ready hopens.mem_ready
    (hserved ready (hafter.subset (List.mem_of_getLast? hlast)))

/-- An open session that has begun to become ready is ready, unless a job is just being done in it. -/
theorem Opened.stage_eq_ready (h : Opened duties opening ready client others w₀ s w history todo)
    (hready : ready ∈ history.map (·.job)) (hopen : s.stage.isClosing = false)
    (hrests : s.worker.running? = none) : s.stage = .ready := by
  have hevaluating : s.stage ≠ .evaluating := h.orderly.allows.not_evaluating hrests
  have hcreated : s.stage ≠ .created := by
    intro hcreated
    obtain ⟨-, t, entered, result, hrunning⟩ := h.awaits hready hcreated
    rw [hrunning] at hrests
    cases hrests
  revert hopen hevaluating hcreated
  cases s.stage <;> decide

theorem beginning_work (s : Session J α) (w : W) :
    (s.beginning w .work).map (·.job) = s.begins?.toList := by
  unfold beginning
  cases s.begins? <;> rfl

theorem Opened.work? (hopens : Opens duties opening ready client others)
    (h : Opened duties opening ready client others w₀ s w history todo) {s' : Session J α} {w' : W}
    (hwork : Session.work? duties s w = some (s', w')) :
    Opened duties opening ready client others w₀ s' w' (history ++ s.beginning w .work) todo := by
  have hmap : (history ++ s.beginning w .work).map (·.job) =
      history.map (·.job) ++ s.begins?.toList := by
    rw [List.map_append, beginning_work]
  have hturns := turns_work? hopens.paired hwork
  obtain ⟨hcalls, hnext⟩ := work?_calls hwork
  have hphase : Phase opening client others s' (history.map (·.job) ++ s.begins?.toList) todo :=
    h.phase.work hcalls hnext hturns.closing fun sent hsent => hsent.work? hopens.paired h.orderly hwork
  refine ⟨h.orderly.turns (goes_work? hwork) hturns, fun hopen => ?_, fun hopen => ?_, ?_, ?_, ?_⟩
  · have hkeeps := keepsOpen_work? hopens.paired h.orderly hwork hopen
    rw [hkeeps.accepting]
    exact h.accepts hkeeps.wasOpen
  · have hkeeps := keepsOpen_work? hopens.paired h.orderly hwork hopen
    rw [hkeeps.workspace]
    unfold afterJobs beginning
    rw [List.foldl_append]
    cases s.begins? with
    | none => exact h.workspace hkeeps.wasOpen
    | some job =>
      change (duties.perform job w).2 = (duties.perform job _).2
      rw [h.workspace hkeeps.wasOpen]
      rfl
  · rw [hmap]
    exact h.awaits.work? hopens.ready hwork
  · cases hbegins : s.begins? with
    | none =>
      unfold beginning
      rw [hbegins]
      exact (List.append_nil history).symm ▸ h.found
    | some job =>
      obtain ⟨hopen, t, hworker⟩ := begins?_eq_some hbegins
      unfold beginning
      rw [hbegins]
      refine h.found.append (b := ⟨job, s.stage, w⟩) (h.workspace hopen) fun hclient => ?_
      rw [hbegins] at hphase
      obtain ⟨served, -, hfirst⟩ := hphase.begun_first
      have hopening : opening <+: history.map (·.job) :=
        prefix_of_concat_prefix hfirst fun hmem => hopens.notClient job hmem hclient
      exact ⟨hopening, h.stage_eq_ready (hopening.subset hopens.mem_ready) hopen (by rw [hworker]; rfl)⟩
  · rw [hmap]
    exact hphase

/-- A change that a client makes. -/
theorem Opened.of_call (h : Opened duties opening ready client others w₀ s w history todo)
    {s' : Session J α} {new : List Ticket} {incidents : List (Incident J α)} {todo' : List (Move J)}
    (hgoes : s.Goes incidents s') (hturns : s.Turns new s') (hworker : s'.worker = s.worker)
    (haccepting : s'.accepting = s.accepting) (hcreated : s'.stage = .created → s.stage = .created)
    (hphase : Phase opening client others s' (history.map (·.job)) todo') :
    Opened duties opening ready client others w₀ s' w history todo' := by
  have hopen (hopen' : s'.stage.isClosing = false) : s.stage.isClosing = false := by
    by_contra hclosing
    rw [hturns.closing (Bool.eq_true_of_not_eq_false hclosing)] at hopen'
    cases hopen'
  refine ⟨h.orderly.turns hgoes hturns, fun hopen' => ?_, fun hopen' => h.workspace (hopen hopen'),
    h.awaits.of_eq hworker hcreated, h.found, hphase⟩
  rw [haccepting]
  exact h.accepts (hopen hopen')

/-- A move is one of the worker's, or the next one of clients. -/
theorem Opened.step (hopens : Opens duties opening ready client others) {move : Move J}
    (h : Opened duties opening ready client others w₀ s w history (clientMoves [move] ++ todo)) :
    Opened duties opening ready client others w₀ (s.step duties w move).1 (s.step duties w move).2
      (history ++ s.beginning w move) todo := by
  cases move with
  | work =>
    unfold Session.step
    dsimp only
    cases hwork : Session.work? duties s w with
    | none =>
      -- a worker that has nothing to do begins with nothing
      have hnone : s.begins? = none := by
        by_contra hsome
        obtain ⟨job, hjob⟩ := Option.ne_none_iff_exists'.1 hsome
        obtain ⟨-, t, hworker⟩ := begins?_eq_some hjob
        unfold Session.work? at hwork
        rw [hworker] at hwork
        dsimp only at hwork
        split at hwork <;> cases hwork
      unfold beginning
      rw [hnone]
      exact (List.append_nil history).symm ▸ h
    | some after => exact h.work? hopens hwork
  | submit job =>
    have hnone : s.beginning w (.submit job) = [] := rfl
    rw [hnone, List.append_nil]
    exact h.of_call (s.goes_beginSubmit job) (s.turns_beginSubmit job) rfl rfl (fun h => h) h.phase.submit
  | shutdown =>
    have hnone : s.beginning w .shutdown = [] := rfl
    rw [hnone, List.append_nil]
    have haccepting : s.beginShutdown.2.accepting = s.accepting := by
      unfold beginShutdown
      dsimp only
      split <;> rfl
    have hcreated : s.beginShutdown.2.stage = .created → s.stage = .created := by
      unfold beginShutdown
      dsimp only
      split
      · exact fun h => h
      · nofun
    exact h.of_call s.goes_beginShutdown s.turns_beginShutdown (worker_beginShutdown s) haccepting hcreated
      h.phase.shutdown
  | finish ticket =>
    have hnone : s.beginning w (.finish ticket) = [] := rfl
    rw [hnone, List.append_nil]
    obtain ⟨queue, answers, closings, heq⟩ := s.exists_finishCall ticket
    have hnumbered := h.orderly.numbered
    have haccepting : (s.finishCall ticket).accepting = s.accepting := by rw [heq]
    have hcreated : (s.finishCall ticket).stage = .created → s.stage = .created := by
      rw [heq]
      exact fun h => h
    exact h.of_call (goes_finishCall hnumbered ticket) (turns_finishCall hnumbered ticket)
      (worker_finishCall s ticket) haccepting hcreated (h.phase.finish hopens.others h.accepts)

theorem Opened.run (hopens : Opens duties opening ready client others) (moves : List (Move J))
    (h : Opened duties opening ready client others w₀ s w history (clientMoves moves ++ todo)) :
    Opened duties opening ready client others w₀ (run duties moves s w).2.1 (run duties moves s w).2.2
      (history ++ beginnings duties moves s w) todo := by
  induction moves generalizing s w history with
  | nil =>
    rw [beginnings, List.append_nil]
    exact h
  | cons move moves ih =>
    have hmoves : clientMoves (move :: moves) = clientMoves [move] ++ clientMoves moves :=
      List.filter_append [move] moves
    rw [hmoves, List.append_assoc] at h
    have hnext := ih (h.step hopens)
    rw [List.append_assoc] at hnext
    exact hnext

/-- A session that no job has been submitted to. -/
theorem opened_empty (hopens : Opens duties opening ready client others) (w : W) :
    Opened (α := α) duties opening ready client others w {} w [] (openingMoves opening ++ others) := by
  refine ⟨orderly_empty, fun _ => rfl, fun _ => rfl, nofun, fun before b later heq => ?_, ?_⟩
  · exact absurd heq.symm (by simp)
  · exact .of_sent hopens.others (List.nil_append opening).symm rfl rfl ⟨List.nil_prefix, fun _ => rfl⟩

end

end Session

/-! ## The capabilities that every session has -/

/-- The capability that a job activates because every session has it. -/
def Job.activated? : Job → Option Factory
  | activateSystem f => some f
  | _ => none

/-- A job that a client has asked for. -/
def Job.IsRequest (job : Job) : Prop := ∃ r, job = request r

/-- The first jobs of a session. -/
def openingJobs (catalog : Catalog) : List Job :=
  catalog.system.map .activateSystem ++ [.becomeReady]

namespace Session

theorem activated?_openingJobs (catalog : Catalog) :
    (openingJobs catalog).filterMap Job.activated? = catalog.system := by
  unfold openingJobs
  rw [List.filterMap_append, List.filterMap_map]
  exact (List.append_nil _).trans List.filterMap_some

theorem activated?_served {served : List Job} (h : ∀ job ∈ served, job.IsRequest) :
    served.filterMap Job.activated? = [] := by
  refine List.filterMap_eq_nil_iff.2 fun job hmem => ?_
  obtain ⟨r, rfl⟩ := h job hmem
  rfl

theorem opens_openingJobs (catalog : Catalog) (starts : Bool) (fuel : Nat) {others : List (Move Job)}
    (hothers : ∀ job, Move.submit job ∈ others → job.IsRequest) :
    Opens (duties starts fuel) (openingJobs catalog) .becomeReady Job.IsRequest others := by
  refine ⟨Job.paired_perform fuel, List.mem_append_right _ List.mem_cons_self, fun _ => rfl, ?_, hothers⟩
  rintro job hmem ⟨r, rfl⟩
  rcases List.mem_append.1 hmem with hmem | hmem
  · obtain ⟨f, -, hf⟩ := List.mem_map.1 hmem
    cases hf
  · cases List.mem_singleton.1 hmem

/-- A session is created by making the calls of the opening. -/
theorem openingMoves_create (m : Manager) (w : Workspace) :
    m.create.2.seats[m.create.1]?.map (·.session) =
      some (run m.duties (openingMoves (openingJobs m.catalog)) {} w).2.1 := by
  have hrun := run_openingFrom m.duties (openingJobs m.catalog) {} w
  unfold Manager.create openingMoves
  dsimp only at hrun ⊢
  rw [hrun, List.getElem?_append_right (Nat.le_refl _), Nat.sub_self]
  rfl

/-- Whatever the capabilities of a catalog do when they are activated, and however the worker's steps and
those of clients come once the calls that open a session have been made: what is begun finds the workspace
as the jobs before it have left it, and before a job of a client is begun, the activation of each capability
that every session has has been tried once, in the order of the catalog, and the session has become ready.
None of them is ever tried again, and from the first job of a client on, the session is never in the
first stage.  An open session that has been told everything it needs and has nothing left to do is
ready. -/
theorem system_capabilities_come_first (catalog : Catalog) (starts : Bool) (fuel : Nat)
    (moves others : List (Move Job)) (w : Workspace)
    (hmoves : clientMoves moves <+: openingMoves (openingJobs catalog) ++ others)
    (hothers : ∀ job, Move.submit job ∈ others → job.IsRequest) :
    let history := beginnings (duties starts fuel) moves {} w
    let s := (run (duties starts fuel) moves {} w).2.1
    (∀ before b later, history = before ++ b :: later →
      b.workspace = afterJobs (duties starts fuel) w before ∧
      (b.job.IsRequest →
        before.filterMap (·.job.activated?) = catalog.system ∧
        (∃ c ∈ before, c.job = .becomeReady) ∧ b.stage = .ready)) ∧
    history.filterMap (·.job.activated?) <+: catalog.system ∧
    ((∃ b ∈ history, b.job.IsRequest) → s.stage ≠ .created) ∧
    (openingMoves (openingJobs catalog) <+: clientMoves moves → s.stage.isClosing = false →
      s.worker = .waiting → s.queue = [] →
      history.filterMap (·.job.activated?) = catalog.system ∧ s.stage = .ready) := by
  intro history s
  obtain ⟨todo, htodo⟩ := hmoves
  have hopens := opens_openingJobs catalog starts fuel hothers
  have hopened : Opened (duties starts fuel) (openingJobs catalog) .becomeReady Job.IsRequest others w s
      (run (duties starts fuel) moves {} w).2.2 history todo :=
    Opened.run hopens moves (htodo ▸ opened_empty hopens w)
  have hactivated (bs : List (Beginning Workspace Job)) :
      bs.filterMap (·.job.activated?) = (bs.map (·.job)).filterMap Job.activated? := by
    rw [List.filterMap_map]
    rfl
  -- what was begun is the beginning of the opening, or goes on with jobs of clients after it
  have htries {served : List Job} (hserved : ∀ job ∈ served, job.IsRequest) :
      (openingJobs catalog ++ served).filterMap Job.activated? = catalog.system := by
    rw [List.filterMap_append, activated?_openingJobs, activated?_served hserved, List.append_nil]
  obtain ⟨served, hserved, hfirst⟩ := hopened.phase.begun_first
  refine ⟨fun before b later heq => ?_, ?_, hopened.left hopens, fun hall hopen hworker hqueue => ?_⟩
  · obtain ⟨hworkspace, hclient⟩ := hopened.found before b later heq
    refine ⟨hworkspace, fun hrequest => ?_⟩
    obtain ⟨⟨early, hearly⟩, hstage⟩ := hclient hrequest
    refine ⟨?_, ?_, hstage⟩
    · have hbefore : openingJobs catalog ++ early <+: openingJobs catalog ++ served := by
        refine .trans ?_ hfirst
        rw [hearly, heq, List.map_append]
        exact List.prefix_append _ _
      have hsubset := ((List.prefix_append_right_inj _).1 hbefore).subset
      rw [hactivated, ← hearly]
      exact htries fun job hmem => hserved job (hsubset hmem)
    · have hmem : Job.becomeReady ∈ before.map (·.job) :=
        hearly ▸ List.mem_append_left _ hopens.mem_ready
      exact List.mem_map.1 hmem
  · rw [hactivated, ← htries hserved]
    exact hfirst.filterMap _
  · have hlength : todo.length ≤ others.length := by
      have hwhole := congrArg List.length htodo
      have hle := hall.length_le
      rw [List.length_append, List.length_append] at hwhole
      omega
    have hphase := hopened.phase
    generalize hscript : todo = script at hphase
    cases hphase with
    | between =>
      rw [hscript, List.length_append, openingFrom, List.length_cons] at hlength
      omega
    | within =>
      rw [hscript, List.length_cons, List.length_append] at hlength
      omega
    | @serving served' _ hserved' _ _ hsent =>
      -- nothing that was sent is left, so all of it has been begun
      have hbegun : history.map (·.job) = openingJobs catalog ++ served' := by
        rw [← hsent.waits hopen]
        unfold ahead
        rw [hworker, hqueue]
        exact (List.append_nil _).symm
      have hready : Job.becomeReady ∈ history.map (·.job) :=
        hbegun ▸ List.mem_append_left _ hopens.mem_ready
      exact ⟨by rw [hactivated, hbegun, htries hserved'],
        hopened.stage_eq_ready hready hopen (by rw [hworker]; rfl)⟩

/-- Two capabilities that cannot be activated: the one panics, and the other one wants to have a name in the
guest that is none. -/
def unlucky : Catalog :=
  [{ name := "faulty", mode := .system, kind := .custom 0, create := .panicked "out of luck" },
    { name := "nameless", mode := .system, kind := .custom 1, variableName := some "1",
      create := .made "Nameless" [] (.custom fun _ _ => .error "no such method") }]

/-- What a client does in a session with these capabilities, while the worker is still busy with them. -/
def hastyMoves : List (Move Job) :=
  .work :: openingMoves (openingJobs unlucky) ++
    [.work, .work, .submit (.request (.act (.ok ()))), .work, .finish 3] ++ List.replicate 16 .work

theorem hasty_client_finds_ready :
    ∃ first second third b,
      beginnings (duties true 0) hastyMoves {} Kernel.emptyWorkspace = [first, second, third, b] ∧
      b.job = .request (.act (.ok ())) ∧
      [first, second, third].filterMap (·.job.activated?) = unlucky.system ∧ b.stage = .ready := by
  have hmoves : clientMoves hastyMoves <+:
      openingMoves (openingJobs unlucky) ++ [.submit (.request (.act (.ok ()))), .finish 3] := ⟨[], rfl⟩
  have hothers : ∀ job, Move.submit job ∈
      ([.submit (.request (.act (.ok ()))), .finish 3] : List (Move Job)) → job.IsRequest := by
    intro job hmem
    rcases List.mem_cons.1 hmem with h | h
    · cases h
      exact ⟨_, rfl⟩
    · cases List.mem_singleton.1 h
  obtain ⟨hfinds, -⟩ :=
    system_capabilities_come_first unlucky true 0 hastyMoves _ Kernel.emptyWorkspace hmoves hothers
  obtain ⟨-, hclient⟩ := hfinds [_, _, _] _ [] rfl
  obtain ⟨htries, -, hstage⟩ := hclient ⟨_, rfl⟩
  exact ⟨_, _, _, _, rfl, rfl, htries, hstage⟩

end Session

end Notebook

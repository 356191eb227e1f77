import Notebook.Proofs.Session.Stages
import Notebook.Proofs.Session.Units
import Notebook.Session.Manager

/-!
# Asking a session and waiting for what it answers

A client that has a session to itself, and waits for each answer before it asks again, finds the worker
with nothing in its hands whenever it asks (`Session.Calm`).  So what it is answered is what its request
comes to in the workspace in which the jobs before it have left the session (`Manager.performs_ask`).
-/

namespace Notebook

/-- The stage after touches. -/
def Touch.applyAll : Bool → List Touch → Stage → Stage
  | _, [], stage => stage
  | entered, touch :: touches, stage =>
    applyAll (touch.apply entered stage).1 touches (touch.apply entered stage).2

/-- A job does not close a session. -/
theorem Touch.isClosing_applyAll (touches : List Touch) {stage : Stage} (h : stage.isClosing = false)
    (entered : Bool) : (Touch.applyAll entered touches stage).isClosing = false := by
  induction touches generalizing entered stage with
  | nil => exact h
  | cons touch touches ih =>
    refine ih ?_ _
    revert h
    cases touch <;> cases entered <;> cases stage <;> decide

namespace Session

variable {W J α : Type} {duties : Duties W J α}

/-! ## Jobs one after the other -/

/-- How far the jobs of a session have come: its stage, what has become of jobs, and the workspace. -/
structure Course (W α : Type) where
  stage : Stage
  answers : List (Ticket × Answer α)
  workspace : W

/-- The course of a session after a command, which is to be a job. -/
def Course.after (duties : Duties W J α) (c : Course W α) : Command J → Course W α
  | .run ticket job =>
    let ((result, touches), w) := duties.perform job c.workspace
    ⟨Touch.applyAll false touches c.stage, c.answers ++ [(ticket, .done result)], w⟩
  | .shutdown _ => c

/-- The course of a session after the jobs in its queue. -/
def course (duties : Duties W J α) (s : Session J α) (w : W) : Course W α :=
  s.queue.foldl (Course.after duties) ⟨s.stage, s.answers, w⟩

theorem settle_of_some {s s' : Session J α} {w w' : W} (h : work? duties s w = some (s', w')) :
    settle duties s w = settle duties s' w' := by
  rw [settle]
  split <;> simp_all

theorem settle_of_none {s : Session J α} {w : W} (h : work? duties s w = none) :
    settle duties s w = (s, w) := by
  rw [settle]
  split <;> simp_all

theorem settle_running (s : Session J α) (w : W) (ticket : Ticket) (entered : Bool) (touches : List Touch)
    (result : α) :
    settle duties { s with worker := .running ticket entered touches result } w =
      settle duties { s with
        stage := Touch.applyAll entered touches s.stage
        worker := .waiting
        answers := s.answers ++ [(ticket, .done result)] } w := by
  induction touches generalizing s entered with
  | nil => exact settle_of_some rfl
  | cons touch touches ih =>
    have htouched : work? duties { s with worker := .running ticket entered (touch :: touches) result } w =
        some ({ s with
          stage := (touch.apply entered s.stage).2
          worker := .running ticket (touch.apply entered s.stage).1 touches result }, w) := rfl
    rw [settle_of_some htouched]
    exact ih { s with stage := (touch.apply entered s.stage).2 } _

theorem settle_waiting {s : Session J α} (w : W) (hworker : s.worker = .waiting)
    (hqueue : ∀ c ∈ s.queue, c.shutdown? = none) (hopen : s.stage.isClosing = false) :
    settle duties s w =
      ({ s with
          stage := (s.course duties w).stage
          queue := []
          answers := (s.course duties w).answers },
        (s.course duties w).workspace) := by
  obtain ⟨stage, queue, accepting, worker, calls, nextTicket, answers, closings⟩ := s
  dsimp only at hworker hqueue hopen
  subst hworker
  induction queue generalizing stage answers w with
  | nil => exact settle_of_none rfl
  | cons c rest ih =>
    cases c with
    | shutdown ticket => cases hqueue _ List.mem_cons_self
    | run ticket job =>
      have htaken : work? duties ⟨stage, .run ticket job :: rest, accepting, .waiting, calls, nextTicket,
          answers, closings⟩ w =
            some (⟨stage, rest, accepting, .holding (.run ticket job), calls, nextTicket, answers,
              closings⟩, w) := rfl
      have hbegun : work? duties ⟨stage, rest, accepting, .holding (.run ticket job), calls, nextTicket,
          answers, closings⟩ w =
            some (⟨stage, rest, accepting, .running ticket false (duties.perform job w).1.2
              (duties.perform job w).1.1, calls, nextTicket, answers, closings⟩,
                (duties.perform job w).2) := by
        unfold work?
        dsimp only
        rw [if_neg (by rw [hopen]; exact Bool.false_ne_true)]
      have hdone : settle duties _ _ = _ := settle_running
        ⟨stage, rest, accepting, .waiting, calls, nextTicket, answers, closings⟩ (duties.perform job w).2
        ticket false (duties.perform job w).1.2 (duties.perform job w).1.1
      rw [settle_of_some htaken, settle_of_some hbegun, hdone]
      exact ih _ _ _ (fun c hc => hqueue c (List.mem_cons_of_mem _ hc)) (Touch.isClosing_applyAll _ hopen _)

/-! ## A session that one client has to itself -/

/-- No call is under way, the worker has nothing in its hands, and nothing but jobs waits for it. -/
structure Calm (s : Session J α) : Prop where
  worker : s.worker = .starting ∨ s.worker = .waiting
  queue : ∀ c ∈ s.queue, c.shutdown? = none
  calls : s.calls = []
  accepting : s.accepting = true
  opened : s.stage.isClosing = false
  numbered : ∀ ticket ∈ s.answers.map (·.1) ++ s.queue.filterMap Command.job?, ticket < s.nextTicket

theorem calm_empty : ({} : Session J α).Calm := ⟨.inl rfl, nofun, rfl, rfl, rfl, nofun⟩

variable {s : Session J α}

theorem Calm.submit_eq (h : s.Calm) (job : J) :
    s.submit job = (s.nextTicket, { s with
      nextTicket := s.nextTicket + 1
      queue := s.queue ++ [.run s.nextTicket job] }) := by
  unfold submit beginSubmit finishCall
  simp [h.calls, h.opened, h.accepting, send, Call.ticket]

theorem Calm.submit (h : s.Calm) (job : J) : (s.submit job).2.Calm := by
  rw [h.submit_eq]
  refine ⟨h.worker, fun c hc => ?_, h.calls, h.accepting, h.opened, fun ticket hticket => ?_⟩
  · rcases List.mem_append.1 hc with hc | hc
    · exact h.queue c hc
    · rw [List.mem_singleton.1 hc]
      rfl
  · rw [List.filterMap_append, ← List.append_assoc] at hticket
    rcases List.mem_append.1 hticket with hold | hnew
    · exact Nat.lt_succ_of_lt (h.numbered ticket hold)
    · rw [List.mem_singleton.1 hnew]
      exact Nat.lt_succ_self _

/-- What becomes of jobs is settled in the order in which they were sent. -/
theorem tickets_course (s : Session J α) (w : W) :
    (s.course duties w).answers.map (·.1) = s.answers.map (·.1) ++ s.queue.filterMap Command.job? := by
  unfold course
  generalize s.stage = stage, s.answers = answers
  generalize s.queue = queue
  induction queue generalizing stage answers w with
  | nil => exact (List.append_nil _).symm
  | cons c rest ih =>
    cases c with
    | shutdown ticket => exact ih w stage answers
    | run ticket job =>
      rw [List.foldl_cons]
      refine (ih _ _ _).trans ?_
      rw [List.map_append, List.append_assoc]
      rfl

theorem isClosing_course (h : s.stage.isClosing = false) (w : W) :
    (s.course duties w).stage.isClosing = false := by
  unfold course
  generalize s.stage = stage, s.answers = answers at h
  generalize s.queue = queue
  induction queue generalizing stage answers w with
  | nil => exact h
  | cons c rest ih =>
    cases c with
    | shutdown ticket => exact ih w stage answers h
    | run ticket job => exact ih _ _ _ (Touch.isClosing_applyAll _ h _)

/-- The worker does the jobs that wait. -/
theorem Calm.settle_eq (h : s.Calm) (hstarts : s.worker = .starting → duties.starts = true) (w : W) :
    settle duties s w =
      ({ s with
          stage := (s.course duties w).stage
          queue := []
          worker := .waiting
          answers := (s.course duties w).answers },
        (s.course duties w).workspace) := by
  rcases h.worker with hstarting | hwaiting
  · have hstart : work? duties s w = some ({ s with worker := .waiting }, w) := by
      unfold work?
      rw [hstarting]
      dsimp only
      rw [if_pos (hstarts hstarting)]
    rw [settle_of_some hstart]
    exact settle_waiting w rfl h.queue h.opened
  · rw [settle_waiting w hwaiting h.queue h.opened, hwaiting]

theorem Calm.settle (h : s.Calm) (hstarts : s.worker = .starting → duties.starts = true) (w : W) :
    (s.settle duties w).1.Calm := by
  rw [h.settle_eq hstarts]
  refine ⟨.inr rfl, nofun, h.calls, h.accepting, isClosing_course h.opened w, fun ticket hticket => ?_⟩
  rw [List.filterMap_nil, List.append_nil, tickets_course] at hticket
  exact h.numbered ticket hticket

/-- A worker with nothing to do. -/
theorem settle_rest (hworker : s.worker = .waiting) (hqueue : s.queue = []) (w : W) :
    s.settle duties w = (s, w) := by
  refine settle_of_none ?_
  unfold work?
  rw [hworker, hqueue]

/-- What becomes of a job is settled last. -/
theorem answer?_of_append {before : List (Ticket × Answer α)} {ticket : Ticket} {a : Answer α}
    (hanswers : s.answers = before ++ [(ticket, a)]) (hnew : ticket ∉ before.map (·.1)) :
    s.answer? ticket = some a := by
  have hnone : before.lookup ticket = none := by
    refine List.lookup_eq_none_iff.2 fun entry hentry => ?_
    have hne : ticket ≠ entry.1 := fun heq => hnew (List.mem_map.2 ⟨entry, hentry, heq.symm⟩)
    exact bne_iff_ne.2 hne
  unfold answer?
  rw [hanswers, List.lookup_append, hnone]
  simp

/-- A job that is submitted is done in the workspace that the jobs before it have left, and then the worker
rests. -/
theorem Calm.asks (h : s.Calm) (hstarts : s.worker = .starting → duties.starts = true) (job : J) (w : W) :
    ∃ s', (s.submit job).2.settle duties w = (s', (duties.perform job (s.settle duties w).2).2) ∧
      s'.Calm ∧ s'.worker = .waiting ∧ s'.queue = [] ∧
      s'.answer? (s.submit job).1 = some (.done (duties.perform job (s.settle duties w).2).1.1) := by
  have hsubmit := h.submit_eq job
  have hcourse : (s.submit job).2.course duties w =
      (s.course duties w).after duties (.run s.nextTicket job) := by
    rw [hsubmit]
    unfold course
    rw [List.foldl_append]
    rfl
  have hstarts' : (s.submit job).2.worker = .starting → duties.starts = true := by
    rw [hsubmit]
    exact hstarts
  have hcalm := (h.submit job).settle hstarts' w
  rw [(h.submit job).settle_eq hstarts', hcourse] at hcalm ⊢
  rw [h.settle_eq hstarts]
  refine ⟨_, rfl, hcalm, rfl, rfl, ?_⟩
  have hnew : (s.submit job).1 ∉ (s.course duties w).answers.map (·.1) := by
    rw [tickets_course, hsubmit]
    exact fun hmem => Nat.lt_irrefl _ (h.numbered _ hmem)
  refine answer?_of_append ?_ hnew
  rw [hsubmit]
  rfl

/-! ## Engines that cannot be made -/

theorem settle_abandoning (s : Session J α) (w : W) (hworker : s.worker = .abandoning) :
    ∃ refused, (∀ entry ∈ refused, entry.2 = .refused) ∧
      (s.settle duties w).1.answers = s.answers ++ refused := by
  obtain ⟨stage, queue, accepting, worker, calls, nextTicket, answers, closings⟩ := s
  dsimp only at hworker
  subst hworker
  induction queue generalizing answers closings with
  | nil =>
    rw [settle_of_some rfl, settle_of_none rfl]
    exact ⟨[], nofun, (List.append_nil _).symm⟩
  | cons c rest ih =>
    rw [settle_of_some rfl]
    cases c with
    | shutdown ticket => exact ih _ _
    | run ticket job =>
      obtain ⟨refused, hrefused, hanswers⟩ := ih (answers ++ [(ticket, .refused)]) closings
      refine ⟨(ticket, .refused) :: refused, ?_, ?_⟩
      · rintro entry (_ | ⟨_, hentry⟩)
        · rfl
        · exact hrefused entry hentry
      · rw [List.append_cons]
        exact hanswers

/-- If the engine cannot be made, no job is done. -/
theorem settle_broken (hworker : s.worker = .starting) (hstarts : duties.starts = false) (w : W) :
    ∃ refused, (∀ entry ∈ refused, entry.2 = .refused) ∧
      (s.settle duties w).1.answers = s.answers ++ refused := by
  have hbreaks : work? duties s w = some ({ s with stage := .closed, worker := .broken }, w) := by
    unfold work?
    rw [hworker]
    dsimp only
    rw [if_neg (by rw [hstarts]; exact Bool.false_ne_true)]
  have hcloses : work? duties { s with stage := .closed, worker := .broken } w =
      some ({ s with stage := .closed, accepting := false, worker := .abandoning }, w) := rfl
  rw [settle_of_some hbreaks, settle_of_some hcloses]
  exact settle_abandoning _ w rfl

theorem Calm.refused (h : s.Calm) (hworker : s.worker = .starting) (hstarts : duties.starts = false)
    (job : J) (w : W) (result : α) :
    ((s.submit job).2.settle duties w).1.answer? (s.submit job).1 ≠ some (.done result) := by
  intro hdone
  have hworker' : (s.submit job).2.worker = .starting := by
    rw [h.submit_eq]
    exact hworker
  obtain ⟨refused, hrefused, hanswers⟩ := settle_broken hworker' hstarts w
  obtain ⟨before, after, hsplit, -⟩ := List.lookup_eq_some_iff.1 hdone
  have hmem : ((s.submit job).1, Answer.done result) ∈ (s.submit job).2.answers ++ refused := by
    rw [← hanswers, hsplit]
    exact List.mem_append_right _ List.mem_cons_self
  rw [h.submit_eq] at hmem
  rcases List.mem_append.1 hmem with hold | hnew
  · exact Nat.lt_irrefl _ (h.numbered _ (List.mem_append_left _ (List.mem_map_of_mem hold)))
  · cases hrefused _ hnew

end Session

/-! ## Sessions of a manager -/

namespace Manager

/-- What the worker of a session works on. -/
def workspace? (m : Manager) (id : SessionId) : Option Workspace :=
  m.seats[id]?.map fun seat => { kernel := seat.kernel, registry := m.registry }

/-- There is such a session, and it is calm. -/
def Attends (m : Manager) (id : SessionId) : Prop :=
  ∃ seat, m.seats[id]? = some seat ∧ seat.session.Calm

theorem attends_create (m : Manager) : m.create.2.Attends m.create.1 := by
  have hjobs (jobs : List Job) (s : Session Job Reply) (hs : s.Calm) :
      (jobs.foldl (fun (s : Session Job Reply) job => (s.submit job).2) s).Calm := by
    induction jobs generalizing s with
    | nil => exact hs
    | cons job jobs ih => exact ih _ (hs.submit job)
  have hcalm := hjobs (m.catalog.system.map .activateSystem ++ [.becomeReady]) {} Session.calm_empty
  unfold create
  dsimp only
  refine ⟨⟨_, { session := m.seats.length, config := m.config }⟩, ?_, hcalm⟩
  rw [List.getElem?_append_right (Nat.le_refl _), Nat.sub_self]
  rfl

/-- The worker of a session works in the workspace of the session. -/
theorem settle_eq {m : Manager} {id : SessionId} {seat : Seat} (hseat : m.seats[id]? = some seat) :
    m.settle id =
      let (session, w) := seat.session.settle m.duties { kernel := seat.kernel, registry := m.registry }
      { m with registry := w.registry, seats := m.seats.set id ⟨session, w.kernel⟩ } := by
  unfold settle inWorkspace
  rw [hseat]

theorem Attends.exists_workspace {m : Manager} {id : SessionId} (h : m.Attends id) :
    ∃ w, (m.settle id).workspace? id = some w := by
  obtain ⟨seat, hseat, -⟩ := h
  have hlength : id < m.seats.length := (List.getElem?_eq_some_iff.1 hseat).1
  unfold workspace?
  rw [settle_eq hseat]
  dsimp only
  rw [List.getElem?_set_self hlength]
  exact ⟨_, rfl⟩

theorem ask_eq {m : Manager} {id : SessionId} {seat : Seat} (hseat : m.seats[id]? = some seat)
    (r : Request) :
    m.ask id r =
      let (ticket, submitted) := seat.session.submit (.request r)
      let (session, w) := submitted.settle m.duties { kernel := seat.kernel, registry := m.registry }
      (match session.answer? ticket with
        | some (.done reply) => reply
        | _ => .error .sessionClosed,
        { m with registry := w.registry, seats := m.seats.set id ⟨session, w.kernel⟩ }) := by
  have hlength : id < m.seats.length := (List.getElem?_eq_some_iff.1 hseat).1
  unfold ask submit onSession
  rw [hseat]
  dsimp only
  rw [settle_eq (List.getElem?_set_self hlength)]
  unfold reply
  dsimp only
  rw [List.set_set, List.getElem?_set_self hlength]
  rfl

/-- A session has done what it was asked for, once the jobs that waited before it were done. It is calm again
and has nothing to do. -/
structure Performs (m : Manager) (id : SessionId) (r : Request) (w : Workspace) : Prop where
  before : (m.settle id).workspace? id = some w
  reply : (m.ask id r).1 = (Kernel.outcome (r.perform m.fuel) w).1
  after : (m.ask id r).2.workspace? id =
    some { (Kernel.outcome (r.perform m.fuel) w).2 with evaluations := 0 }
  attends : (m.ask id r).2.Attends id
  settled : (m.ask id r).2.settle id = (m.ask id r).2
  fuel : (m.ask id r).2.fuel = m.fuel
  enginesStart : (m.ask id r).2.enginesStart = m.enginesStart

/-- Engines can be made, or this session has its engine already. -/
def Starts (m : Manager) (id : SessionId) : Prop :=
  ∀ seat, m.seats[id]? = some seat → seat.session.worker = .starting → m.enginesStart = true

theorem performs_ask {m : Manager} {id : SessionId} (h : m.Attends id) (hstarts : m.Starts id)
    (r : Request) : ∃ w, m.Performs id r w := by
  obtain ⟨seat, hseat, hcalm⟩ := h
  have hlength : id < m.seats.length := (List.getElem?_eq_some_iff.1 hseat).1
  have hserves : seat.session.worker = .starting → m.duties.starts = true := hstarts seat hseat
  obtain ⟨s, hsettle, hs, hworker, hqueue, hanswer⟩ := hcalm.asks hserves (.request r)
    ({ kernel := seat.kernel, registry := m.registry } : Workspace)
  have hbefore := settle_eq hseat
  have hask := ask_eq hseat r
  dsimp only at hask
  rw [hsettle] at hask
  dsimp only at hask
  rw [hanswer] at hask
  generalize seat.session.settle m.duties { kernel := seat.kernel, registry := m.registry } = prepared
    at hbefore hask
  obtain ⟨idle, w⟩ := prepared
  refine ⟨{ w with evaluations := 0 }, ?_, ?_, ?_, ?_, ?_, ?_, ?_⟩
  · rw [hbefore]
    unfold workspace?
    dsimp only
    rw [List.getElem?_set_self hlength]
    rfl
  · rw [hask]
    rfl
  · rw [hask]
    unfold workspace?
    dsimp only
    rw [List.getElem?_set_self hlength]
    rfl
  · rw [hask]
    exact ⟨_, List.getElem?_set_self hlength, hs⟩
  · rw [hask, settle_eq (List.getElem?_set_self hlength), Session.settle_rest hworker hqueue]
    dsimp only
    rw [List.set_set]
  · rw [hask]
  · rw [hask]

/-- A session that answers anything has an engine. -/
theorem starts_of_ask {m : Manager} {id : SessionId} {r : Request} {a : Response} (h : m.Attends id)
    (hok : (m.ask id r).1 = .ok a) : m.Starts id := by
  obtain ⟨seat, hseat, hcalm⟩ := h
  rintro seat' hseat' hworker
  cases hseat.symm.trans hseat'
  rw [ask_eq hseat] at hok
  by_contra hnot
  have hbroken : m.duties.starts = false := Bool.eq_false_of_not_eq_true hnot
  dsimp only at hok
  split at hok
  · rename_i reply hdone
    exact hcalm.refused hworker hbroken _ _ _ hdone
  · cases hok

/-! ## Asking for an evaluation -/

/-- What a client gets that asks for an evaluation. -/
theorem outcome_perform (fuel : Nat) (source : List Char) (w : Workspace) :
    Kernel.outcome (Request.perform fuel (.evaluate (.ok ()) source)) w =
      ((Kernel.outcome (Kernel.evaluate fuel source) w).1.map .evaluation,
        (Kernel.outcome (Kernel.evaluate fuel source) w).2) := by
  have hbind : Kernel.outcome (Request.perform fuel (.evaluate (.ok ()) source)) w =
    Kernel.outcome (Kernel.evaluate fuel source >>= fun r => pure (Response.evaluation r)) w := rfl
  rw [hbind, Kernel.outcome_bind]
  rcases Kernel.outcome (Kernel.evaluate fuel source) w with ⟨e | r, w'⟩ <;> rfl

/-- A text has been evaluated in a session, and the session is calm again and has nothing to do. -/
structure Evaluates (m : Manager) (id : SessionId) (source : List Char) (r : EvaluationResult)
    (w' : Workspace) : Prop where
  reply : (m.ask id (.evaluate (.ok ()) source)).1 = .ok (.evaluation r)
  after : ((m.ask id (.evaluate (.ok ()) source)).2.settle id).workspace? id =
    some { w' with evaluations := 0 }
  attends : (m.ask id (.evaluate (.ok ()) source)).2.Attends id
  fuel : (m.ask id (.evaluate (.ok ()) source)).2.fuel = m.fuel
  enginesStart : (m.ask id (.evaluate (.ok ()) source)).2.enginesStart = m.enginesStart

/-- Who asks for an evaluation gets what the text comes to where the jobs before have left the session. -/
theorem ask_evaluate {m : Manager} {id : SessionId} (h : m.Attends id) (hstarts : m.Starts id)
    (source : List Char) : ∃ w, (m.settle id).workspace? id = some w ∧
      match Kernel.outcome (Kernel.evaluate m.fuel source) w with
      | (.error e, _) => (m.ask id (.evaluate (.ok ()) source)).1 = .error e
      | (.ok r, w') => m.Evaluates id source r w' := by
  obtain ⟨w, hasked⟩ := performs_ask h hstarts (.evaluate (.ok ()) source)
  refine ⟨w, hasked.before, ?_⟩
  have hreply := hasked.reply
  have hafter := hasked.after
  rw [outcome_perform] at hreply hafter
  rcases hevaluate : Kernel.outcome (Kernel.evaluate m.fuel source) w with ⟨e | r, w'⟩
  · rw [hevaluate] at hreply
    exact hreply
  · rw [hevaluate] at hreply hafter
    refine ⟨hreply, ?_, hasked.attends, hasked.fuel, hasked.enginesStart⟩
    rw [hasked.settled]
    exact hafter

/-- The first session, if no capability is activated in every session, starts with nothing. -/
theorem workspace?_first (fuel : Nat) :
    ((create { catalog := [], fuel }).2.settle 0).workspace? 0 = some Kernel.emptyWorkspace := by
  have hcalm : (({} : Session Job Reply).submit .becomeReady).2.Calm := Session.calm_empty.submit _
  have hseat : (create { catalog := [], fuel }).2.seats[0]? =
      some ⟨(({} : Session Job Reply).submit .becomeReady).2, { session := 0, config := {} }⟩ := rfl
  have hsettle := settle_eq hseat
  rw [hcalm.settle_eq fun _ => rfl] at hsettle
  exact congrArg (workspace? · 0) hsettle

end Manager

end Notebook

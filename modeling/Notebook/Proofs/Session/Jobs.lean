import Mathlib.Data.List.Nodup
import Notebook.Session.Worker

/-!
# What becomes of jobs

However the steps of clients and of the worker come, a job that is submitted is in one place: with a client, in
the queue, in the worker's hands, or done with.  The jobs that are invoked with the kernel are the first ones of
the queue (`Flow.Tallies`).

The proof forgets what jobs do and where the stage of the session is.  What is left is how tickets go
from clients through the queue to the worker (`Flow`), and the steps of a session are steps of this flow
(`Session.goes_step`).
-/

namespace Notebook

/-! ## What happens to jobs -/

/-- Something that happens to a job, or to the engine. A job is invoked with the kernel when it is begun, and
without it when it is refused. -/
inductive Incident (J α : Type)
  | submitted (ticket : Ticket) (job : J)
  | enqueued (ticket : Ticket)
  | begun (ticket : Ticket) (job : J)
  | answered (ticket : Ticket) (a : Answer α)
  /-- The engine is stopped. -/
  | stopped

namespace Incident

variable {W J α : Type}

def submitted? : Incident J α → Option Ticket
  | submitted t _ => some t
  | _ => none

/-- The job that is submitted. -/
def submission? : Incident J α → Option J
  | submitted _ job => some job
  | _ => none

def enqueued? : Incident J α → Option Ticket
  | enqueued t => some t
  | _ => none

def begun? : Incident J α → Option Ticket
  | begun t _ => some t
  | _ => none

def finished? : Incident J α → Option Ticket
  | answered t (.done _) => some t
  | _ => none

def refused? : Incident J α → Option Ticket
  | answered t .refused => some t
  | _ => none

def answer? : Incident J α → Option (Ticket × Answer α)
  | answered t a => some (t, a)
  | _ => none

/-- The engine is used. -/
def usesEngine : Incident J α → Bool
  | begun .. | stopped => true
  | _ => false

/-- What is done to the workspace. -/
def effect (duties : Duties W J α) (w : W) : Incident J α → W
  | begun _ job => (duties.perform job w).2
  | stopped => duties.stop w
  | _ => w

end Incident

/-- The workspace after all that has happened. -/
def workspaceAfter {W J α : Type} (duties : Duties W J α) (w : W) (log : List (Incident J α)) : W :=
  log.foldl (fun w i => i.effect duties w) w

/-- The job of a command. -/
def Command.job? {J : Type} : Command J → Option Ticket
  | .run ticket _ => some ticket
  | .shutdown _ => none

/-- The job that a call submits. -/
def Call.job? {J : Type} : Call J → Option Ticket
  | .submit ticket _ _ => some ticket
  | .shutdown _ => none

/-- What happens to the job of a command that is refused. -/
def Command.refusal {J α : Type} : Command J → List (Incident J α)
  | .run ticket _ => [.answered ticket .refused]
  | .shutdown _ => []

/-- The job that the worker has in its hands and has not begun with. -/
def Worker.held? {J α : Type} : Worker J α → Option Ticket
  | .holding c => c.job?
  | _ => none

/-- The job that the worker is doing. -/
def Worker.running? {J α : Type} : Worker J α → Option Ticket
  | .running ticket _ _ _ => some ticket
  | _ => none

/-- The worker may yet begin with a job. -/
def Worker.takesJobs {J α : Type} : Worker J α → Bool
  | .starting | .waiting | .holding _ | .running .. => true
  | _ => false

/-- The worker has closed the queue. -/
def Worker.hasClosed {J α : Type} : Worker J α → Bool
  | .closing _ | .leaving _ | .abandoning | .ended => true
  | _ => false

/-- The worker has refused what was left in the queue. -/
def Worker.hasDrained {J α : Type} : Worker J α → Bool
  | .leaving _ | .ended => true
  | _ => false

theorem Worker.hasClosed_of_hasDrained {J α : Type} {worker : Worker J α}
    (h : worker.hasDrained = true) : worker.hasClosed = true := by
  cases worker with
  | leaving => rfl
  | ended => rfl
  | _ => cases h

namespace Session

variable {W J α : Type}

/-- What happens to a job when the second step of a call is taken. -/
def incidentsOfCall (s : Session J α) : Call J → List (Incident J α)
  | .submit ticket _ closing =>
    if closing || !s.accepting then [.answered ticket .refused] else [.enqueued ticket]
  | .shutdown _ => []

/-- What happens to a job when the worker takes a step. -/
def incidentsOfWork (s : Session J α) : List (Incident J α) :=
  match s.worker with
  | .holding (.run ticket job) =>
    if s.stage.isClosing then [.answered ticket .refused] else [.begun ticket job]
  | .running ticket _ [] result => [.answered ticket (.done result)]
  | .closing _ => (s.queue.head?.map Command.refusal).getD [.stopped]
  | .abandoning => (s.queue.head?.map Command.refusal).getD []
  | _ => []

/-- What happens to jobs when a move is made. -/
def incidents (s : Session J α) : Move J → List (Incident J α)
  | .submit job => [.submitted s.nextTicket job]
  | .shutdown => []
  | .finish ticket => ((s.calls.find? (·.ticket = ticket)).map s.incidentsOfCall).getD []
  | .work => s.incidentsOfWork

/-- Makes moves one after the other, and tells what happens to jobs. -/
def run (duties : Duties W J α) :
    List (Move J) → Session J α → W → List (Incident J α) × Session J α × W
  | [], s, w => ([], s, w)
  | move :: moves, s, w =>
    let after := s.step duties w move
    let rest := run duties moves after.1 after.2
    (s.incidents move ++ rest.1, rest.2)

end Session

/-! ## How tickets flow -/

/-- Where the jobs are that have been submitted and not been invoked, and which one is being done. -/
structure Flow where
  next : Ticket
  /-- Jobs of clients that have taken the first step of a call. -/
  pending : List Ticket
  queued : List Ticket
  held : Option Ticket
  running : Option Ticket
  /-- Whether the worker may yet begin with a job. -/
  working : Bool

namespace Flow

variable {J α : Type}

/-- How tickets move in one step. -/
inductive Step : Flow → List (Incident J α) → Flow → Prop
  | rests {f : Flow} {next : Ticket} {working : Bool} (hnext : f.next ≤ next)
      (hworking : working = true → f.working = true) : Step f [] { f with next, working }
  | stops {f : Flow} {working : Bool} (hworking : working = true → f.working = true) :
      Step f [.stopped] { f with working }
  | submits (f : Flow) (job : J) :
      Step f [.submitted f.next job] { f with next := f.next + 1, pending := f.pending ++ [f.next] }
  | sends {f : Flow} {before after : List Ticket} {t : Ticket}
      (hpending : f.pending = before ++ t :: after) :
      Step f [.enqueued t] { f with pending := before ++ after, queued := f.queued ++ [t] }
  | turnsAway {f : Flow} {before after : List Ticket} {t : Ticket}
      (hpending : f.pending = before ++ t :: after) :
      Step f [.answered t .refused] { f with pending := before ++ after }
  | takes {f : Flow} {rest : List Ticket} {t : Ticket} (hqueued : f.queued = t :: rest)
      (hheld : f.held = none) : Step f [] { f with queued := rest, held := some t }
  | refusesHeld {f : Flow} {t : Ticket} (hheld : f.held = some t) (hworking : f.working = false) :
      Step f [.answered t .refused] { f with held := none }
  | refusesQueued {f : Flow} {rest : List Ticket} {t : Ticket} (hqueued : f.queued = t :: rest)
      (hworking : f.working = false) : Step f [.answered t .refused] { f with queued := rest }
  | begins {f : Flow} {t : Ticket} (hheld : f.held = some t) (hrunning : f.running = none)
      (hworking : f.working = true) (job : J) :
      Step f [.begun t job] { f with held := none, running := some t }
  | finishes {f : Flow} {t : Ticket} (hrunning : f.running = some t) (result : α) :
      Step f [.answered t (.done result)] { f with running := none }

/-- Where the jobs are that have not been invoked. -/
def waiting (f : Flow) : List Ticket := f.held.toList ++ f.queued

variable {f f' : Flow} {log new : List (Incident J α)}

theorem Step.submits_next (h : Step f new f') :
    new.filterMap Incident.submitted? = [] ∧ f.next ≤ f'.next ∨
      new.filterMap Incident.submitted? = [f.next] ∧ f'.next = f.next + 1 := by
  cases h with
  | rests hnext => exact .inl ⟨rfl, hnext⟩
  | submits => exact .inr ⟨rfl, rfl⟩
  | _ => exact .inl ⟨rfl, Nat.le_refl _⟩

/-- No job is lost, and none is doubled. -/
theorem Step.conserves (h : Step f new f') (t : Ticket) :
    f.pending.count t + f.waiting.count t + (new.filterMap Incident.submitted?).count t =
      f'.pending.count t + f'.waiting.count t + ((new.filterMap Incident.begun?).count t +
        (new.filterMap Incident.refused?).count t) := by
  unfold waiting
  cases h with
  | rests | stops => rfl
  | submits =>
    simp only [List.count_append, List.filterMap_cons, Incident.submitted?, Incident.begun?,
      Incident.refused?, List.filterMap_nil, List.count_nil]
    omega
  | sends hpending =>
    simp only [hpending, List.count_append, List.count_cons, List.filterMap_cons,
      Incident.submitted?, Incident.begun?, Incident.refused?, List.filterMap_nil, List.count_nil]
    omega
  | turnsAway hpending =>
    simp only [hpending, List.count_append, List.count_cons, List.filterMap_cons,
      Incident.submitted?, Incident.begun?, Incident.refused?, List.filterMap_nil, List.count_nil]
    omega
  | takes hqueued hheld => simp [hqueued, hheld]
  | refusesHeld hheld =>
    simp only [hheld, Option.toList_some, Option.toList_none, List.count_append, List.filterMap_cons,
      Incident.submitted?, Incident.begun?, Incident.refused?, List.filterMap_nil, List.count_nil]
    omega
  | refusesQueued hqueued =>
    simp only [hqueued, List.count_append, List.count_cons, List.filterMap_cons,
      Incident.submitted?, Incident.begun?, Incident.refused?, List.filterMap_nil, List.count_nil]
    omega
  | begins hheld =>
    simp only [hheld, Option.toList_some, Option.toList_none, List.count_append, List.filterMap_cons,
      Incident.submitted?, Incident.begun?, Incident.refused?, List.filterMap_nil, List.count_nil]
    omega
  | finishes => rfl

/-- A job is begun when no other one is being done, and the one that is being done is finished. -/
theorem Step.runs_one (h : Step f new f') :
    f.running.toList ++ new.filterMap Incident.begun? =
      new.filterMap Incident.finished? ++ f'.running.toList := by
  cases h with
  | begins _ hrunning =>
    rw [hrunning]
    rfl
  | finishes hrunning =>
    rw [hrunning]
    rfl
  | _ => exact List.append_nil _

/-- As long as the worker may begin with jobs, it takes them in order and refuses none. -/
theorem Step.takes_in_order (h : Step f new f') (hworking : f'.working = true) :
    f.working = true ∧ f.waiting ++ new.filterMap Incident.enqueued? =
      new.filterMap Incident.begun? ++ f'.waiting := by
  unfold waiting
  cases h with
  | rests _ hstill | stops hstill => exact ⟨hstill hworking, List.append_nil _⟩
  | submits => exact ⟨hworking, List.append_nil _⟩
  | sends => exact ⟨hworking, List.append_assoc ..⟩
  | turnsAway => exact ⟨hworking, List.append_nil _⟩
  | takes hqueued hheld => exact ⟨hworking, by simp [hqueued, hheld]⟩
  | refusesHeld _ hnot => exact (Bool.false_ne_true (hnot.symm.trans hworking)).elim
  | refusesQueued _ hnot => exact (Bool.false_ne_true (hnot.symm.trans hworking)).elim
  | begins hheld => exact ⟨hworking, by simp [hheld, Incident.begun?, Incident.enqueued?]⟩
  | finishes => exact ⟨hworking, List.append_nil _⟩

/-- A job that is begun is the one that the worker holds, and it may begin with it. -/
theorem Step.begins_held (h : Step f new f') :
    new.filterMap Incident.begun? = [] ∨
      f.working = true ∧ new.filterMap Incident.begun? = f.held.toList ∧
        new.filterMap Incident.enqueued? = [] := by
  cases h with
  | begins hheld _ hworking => exact .inr ⟨hworking, by simp [hheld, Incident.begun?], rfl⟩
  | _ => exact .inl rfl

/-- Where all the jobs are that have been submitted. -/
structure Tallies (f : Flow) (log : List (Incident J α)) : Prop where
  fresh : ∀ t ∈ log.filterMap Incident.submitted?, t < f.next
  distinct : (log.filterMap Incident.submitted?).Nodup
  /-- Every job is in one place. -/
  counted : ∀ t, (log.filterMap Incident.submitted?).count t =
    f.pending.count t + f.waiting.count t +
      ((log.filterMap Incident.begun?).count t + (log.filterMap Incident.refused?).count t)
  /-- The jobs that have been begun have been finished, all but the one that is being done. -/
  running : log.filterMap Incident.begun? = log.filterMap Incident.finished? ++ f.running.toList
  first : log.filterMap Incident.begun? <+: log.filterMap Incident.enqueued?
  /-- As long as the worker may begin with jobs, it has refused none. -/
  waits : f.working = true →
    log.filterMap Incident.enqueued? = log.filterMap Incident.begun? ++ f.waiting

theorem Tallies.step (h : f.Tallies log) (hstep : Step f new f') : f'.Tallies (log ++ new) := by
  -- if the worker may still begin with jobs, it might do so before, and has taken them in order
  have hwaits (hworking : f'.working = true) :
      log.filterMap Incident.enqueued? ++ new.filterMap Incident.enqueued? =
        log.filterMap Incident.begun? ++ new.filterMap Incident.begun? ++ f'.waiting := by
    obtain ⟨hworking, htakes⟩ := hstep.takes_in_order hworking
    rw [h.waits hworking, List.append_assoc, htakes, List.append_assoc]
  refine ⟨?_, ?_, fun t => ?_, ?_, ?_, ?_⟩ <;> simp only [List.filterMap_append]
  · intro t ht
    rcases hstep.submits_next with ⟨hnone, hnext⟩ | ⟨hone, hnext⟩
    · rw [hnone, List.append_nil] at ht
      exact Nat.lt_of_lt_of_le (h.fresh t ht) hnext
    · rw [hone, List.mem_append, List.mem_singleton] at ht
      rw [hnext]
      rcases ht with ht | rfl
      · exact Nat.lt_succ_of_lt (h.fresh t ht)
      · exact Nat.lt_succ_self _
  · rcases hstep.submits_next with ⟨hnone, -⟩ | ⟨hone, -⟩
    · rw [hnone, List.append_nil]
      exact h.distinct
    · rw [hone]
      refine h.distinct.append (List.nodup_singleton _) ?_
      rw [List.disjoint_singleton]
      exact fun hmem => Nat.lt_irrefl _ (h.fresh _ hmem)
  · have hcounted := h.counted t
    have hconserves := hstep.conserves t
    simp only [List.count_append]
    omega
  · rw [h.running, List.append_assoc, hstep.runs_one, List.append_assoc]
  · -- a job that is begun was the first one that waited, so it comes next in the queue
    rcases hstep.begins_held with hnone | ⟨hworking, hbegun, henqueued⟩
    · rw [hnone, List.append_nil]
      exact h.first.trans (List.prefix_append _ _)
    · rw [hbegun, henqueued, List.append_nil, h.waits hworking]
      refine List.prefix_append_right_inj _ |>.2 ?_
      exact List.prefix_append _ _
  · exact hwaits

end Flow

namespace Session

variable {W J α : Type}

/-! ## Steps of a session are steps of the flow -/

/-- Jobs of clients that have taken the first step of a call. -/
def pending (s : Session J α) : List Ticket := s.calls.filterMap Call.job?

def queued (s : Session J α) : List Ticket := s.queue.filterMap Command.job?

/-- Where the jobs of a session are. -/
def flow (s : Session J α) : Flow where
  next := s.nextTicket
  pending := s.pending
  queued := s.queued
  held := s.worker.held?
  running := s.worker.running?
  working := !s.stage.isClosing && s.worker.takesJobs

/-- Calls have numbers of their own. -/
structure Numbered (s : Session J α) : Prop where
  fresh : ∀ c ∈ s.calls, c.ticket < s.nextTicket
  distinct : (s.calls.map (·.ticket)).Nodup

/-- The call with a number, and the calls without it. -/
theorem Numbered.find? {s : Session J α} (h : s.Numbered) {ticket : Ticket} {call : Call J}
    (hcall : s.calls.find? (·.ticket = ticket) = some call) :
    ∃ before after, s.calls = before ++ call :: after ∧
      s.calls.filter (·.ticket ≠ ticket) = before ++ after := by
  obtain ⟨hticket, before, after, hcalls, hbefore⟩ := List.find?_eq_some_iff_append.1 hcall
  have hticket : call.ticket = ticket := of_decide_eq_true hticket
  refine ⟨before, after, hcalls, ?_⟩
  have hdistinct := h.distinct
  rw [hcalls, List.map_append, List.map_cons, List.nodup_append] at hdistinct
  obtain ⟨-, hafter, -⟩ := hdistinct
  -- no other call has the number, so taking out all calls with it takes out this one
  have hnot := (List.nodup_cons.1 hafter).1
  rw [hcalls, List.filter_append, List.filter_cons_of_neg (by simpa using hticket)]
  congr 1
  · refine List.filter_eq_self.2 fun c hc => ?_
    have hne := hbefore c hc
    simpa using hne
  · refine List.filter_eq_self.2 fun c hc => decide_eq_true ?_
    rintro rfl
    exact hnot (List.mem_map.2 ⟨c, hc, hticket.symm⟩)

theorem Numbered.beginCall {s t : Session J α} (h : s.Numbered) (call : Call J)
    (hcall : call.ticket = s.nextTicket) (hcalls : t.calls = s.calls ++ [call])
    (hnext : t.nextTicket = s.nextTicket + 1) : t.Numbered := by
  refine ⟨fun c hc => ?_, ?_⟩
  · rw [hcalls, List.mem_append, List.mem_singleton] at hc
    rw [hnext]
    rcases hc with hc | rfl
    · exact Nat.lt_succ_of_lt (h.fresh c hc)
    · rw [hcall]
      exact Nat.lt_succ_self _
  · rw [hcalls, List.map_append]
    refine h.distinct.append (List.nodup_singleton _) ?_
    rw [List.map_singleton, List.disjoint_singleton, hcall]
    intro hmem
    obtain ⟨c, hc, hticket⟩ := List.mem_map.1 hmem
    exact Nat.lt_irrefl _ (hticket ▸ h.fresh c hc)

theorem Numbered.of_eq {s t : Session J α} (h : s.Numbered) (hcalls : t.calls = s.calls)
    (hnext : t.nextTicket = s.nextTicket) : t.Numbered := by
  refine ⟨?_, ?_⟩
  · rw [hcalls, hnext]
    exact h.fresh
  · rw [hcalls]
    exact h.distinct

theorem Numbered.of_filter {s t : Session J α} (h : s.Numbered) {p : Call J → Bool}
    (hcalls : t.calls = s.calls.filter p) (hnext : t.nextTicket = s.nextTicket) : t.Numbered := by
  refine ⟨fun c hc => ?_, ?_⟩
  · rw [hcalls] at hc
    rw [hnext]
    exact h.fresh c (List.mem_filter.1 hc).1
  · rw [hcalls]
    exact h.distinct.sublist (List.filter_sublist.map _)

/-- A queue that the worker has closed takes no commands, and once the worker has drained it, it stays
empty. -/
structure Closed (s : Session J α) : Prop where
  accepting : s.worker.hasClosed = true → s.accepting = false
  queue : s.worker.hasDrained = true → s.queue = []

theorem closed_of_hasClosed {s : Session J α} (h : s.worker.hasClosed = false) : s.Closed := by
  have hnot (hclosed : s.worker.hasClosed = true) : False :=
    Bool.false_ne_true (h.symm.trans hclosed)
  exact ⟨fun hclosed => (hnot hclosed).elim,
    fun hdrained => (hnot (Worker.hasClosed_of_hasDrained hdrained)).elim⟩

theorem Closed.of_eq {s s' : Session J α} (hs : s.Closed) (hworker : s'.worker = s.worker)
    (haccepting : s'.accepting = s.accepting) (hqueue : s'.queue = s.queue) : s'.Closed := by
  refine ⟨fun h => ?_, fun h => ?_⟩
  · rw [haccepting]
    exact hs.accepting (hworker ▸ h)
  · rw [hqueue]
    exact hs.queue (hworker ▸ h)

/-- What a move does, as far as jobs are concerned. -/
structure Goes (s : Session J α) (new : List (Incident J α)) (s' : Session J α) : Prop where
  flow : Flow.Step s.flow new s'.flow
  answers : s'.answers = s.answers ++ new.filterMap Incident.answer?
  numbered : s.Numbered → s'.Numbered
  closed : s.Closed → s'.Closed

/-- A change that concerns no job, where at most the engine is stopped: at most, the worker begins with no job
any more. -/
theorem goes_of_flow {s s' : Session J α} {new : List (Incident J α)} (hnew : new = [] ∨ new = [.stopped])
    (hnext : s'.nextTicket = s.nextTicket) (hcalls : s'.calls = s.calls) (hqueued : s'.queued = s.queued)
    (hheld : s'.worker.held? = s.worker.held?) (hrunning : s'.worker.running? = s.worker.running?)
    (hworking : s'.flow.working = true → s.flow.working = true) (hanswers : s'.answers = s.answers)
    (hclosed : s.Closed → s'.Closed) : s.Goes new s' := by
  have hflow : s'.flow = { s.flow with working := s'.flow.working } := by
    rw [flow, pending, hnext, hcalls, hqueued, hheld, hrunning]
    rfl
  refine ⟨?_, ?_, fun hs => hs.of_eq hcalls hnext, hclosed⟩
  · rw [hflow]
    rcases hnew with rfl | rfl
    · exact .rests (Nat.le_refl _) hworking
    · exact .stops hworking
  · rcases hnew with rfl | rfl
    · exact hanswers.trans (List.append_nil _).symm
    · exact hanswers.trans (List.append_nil _).symm

theorem goes_rests {s s' : Session J α} (hnext : s'.nextTicket = s.nextTicket)
    (hcalls : s'.calls = s.calls) (hqueued : s'.queued = s.queued)
    (hheld : s'.worker.held? = s.worker.held?) (hrunning : s'.worker.running? = s.worker.running?)
    (hworking : s'.flow.working = true → s.flow.working = true) (hanswers : s'.answers = s.answers)
    (hclosed : s.Closed → s'.Closed) : s.Goes [] s' :=
  goes_of_flow (.inl rfl) hnext hcalls hqueued hheld hrunning hworking hanswers hclosed

/-- The worker refuses what is left in the queue, in order. -/
theorem goes_refuseNext {s : Session J α} {c : Command J} {rest : List (Command J)}
    (hqueue : s.queue = c :: rest) (htakes : s.worker.takesJobs = false)
    (hdrained : s.worker.hasDrained = false) :
    s.Goes c.refusal { s.refuse c with queue := rest } := by
  have hclosed (hs : s.Closed) : ({ s.refuse c with queue := rest } : Session J α).Closed := by
    refine ⟨fun h => ?_, fun h => ?_⟩
    · cases c <;> exact hs.accepting h
    · have hworker : ({ s.refuse c with queue := rest } : Session J α).worker = s.worker :=
        worker_refuse s c
      rw [hworker, hdrained] at h
      cases h
  have hqueued : s.queued = (c :: rest).filterMap Command.job? := congrArg _ hqueue
  cases c with
  | run t job =>
    refine ⟨.refusesQueued hqueued ?_, rfl, fun hs => hs.of_eq rfl rfl, hclosed⟩
    unfold flow
    rw [htakes, Bool.and_false]
  | shutdown t => exact goes_rests rfl rfl hqueued.symm rfl rfl (fun h => h) rfl hclosed

theorem isClosing_touch {entered : Bool} {stage : Stage} {touch : Touch}
    (h : (touch.apply entered stage).2.isClosing = false) : stage.isClosing = false := by
  revert h
  cases touch <;> cases entered <;> cases stage <;> decide

theorem working_iff (s : Session J α) :
    s.flow.working = true ↔ s.stage.isClosing = false ∧ s.worker.takesJobs = true := by
  unfold flow
  rw [Bool.and_eq_true, Bool.not_eq_true']

theorem not_working {s : Session J α} {p : Prop} (htakes : s.worker.takesJobs = false)
    (h : s.flow.working = true) : p := by
  rw [working_iff, htakes] at h
  cases h.2

theorem worker_finishCall (s : Session J α) (ticket : Ticket) :
    (s.finishCall ticket).worker = s.worker := by
  have hsend (s : Session J α) (c : Command J) : (s.send c).worker = s.worker := by
    unfold send
    split
    · rfl
    · exact worker_refuse s c
  unfold finishCall
  split
  · rfl
  · dsimp only
    split
    · rfl
    · exact hsend _ _
    · exact hsend _ _

theorem worker_beginShutdown (s : Session J α) : s.beginShutdown.2.worker = s.worker := by
  unfold beginShutdown
  dsimp only
  split <;> rfl

theorem goes_work? {duties : Duties W J α} {s s' : Session J α} {w w' : W}
    (h : work? duties s w = some (s', w')) : s.Goes s.incidentsOfWork s' := by
  rcases s with ⟨stage, queue, accepting, worker, calls, next, answers, closings⟩
  unfold work? at h
  unfold incidentsOfWork
  cases worker with
  | starting =>
    dsimp only at h
    split at h
    · cases h
      exact goes_rests rfl rfl rfl rfl rfl (fun h => h) rfl fun _ => closed_of_hasClosed rfl
    · cases h
      exact goes_rests rfl rfl rfl rfl rfl (not_working rfl) rfl fun _ => closed_of_hasClosed rfl
  | waiting =>
    cases queue with
    | nil => cases h
    | cons c rest =>
      cases h
      cases c with
      | run t job =>
        exact ⟨.takes rfl rfl, (List.append_nil _).symm, fun hs => hs.of_eq rfl rfl,
          fun _ => closed_of_hasClosed rfl⟩
      | shutdown t =>
        exact goes_rests rfl rfl rfl rfl rfl (fun h => h) rfl fun _ => closed_of_hasClosed rfl
  | holding c =>
    cases c with
    | run t job =>
      dsimp only at h ⊢
      split at h
      · rename_i hclosing
        cases h
        rw [if_pos hclosing]
        refine ⟨.refusesHeld rfl ?_, rfl, fun hs => hs.of_eq rfl rfl, fun _ => closed_of_hasClosed rfl⟩
        unfold flow
        rw [hclosing]
        rfl
      · rename_i hclosing
        cases h
        rw [if_neg hclosing]
        rw [Bool.not_eq_true] at hclosing
        refine ⟨.begins rfl rfl ?_ job, (List.append_nil _).symm, fun hs => hs.of_eq rfl rfl,
          fun _ => closed_of_hasClosed rfl⟩
        exact (working_iff _).2 ⟨hclosing, rfl⟩
    | shutdown t =>
      cases h
      refine goes_rests rfl rfl rfl rfl rfl (not_working rfl) rfl fun _ => ⟨fun _ => rfl, ?_⟩
      exact fun h => (Bool.false_ne_true h).elim
  | running t entered touches result =>
    cases touches with
    | nil =>
      cases h
      exact ⟨.finishes rfl result, rfl, fun hs => hs.of_eq rfl rfl, fun _ => closed_of_hasClosed rfl⟩
    | cons touch touches =>
      cases h
      -- what a job does to the stage never brings a closing session back
      refine goes_rests rfl rfl rfl rfl rfl (fun h => ?_) rfl fun _ => closed_of_hasClosed rfl
      obtain ⟨hclosing, -⟩ := (working_iff _).1 h
      exact (working_iff _).2 ⟨isClosing_touch hclosing, rfl⟩
  | closing t =>
    cases queue with
    | nil =>
      cases h
      exact goes_of_flow (.inr rfl) rfl rfl rfl rfl rfl (not_working rfl) rfl
        fun hs => ⟨hs.accepting, fun _ => rfl⟩
    | cons c rest =>
      cases h
      exact goes_refuseNext rfl rfl rfl
  | leaving t =>
    cases h
    refine goes_rests rfl rfl rfl rfl rfl (not_working rfl) rfl fun hs => ?_
    exact ⟨fun _ => hs.accepting rfl, fun _ => hs.queue rfl⟩
  | broken =>
    cases h
    refine goes_rests rfl rfl rfl rfl rfl (not_working rfl) rfl fun _ => ⟨fun _ => rfl, ?_⟩
    exact fun h => (Bool.false_ne_true h).elim
  | abandoning =>
    cases queue with
    | nil =>
      cases h
      exact goes_rests rfl rfl rfl rfl rfl (not_working rfl) rfl fun hs => ⟨hs.accepting, fun _ => rfl⟩
    | cons c rest =>
      cases h
      exact goes_refuseNext rfl rfl rfl
  | ended => cases h

theorem goes_beginSubmit (s : Session J α) (job : J) :
    s.Goes [.submitted s.nextTicket job] (s.beginSubmit job).2 := by
  have hpending : (s.beginSubmit job).2.pending = s.pending ++ [s.nextTicket] := List.filterMap_append
  have hflow : (s.beginSubmit job).2.flow =
      { s.flow with next := s.nextTicket + 1, pending := s.pending ++ [s.nextTicket] } := by
    rw [← hpending]
    rfl
  refine ⟨?_, (List.append_nil _).symm, fun hs => ?_, fun hs => hs.of_eq rfl rfl rfl⟩
  · rw [hflow]
    exact .submits s.flow job
  · exact hs.beginCall (.submit s.nextTicket job s.stage.isClosing) rfl rfl rfl

theorem goes_beginShutdown (s : Session J α) : s.Goes [] s.beginShutdown.2 := by
  unfold beginShutdown
  dsimp only
  split
  · refine ⟨.rests (Nat.le_succ _) fun h => h, (List.append_nil _).symm, fun hs => ?_,
      fun hs => hs.of_eq rfl rfl rfl⟩
    exact ⟨fun c hc => Nat.lt_succ_of_lt (hs.fresh c hc), hs.distinct⟩
  · have hpending : (s.calls ++ [Call.shutdown s.nextTicket]).filterMap Call.job? = s.pending :=
      List.filterMap_append.trans (List.append_nil _)
    have hrests : Flow.Step s.flow ([] : List (Incident J α))
        { s.flow with next := s.nextTicket + 1, working := false } :=
      .rests (Nat.le_succ _) fun h => (Bool.false_ne_true h).elim
    refine ⟨?_, (List.append_nil _).symm, fun hs => ?_, fun hs => hs.of_eq rfl rfl rfl⟩
    · unfold flow pending
      rw [hpending]
      exact hrests
    · exact hs.beginCall (.shutdown s.nextTicket) rfl rfl rfl

theorem numbered_send {s : Session J α} (hs : s.Numbered) (c : Command J) : (s.send c).Numbered := by
  unfold send
  split
  · exact hs.of_eq rfl rfl
  · cases c <;> exact hs.of_eq rfl rfl

theorem closed_send {s : Session J α} (hs : s.Closed) (c : Command J) : (s.send c).Closed := by
  unfold send
  split
  · rename_i haccepting
    -- a queue that has been drained is closed, and nothing is sent to it any more
    refine ⟨hs.accepting, fun hdrained => ?_⟩
    rw [hs.accepting (Worker.hasClosed_of_hasDrained hdrained)] at haccepting
    cases haccepting
  · cases c <;> exact hs.of_eq rfl rfl rfl

/-- A command that is sent is the last one of the queue, or it is refused. -/
theorem flow_send (s : Session J α) (c : Command J) :
    (s.send c).flow =
      { s.flow with queued := s.queued ++ if s.accepting then c.job?.toList else [] } := by
  unfold send
  split
  · have hqueued : (s.queue ++ [c]).filterMap Command.job? = s.queued ++ c.job?.toList := by
      rw [List.filterMap_append]
      cases c <;> rfl
    unfold flow queued
    rw [hqueued]
    rfl
  · rw [List.append_nil]
    cases c <;> rfl

theorem answers_send (s : Session J α) (c : Command J) :
    (s.send c).answers =
      s.answers ++ if s.accepting then [] else c.refusal.filterMap Incident.answer? := by
  unfold send
  split
  · exact (List.append_nil _).symm
  · cases c with
    | run t job => rfl
    | shutdown t => exact (List.append_nil _).symm

theorem goes_finishCall {s : Session J α} (hs : s.Numbered) (ticket : Ticket) :
    s.Goes (s.incidents (.finish ticket)) (s.finishCall ticket) := by
  unfold incidents finishCall
  dsimp only
  cases hcall : s.calls.find? (·.ticket = ticket) with
  | none =>
    exact goes_rests rfl rfl rfl rfl rfl (fun h => h) rfl fun hs => hs
  | some call =>
    obtain ⟨before, after, hcalls, hfilter⟩ := hs.find? hcall
    have hpending : s.flow.pending =
        before.filterMap Call.job? ++ (call :: after).filterMap Call.job? := by
      rw [← List.filterMap_append, ← hcalls]
      rfl
    have hflow : ({ s with calls := before ++ after } : Session J α).flow =
        { s.flow with pending := before.filterMap Call.job? ++ after.filterMap Call.job? } := by
      rw [← List.filterMap_append]
      rfl
    have hclosed (hs : s.Closed) : ({ s with calls := before ++ after } : Session J α).Closed :=
      hs.of_eq rfl rfl rfl
    have hnumbered : ({ s with calls := before ++ after } : Session J α).Numbered :=
      hs.of_filter hfilter.symm rfl
    dsimp only
    rw [hfilter]
    cases call with
    | submit t job closing =>
      cases closing with
      | true =>
        -- the client has seen the session closing and refuses the job itself
        refine ⟨?_, rfl, fun _ => hnumbered.of_eq rfl rfl, fun hs => (hclosed hs).of_eq rfl rfl rfl⟩
        change Flow.Step s.flow [.answered t .refused] (Session.flow { s with calls := before ++ after })
        rw [hflow]
        exact .turnsAway hpending
      | false =>
        -- the client sends the job, whatever the stage is by now: only the queue can turn it away
        refine ⟨?_, ?_, fun _ => numbered_send hnumbered _, fun hs => closed_send (hclosed hs) _⟩
        · rw [flow_send, hflow, Option.map_some, Option.getD_some, incidentsOfCall]
          dsimp only
          cases s.accepting with
          | true => exact .sends hpending
          | false =>
            rw [if_neg Bool.false_ne_true, List.append_nil]
            exact .turnsAway hpending
        · rw [answers_send, Option.map_some, Option.getD_some, incidentsOfCall]
          dsimp only
          cases s.accepting <;> rfl
    | shutdown t =>
      have hsame : s.flow.pending = before.filterMap Call.job? ++ after.filterMap Call.job? := hpending
      refine ⟨?_, ?_, fun _ => numbered_send hnumbered _, fun hs => closed_send (hclosed hs) _⟩
      · rw [flow_send, hflow, ← hsame]
        have hnone : (if s.accepting then (Command.shutdown t : Command J).job?.toList else []) = [] := by
          split <;> rfl
        dsimp only
        rw [hnone, List.append_nil]
        exact .rests (Nat.le_refl _) fun h => h
      · rw [answers_send]
        exact congrArg (s.answers ++ ·) (ite_self _)

/-- Nothing happens if the worker has nothing to do. -/
theorem incidentsOfWork_of_none {duties : Duties W J α} {s : Session J α} {w : W}
    (h : work? duties s w = none) : s.incidentsOfWork = [] := by
  rcases s with ⟨stage, queue, accepting, worker, calls, next, answers, closings⟩
  cases worker with
  | holding c =>
    cases c with
    | run t job =>
      unfold work? at h
      dsimp only at h
      split at h <;> cases h
    | shutdown t => rfl
  | running t entered touches result =>
    cases touches with
    | nil => cases h
    | cons touch touches => rfl
  | closing t =>
    cases queue with
    | nil => cases h
    | cons c rest => cases h
  | abandoning =>
    cases queue with
    | nil => rfl
    | cons c rest => cases h
  | _ => rfl

theorem goes_step (duties : Duties W J α) {s : Session J α} (hs : s.Numbered) (w : W)
    (move : Move J) : s.Goes (s.incidents move) (s.step duties w move).1 := by
  cases move with
  | submit job => exact s.goes_beginSubmit job
  | shutdown => exact s.goes_beginShutdown
  | finish ticket => exact goes_finishCall hs ticket
  | work =>
    unfold step incidents
    dsimp only
    cases hwork : work? duties s w with
    | none =>
      -- the worker has nothing to do
      rw [incidentsOfWork_of_none hwork]
      exact goes_rests rfl rfl rfl rfl rfl (fun h => h) rfl fun hs => hs
    | some after => exact goes_work? hwork

/-! ## Whole runs -/

/-- What is known of a session and of what has happened to its jobs. -/
structure Accounted (s : Session J α) (log : List (Incident J α)) : Prop where
  numbered : s.Numbered
  closed : s.Closed
  tallies : s.flow.Tallies log
  answers : s.answers = log.filterMap Incident.answer?

theorem Accounted.goes {s s' : Session J α} {log new : List (Incident J α)} (h : s.Accounted log)
    (hgoes : s.Goes new s') : s'.Accounted (log ++ new) := by
  refine ⟨hgoes.numbered h.numbered, hgoes.closed h.closed, h.tallies.step hgoes.flow, ?_⟩
  rw [hgoes.answers, h.answers, List.filterMap_append]

theorem Accounted.run (duties : Duties W J α) (moves : List (Move J)) {s : Session J α}
    {log : List (Incident J α)} (h : s.Accounted log) (w : W) :
    (run duties moves s w).2.1.Accounted (log ++ (run duties moves s w).1) := by
  induction moves generalizing s w log with
  | nil =>
    rw [Session.run, List.append_nil]
    exact h
  | cons move moves ih =>
    have hstep := h.goes (goes_step duties h.numbered w move)
    rw [Session.run, ← List.append_assoc]
    exact ih hstep _

theorem accounted_empty : ({} : Session J α).Accounted [] := by
  refine ⟨⟨fun c hc => (List.not_mem_nil hc).elim, List.nodup_nil⟩, closed_of_hasClosed rfl, ?_, rfl⟩
  exact ⟨fun t ht => (List.not_mem_nil ht).elim, List.nodup_nil, fun t => rfl, rfl,
    List.nil_prefix, fun _ => rfl⟩

/-- Jobs are answered when they are finished or refused. -/
theorem perm_answered (log : List (Incident J α)) :
    ((log.filterMap Incident.answer?).map (·.1)).Perm
      (log.filterMap Incident.finished? ++ log.filterMap Incident.refused?) := by
  induction log with
  | nil => exact .refl _
  | cons incident log ih =>
    cases incident with
    | answered t a =>
      cases a with
      | done result => exact ih.cons t
      | refused => exact (ih.cons t).trans List.perm_middle.symm
    | _ => exact ih

end Session

end Notebook

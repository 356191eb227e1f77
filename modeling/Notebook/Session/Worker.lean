import Notebook.Session.Lifecycle

/-!
Sessions as clients and one worker see them. Clients put jobs into a queue, and the worker does them in
order. A call of a client takes two steps, between which anything may happen: it looks at the stage, or
changes it, and then it sends a command or refuses its own job. The worker takes small steps as well, so
that all orders in which these steps may come are orders of the moves that are defined here.

Jobs are of a type `J` and their results of a type `α`; they are done in a workspace of a type `W`. A job
that panics has a result as well, which tells of the panic.
-/
namespace Notebook

/-- The number of a call. -/
abbrev Ticket := Nat

/-- What stands in a session's queue. -/
inductive Command (J : Type)
  | run (ticket : Ticket) (job : J)
  | shutdown (ticket : Ticket)

/-- What becomes of a call: it was done, or it was refused since the session was closing. -/
inductive Answer (α : Type)
  | done (result : α)
  | refused
  deriving DecidableEq, Repr

/-- What the worker of a session is about to do. -/
inductive Worker (J α : Type)
  /-- It makes the engine. -/
  | starting
  /-- It takes the next command. -/
  | waiting
  /-- It looks at the stage, with a command in hand. -/
  | holding (command : Command J)
  /-- It does what remains of a job. -/
  | running (ticket : Ticket) (entered : Bool) (touches : List Touch) (result : α)
  /-- It refuses what is left in the queue, and then stops the engine. -/
  | closing (ticket : Ticket)
  /-- It answers the call that shut the session down. -/
  | leaving (ticket : Ticket)
  /-- The engine could not be made; it closes the queue. -/
  | broken
  /-- It refuses what is left in the queue. -/
  | abandoning
  | ended

/-- A call of a client that has taken its first step. -/
inductive Call (J : Type)
  /-- A job is submitted; `closing` tells whether the session was seen to be closing. -/
  | submit (ticket : Ticket) (job : J) (closing : Bool)
  | shutdown (ticket : Ticket)

/-- The number of a call. -/
def Call.ticket {J : Type} : Call J → Ticket
  | submit t _ _ | shutdown t => t

/-- A session. -/
structure Session (J α : Type) where
  stage : Stage := .created
  queue : List (Command J) := []
  /-- Whether the queue takes commands. -/
  accepting : Bool := true
  worker : Worker J α := .starting
  /-- Calls that have taken their first step. -/
  calls : List (Call J) := []
  nextTicket : Ticket := 0
  /-- What became of jobs, in the order in which it was settled. -/
  answers : List (Ticket × Answer α) := []
  /-- What became of calls to shut down, in the order in which it was settled. -/
  closings : List (Ticket × Answer Unit) := []

/-- What the worker of a session does for it. -/
structure Duties (W J α : Type) where
  /-- Whether an engine can be made. -/
  starts : Bool
  /-- Does a job, and tells what it does to the stage. -/
  perform : J → W → (α × List Touch) × W
  /-- Stops the engine and gives everything free. -/
  stop : W → W

namespace Session

variable {W J α : Type}

/-- Settles what became of a job. -/
def answer (s : Session J α) (ticket : Ticket) (a : Answer α) : Session J α :=
  { s with answers := s.answers ++ [(ticket, a)] }

/-- Settles what became of a call to shut down. -/
def answerClosing (s : Session J α) (ticket : Ticket) (a : Answer Unit) : Session J α :=
  { s with closings := s.closings ++ [(ticket, a)] }

/-- Refuses a command. -/
def refuse (s : Session J α) : Command J → Session J α
  | .run ticket _ => s.answer ticket .refused
  | .shutdown ticket => s.answerClosing ticket .refused

/-- Puts a command into the queue. A queue that takes no commands refuses it. -/
def send (s : Session J α) (c : Command J) : Session J α :=
  if s.accepting then { s with queue := s.queue ++ [c] } else s.refuse c

/-- The first step of a call that submits a job: it looks at the stage. -/
def beginSubmit (s : Session J α) (job : J) : Ticket × Session J α :=
  let ticket := s.nextTicket
  (ticket, { s with
    nextTicket := ticket + 1
    calls := s.calls ++ [.submit ticket job s.stage.isClosing] })

/-- The first step of a call that shuts the session down: it changes the stage. The second such call is
refused. -/
def beginShutdown (s : Session J α) : Ticket × Session J α :=
  let ticket := s.nextTicket
  let s := { s with nextTicket := ticket + 1 }
  (ticket, if s.stage.isClosing then s.answerClosing ticket .refused
    else { s with stage := .shuttingDown, calls := s.calls ++ [.shutdown ticket] })

/-- The second step of a call: it sends its command. A job is refused by the client itself if the session
was seen to be closing. -/
def finishCall (s : Session J α) (ticket : Ticket) : Session J α :=
  match s.calls.find? (·.ticket = ticket) with
  | none => s
  | some call =>
    let s := { s with calls := s.calls.filter (·.ticket ≠ ticket) }
    match call with
    | .submit ticket _ true => s.answer ticket .refused
    | .submit ticket job false => s.send (.run ticket job)
    | .shutdown ticket => s.send (.shutdown ticket)

/-- One step of the worker, if it has something to do. -/
def work? (duties : Duties W J α) (s : Session J α) (w : W) : Option (Session J α × W) :=
  match s.worker with
  | .starting =>
    if duties.starts then some ({ s with worker := .waiting }, w)
    else some ({ s with stage := .closed, worker := .broken }, w)
  | .waiting =>
    match s.queue with
    | [] => none
    | c :: rest => some ({ s with queue := rest, worker := .holding c }, w)
  | .holding (.run ticket job) =>
    if s.stage.isClosing then some ({ s.answer ticket .refused with worker := .waiting }, w)
    else
      let ((result, touches), w) := duties.perform job w
      some ({ s with worker := .running ticket false touches result }, w)
  | .holding (.shutdown ticket) => some ({ s with accepting := false, worker := .closing ticket }, w)
  | .running ticket entered (touch :: touches) result =>
    let (entered, stage) := touch.apply entered s.stage
    some ({ s with stage, worker := .running ticket entered touches result }, w)
  | .running ticket _ [] result => some ({ s.answer ticket (.done result) with worker := .waiting }, w)
  | .closing ticket =>
    match s.queue with
    | c :: rest => some ({ s.refuse c with queue := rest }, w)
    | [] => some ({ s with stage := .closed, worker := .leaving ticket }, duties.stop w)
  | .leaving ticket => some ({ s.answerClosing ticket (.done ()) with worker := .ended }, w)
  | .broken => some ({ s with accepting := false, worker := .abandoning }, w)
  | .abandoning =>
    match s.queue with
    | c :: rest => some ({ s.refuse c with queue := rest }, w)
    | [] => some ({ s with worker := .ended }, w)
  | .ended => none

/-- A step of a client or of the worker. -/
inductive Move (J : Type)
  | submit (job : J)
  | shutdown
  | finish (ticket : Ticket)
  | work

/-- Makes a move. -/
def step (duties : Duties W J α) (s : Session J α) (w : W) : Move J → Session J α × W
  | .submit job => ((s.beginSubmit job).2, w)
  | .shutdown => (s.beginShutdown.2, w)
  | .finish ticket => (s.finishCall ticket, w)
  | .work => (work? duties s w).getD (s, w)

/-- Submits a job with both steps of the call. -/
def submit (s : Session J α) (job : J) : Ticket × Session J α :=
  let (ticket, s) := s.beginSubmit job
  (ticket, s.finishCall ticket)

/-- Shuts the session down with both steps of the call. -/
def shutdown (s : Session J α) : Ticket × Session J α :=
  let (ticket, s) := s.beginShutdown
  (ticket, s.finishCall ticket)

/-- How many commands are at most still to be taken, and how far the worker has come with the one in its
hands. -/
def commandsLeft (s : Session J α) : Nat :=
  4 * s.queue.length +
    match s.worker with
    | .starting | .holding _ => 3
    | .running .. | .closing _ | .broken => 2
    | .waiting | .leaving _ | .abandoning => 1
    | .ended => 0

/-- How much of a job is still to be done. -/
def touchesLeft (s : Session J α) : Nat :=
  match s.worker with
  | .running _ _ touches _ => touches.length
  | _ => 0

theorem worker_refuse (s : Session J α) (c : Command J) : (s.refuse c).worker = s.worker := by
  cases c <;> rfl

/-- Every step of the worker brings it closer to having nothing to do. -/
theorem work?_decreases {duties : Duties W J α} {s s' : Session J α} {w w' : W}
    (h : work? duties s w = some (s', w')) :
    Prod.Lex (· < ·) (· < ·) (s'.commandsLeft, s'.touchesLeft) (s.commandsLeft, s.touchesLeft) := by
  cases hw : s.worker with
  | running ticket entered touches result =>
    cases touches with
    | nil =>
      simp only [work?, hw, Option.some.injEq, Prod.mk.injEq] at h
      obtain ⟨rfl, rfl⟩ := h
      apply Prod.Lex.left
      simp [commandsLeft, hw, answer]
    | cons touch touches =>
      simp only [work?, hw, Option.some.injEq, Prod.mk.injEq] at h
      obtain ⟨rfl, rfl⟩ := h
      simp [commandsLeft, touchesLeft, hw, Prod.lex_def]
  | holding c =>
    cases c with
    | run ticket job =>
      simp only [work?, hw] at h
      apply Prod.Lex.left
      split at h <;> simp only [Option.some.injEq, Prod.mk.injEq] at h <;> obtain ⟨rfl, rfl⟩ := h <;>
        simp [commandsLeft, hw, answer]
    | shutdown ticket =>
      simp only [work?, hw, Option.some.injEq, Prod.mk.injEq] at h
      obtain ⟨rfl, rfl⟩ := h
      apply Prod.Lex.left
      simp [commandsLeft, hw]
  | starting =>
    simp only [work?, hw] at h
    apply Prod.Lex.left
    split at h <;> simp only [Option.some.injEq, Prod.mk.injEq] at h <;> obtain ⟨rfl, rfl⟩ := h <;>
      simp [commandsLeft, hw]
  | waiting =>
    simp only [work?, hw] at h
    apply Prod.Lex.left
    split at h
    · cases h
    · rename_i c rest hq
      simp only [Option.some.injEq, Prod.mk.injEq] at h
      obtain ⟨rfl, rfl⟩ := h
      simp only [commandsLeft, hw, hq, List.length_cons]
      omega
  | closing ticket =>
    simp only [work?, hw] at h
    apply Prod.Lex.left
    split at h
    · rename_i c rest hq
      simp only [Option.some.injEq, Prod.mk.injEq] at h
      obtain ⟨rfl, rfl⟩ := h
      simp only [commandsLeft, worker_refuse, hw, hq, List.length_cons]
      omega
    · rename_i hq
      simp only [Option.some.injEq, Prod.mk.injEq] at h
      obtain ⟨rfl, rfl⟩ := h
      simp [commandsLeft, hw, hq]
  | leaving ticket =>
    simp only [work?, hw, Option.some.injEq, Prod.mk.injEq] at h
    obtain ⟨rfl, rfl⟩ := h
    apply Prod.Lex.left
    simp [commandsLeft, hw, answerClosing]
  | broken =>
    simp only [work?, hw, Option.some.injEq, Prod.mk.injEq] at h
    obtain ⟨rfl, rfl⟩ := h
    apply Prod.Lex.left
    simp [commandsLeft, hw]
  | abandoning =>
    simp only [work?, hw] at h
    apply Prod.Lex.left
    split at h
    · rename_i c rest hq
      simp only [Option.some.injEq, Prod.mk.injEq] at h
      obtain ⟨rfl, rfl⟩ := h
      simp only [commandsLeft, worker_refuse, hw, hq, List.length_cons]
      omega
    · rename_i hq
      simp only [Option.some.injEq, Prod.mk.injEq] at h
      obtain ⟨rfl, rfl⟩ := h
      simp [commandsLeft, hw, hq]
  | ended => simp [work?, hw] at h

/-- Lets the worker work until it has nothing to do. -/
def settle (duties : Duties W J α) (s : Session J α) (w : W) : Session J α × W :=
  match _h : work? duties s w with
  | none => (s, w)
  | some (s', w') => settle duties s' w'
termination_by (s.commandsLeft, s.touchesLeft)
decreasing_by exact work?_decreases _h

/-- What became of a job. -/
def answer? (s : Session J α) (ticket : Ticket) : Option (Answer α) := s.answers.lookup ticket

/-- What became of a call to shut down. -/
def closing? (s : Session J α) (ticket : Ticket) : Option (Answer Unit) := s.closings.lookup ticket

end Session

end Notebook

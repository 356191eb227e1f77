import Notebook.Session.Request

/-!
Sessions that share a catalog and a registry. A session that has been shut down can still be asked; it
refuses everything.
-/
namespace Notebook
open Notebook.Guest Notebook.Capability

/-- A session with its kernel. -/
structure Seat where
  session : Session Job Reply
  kernel : Kernel

/-- Sessions and what they share. -/
structure Manager where
  config : Config := {}
  catalog : Catalog
  /-- Whether engines can be made. -/
  enginesStart : Bool := true
  /-- The fuel of an evaluation. -/
  fuel : Nat
  registry : Instances := []
  /-- All sessions there ever were, by their numbers. -/
  seats : List Seat := []
  /-- The sessions that have not been given up. -/
  live : List SessionId := []

namespace Manager

/-- Does something to a session. -/
def onSession {α} (m : Manager) (id : SessionId) (f : Session Job Reply → α × Session Job Reply) :
    Option α × Manager :=
  match m.seats[id]? with
  | none => (none, m)
  | some seat =>
    let (a, session) := f seat.session
    (some a, { m with seats := m.seats.set id { seat with session } })

/-- Lets something work on a session in its workspace. -/
def inWorkspace (m : Manager) (id : SessionId)
    (f : Session Job Reply → Workspace → Session Job Reply × Workspace) : Manager :=
  match m.seats[id]? with
  | none => m
  | some seat =>
    let (session, w) := f seat.session { kernel := seat.kernel, registry := m.registry }
    { m with registry := w.registry, seats := m.seats.set id ⟨session, w.kernel⟩ }

/-- What the workers do. -/
def duties (m : Manager) : Duties Workspace Job Reply := Notebook.duties m.enginesStart m.fuel

/-- Lets the worker of a session take a step. -/
def work (m : Manager) (id : SessionId) : Manager :=
  m.inWorkspace id fun s w => (s.work? m.duties w).getD (s, w)

/-- Lets the worker of a session work until it has nothing to do. -/
def settle (m : Manager) (id : SessionId) : Manager := m.inWorkspace id (Session.settle m.duties)

/-- Lets all workers work until they have nothing to do. -/
def settleAll (m : Manager) : Manager := (List.range m.seats.length).foldl settle m

/-- Submits a job to a session. -/
def submit (m : Manager) (id : SessionId) (job : Job) : Option Ticket × Manager :=
  m.onSession id (·.submit job)

/-- Starts a session. Its first jobs are to activate the capabilities that every session has, and to
become ready. -/
def create (m : Manager) : SessionId × Manager :=
  let id := m.seats.length
  let jobs := m.catalog.system.map .activateSystem ++ [.becomeReady]
  let session := jobs.foldl (fun (s : Session Job Reply) job => (s.submit job).2) {}
  (id, { m with
    seats := m.seats ++ [⟨session, { session := id, config := m.config }⟩]
    live := m.live ++ [id] })

/-- What became of a job. It is refused as well if there is no such session, or if it is not done yet. -/
def reply (m : Manager) (id : SessionId) (ticket : Option Ticket) : Reply :=
  match m.seats[id]?, ticket with
  | some seat, some ticket =>
    match seat.session.answer? ticket with
    | some (.done reply) => reply
    | _ => .error .sessionClosed
  | _, _ => .error .sessionClosed

/-- Asks a session and waits for what it answers. -/
def ask (m : Manager) (id : SessionId) (r : Request) : Reply × Manager :=
  let (ticket, m) := m.submit id (.request r)
  let m := m.settle id
  (m.reply id ticket, m)

/-- What became of a call to shut a session down. -/
def closing (m : Manager) (id : SessionId) (ticket : Option Ticket) : Except Failure Unit :=
  match m.seats[id]?, ticket with
  | some seat, some ticket =>
    match seat.session.closing? ticket with
    | some (.done ()) => .ok ()
    | _ => .error .sessionClosed
  | _, _ => .error .sessionClosed

/-- Begins to shut a session down. -/
def beginShutdown (m : Manager) (id : SessionId) : Option Ticket × Manager :=
  m.onSession id (·.shutdown)

/-- Shuts a session down, which is not given up. -/
def shutdownSession (m : Manager) (id : SessionId) : Except Failure Unit × Manager :=
  let (ticket, m) := m.beginShutdown id
  let m := m.settle id
  (m.closing id ticket, m)

/-- Gives a session up and shuts it down. -/
def shutdown (m : Manager) (id : SessionId) : Except Failure Unit × Manager :=
  if id ∈ m.live then shutdownSession { m with live := m.live.filter (· ≠ id) } id
  else (.error .sessionClosed, m)

/-- Puts a new session in the place of one. The old one is shut down first. -/
def reset (m : Manager) (id : SessionId) : Except Failure SessionId × Manager :=
  match m.shutdown id with
  | (.error e, m) => (.error e, m)
  | (.ok (), m) => let (id, m) := m.create; (.ok id, m)

/-- Gives all sessions up and shuts them down. -/
def shutdownAll (m : Manager) : List (SessionId × Except Failure Unit) × Manager :=
  m.live.foldl (fun (results, m) id =>
    let (result, m) := m.shutdown id
    (results ++ [(id, result)], m)) ([], m)

/-- The stage of a session. -/
def stage? (m : Manager) (id : SessionId) : Option Stage := m.seats[id]?.map (·.session.stage)

/-- The instance of a name in a session. -/
def named? (m : Manager) (id : SessionId) (name : String) : Option HostObject :=
  m.registry.named? id name

/-- The instance of a kind in a session. -/
def instance? (m : Manager) (id : SessionId) (kind : Kind) : Option HostObject :=
  m.registry.instance? id kind

/-- What has been added in a session by the capability that adds libraries. -/
def added? (m : Manager) (id : SessionId) : Option Added := do
  let object ← m.instance? id .dependencies
  let seat ← m.seats[id]?
  return seat.kernel.host.addedBy object.identity

end Manager

end Notebook

import Notebook.Session.Kernel
import Notebook.Session.Worker

/-!
What clients may ask of a session, and how its worker does it.
-/
namespace Notebook
open Notebook.Text Notebook.Guest Notebook.Capability

/-- What a client asks for. -/
inductive Request
  /-- A text shall be evaluated, after an action of the client that may panic. -/
  | evaluate (before : Except String Unit) (source : List Char)
  | complete (text : List Char) (caret : Nat)
  | documentation (text : List Char) (caret : Nat)
  | highlight (text : List Char)
  | snippet (id : SnippetId)
  | drop (id : SnippetId)
  /-- A capability shall be activated, in whatever mode it is. -/
  | activate (f : Factory)
  /-- A capability shall be activated by its name, with what the catalog has under this name. -/
  | activateNamed (name : String) (found : Option Factory)
  /-- An action of the client, which may panic. -/
  | act (action : Except String Unit)

/-- What a client gets. -/
inductive Response
  | evaluation (r : EvaluationResult)
  | completion (r : CompletionResult)
  | documentation (ds : List Documentation)
  | highlights (hs : List Scan.HighlightSpan)
  | snippet (info : Option SnippetInfo)
  | capability (object : HostObject)
  | none

/-- What the worker of a session does. -/
inductive Job
  /-- It activates a capability that every session has. What comes of it does not matter. -/
  | activateSystem (f : Factory)
  /-- It lets the session be ready. -/
  | becomeReady
  | request (r : Request)

/-- What came of a job. -/
abbrev Reply := Except Failure Response

/-- Runs an action of a client. -/
def runAction (action : Except String Unit) : Task Unit :=
  match action with
  | .ok () => return
  | .error message => throw (.kernelFault message)

/-- Does what a client asks for. -/
def Request.perform (fuel : Nat) : Request → Task Response
  | evaluate before source => do
    runAction before
    return .evaluation (← Kernel.evaluate fuel source)
  | complete text caret => return .completion ((← Kernel.current).complete text caret)
  | documentation text caret => return .documentation ((← Kernel.current).documentation text caret)
  | highlight text => return .highlights (Scan.highlight text)
  | snippet id => return .snippet ((← Kernel.current).store.info? id)
  | drop id => return .evaluation (← Kernel.drop id)
  | activate f => return .capability (← Kernel.activate fuel f)
  | activateNamed name found => return .capability (← Kernel.activateNamed fuel name found)
  | act action => do
    runAction action
    return .none

/-- Does a job, and tells what it does to the stage. -/
def Job.perform (fuel : Nat) (job : Job) (w : Workspace) : (Reply × List Touch) × Workspace :=
  let run (task : Task Response) : (Reply × List Touch) × Workspace :=
    let (reply, w) := StateT.run (ExceptT.run task) { w with evaluations := 0 }
    ((reply, Touch.ofEvaluations w.evaluations), w)
  match job with
  | activateSystem f => run (return .capability (← Kernel.activate fuel f))
  | becomeReady => ((.ok .none, [.becomeReady]), w)
  | request r => run (r.perform fuel)

/-- What the worker of a session does, if engines can be made or not. -/
def duties (starts : Bool) (fuel : Nat) : Duties Workspace Job Reply where
  starts := starts
  perform := Job.perform fuel
  stop := Workspace.stop

end Notebook

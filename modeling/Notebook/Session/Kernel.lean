import Notebook.Guest.Engine
import Notebook.Guest.Assist
import Notebook.Capability.Catalog
import Notebook.Capability.Host
import Notebook.Capability.Registry
import Notebook.Completion
import Notebook.Config
import Notebook.Evaluation
import Notebook.Segment
import Notebook.Session.Lifecycle

/-!
The kernel of a session: the engine, the host that the engine calls, and what the worker of the session
does with them. A text is evaluated unit by unit; what a unit came to is collected before the next one is
looked for.
-/
namespace Notebook
open Notebook.Text Notebook.Guest Notebook.Capability

/-- What belongs to one session. -/
structure Kernel where
  session : SessionId
  config : Config
  store : Store := {}
  host : Host := {}

/-- The instances of all sessions. -/
abbrev Instances := Registry SessionId Kind HostObject

/-- What a session's worker works on: the session's kernel and the instances, which all sessions share. -/
structure Workspace where
  kernel : Kernel
  registry : Instances
  /-- How many evaluations have begun. -/
  evaluations : Nat := 0

/-- Work that may fail. What was done before it failed stays done. -/
abbrev Task (α : Type) := ExceptT Failure (StateM Workspace) α

/-- Takes the frames off the end of a stack that start with a text, and keeps so many of the others. -/
def trimStack (bridge : List Char) (limit : Nat) (stack : List String) : List String :=
  ((stack.reverse.dropWhile fun frame => bridge.isPrefixOf frame.toList).reverse).take limit

/-- An event as it is told. The stack of a fault of a snippet that was just made is trimmed. -/
def SnippetEvent.trimmed (bridge : List Char) (limit : Nat) (e : SnippetEvent) : SnippetEvent :=
  if e.cause.isNone then
    { e with fault := e.fault.map fun f => { f with stack := trimStack bridge limit f.stack } }
  else e

/-- What went wrong with the snippet of an event. -/
def problem? (s : Store) (e : SnippetEvent) : Option Problem :=
  match e.fault with
  | some f => some (.fault f)
  | none =>
    match e.status with
    | .rejected => some (.rejected (s.diagnostics e.snippet))
    | .recoverableDefined | .recoverableUndefined =>
      if !(s.unresolved e.snippet).isEmpty then some (.unresolved (s.unresolved e.snippet))
      else if !(s.diagnostics e.snippet).isEmpty then some (.rejected (s.diagnostics e.snippet))
      else none
    | _ => none

/-- What went wrong with the snippets that were just made. -/
def problemsOf (s : Store) (events : List SnippetEvent) : List SnippetProblem :=
  (events.filter (·.cause.isNone)).filterMap fun e =>
    (problem? s e).map fun problem => ⟨e.snippet, e.source, problem⟩

/-- What is to be shown. -/
def Demand.output? : Demand → Option DisplayOutput
  | .display output => some output
  | .library _ => none

/-- Makes a library importable that is asked for. -/
def meetDemand (s : Store) : Demand → Store
  | .library path => s.addLibrary path
  | .display _ => s

namespace Kernel

/-- What the kernel is in. -/
def current : Task Kernel := return (← get).kernel

/-- Does something to the store. -/
def onStore {α} (f : Store → α × Store) : Task α := do
  let w ← get
  let (a, store) := f w.kernel.store
  set { w with kernel := { w.kernel with store } }
  return a

/-- Does something to the host. -/
def onHost {α} (f : Host → α × Host) : Task α := do
  let w ← get
  let (a, host) := f w.kernel.host
  set { w with kernel := { w.kernel with host } }
  return a

/-- Why work is broken off. -/
def interrupted : Interruption → Failure
  | .panicked message => .kernelFault message
  | .outOfFuel => .unfinished

/-- Lets the engine work. -/
def engine {α} (e : Engine Host α) : Task α := do
  let w ← get
  let (result, store, host) := StateT.run (ExceptT.run e) (w.kernel.store, w.kernel.host)
  set { w with kernel := { w.kernel with store, host } }
  match result with
  | .ok a => return a
  | .error i => throw (interrupted i)

/-- Meets the demands that capabilities have left. What is to be shown comes along. -/
def meetDemands : Task (List DisplayOutput) := do
  let demands ← onHost Host.takeDemands
  onStore fun s => ((), demands.foldl meetDemand s)
  return demands.filterMap Demand.output?

/-- Evaluates a unit and adds what it came to. -/
def evaluateUnit (fuel : Nat) (unit : List Char) (r : EvaluationResult) : Task EvaluationResult := do
  let events ← engine (Engine.evaluate Host.calls fuel unit)
  let k ← current
  let events := events.map (·.trimmed k.config.bridgeFrame k.config.maxStackFrames)
  let problems := problemsOf k.store events
  let shown ← meetDemands
  let printed ← onStore Store.takeOutput
  return { r.absorb events with
    problems := r.problems ++ problems
    displays := r.displays ++ shown
    stdout := r.stdout ++ printed }

/-- Evaluates the units of a text from an offset on and adds what they come to. -/
def evaluateFrom (fuel : Nat) (source : List Char) (start : Nat) (r : EvaluationResult) :
    Task EvaluationResult :=
  match _h : Segment.next Scan.completeness source start with
  | .done => return r
  | .incomplete rest => return { r with incomplete := some rest.text }
  | .unit unit => do
    let r ← evaluateUnit fuel unit.text r
    evaluateFrom fuel source unit.stop r
termination_by width source - start
decreasing_by have := Segment.lt_stop_of_next _h; omega

/-- Evaluates a text. -/
def evaluate (fuel : Nat) (source : List Char) : Task EvaluationResult := do
  modify fun w => { w with evaluations := w.evaluations + 1 }
  let r := (← evaluateFrom fuel source 0 {}).classify
  match r.trailingExpression? with
  | some id => return { r with value := (← current).store.valueOf? id }
  | none => return r

/-- Drops a snippet. It is a success if the snippet was active. -/
def drop (id : SnippetId) : Task EvaluationResult := do
  let events ← onStore fun s => s.drop id
  let dropped := events.head?.any fun e => e.snippet = id && e.status = .dropped
  return { EvaluationResult.absorb {} events with success := dropped }

/-- Makes an instance. -/
def make (f : Factory) : Task HostObject := do
  match f.create with
  | .made typeName methods service => onHost fun h => h.make typeName methods service
  | .failed failure => throw (.activation f.name failure.message)
  | .panicked message => throw (.kernelFault message)

/-- Registers an instance under the name of a capability. The one that is registered afterwards comes
along. -/
def register (f : Factory) (object : HostObject) : Task HostObject := do
  let w ← get
  let (registered, registry) := w.registry.register w.kernel.session f.kind f.name object
  set { w with registry }
  return registered

/-- Gives the guest an instance under a name. If it is no proper name, the instance is not kept. -/
def bind (f : Factory) (name : String) (object : HostObject) : Task Unit := do
  let w ← get
  match w.kernel.store.bindHost name object with
  | .ok store => set { w with kernel := { w.kernel with store } }
  | .error message =>
    set { w with registry := w.registry.remove w.kernel.session f.kind }
    throw (.activation f.name message)

/-- Activates a capability, if the session has no instance of its kind. -/
def activate (fuel : Nat) (f : Factory) : Task HostObject := do
  let w ← get
  match w.registry.instance? w.kernel.session f.kind with
  | some existing => return existing
  | none =>
    let object ← register f (← make f)
    if let some name := f.variableName then bind f name object
    if let some code := f.initialCode then
      let r ← evaluate fuel code
      if !r.success then throw (.activation f.name "init code failed")
    return object

/-- Activates a capability that was asked for by its name. -/
def activateNamed (fuel : Nat) (name : String) (found : Option Factory) : Task HostObject := do
  match found with
  | none => throw (.unknownCapability name)
  | some f =>
    if f.mode = .onDemand then activate fuel f
    else throw (.activation name (f.mode.title ++ " capabilities cannot be activated explicitly"))

/-- Suggestions for a caret. -/
def complete (k : Kernel) (text : List Char) (caret : Nat) : CompletionResult :=
  let caret := floorOffset text caret
  let (suggestions, anchor) := k.store.completions text caret
  .ofSuggestions suggestions anchor caret

/-- What is known about the name at a caret. -/
def documentation (k : Kernel) (text : List Char) (caret : Nat) : List Documentation :=
  k.store.documentation text (floorOffset text caret)

end Kernel

/-- Stops the engine of a session and takes the session's instances out of the registry. -/
def Workspace.stop (w : Workspace) : Workspace :=
  { w with
    kernel := { w.kernel with store := w.kernel.store.stop }
    registry := (w.registry.cleanup w.kernel.session).2 }

end Notebook

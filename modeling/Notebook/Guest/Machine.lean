import Notebook.Guest.Store
import Notebook.Guest.Operation

/-!
The state in which code runs: the frames of the calls that are under way, the local names of the innermost
one, the store of the session, and the state of the host. Leaving early, in whatever way, keeps the state
that has been reached.
-/
namespace Notebook.Guest
open Notebook.Syntax

/-- Frames below the guest's own, innermost first. They mark the side of the host. -/
def bridgeFrames : List String := ["mercury::bridge::invoke", "mercury::bridge::execute"]

/-- The number of frames at which no call is made any more. -/
def frameLimit : Nat := 128

/-- A call that is under way. -/
structure Frame where
  name : String
  id : SnippetId
  deriving DecidableEq, Repr

/-- A frame as it is shown. -/
def Frame.label (f : Frame) : String := f.name ++ " (" ++ f.id.label ++ ")"

/-- The names of a scope and their values. -/
abbrev Scope := Table String Value

/-- The state in which code runs, over a host in a state of type `σ`. Frames and scopes come innermost
first. -/
structure Machine (σ : Type) where
  frames : List Frame
  scopes : List Scope := [[]]
  store : Store
  world : σ

/-- Ways to leave before a value is reached. -/
inductive Exit
  | fault (f : Fault)
  | returned (v : Value)
  | broke
  | continued
  /-- The host failed. -/
  | panicked (message : String)
  /-- The evaluation was given too little fuel. -/
  | outOfFuel

/-- Code that runs: it changes the state and reaches a value or leaves early. -/
abbrev Run (σ : Type) (α : Type) := ExceptT Exit (StateM (Machine σ)) α

/-- Gives the name that has it a new value, if a scope has the name. -/
def Scope.assign? (name : String) (v : Value) : Scope → Option Scope
  | [] => none
  | (n, w) :: rest =>
    if n = name then some ((name, v) :: rest) else (assign? name v rest).map ((n, w) :: ·)

/-- Gives a local name a new value, in the innermost scope that has it. -/
def assignLocal? (name : String) (v : Value) : List Scope → Option (List Scope)
  | [] => none
  | scope :: outer =>
    match scope.assign? name v with
    | some scope => some (scope :: outer)
    | none => (assignLocal? name v outer).map (scope :: ·)

namespace Run

variable {σ : Type}

/-- A fault in the frames that are under way. -/
def fault {α} (cause : FaultCause) : Run σ α := do
  let m ← get
  throw (.fault ⟨cause, m.frames.map Frame.label ++ bridgeFrames⟩)

/-- The result of an operation on values. -/
def ofOutcome {α} : Outcome α → Run σ α
  | .ok a => pure a
  | .error cause => fault cause

/-- The value of a local name. -/
def local? (name : String) : Run σ (Option Value) := do
  return (← get).scopes.findSome? fun scope => scope.get? name

/-- The value of a name. -/
def lookup (name : String) : Run σ Value := do
  match ← local? name with
  | some v => return v
  | none =>
    match (← get).store.read? name with
    | some v => return v
    | none => fault (.undeclared name)

/-- Gives a name a value in the innermost scope. -/
def declare (name : String) (v : Value) : Run σ Unit :=
  modify fun m =>
    match m.scopes with
    | [] => m
    | scope :: outer => { m with scopes := scope.put name v :: outer }

/-- Gives a name that there is a new value. -/
def assign (name : String) (v : Value) : Run σ Unit := do
  let m ← get
  match assignLocal? name v m.scopes with
  | some scopes => set { m with scopes }
  | none =>
    match m.store.write? name v with
    | some store => set { m with store }
    | none => fault (.unassignable name)

/-- Prints a text. -/
def print (text : List Char) : Run σ Unit := modify fun m => { m with store := m.store.print text }

/-- Runs code and then, however it ended, changes the state. -/
def followedBy {α} (r : Run σ α) (f : Machine σ → Machine σ) : Run σ α :=
  ExceptT.mk do
    let a ← r.run
    modify f
    return a

/-- Runs code in a scope of its own, which has some names from the start. -/
def inScope {α} (scope : Scope) (r : Run σ α) : Run σ α := do
  modify fun m => { m with scopes := scope :: m.scopes }
  followedBy r fun m => { m with scopes := m.scopes.tail }

/-- Runs the body of a loop. False if the loop was left. -/
def loopBody (r : Run σ Value) : Run σ Bool :=
  ExceptT.mk do
    match ← r.run with
    | .ok _ | .error .continued => return .ok true
    | .error .broke => return .ok false
    | .error e => return .error e

/-- Runs the body of a function in a frame of its own, which sees none of the caller's local names. -/
def inFrame (frame : Frame) (scope : Scope) (r : Run σ Value) : Run σ Value := do
  let outside ← get
  modify fun m => { m with frames := frame :: m.frames, scopes := [scope] }
  let settled : Run σ Value := ExceptT.mk do
    match ← r.run with
    | .error (.returned v) => return .ok v
    | .error .broke | .error .continued => (fault .jumpOutsideLoop : Run σ Value).run
    | result => return result
  followedBy settled fun m => { m with frames := outside.frames, scopes := outside.scopes }

/-- Calls a method of a host object. -/
def callHost (calls : HostCalls σ) (object : HostObject) (method : String) (args : List Value) :
    Run σ Value := do
  let m ← get
  let (reply, world) := calls.call object method args m.world
  set { m with world }
  match reply with
  | .value v => return v
  | .error message => fault (.host message)
  | .panic message => throw (.panicked message)

end Run

end Notebook.Guest

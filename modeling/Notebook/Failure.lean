/-!
Failures of a session's operations. What goes wrong in submitted code is no failure; that is told in the
result of the evaluation.
-/
namespace Notebook

/-- Why an operation was not done. -/
inductive Failure
  | sessionClosed
  | kernelFault (message : String)
  | activation (capability message : String)
  | unknownCapability (name : String)
  | invalidCoordinate (text : String)
  | resolution (message : String)
  | configuration (message : String)
  /-- An evaluation was given too little fuel to come to its end. -/
  | unfinished
  /-- A text that is no well-formed JSON or has the wrong shape. -/
  | json (message : String)
  deriving DecidableEq, Repr

namespace Failure

def message : Failure → String
  | sessionClosed => "session is closed"
  | kernelFault m => "kernel fault: " ++ m
  | activation c m => "failed to activate capability '" ++ c ++ "': " ++ m
  | unknownCapability n => "unknown capability: " ++ n
  | invalidCoordinate s => "invalid artifact coordinate '" ++ s ++ "' (expected group:artifact:version)"
  | resolution m => "resolution failed: " ++ m
  | configuration m => "configuration error: " ++ m
  | unfinished => "evaluation has not come to an end"
  | json m => "JSON error: " ++ m

/-- Whether the session can do nothing any more. -/
def isClosed : Failure → Bool
  | sessionClosed => true
  | _ => false

/-- What the user may do about it. -/
def hint? : Failure → Option String
  | sessionClosed => some "start a new session"
  | unknownCapability _ => some "available capabilities: display, dependencies"
  | invalidCoordinate _ => some "use the form group:artifact:version"
  | resolution _ => some "check --repository or MERCURY_REPOSITORY"
  | configuration _ | json _ => some "check the file passed to --config"
  | kernelFault _ | activation .. | unfinished => none

/-- The message and, on a line of its own, the hint. -/
def withHint (f : Failure) : String :=
  match f.hint? with
  | some h => f.message ++ "\n  hint: " ++ h
  | none => f.message

end Failure

end Notebook

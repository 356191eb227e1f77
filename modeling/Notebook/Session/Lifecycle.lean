/-!
The stages of a session's life. Clients and the worker of a session share its stage; each looks at it or
changes it in one go.
-/
namespace Notebook

/-- The number of a session. -/
abbrev SessionId := Nat

/-- A stage of a session's life. -/
inductive Stage
  /-- The capabilities that every session has are not active yet. -/
  | created
  | ready
  | evaluating
  | shuttingDown
  | closed
  deriving DecidableEq, Repr

namespace Stage

/-- Whether the session takes no more work. -/
def isClosing : Stage → Bool
  | shuttingDown | closed => true
  | _ => false

/-- Goes on from one stage to another, if it is the one that has been reached. -/
def move (start stop stage : Stage) : Stage := if stage = start then stop else stage

end Stage

/-- What a job does to the stage of its session. -/
inductive Touch
  /-- The capabilities that every session has have been tried. -/
  | becomeReady
  /-- An evaluation begins. -/
  | enter
  /-- An evaluation ends, in whatever way. -/
  | leave
  deriving DecidableEq, Repr

namespace Touch

/-- Does something to the stage. An evaluation only takes back what it has changed itself; `entered` tells
whether it has. -/
def apply (entered : Bool) (stage : Stage) : Touch → Bool × Stage
  | becomeReady => (entered, Stage.move .created .ready stage)
  | enter => (stage = .ready, Stage.move .ready .evaluating stage)
  | leave => (false, if entered then Stage.move .evaluating .ready stage else stage)

/-- What several evaluations do, one after the other. -/
def ofEvaluations : Nat → List Touch
  | 0 => []
  | n + 1 => enter :: leave :: ofEvaluations n

end Touch

end Notebook

import Notebook.Terminal.Options
import Notebook.Terminal.Run
import Notebook.Terminal.Dialogue

/-!
The program: what it prints and how it ends, for a command line and the surroundings that it is started
in.
-/
namespace Notebook.Terminal
open Notebook.Text Notebook.Artifact Notebook.Capability

/-- What the program is started in. -/
structure Surroundings where
  /-- Reads a file. -/
  read : List Char → Except FileProblem (List Char)
  /-- The repository in a directory. -/
  repository : List Char → Repository
  home : List Char
  /-- The repository that the environment names. -/
  environmentRepository : Option (List Char)
  /-- The lines that are typed. -/
  typed : List (List Char)
  /-- How many seconds a run takes, in writing. -/
  seconds : List Char
  /-- What the session is called. -/
  sessionName : List Char
  /-- The fuel of an evaluation. -/
  fuel : Nat

/-- How the program ended. -/
structure Outcome where
  code : Nat := 0
  output : List Char := []
  complaint : List Char := []
  deriving DecidableEq, Repr

/-- Ends the program with a complaint. -/
def Outcome.failed (output message : List Char) (cause : Option String) : Outcome :=
  ⟨1, output, failureText message cause⟩

/-- How the program ends if the command line makes no sense. -/
def misuse : Outcome :=
  ⟨2, [], textLine "error: expected run <SHEET>, repl or capabilities, with their options".toList⟩

/-- The settings that a configuration file, the environment and the command line give together. A later
one of these wins. -/
def configure (o : Options) (read : List Char → Except FileProblem (List Char))
    (environmentRepository : Option (List Char)) : Except Failure Config := do
  let c ← match o.config with
    | some path => Config.load read path
    | none => pure {}
  let c := match environmentRepository with
    | some [] | none => c
    | some directory => { c with repository := some directory }
  let c := match o.repository with
    | some directory => { c with repository := some directory }
    | none => c
  c.validate
  return c

/-- The sessions of the program, with the repository that artifacts are looked for in. -/
def manager (c : Config) (r : Repository) (fuel : Nat) : Manager :=
  { config := c, catalog := Catalog.standard r, fuel }

/-- Evaluates the cells of a sheet, or tells how the program ends without that. What has been printed until an
evaluation fails stays. -/
def evaluateSheet (m : Manager) (sheet : List Char) (text : Except FileProblem (List Char))
    (last : Option (List Char)) (json : Bool) : Except Outcome (List CellReport) :=
  match text with
  | .error problem =>
    .error (.failed [] ("Failed to read sheet ".toList ++ sheet) (some problem.message))
  | .ok text =>
    match cellsUntil (cells text) last with
    | none =>
      .error (.failed [] ("No cell named \x27".toList ++ last.getD [] ++ "\x27 in ".toList ++ sheet) none)
    | some chosen =>
      match runCells m chosen with
      | .error (reports, e) => .error (.failed (progressText sheet json reports) e.withHint.toList none)
      | .ok reports => .ok reports

/-- How the program ends when the cells of a sheet have been evaluated in so many seconds. -/
def sheetOutcome (sheet : List Char) (json : Bool) (reports : List CellReport) (seconds : List Char) :
    Outcome :=
  let output := sheetText sheet json reports seconds
  match sheetComplaint? reports with
  | some complaint => .failed output complaint none
  | none => { output }

/-- Leads a dialogue. -/
def leadDialogue (m : Manager) (sessionName : List Char) (typed : List (List Char)) : Outcome :=
  let (text, failure) := (Dialogue.start m).takeAll typed
  let output := Dialogue.greeting sessionName ++ text
  match failure with
  | some e => .failed output e.withHint.toList none
  | none => { output }

/-- Lists the capabilities of a catalog, and says where artifacts are looked for. -/
def capabilityList (catalog : Catalog) (directory : List Char) : List Char :=
  catalog.names.flatMap (fun entry => textLine (capabilityText entry)) ++
    textLine ("repository: ".toList ++ directory)

/-- Runs the program. -/
def execute (o : Options) (s : Surroundings) : Outcome :=
  match configure o s.read s.environmentRepository with
  | .error e => .failed [] e.withHint.toList none
  | .ok c =>
    let directory := c.repositoryDirectory s.home
    let m := manager c (s.repository directory) s.fuel
    match o.action with
    | .run sheet last json =>
      match evaluateSheet m sheet (s.read sheet) last json with
      | .error outcome => outcome
      | .ok reports => sheetOutcome sheet json reports s.seconds
    | .prompt => leadDialogue m s.sessionName s.typed
    | .capabilities => { output := capabilityList m.catalog directory }

end Notebook.Terminal

import Notebook.Terminal.Program

/-!
The command line: it reads files, the environment and what is typed, and prints what the program answers.
-/
namespace Notebook.Terminal
open Notebook.Text Notebook.Artifact

/-- More than any evaluation uses up. -/
def ampleFuel : Nat := 1 <<< 62

/-- Reads a file. -/
def readFile (path : List Char) : IO (Except FileProblem (List Char)) := do
  try
    return .ok (← IO.FS.readFile (String.ofList path)).toList
  catch
    | .noFileOrDirectory .. => return .error .missing
    | e => return .error (.other (toString e))

/-- Reads what a repository consists of. Only the lists of what artifacts need are read in full. -/
def readRepository (root : List Char) : IO Repository := do
  let directory := (← IO.currentDir) / String.ofList root
  let mut found : Files := []
  if ← directory.isDir then
    for path in ← directory.walkDir do
      if !(← path.isDir) then
        let name := path.toString.toList.drop (directory.toString.length + 1)
        let text ← if path.extension = some "deps" then IO.FS.readFile path else pure ""
        found := (name, text.toList) :: found
  return ⟨root, found⟩

/-- Prints a text at once. -/
def put (text : List Char) : IO Unit := do
  let out ← IO.getStdout
  out.putStr (String.ofList text)
  out.flush

/-- Ends the program as it was found to end. -/
def finish (o : Outcome) : IO UInt32 := do
  put o.output
  (← IO.getStderr).putStr (String.ofList o.complaint)
  return o.code.toUInt32

/-- Leads a dialogue with whoever types. -/
partial def converse (d : Dialogue) : IO UInt32 := do
  put d.prompt
  let line ← (← IO.getStdin).getLine
  match (lines line.toList).head? with
  | none => return 0
  | some line =>
    match d.take line with
    | .error e => finish (.failed [] e.withHint.toList none)
    | .ok (text, next) => do
      put text
      match next with
      | some d => converse d
      | none => return 0

/-- Runs the program in the surroundings that it is started in. -/
def runProgram (o : Options) : IO UInt32 := do
  let home := ((← IO.getEnv "HOME").getD ".").toList
  let named := (← IO.getEnv "MERCURY_REPOSITORY").map (·.toList)
  let settings ← readFile (o.config.getD [])
  match configure o (fun _ => settings) named with
  | .error e => finish (.failed [] e.withHint.toList none)
  | .ok c => do
    let start ← IO.monoMsNow
    let directory := c.repositoryDirectory home
    let m := manager c (← readRepository directory) ampleFuel
    match o.action with
    | .capabilities => finish { output := capabilityList m.catalog directory }
    | .prompt => do
      put (Dialogue.greeting (Dialogue.sessionName (← IO.getRandomBytes 16).toList))
      converse (.start m)
    | .run sheet last json =>
      match evaluateSheet m sheet (← readFile sheet) last json with
      | .error outcome => finish outcome
      | .ok reports => do
        let stop ← IO.monoMsNow
        finish (sheetOutcome sheet json reports (secondsText (stop - start)))

end Notebook.Terminal

/-- The program. -/
def main (args : List String) : IO UInt32 := do
  match Notebook.Terminal.Options.parse (args.map (·.toList)) with
  | some o => Notebook.Terminal.runProgram o
  | none => Notebook.Terminal.finish Notebook.Terminal.misuse

import Notebook.Failure
import Notebook.Files
import Notebook.Json.Reader
import Notebook.Text.Blank

/-!
The configuration that sessions share, and how it is read from JSON: an object with any of the settings,
or a list of the first of them. Settings that are not given have their usual values.
-/
namespace Notebook
open Notebook.Text Notebook.Json

/-- The settings of sessions. -/
structure Config where
  /-- What the names of workers start with. -/
  workerName : List Char := "mercury-session".toList
  /-- What the frames start with that are of no interest to the guest. -/
  bridgeFrame : List Char := "mercury::bridge".toList
  /-- How many frames of a fault are kept. -/
  maxStackFrames : Nat := 16
  /-- Where artifacts are looked for. -/
  repository : Option (List Char) := none
  deriving DecidableEq, Repr

/-- A setting. -/
inductive Setting
  | workerName
  | bridgeFrame
  | maxStackFrames
  | repository
  deriving DecidableEq, Repr

namespace Setting

/-- The settings in the order in which a list gives them. -/
def all : List Setting := [workerName, bridgeFrame, maxStackFrames, repository]

def key : Setting → String
  | workerName => "worker_name_prefix"
  | bridgeFrame => "bridge_frame_prefix"
  | maxStackFrames => "max_stack_frames"
  | repository => "repository"

/-- Takes a string. -/
def readText (expected : String) : Reader (List Char) := do
  match ← peekSolid with
  | none => failAhead .endInValue
  | some '"' => do
    discard next
    string
  | some _ => wrongValue expected

/-- Takes a whole number that is not negative. -/
def readCount : Reader Nat := do
  let expected := "usize"
  let check (n : Number) : Reader Nat := do
    match n with
    | .whole (.ofNat n) => return n
    | .whole _ => fail (.wrong ("invalid value: " ++ n.shown ++ ", expected " ++ expected))
    | .other _ => wrongKind n.shown expected
  match ← peekSolid with
  | none => failAhead .endInValue
  | some '-' => do
    discard next
    check (← number true)
  | some c => if c.isDigit then check (← number false) else wrongValue expected

/-- Takes the value of a setting. -/
def readInto (c : Config) : Setting → Reader Config
  | workerName => return { c with workerName := ← readText "a string" }
  | bridgeFrame => return { c with bridgeFrame := ← readText "a string" }
  | maxStackFrames => return { c with maxStackFrames := ← readCount }
  | repository => do
    match ← peekSolid with
    | some 'n' => do
      discard next
      word "ull".toList
      return { c with repository := none }
    | _ => return { c with repository := some (← readText "path string") }

end Setting

namespace Config

/-- Takes the settings of an object from behind its bracket up to the closing one, in so many steps at
most. Those that were given before may not be given again. -/
def readEntries (c : Config) (given : List Setting) : Nat → Reader Config
  | 0 => fail .endInObject
  | steps + 1 => do
    match ← peekSolid with
    | none => failAhead .endInObject
    | some '\x7d' => return c
    | some '"' => do
      discard next
      let key ← string
      let setting := Setting.all.find? (·.key == String.ofList key)
      if let some s := setting then
        if s ∈ given then
          if (← peekSolid) = some '\x7d' then discard next
          fail (.wrong ("duplicate field `" ++ s.key ++ "`"))
      match ← peekSolid with
      | some ':' => discard next
      | some _ => failAhead .colon
      | none => failAhead .endInObject
      let (c, given) ← do
        match setting with
        | some s => pure (← s.readInto c, s :: given)
        | none => do
          skip
          pure (c, given)
      match ← peekSolid with
      | some '\x7d' => return c
      | some ',' => do
        discard next
        match ← peekSolid with
        | some '\x7d' => failAhead .comma
        | some '"' => readEntries c given steps
        | some _ => failAhead .key
        | none => failAhead .endInValue
      | some _ => failAhead .objectEnd
      | none => failAhead .endInObject
    | some _ => failAhead .key

/-- Takes the settings of a list from behind its bracket on; `first` before the first of them. -/
def readElements (c : Config) (first : Bool) : List Setting → Reader Config
  | [] => return c
  | s :: rest => do
    match ← peekSolid with
    | none => failAhead .endInList
    | some ']' => return c
    | some d =>
      if !first then
        if d ≠ ',' then failAhead .listEnd
        discard next
        match ← peekSolid with
        | some ']' => failAhead .comma
        | some _ => pure ()
        | none => failAhead .endInValue
      let c ← s.readInto c
      readElements c false rest

/-- Takes the end of a list. -/
def readListEnd : Reader Unit := do
  match ← peekSolid with
  | some ']' => discard next
  | some ',' => do
    discard next
    match ← peekSolid with
    | some ']' => failAhead .comma
    | _ => failAhead .trailing
  | some _ => failAhead .trailing
  | none => failAhead .endInList

/-- Takes a configuration and the end of the text. -/
def readWhole : Reader Config := do
  let c ←
    match ← peekSolid with
    | none => failAhead .endInValue
    | some '[' => do
      discard next
      let c ← readElements {} true Setting.all
      readListEnd
      pure c
    | some '\x7b' => do
      discard next
      let c ← readEntries {} [] ((← get).rest.length + 1)
      discard next
      pure c
    | some _ => wrongValue "struct KernelConfig"
  if (← peekSolid).isSome then failAhead .trailing
  return c

/-- Whether the settings make sense. -/
def validate (c : Config) : Except Failure Unit :=
  if (trim c.workerName).isEmpty then .error (.configuration "worker_name_prefix must not be empty")
  else if c.maxStackFrames = 0 then .error (.configuration "max_stack_frames must be at least 1")
  else .ok ()

/-- Reads a configuration. -/
def parse (text : List Char) : Except Failure Config := do
  match readWhole.run { rest := text } with
  | .error e => .error (.json (e.message text))
  | .ok (c, _) =>
    c.validate
    return c

/-- Reads the configuration in a file. -/
def load (read : List Char → Except FileProblem (List Char)) (path : List Char) : Except Failure Config :=
  match read path with
  | .ok text => parse text
  | .error problem =>
    .error (.configuration ("failed to read " ++ String.ofList path ++ ": " ++ problem.message))

/-- The directory in which artifacts are looked for: the one that is set, or the usual one in the user's
home. -/
def repositoryDirectory (c : Config) (home : List Char) : List Char :=
  c.repository.getD (home ++ "/.mercury/repository".toList)

end Config

end Notebook

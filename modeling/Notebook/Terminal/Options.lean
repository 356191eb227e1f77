/-!
The words of the command line.
-/
namespace Notebook.Terminal

/-- What the program is asked to do. -/
inductive Action
  /-- The cells of a sheet are evaluated, up to a certain one if it is named. -/
  | run (sheet : List Char) (last : Option (List Char)) (json : Bool)
  /-- Lines that are typed are evaluated. -/
  | prompt
  | capabilities
  deriving DecidableEq, Repr

/-- What the command line says. -/
structure Options where
  action : Action
  config : Option (List Char) := none
  repository : Option (List Char) := none
  deriving DecidableEq, Repr

/-- What has been read of the command line. -/
structure Words where
  /-- The words that belong to no option. -/
  plain : List (List Char) := []
  config : Option (List Char) := none
  repository : Option (List Char) := none
  last : Option (List Char) := none
  json : Bool := false
  verbose : Bool := false
  deriving DecidableEq, Repr

namespace Words

/-- Takes the value of an option. An option may be given once, and its value is not empty. -/
def takeValue (w : Words) (name : String) (value : List Char) : Option Words :=
  if value.isEmpty then none
  else
    match name with
    | "--config" => if w.config.isNone then some { w with config := some value } else none
    | "--repository" => if w.repository.isNone then some { w with repository := some value } else none
    | "--until" =>
      if w.last.isNone && w.plain.head? = some "run".toList then some { w with last := some value }
      else none
    | _ => none

/-- Takes a switch, which may be given once. -/
def takeSwitch (w : Words) (name : String) : Option Words :=
  match name with
  | "--json" =>
    if !w.json && w.plain.head? = some "run".toList then some { w with json := true } else none
  | "--verbose" | "-v" => if w.verbose then none else some { w with verbose := true }
  | _ => none

/-- Options that have a value. -/
def valued : List String := ["--config", "--repository", "--until"]

/-- Whether a word is none that starts with a hyphen. A lone hyphen is a plain word. -/
def isPlain (word : List Char) : Bool := word.head? ≠ some '-' || word = ['-']

/-- Takes words. -/
def take (w : Words) : List (List Char) → Option Words
  | [] => some w
  | word :: rest =>
    if word = "--".toList then some { w with plain := w.plain ++ rest }
    else if isPlain word then take { w with plain := w.plain ++ [word] } rest
    else if valued.contains (String.ofList word) then
      match rest with
      | [] => none
      | value :: rest =>
        if isPlain value then
          match w.takeValue (String.ofList word) value with
          | some w => take w rest
          | none => none
        else none
    else if word.contains '=' then
      match w.takeValue (String.ofList (word.takeWhile (· ≠ '=')))
          ((word.dropWhile (· ≠ '=')).drop 1) with
      | some w => take w rest
      | none => none
    else
      match w.takeSwitch (String.ofList word) with
      | some w => take w rest
      | none => none

end Words

/-- Reads a command line; nothing if it makes no sense. -/
def Options.parse (args : List (List Char)) : Option Options := do
  let w ← Words.take {} args
  match w.plain with
  | [command, sheet] =>
    if command = "run".toList then some ⟨.run sheet w.last w.json, w.config, w.repository⟩ else none
  | [command] =>
    match String.ofList command with
    | "repl" => some ⟨.prompt, w.config, w.repository⟩
    | "capabilities" => some ⟨.capabilities, w.config, w.repository⟩
    | _ => none
  | _ => none

end Notebook.Terminal

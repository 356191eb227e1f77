import Notebook.Guest.Store
import Notebook.Scan.Lexeme

/-!
Help while code is typed: what may be written at the caret, and what is known about the name there.
-/
namespace Notebook.Guest
open Notebook.Text Notebook.Scan

/-- A macro as help shows it: its signature, what it is for, and the bracket that its arguments open
with. -/
structure MacroHelp where
  kind : MacroKind
  signature : String
  doc : String
  opening : String
  result : Option Ty

/-- The macros in the order in which help lists them. -/
def macroHelp : List MacroHelp := [
  ⟨.println, "println!(fmt, args..)", "Print a formatted line to standard output.", "!(", none⟩,
  ⟨.print, "print!(fmt, args..)", "Print formatted text to standard output.", "!(", none⟩,
  ⟨.format, "format!(fmt, args..) -> String", "Build a string from a template.", "!(", some .str⟩,
  ⟨.vec, "vec![items..] -> Vec", "Build a list.", "![", some .list⟩,
  ⟨.panic, "panic!(fmt, args..)", "Abort the current snippet with a message.", "!(", none⟩,
  ⟨.assert, "assert!(cond, fmt, args..)", "Fail unless the condition holds.", "!(", none⟩]

/-- The word at the end of a text. -/
def lastWord (cs : List Char) : List Char := (cs.reverse.takeWhile isWordChar).reverse

/-- The text before a point that ends it. -/
def beforePoint? (cs : List Char) : Option (List Char) :=
  if cs.getLast? = some '.' then some cs.dropLast else none

/-- The last place at which an element has the property. -/
def lastIndex? {α} (p : α → Bool) (as : List α) : Option Nat :=
  (as.reverse.findIdx? p).map fun i => as.length - 1 - i

/-- The type that a variable is declared with whose initial value comes next. -/
def expectedType? (before : List Char) : Option Ty := do
  let all := (tokens before).filter (·.isSignificant)
  let last ← all.getLast?
  if !last.is "=" then none
  let rest := all.dropLast
  let colon ← lastIndex? (·.is ":") rest
  let start ← lastIndex? (·.is "let") (rest.take colon)
  let between := (rest.take colon).drop (start + 1)
  if between.any fun t => t.kind ≠ .word && t.kind ≠ .keyword then none
  let name ← (rest.drop (colon + 1)).reverse.find? fun t => t.text.head?.any isAlphabetic
  Ty.ofName? (String.ofList name.text)

/-- From behind a caret to the front: the text before the bracket that encloses it. -/
def beforeCall? (depth : Nat) : List Char → Option (List Char)
  | [] => none
  | c :: cs =>
    if c = ')' then beforeCall? (depth + 1) cs
    else if c = '(' then
      match depth with
      | 0 => some cs
      | d + 1 => beforeCall? d cs
    else beforeCall? depth cs

/-- The name at the caret, or else the one of the call whose arguments the caret is in; with the text
before it. -/
def symbolAt? (text : List Char) (caret : Nat) : Option (List Char × List Char) :=
  let before := takeBytes text caret
  let head := lastWord before
  let word := head ++ (dropBytes text caret).takeWhile isWordChar
  if !word.isEmpty then some (before.take (before.length - head.length), word)
  else do
    let callee := trimEnd (← beforeCall? 0 before.reverse).reverse
    let word := lastWord callee
    if word.isEmpty then none else some (callee.take (callee.length - word.length), word)

namespace Store

/-- The type of what stands before a point, as far as its last characters tell. -/
def receiverType (s : Store) (before : List Char) : Ty :=
  let before := trimEnd before
  if before.getLast? = some '"' then .str
  else if before.getLast? = some ']' then .list
  else
    let name := lastWord before
    if name.isEmpty then .unknown
    else if name.all Char.isDigit then .int
    else
      match s.globals (String.ofList name) with
      | some (.variable ty) => ty
      | some (.host typeName _) => .host typeName
      | _ => .unknown

/-- The methods that may be called on a type. A host type has those of the first object of it. -/
def methodNames (s : Store) : Ty → List String
  | .host typeName =>
    match s.hosts.find? fun (_, h) => h.typeName == typeName with
    | some (_, h) => h.methods.map (·.name)
    | none => []
  | ty => ty.methodNames

/-- Whether a snippet is the one that its name stands for. -/
def isCurrent (s : Store) (id : SnippetId) (r : Record) (name : String) : Bool :=
  r.status.isActive && !"use ".toList.isPrefixOf name.toList && s.binding? name == some id

/-- The suggestion that a snippet makes. -/
def snippetSuggestion? (s : Store) (wanted : Ty → Bool) : SnippetId × Record → Option Suggestion
  | (id, r) => do
    let name ← r.name
    if !s.isCurrent id r name then none
    match r.definition with
    | .variable ty _ => some ⟨name, wanted ty⟩
    | .function f => some ⟨name ++ "(", wanted f.result⟩
    | _ => some ⟨name, false⟩

/-- All that can be named: snippets, host objects, built-in functions, macros and keywords. -/
def names (s : Store) (wanted : Ty → Bool) : List Suggestion :=
  s.numbered.filterMap (s.snippetSuggestion? wanted) ++
  s.hosts.map (fun (name, h) => ⟨name, wanted (.host h.typeName)⟩) ++
  Builtin.all.map (fun b => ⟨b.name ++ "(", wanted b.result⟩) ++
  macroHelp.map (fun m => ⟨m.kind.name ++ m.opening, m.result.any wanted⟩) ++
  keywords.map fun k => ⟨k, (k == "true" || k == "false") && wanted .bool⟩

/-- What may be written at a caret, with the offset from which it replaces the text before the caret.
Behind a point that is a method, and else a name. -/
def completions (s : Store) (text : List Char) (caret : Nat) : List Suggestion × Nat :=
  let before := takeBytes text caret
  let typed := lastWord before
  let before := before.take (before.length - typed.length)
  let fits (n : String) : Bool := typed.isPrefixOf n.toList
  let found :=
    match beforePoint? before with
    | some receiver =>
      (s.methodNames (s.receiverType receiver)).filter fits |>.map fun n => ⟨n ++ "(", false⟩
    | none =>
      let expected := expectedType? before
      (s.names fun ty => expected == some ty).filter fun c => fits c.continuation
  (found, width before)

/-- What is known about a method of what stands before a point. -/
def methodDocumentation (s : Store) (before : List Char) (name : String) : List Documentation :=
  match s.receiverType before with
  | .host _ =>
    match s.host? (String.ofList (lastWord (trimEnd before))) with
    | some h => (h.methods.filter (·.name == name)).map fun m => ⟨m.signature, m.doc⟩
    | none => []
  | ty => (ty.methodNames.filter (· == name)).map fun m => ⟨ty.name ++ "::" ++ m, ""⟩

/-- What is known about a host object. -/
def hostDocumentation (name : String) (h : HostObject) : Documentation :=
  ⟨name ++ ": " ++ h.typeName, "\n".intercalate (h.methods.map fun m => m.signature ++ ": " ++ m.doc)⟩

/-- What is known about a name. -/
def nameDocumentation (s : Store) (name : String) : List Documentation :=
  match s.bound? name with
  | some r =>
    match r.definition with
    | .function f => [⟨f.signature, f.doc⟩]
    | .struct signature doc => [⟨signature, doc⟩]
    | .variable ty _ => [⟨"let " ++ name ++ ": " ++ ty.name, ""⟩]
    | .none | .imports => []
  | none =>
    match s.host? name with
    | some h => [hostDocumentation name h]
    | none =>
      match Builtin.find? name with
      | some b => [⟨b.signature, b.doc⟩]
      | none => (macroHelp.filter (·.kind.name == name)).map fun m => ⟨m.signature, m.doc⟩

/-- What is known about the name at a caret. -/
def documentation (s : Store) (text : List Char) (caret : Nat) : List Documentation :=
  match symbolAt? text caret with
  | none => []
  | some (before, word) =>
    match beforePoint? before with
    | some receiver => s.methodDocumentation receiver (String.ofList word)
    | none => s.nameDocumentation (String.ofList word)

end Store

end Notebook.Guest

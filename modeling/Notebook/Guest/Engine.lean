import Notebook.Guest.Binding
import Notebook.Guest.Evaluation
import Notebook.Guest.Slice
import Notebook.Guest.Library
import Notebook.Scan.Nesting
import Notebook.Syntax.Grammar

/-!
Evaluating units. Each statement of a unit becomes a snippet: it is checked, it runs, and it takes its
name. What is refused leaves a rejected snippet and changes nothing else.
-/
namespace Notebook.Guest
open Notebook.Text Notebook.Scan Notebook.Syntax

/-- What breaks an evaluation off. What was done up to then stays done. -/
inductive Interruption
  /-- The host failed. -/
  | panicked (message : String)
  | outOfFuel
  deriving DecidableEq, Repr

/-- Code that works on the store and lets the host be called, with the host in a state of type `σ`. -/
abbrev Engine (σ : Type) (α : Type) := ExceptT Interruption (StateM (Store × σ)) α

/-- A fault as it is told. -/
def Fault.report (f : Fault) : FaultReport := ⟨f.cause.kind.name, f.cause.message, f.stack⟩

/-- The libraries that can always be imported. -/
def standardRoots : List String := ["std", "core", "alloc"]

/-- Whether an expression is evaluated for its value, and not for what it does. -/
def producesValue : Expr → Bool
  | .assign .. | .whileLoop .. | .loop .. | .forLoop .. | .compound .. => false
  | .invocation (.mk name _ _ _ _) _ =>
    match MacroKind.ofName? name with
    | some .format | some .vec => true
    | _ => false
  | _ => true

/-- What a unit that cannot be read was probably meant to be. -/
def guessKind (unit : List Char) : SnippetKind :=
  match (tokens unit).find? (·.isSignificant) with
  | some t =>
    if t.is "use" then .imports
    else if t.isAny ["let", "const", "static", "fn", "struct", "enum", "impl", "trait", "type", "mod",
        "pub", "#"] then .declaration
    else .expression
  | none => .expression

/-- Checks code outside of functions. The names that it uses come along. -/
def checkStrictly {α} (s : Store) (c : CheckContext → Check α) : Except CheckError (α × List String) := do
  let (a, state) ← (c { globals := s.globals }).run {}
  return (a, state.referenced)

/-- The type of a variable: the one that is written with it, or the one of its initial value. -/
def checkInitial (annotated : Option TypeExpr) (value : Expr) (c : CheckContext) : Check Ty := do
  let found ← Check.expr c false value
  match annotated with
  | none => return found
  | some t =>
    let declared ← Check.resolveType c t
    expectType declared found value.span
    return declared

/-- The type of a variable once it has a value. -/
def settledType (ty : Ty) (v : Value) : Ty := if ty = .unknown then Ty.ofValue v else ty

namespace Engine

variable {σ : Type}

/-- Does something to the store. -/
def onStore {α} (f : Store → α × Store) : Engine σ α := do
  let (s, world) ← get
  let (a, s) := f s
  set (s, world)
  return a

/-- Changes the store. -/
def changeStore (f : Store → Store) : Engine σ Unit := onStore fun s => ((), f s)

def store : Engine σ Store := return (← get).1

/-- Keeps code as a rejected snippet. -/
def reject (kind : SnippetKind) (piece : Slice) (e : CheckError) : Engine σ (List SnippetEvent) :=
  onStore fun s => s.reject kind piece.source piece.origin (e.diagnostic piece.origin)

/-- Runs code in a frame. -/
def run (calls : HostCalls σ) (fuel : Nat) (frame : Frame) (e : Expr) : Engine σ (Except Fault Value) := do
  let (s, world) ← get
  let (ending, s, world) := Run.topLevel calls fuel frame e s world
  set (s, world)
  match ending with
  | .value v => return .ok v
  | .fault f => return .error f
  | .panicked message => throw (.panicked message)
  | .outOfFuel => throw .outOfFuel

/-- Declares a variable. One whose initial value could not be had holds the default of its type. -/
def declareVariable (calls : HostCalls σ) (fuel : Nat) (name : String) (annotated : Option TypeExpr)
    (value : Expr) (piece : Slice) : Engine σ (List SnippetEvent) := do
  match checkStrictly (← store) (checkInitial annotated value) with
  | .error e => reject .declaration piece e
  | .ok (ty, refs) =>
    let id ← onStore fun s => s.allocate
      { kind := .declaration, source := piece.source, name := some name, origin := piece.origin }
    let (v, fault) ← do
      match ← run calls fuel ⟨name, id⟩ value with
      | .ok v => pure (v, none)
      | .error f => pure (ty.defaultValue, some f.report)
    changeStore fun s => s.update id fun r =>
      { r with definition := .variable (settledType ty v) v, refs }
    onStore fun s => s.finish id .valid fault true

/-- Declares a function or a struct. -/
def declare (d : Declaration) (piece : Slice) : Engine σ (List SnippetEvent) := do
  match d.analyze (← store).globals with
  | .error e => reject .declaration piece e
  | .ok a =>
    let id ← onStore fun s => s.allocate {
      kind := .declaration, source := piece.source, name := some d.name, origin := piece.origin
      definition := a.definition, refs := a.refs, unresolved := a.unresolved, declaration := some d }
    onStore fun s => s.finish id a.status none true

/-- Imports a name of a library that is there. -/
def importTree (t : ImportTree) (piece : Slice) : Engine σ (List SnippetEvent) := do
  if standardRoots.contains t.root || (← store).libraries.contains t.root then
    let key := "use " ++ String.ofList (compactTokens t.text)
    let id ← onStore fun s => s.allocate {
      kind := .imports, source := piece.source, name := some key, origin := piece.origin
      definition := .imports }
    onStore fun s => s.finish id .valid none true
  else reject .imports piece ⟨.unresolvedImport t.root, t.span⟩

/-- Evaluates an expression. A value gets a name of its own, which is made up. -/
def evaluateExpr (calls : HostCalls σ) (fuel : Nat) (e : Expr) (piece : Slice) :
    Engine σ (List SnippetEvent) := do
  match checkStrictly (← store) fun c => Check.expr c false e with
  | .error error => reject (if producesValue e then .expression else .statement) piece error
  | .ok (ty, refs) =>
    if !producesValue e || ty = .unit then
      let id ← onStore fun s => s.allocate
        { kind := .statement, source := piece.source, name := none, origin := piece.origin }
      let result ← run calls fuel ⟨"<statement>", id⟩ e
      changeStore fun s => s.update id fun r => { r with refs }
      let fault := match result with
        | .ok _ => none
        | .error f => some f.report
      onStore fun s => s.finish id .valid fault false
    else
      let name := "$" ++ String.ofList (Decimal.natText (← store).nextValue)
      changeStore fun s => { s with nextValue := s.nextValue + 1 }
      let id ← onStore fun s => s.allocate
        { kind := .expression, source := piece.source, name := some name, origin := piece.origin }
      match ← run calls fuel ⟨name, id⟩ e with
      | .ok v =>
        changeStore fun s => s.update id fun r =>
          { r with definition := .variable (settledType ty v) v, refs }
        onStore fun s => s.finish id .valid none true
      | .error f => onStore fun s => s.finish id .valid (some f.report) false

/-- Evaluates a statement. -/
def evaluateStmt (calls : HostCalls σ) (fuel : Nat) (stmt : Stmt) (piece : Slice) :
    Engine σ (List SnippetEvent) :=
  match stmt with
  | .bind p value keyword _ =>
    match bindingOf p, value with
    | .error e, _ => reject .declaration piece e
    | .ok _, none => reject .declaration piece ⟨.uninitialized, keyword⟩
    | .ok (name, annotated), some e => declareVariable calls fuel name annotated e piece
  | .item (.constant name type value) _ => declareVariable calls fuel name (some type) value piece
  | .item (.function h body) _ => declare (.function h body) piece
  | .item (.struct d) _ => declare (.struct d) piece
  | .item (.imports t) _ => importTree t piece
  | .item .other span => reject .declaration piece ⟨.unsupportedItem, span⟩
  | .expr e _ _ => evaluateExpr calls fuel e piece

/-- Evaluates statements one after the other. -/
def evaluateStmts (calls : HostCalls σ) (fuel : Nat) :
    List (Stmt × Slice) → Engine σ (List SnippetEvent)
  | [] => return []
  | (stmt, piece) :: rest => do
    let events ← evaluateStmt calls fuel stmt piece
    let more ← evaluateStmts calls fuel rest
    return events ++ more

/-- Evaluates a unit. One that is nested too deeply or that cannot be read is rejected as a whole. -/
def evaluate (calls : HostCalls σ) (fuel : Nat) (unit : List Char) : Engine σ (List SnippetEvent) := do
  if (← store).stopped then return []
  match nestingOverflow? unit nestingLimit with
  | some t =>
    let span : Span := ⟨positionOf unit t.start, positionOf unit t.stop⟩
    reject (guessKind unit) (.whole unit) ⟨.tooDeep nestingLimit, span⟩
  | none =>
    match parseUnit unit with
    | .error e => reject (guessKind unit) (.whole unit) ⟨.parse e.problem, e.span⟩
    | .ok stmts => evaluateStmts calls fuel (stmts.zip (Slice.ofStmts unit stmts))

end Engine

namespace Store

/-- Whether a name can be given to a host object. -/
def isHostName (name : String) : Bool :=
  match name.toList with
  | [] => false
  | c :: cs => (isAlphabetic c || c = '_') && (c :: cs).all isWordChar && !isKeyword (c :: cs)

/-- Puts a host object under a name, if the name is a proper one. -/
def bindHost (s : Store) (name : String) (object : HostObject) : Except String Store :=
  if isHostName name then .ok { s with hosts := putOrdered name object s.hosts }
  else .error (ticked name ++ " is not a valid identifier")

/-- Makes the library in a file importable. -/
def addLibrary (s : Store) (path : List Char) : Store :=
  match libraryName? path with
  | some name => { s with libraries := insertNew name s.libraries }
  | none => s

end Store

end Notebook.Guest

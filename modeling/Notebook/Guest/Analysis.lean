import Notebook.Guest.Store
import Notebook.Text.Replace

/-!
What a declared function or struct means among the names of the session: its definition, and the names
that it waits for. A function that waits is defined, a struct that waits is not.
-/
namespace Notebook.Guest
open Notebook.Text Notebook.Syntax

/-- A declaration as understood among the names of a session. -/
structure Analysis where
  definition : Definition
  status : Status
  unresolved : List String := []
  refs : List String := []

/-- Names that a declaration mentions, gathered on the way. -/
structure Mentions where
  missing : List String := []
  refs : List String := []

/-- Takes the blanks between tokens out where they are not usual. -/
def compactTokens (cs : List Char) : List Char :=
  [(" :: ", "::"), (":: ", "::"), (" <", "<"), ("< ", "<"), (" >", ">"), (" ,", ","), ("& ", "&"),
    ("\x7b ", "\x7b"), (" \x7d", "\x7d")].foldl (fun cs (part, new) => replaceAll part.toList new.toList cs) cs

/-- A written type as a signature shows it. -/
def shownType (t : TypeExpr) : String := String.ofList (compactTokens t.text)

/-- The type of a parameter, a result or a field. A name that is no struct yet is missing. -/
def declaredType (g : Globals) (t : TypeExpr) : StateT Mentions (Except CheckError) Ty := do
  match Ty.read t.form with
  | .known ty => return ty
  | .unsupported => throw ⟨.unsupportedType, t.span⟩
  | .named name =>
    modify fun m => { m with refs := insertNew name m.refs }
    match g name with
    | some .struct => return .struct name
    | _ =>
      modify fun m => { m with missing := insertOrdered name m.missing }
      return .unknown

/-- The parameters of a function, and how its signature shows them. -/
def declaredParams (g : Globals) :
    List Param → StateT Mentions (Except CheckError) (List (String × Ty) × List String)
  | [] => return ([], [])
  | .receiver span :: _ => throw ⟨.selfParameter, span⟩
  | .typed p t :: rest => do
    let (name, _) ← bindingOf p
    let ty ← declaredType g t
    let (params, shown) ← declaredParams g rest
    return ((name, ty) :: params, (name ++ ": " ++ shownType t) :: shown)

/-- The result of a function, and how its signature shows it. -/
def declaredResult (g : Globals) :
    Option TypeExpr → StateT Mentions (Except CheckError) (Ty × Option String)
  | none => return (.unit, none)
  | some t => do
    let ty ← declaredType g t
    return (ty, some (shownType t))

/-- Whether the last statement of a body is an expression that nothing ends. -/
def endsInValue (ss : List Stmt) : Bool :=
  match ss.getLast? with
  | some (.expr _ ended _) => !ended
  | _ => false

/-- Checks a function's body. Its value has to have the type of the result, unless the body ends in a
statement and there is a result to be returned. -/
def checkBody (g : Globals) (own : FnType) (params : List (String × Ty)) (body : Block) :
    Except CheckError CheckState := do
  let check : Check Unit := do
    params.forM fun (name, ty) => Check.declare name ty
    let found ← Check.block { globals := g, own := some own } false body
    if endsInValue body.stmts || own.result = .unit then
      expectType own.result found ((body.stmts.getLast?.map Stmt.span).getD body.span)
  return (← check.run {}).2

/-- Understands a function. -/
def analyzeFunction (g : Globals) (h : FnHeader) (body : Block) : Except CheckError Analysis := do
  if let some span := h.generics then throw ⟨.genericFunction, span⟩
  let declared := do
    let (params, shown) ← declaredParams g h.params
    let (result, resultShown) ← declaredResult g h.result
    return (params, shown, result, resultShown)
  let ((params, shown, result, resultShown), mentions) ← declared.run {}
  let state ← checkBody g ⟨h.name, params.map (·.2), result⟩ params body
  let missing := state.missing.foldl (fun names n => insertOrdered n names) mentions.missing
  let refs := (state.referenced ++ missing).foldl (fun names n => insertNew n names) mentions.refs
  let arrow := match resultShown with
    | some s => " -> " ++ s
    | none => ""
  let f : Function := {
    name := h.name, params, result, body
    signature := "fn " ++ h.name ++ "(" ++ ", ".intercalate shown ++ ")" ++ arrow
    doc := String.ofList h.doc }
  return {
    definition := .function f
    status := if missing.isEmpty then .valid else .recoverableDefined
    unresolved := missing, refs }

/-- The fields of a struct as its signature shows them; a field without a name has its number. -/
def declaredFields (g : Globals) : Nat → List Field → StateT Mentions (Except CheckError) (List String)
  | _, [] => return []
  | i, f :: rest => do
    discard (declaredType g f.type)
    let label := f.label.getD (String.ofList (Decimal.natText i))
    let shown ← declaredFields g (i + 1) rest
    return (label ++ ": " ++ shownType f.type) :: shown

/-- Understands a struct. -/
def analyzeStruct (g : Globals) (d : StructDecl) : Except CheckError Analysis := do
  if let some span := d.generics then throw ⟨.genericStruct, span⟩
  let (shown, mentions) ← (declaredFields g 0 d.fields).run {}
  let fields := if shown.isEmpty then "" else " \x7b " ++ ", ".intercalate shown ++ " \x7d"
  return {
    definition := .struct ("struct " ++ d.name ++ fields) (String.ofList d.doc)
    status := if mentions.missing.isEmpty then .valid else .recoverableUndefined
    unresolved := mentions.missing, refs := mentions.refs }

namespace Declaration

/-- Understands a declaration. -/
def analyze (g : Globals) : Declaration → Except CheckError Analysis
  | function h body => analyzeFunction g h body
  | struct d => analyzeStruct g d

/-- The name that is declared. -/
def name : Declaration → String
  | function h _ => h.name
  | struct d => d.name

/-- The status of a declaration that was understood once and is not any more. -/
def failedStatus : Declaration → Status
  | function .. => .recoverableDefined
  | struct _ => .recoverableUndefined

end Declaration

end Notebook.Guest

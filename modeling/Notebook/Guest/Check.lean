import Notebook.Guest.Ty
import Notebook.Guest.Template

/-!
Static checks: names are resolved and types are compared before anything runs. Code outside of functions
is checked strictly; in a function a name that does not exist yet is remembered as missing instead.
-/
namespace Notebook.Guest
open Notebook.Text Notebook.Syntax

/-- What a name of the session stands for, as far as a check can see. -/
inductive GlobalKind
  | variable (ty : Ty)
  | function (params : List Ty) (result : Ty)
  | struct
  | host (typeName : String) (methods : List MethodDoc)
  deriving DecidableEq, Repr

/-- The names of the session. -/
abbrev Globals := String → Option GlobalKind

/-- What is wrong with a piece of code. -/
inductive Objection
  | parse (problem : Syntax.Problem)
  | tooDeep (limit : Nat)
  | uninitialized
  | pattern
  | unsupportedItem
  | unsupportedType
  | unsupportedLiteral
  | unsupportedExpression
  | genericFunction
  | genericStruct
  | selfParameter
  | nestedItem
  | unresolvedImport (root : String)
  | qualifiedPath
  | notFound (what name : String)
  | functionValue (name : String)
  | structValue (name : String)
  | unary (ty : Ty)
  | binary (op : BinaryOp) (left right : Ty)
  | mismatch (expected found : Ty)
  | notPlace
  | notAssignable (name : String)
  | notNamedCallee
  | notFunction (name : String)
  | argumentCount (name : String) (expected found : Nat)
  | noHostMethod (method typeName : String)
  | noMethod (method : String) (count : Nat) (ty : Ty)
  | branches (yes no : Ty)
  | cast (source target : Ty)
  | jumpOutsideLoop
  | returnOutsideFunction
  | unknownMacro
  | assertWithoutCondition
  | templateNotLiteral
  | template (error : TemplateError)
  | templateCount (places given : Nat)
  deriving DecidableEq, Repr

/-- A name between back quotes. -/
def ticked (s : String) : String := "`" ++ s ++ "`"

/-- The wording of an objection. -/
def Objection.message : Objection → String
  | parse p => p.message
  | tooDeep limit => "expression nested too deeply (more than " ++ toString limit ++ " levels)"
  | uninitialized => "`let` without an initializer is not supported"
  | pattern => "only simple identifier patterns are supported"
  | unsupportedItem => "unsupported item"
  | unsupportedType => "unsupported type"
  | unsupportedLiteral => "unsupported literal"
  | unsupportedExpression => "unsupported expression"
  | genericFunction => "generic functions are not supported"
  | genericStruct => "generic structs are not supported"
  | selfParameter => "`self` parameters are not supported"
  | nestedItem => "nested items are not supported"
  | unresolvedImport root => "unresolved import " ++ ticked root
  | qualifiedPath => "qualified paths are not supported"
  | notFound what name => "cannot find " ++ what ++ " " ++ ticked name ++ " in this scope"
  | functionValue name => "function " ++ ticked name ++ " cannot be used as a value"
  | structValue name => "struct " ++ ticked name ++ " cannot be used as a value"
  | unary ty => "cannot apply unary operator to " ++ ticked ty.name
  | binary op left right =>
    "cannot apply " ++ ticked op.symbol ++ " to " ++ ticked left.name ++ " and " ++ ticked right.name
  | mismatch expected found =>
    "mismatched types: expected " ++ ticked expected.name ++ ", found " ++ ticked found.name
  | notPlace => "only variables can be assigned"
  | notAssignable name => "cannot assign to " ++ ticked name
  | notNamedCallee => "only named functions can be called"
  | notFunction name => ticked name ++ " is not a function"
  | argumentCount name expected found =>
    "function " ++ ticked name ++ " takes " ++ toString expected ++ " argument(s) but " ++
      toString found ++ " were supplied"
  | noHostMethod method typeName =>
    "no method named " ++ ticked method ++ " found for " ++ ticked typeName
  | noMethod method count ty =>
    "no method named " ++ ticked method ++ " taking " ++ toString count ++ " argument(s) found for " ++
      ticked ty.name
  | branches yes no =>
    "`if` and `else` have incompatible types " ++ ticked yes.name ++ " and " ++ ticked no.name
  | cast source target => "cannot cast " ++ ticked source.name ++ " as " ++ ticked target.name
  | jumpOutsideLoop => "`break` and `continue` are only allowed inside loops"
  | returnOutsideFunction => "`return` is only allowed inside functions"
  | unknownMacro => "unknown macro"
  | assertWithoutCondition => "`assert!` requires a condition"
  | templateNotLiteral => "format argument must be a string literal"
  | template error => error.message
  | templateCount places given =>
    toString places ++ " positional argument(s) in format string, but " ++ toString given ++
      " supplied"

/-- An objection and where it applies. -/
structure CheckError where
  objection : Objection
  span : Span
  deriving DecidableEq, Repr

/-- A function's name and its types. -/
structure FnType where
  name : String
  params : List Ty
  result : Ty
  deriving DecidableEq, Repr

/-- Where code is checked: among which names, and in which function if any. Inside a function the check
is lenient. -/
structure CheckContext where
  globals : Globals
  own : Option FnType := none

namespace CheckContext

def lenient (c : CheckContext) : Bool := c.own.isSome

end CheckContext

/-- What a check gathers: the local names, innermost scope first, the names of the session that were
used, and the missing ones in order. -/
structure CheckState where
  scopes : List (List (String × Ty)) := [[]]
  referenced : List String := []
  missing : List String := []

/-- A check. -/
abbrev Check := StateT CheckState (Except CheckError)

/-- Adds to a list what it does not hold. -/
def insertNew (s : String) (ss : List String) : List String := if ss.contains s then ss else s :: ss

/-- Adds to an ordered list what it does not hold. -/
def insertOrdered (s : String) : List String → List String
  | [] => [s]
  | t :: ts => if s < t then s :: t :: ts else if s = t then t :: ts else t :: insertOrdered s ts

/-- The name that a pattern binds and the type written with it. -/
def bindingOf : Pattern → Except CheckError (String × Option TypeExpr)
  | .name n => .ok (n, none)
  | .typed p t =>
    match bindingOf p with
    | .ok (n, _) => .ok (n, some t)
    | .error e => .error e
  | .other s => .error ⟨.pattern, s⟩

/-- Fails unless the types are compatible. -/
def expectType (expected found : Ty) (span : Span) : Except CheckError Unit :=
  if expected.compatible found then .ok () else .error ⟨.mismatch expected found, span⟩

namespace Check

/-- Fails with an objection. -/
def fail {α} (o : Objection) (span : Span) : Check α := throw ⟨o, span⟩

/-- The type of a local name, of the innermost scope that has it. -/
def local? (name : String) : Check (Option Ty) := do
  return (← get).scopes.findSome? fun scope => scope.lookup name

/-- Gives a name a type in the innermost scope. -/
def declare (name : String) (ty : Ty) : Check Unit :=
  modify fun s =>
    match s.scopes with
    | [] => s
    | scope :: outer => { s with scopes := ((name, ty) :: scope) :: outer }

/-- Checks in a new scope. -/
def inScope {α} (c : Check α) : Check α := do
  modify fun s => { s with scopes := [] :: s.scopes }
  let a ← c
  modify fun s => { s with scopes := s.scopes.tail }
  return a

/-- Remembers that a name of the session was used. -/
def refer (name : String) : Check Unit :=
  modify fun s => { s with referenced := insertNew name s.referenced }

/-- Remembers that a name is missing. -/
def miss (name : String) : Check Unit :=
  modify fun s => { s with missing := insertOrdered name s.missing }

/-- A name that stands for nothing. -/
def unknownName (c : CheckContext) (name : String) (span : Span) (what : String) : Check Ty := do
  if c.lenient then
    miss name
    return .unknown
  else fail (.notFound what name) span

/-- The type that a written type stands for. -/
def resolveType (c : CheckContext) (t : TypeExpr) : Check Ty := do
  match Ty.read t.form with
  | .known ty => return ty
  | .unsupported => fail .unsupportedType t.span
  | .named name =>
    match c.globals name with
    | some .struct =>
      refer name
      return .struct name
    | _ =>
      if c.lenient then
        miss name
        return .unknown
      else fail (.notFound "type" name) t.span

/-- The type of a literal. -/
def literal (l : Literal) (span : Span) : Check Ty :=
  match l with
  | .integer _ suffix => return if suffix = "f32" || suffix = "f64" then .float else .int
  | .decimal _ => return .float
  | .text _ => return .str
  | .truth _ => return .bool
  | .other => fail .unsupportedLiteral span

/-- The type of a name that stands for a value. -/
def name (c : CheckContext) (i : Ident) : Check Ty := do
  if let some ty ← local? i.name then return ty
  match c.globals i.name with
  | some (.variable ty) =>
    refer i.name
    return ty
  | some (.host typeName _) =>
    refer i.name
    return .host typeName
  | some (.function ..) => fail (.functionValue i.name) i.span
  | some .struct => fail (.structValue i.name) i.span
  | none => unknownName c i.name i.span "value"

/-- The type of what is assigned to. -/
def place (c : CheckContext) (e : Expr) : Check Ty := do
  match e with
  | .name i _ =>
    if let some ty ← local? i.name then return ty
    match c.globals i.name with
    | some (.variable ty) =>
      refer i.name
      return ty
    | some _ => fail (.notAssignable i.name) i.span
    | none => unknownName c i.name i.span "value"
  | _ => fail .notPlace e.span

/-- The type of an operator applied to an operand. -/
def unary (op : UnaryOp) (ty : Ty) (span : Span) : Check Ty :=
  let ok : Bool := match op with
    | .neg => [Ty.int, .float, .unknown].contains ty
    | .not => [Ty.bool, .int, .unknown].contains ty
    | .deref => true
  if ok then return ty else fail (.unary ty) span

/-- The type of an operator between two operands. -/
def binary (op : BinaryOp) (left right : Ty) (span : Span) : Check Ty :=
  match Ty.binary? op left right with
  | some ty => return ty
  | none => fail (.binary op left right) span

/-- The types of a function that is called by name; nothing if the name is missing and may be. -/
def callee (c : CheckContext) (i : Ident) : Check (Option (List Ty × Ty)) := do
  let isLocal := (← local? i.name).isSome
  if let some own := c.own then
    if own.name = i.name && !isLocal then return some (own.params, own.result)
  if isLocal then fail (.notFunction i.name) i.span
  match c.globals i.name with
  | some (.function params result) =>
    refer i.name
    return some (params, result)
  | some _ => fail (.notFunction i.name) i.span
  | none =>
    match Builtin.find? i.name with
    | some b => return some (b.params, b.result)
    | none =>
      discard (unknownName c i.name i.span "function")
      return none

/-- Compares the types of arguments with those of parameters. -/
def argumentTypes : List Ty → List (Ty × Span) → Except CheckError Unit
  | p :: ps, (a, span) :: as => do
    expectType p a span
    argumentTypes ps as
  | _, _ => .ok ()

/-- The type of a call whose arguments have been checked. -/
def call (c : CheckContext) (f : Expr) (args : List (Ty × Span)) (span : Span) : Check Ty := do
  match f with
  | .name i _ =>
    match ← callee c i with
    | none => return .unknown
    | some (params, result) =>
      if params.length ≠ args.length then
        fail (.argumentCount i.name params.length args.length) span
      argumentTypes params args
      return result
  | .path s => fail .qualifiedPath s
  | _ => fail .notNamedCallee f.span

/-- The methods of the host object that an expression names. -/
def hostMethods? (c : CheckContext) (receiver : Expr) : Check (Option (List MethodDoc)) := do
  match receiver with
  | .name i _ =>
    if (← local? i.name).isSome then return none
    match c.globals i.name with
    | some (.host _ methods) => return some methods
    | _ => return none
  | _ => return none

/-- The type of a method call whose receiver and arguments have been checked. -/
def method (c : CheckContext) (receiver : Expr) (ty : Ty) (m : Ident) (count : Nat) : Check Ty := do
  match ty with
  | .host typeName =>
    match ← hostMethods? c receiver with
    | some methods =>
      if !methods.isEmpty && !methods.any (·.name == m.name) then
        fail (.noHostMethod m.name typeName) m.span
      else return .unknown
    | none => return .unknown
  | _ =>
    match ty.method? m.name count with
    | some result => return result
    | none => fail (.noMethod m.name count ty) m.span

/-- Checks the names in a template and counts its other places. -/
def templatePieces (c : CheckContext) (span : Span) : List TemplatePiece → Check Nat
  | [] => return 0
  | .literal _ :: ps => templatePieces c span ps
  | .next _ :: ps => return (← templatePieces c span ps) + 1
  | .named cs _ :: ps => do
    let n := String.ofList cs
    if (← local? n).isNone then
      match c.globals n with
      | some (.variable _) | some (.host ..) => refer n
      | _ => discard (unknownName c n span "value")
    templatePieces c span ps

/-- Checks a template against the number of values given. -/
def template (c : CheckContext) (t : Expr) (given : Nat) : Check Unit := do
  match t with
  | .literal (.text cs) span =>
    match parseTemplate cs with
    | .error e => fail (.template e) span
    | .ok pieces =>
      let places ← templatePieces c span pieces
      if places ≠ given then fail (.templateCount places given) span
  | _ => fail .templateNotLiteral t.span

/-- The type of a cast. -/
def cast (source target : Ty) (span : Span) : Check Ty :=
  let numeric (t : Ty) : Bool := t = .int || t = .float || t = .unknown
  if numeric source && numeric target then return target else fail (.cast source target) span

mutual

/-- The type of an expression. -/
def expr (c : CheckContext) (inLoop : Bool) : Expr → Check Ty
  | .literal l s => literal l s
  | .name i _ => name c i
  | .path s => fail .qualifiedPath s
  | .paren e _ => expr c inLoop e
  | .reference e _ => expr c inLoop e
  | .unary op e s => do unary op (← expr c inLoop e) s
  | .binary op l r s => do
    let left ← expr c inLoop l
    let right ← expr c inLoop r
    binary op left right s
  | .compound op l r s => do
    discard (place c l)
    let left ← expr c inLoop l
    let right ← expr c inLoop r
    discard (binary op left right s)
    return .unit
  | .assign l r _ => do
    let target ← place c l
    let value ← expr c inLoop r
    expectType target value r.span
    return .unit
  | .call f args s => do
    let types ← exprs c inLoop args
    call c f types s
  | .method receiver m args _ => do
    let ty ← expr c inLoop receiver
    let types ← exprs c inLoop args
    method c receiver ty m types.length
  | .invocation m _ => invocation c inLoop m
  | .ifThen cond yes no _ => do
    let ty ← expr c inLoop cond
    expectType .bool ty cond.span
    let yesTy ← block c inLoop yes
    match ← optional c inLoop no with
    | some (noTy, noSpan) =>
      if !yesTy.compatible noTy then fail (.branches yesTy noTy) noSpan
      return if yesTy.isKnown then yesTy else noTy
    | none => return .unit
  | .block b _ => block c inLoop b
  | .whileLoop cond body _ => do
    let ty ← expr c inLoop cond
    expectType .bool ty cond.span
    discard (block c true body)
    return .unit
  | .loop body _ => do
    discard (block c true body)
    return .unit
  | .forLoop p (.range first last _ _) body _ => do
    let (n, _) ← bindingOf p
    bound c inLoop first
    bound c inLoop last
    inScope do
      declare n .int
      discard (block c true body)
    return .unit
  | .forLoop p items body _ => do
    let (n, _) ← bindingOf p
    let ty ← expr c inLoop items
    expectType .list ty items.span
    inScope do
      declare n .unknown
      discard (block c true body)
    return .unit
  | .breakLoop hasValue s =>
    if inLoop && !hasValue then return .unit else fail .jumpOutsideLoop s
  | .continueLoop s => if inLoop then return .unit else fail .jumpOutsideLoop s
  | .returnFn value s => do
    if !c.lenient then fail .returnOutsideFunction s
    discard (optional c inLoop value)
    return .unknown
  | .array items _ => do
    discard (exprs c inLoop items)
    return .list
  | .index target position _ => do
    let ty ← expr c inLoop target
    expectType .list ty target.span
    let positionTy ← expr c inLoop position
    expectType .int positionTy position.span
    return .unknown
  | .cast e t s => do
    let source ← expr c inLoop e
    let target ← resolveType c t
    cast source target s
  | .range _ _ _ s => fail .unsupportedExpression s
  | .other _ s => fail .unsupportedExpression s

/-- The type of an expression that may be absent, with its place. -/
def optional (c : CheckContext) (inLoop : Bool) : Option Expr → Check (Option (Ty × Span))
  | none => return none
  | some e => do
    let ty ← expr c inLoop e
    return some (ty, e.span)

/-- Checks the bound of a range, which is a whole number if it is there. -/
def bound (c : CheckContext) (inLoop : Bool) : Option Expr → Check Unit
  | none => return ()
  | some e => do
    let ty ← expr c inLoop e
    expectType .int ty e.span

/-- The types of several expressions, with their places. -/
def exprs (c : CheckContext) (inLoop : Bool) : List Expr → Check (List (Ty × Span))
  | [] => return []
  | e :: es => do
    let ty ← expr c inLoop e
    return (ty, e.span) :: (← exprs c inLoop es)

/-- The type of a macro call. -/
def invocation (c : CheckContext) (inLoop : Bool) : MacroCall → Check Ty
  | .mk macroName nameSpan args _ span => do
    match MacroKind.ofName? macroName with
    | none => fail .unknownMacro nameSpan
    | some kind => invocationArgs c inLoop kind span args

/-- The type of a macro call with its arguments. -/
def invocationArgs (c : CheckContext) (inLoop : Bool) (kind : MacroKind) (span : Span) :
    MacroArgs → Check Ty
  | .malformed e => fail (.parse e.problem) e.span
  | .items [] _ =>
    match kind with
    | .vec => return .list
    | .assert => fail .assertWithoutCondition span
    | .format => return .str
    | .panic => return .unknown
    | .println | .print => return .unit
  | .items (e :: es) _ => do
    match kind with
    | .vec =>
      discard (expr c inLoop e)
      discard (exprs c inLoop es)
      return .list
    | .assert =>
      let ty ← expr c inLoop e
      expectType .bool ty e.span
      discard (exprs c inLoop es)
      return .unit
    | .format =>
      template c e es.length
      discard (exprs c inLoop es)
      return .str
    | .panic =>
      template c e es.length
      discard (exprs c inLoop es)
      return .unknown
    | .println | .print =>
      template c e es.length
      discard (exprs c inLoop es)
      return .unit

/-- The type of a block, in a scope of its own. -/
def block (c : CheckContext) (inLoop : Bool) : Block → Check Ty
  | .mk ss _ => inScope (stmts c inLoop ss)

/-- The type of the last of several statements. -/
def stmts (c : CheckContext) (inLoop : Bool) : List Stmt → Check Ty
  | [] => return .unit
  | [s] => stmt c inLoop s
  | s :: t :: ss => do
    discard (stmt c inLoop s)
    stmts c inLoop (t :: ss)

/-- The type that a statement leaves if it is the last one. -/
def stmt (c : CheckContext) (inLoop : Bool) : Stmt → Check Ty
  | .bind p value _ span => do
    let (n, annotated) ← bindingOf p
    match value with
    | none => fail .uninitialized span
    | some e =>
      let found ← expr c inLoop e
      match annotated with
      | some t =>
        let declared ← resolveType c t
        expectType declared found e.span
        declare n declared
      | none => declare n found
      return .unit
  | .expr e ended _ => do
    let ty ← expr c inLoop e
    return if ended then .unit else ty
  | .item _ span => fail .nestedItem span

end

end Check

end Notebook.Guest

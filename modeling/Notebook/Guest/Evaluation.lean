import Notebook.Guest.Machine

/-!
The meaning of expressions. An expression is evaluated by one step that leaves its parts to the evaluation
of the next smaller fuel; a loop that knows no number of rounds takes at most as many as there is fuel.
-/
namespace Notebook.Guest
open Notebook.Syntax

namespace Run

variable {σ : Type}

/-- How the parts of an expression are evaluated. -/
abbrev Evaluator (σ : Type) := Expr → Run σ Value

/-- Evaluates expressions from left to right. -/
def values (eval : Evaluator σ) : List Expr → Run σ (List Value)
  | [] => return []
  | e :: es => do
    let v ← eval e
    let vs ← values eval es
    return v :: vs

/-- Evaluates a condition. -/
def truth (eval : Evaluator σ) (e : Expr) : Run σ Bool := do
  match ← eval e with
  | .bool b => return b
  | v => fault (.expected .bool (Ty.ofValue v))

/-- Evaluates a whole number. -/
def whole (eval : Evaluator σ) (e : Expr) : Run σ Int64 := do
  match ← eval e with
  | .int n => return n
  | v => fault (.expected .int (Ty.ofValue v))

/-- Gives what stands on the left of an assignment a value. -/
def assignTo (target : Expr) (v : Value) : Run σ Unit :=
  match target with
  | .name i _ => assign i.name v
  | _ => fault .notPlace

/-- The name that a pattern binds. -/
def bindingName (p : Pattern) : Run σ String :=
  match bindingOf p with
  | .ok (n, _) => return n
  | .error _ => fault .pattern

/-- Runs a statement. Its value counts if it is the last one and nothing ends it. -/
def stmt (eval : Evaluator σ) : Stmt → Run σ Value
  | .bind p value _ _ => do
    let n ← bindingName p
    match value with
    | none => fault .uninitialized
    | some e =>
      declare n (← eval e)
      return .unit
  | .expr e ended _ => do
    let v ← eval e
    return if ended then .unit else v
  | .item _ _ => fault .nestedItem

/-- Runs statements; the value is that of the last one. -/
def stmts (eval : Evaluator σ) : List Stmt → Run σ Value
  | [] => return .unit
  | [s] => stmt eval s
  | s :: t :: ss => do
    discard (stmt eval s)
    stmts eval (t :: ss)

/-- Runs a block in a scope of its own. -/
def block (eval : Evaluator σ) (b : Block) : Run σ Value := inScope [] (stmts eval b.stmts)

/-- Runs a round of a loop while there is fuel, until a round says that it was the last one. -/
def rounds (round : Run σ Bool) : Nat → Run σ Unit
  | 0 => throw .outOfFuel
  | n + 1 => do
    if ← round then rounds round n

/-- Runs a loop's body for `count` numbers from `first` on. -/
def overRange (body : Value → Run σ Bool) (first : Int) : Nat → Run σ Unit
  | 0 => return ()
  | n + 1 => do
    if ← body (.int (Int64.ofInt first)) then overRange body (first + 1) n

/-- Runs a loop's body for the values of a list. -/
def overList (body : Value → Run σ Bool) : List Value → Run σ Unit
  | [] => return ()
  | v :: vs => do
    if ← body v then overList body vs

/-- How many numbers there are from one up to another, with the last one or without it. -/
def rangeCount (first last : Int64) (closed : Bool) : Nat :=
  (last.toInt - first.toInt + if closed then 1 else 0).toNat

/-- Fills in a template. Values that are left over are not evaluated. -/
def fill (eval : Evaluator σ) : List TemplatePiece → List Expr → Run σ (List Char)
  | [], _ => return []
  | .literal cs :: ps, es => do return cs ++ (← fill eval ps es)
  | .named n shown :: ps, es => do
    let v ← lookup (String.ofList n)
    let text := if shown then v.text else v.plainText
    return text ++ (← fill eval ps es)
  | .next shown :: ps, e :: es => do
    let v ← eval e
    let text := if shown then v.text else v.plainText
    return text ++ (← fill eval ps es)
  | .next _ :: _, [] => fault .templateArgument

/-- The text that a template and its values make; no template makes no text. -/
def formatted (eval : Evaluator σ) : List Expr → Run σ (List Char)
  | [] => return []
  | .literal (.text cs) _ :: es =>
    match parseTemplate cs with
    | .ok pieces => fill eval pieces es
    | .error e => fault (.template e)
  | _ :: _ => fault .templateNotLiteral

/-- Evaluates a macro call. -/
def invocation (eval : Evaluator σ) : MacroCall → Run σ Value
  | .mk name _ args _ _ =>
    match MacroKind.ofName? name with
    | none => fault .unknownMacro
    | some kind =>
      match args with
      | .malformed e => fault (.malformed e.problem)
      | .items es first => do
        match kind with
        | .println =>
          print ((← formatted eval es) ++ ['\n'])
          return .unit
        | .print =>
          print (← formatted eval es)
          return .unit
        | .format => return .str (String.ofList (← formatted eval es))
        | .vec => return .list (← values eval es)
        | .panic =>
          if es.isEmpty then fault (.panic "explicit panic")
          else fault (.panic (String.ofList (← formatted eval es)))
        | .assert =>
          match es with
          | [] => fault .assertWithoutCondition
          | condition :: rest =>
            if ← truth eval condition then return .unit
            else if rest.isEmpty then
              fault (.assertion ("assertion failed: " ++ String.ofList first))
            else fault (.assertion (String.ofList (← formatted eval rest)))

/-- Calls a function. -/
def invoke (eval : Evaluator σ) (f : Function) (id : SnippetId) (args : List Value) : Run σ Value := do
  if (← get).frames.length ≥ frameLimit then fault (.tooDeep frameLimit)
  if args.length ≠ f.params.length then fault (.argumentCount f.name f.params.length args.length)
  let scope := (f.params.zip args).foldl (fun (scope : Scope) (p, v) => scope.put p.1 v) []
  inFrame ⟨f.name, id⟩ scope (block eval f.body)

/-- Calls what a name stands for. -/
def callName (eval : Evaluator σ) (name : String) (args : List Value) : Run σ Value := do
  let isLocal := (← local? name).isSome
  let store := (← get).store
  match if isLocal then none else store.callee? name with
  | some (.ready f id) => invoke eval f id args
  | some (.waiting missing) => fault (.waiting name missing)
  | none =>
    if (Builtin.find? name).isSome then ofOutcome (Value.builtin name args)
    else fault (.uncallable name)

/-- Calls a method. -/
def callMethod (calls : HostCalls σ) (receiver : Value) (name : String) (args : List Value) :
    Run σ Value :=
  match receiver with
  | .host object => callHost calls object name args
  | v => ofOutcome (v.method name args)

/-- Evaluates an operator between two operands. The logical operators evaluate their right side only if
the left one does not decide. -/
def binary (eval : Evaluator σ) (op : BinaryOp) (left right : Expr) : Run σ Value := do
  let l ← eval left
  if op.opClass = .logic then
    match l with
    | .bool b =>
      if b == (op == .or) then return .bool b
      else return .bool (← truth eval right)
    | _ => fault .notTruth
  else
    let r ← eval right
    ofOutcome (l.binary op r)

/-- The built-in type that a written type stands for. -/
def castTarget (t : TypeExpr) : Ty :=
  match Ty.read t.form with
  | .known ty => ty
  | _ => .unknown

/-- Evaluates an expression whose parts are evaluated by `eval`; a loop takes at most `fuel` rounds. -/
def step (calls : HostCalls σ) (fuel : Nat) (eval : Evaluator σ) : Evaluator σ
  | .literal l _ => ofOutcome (Value.ofLiteral l)
  | .name i _ => lookup i.name
  | .path _ => fault .qualifiedPath
  | .paren e _ => eval e
  | .reference e _ => eval e
  | .unary op e _ => do ofOutcome ((← eval e).unary op)
  | .binary op l r _ => binary eval op l r
  | .compound op l r _ => do
    let v ← binary eval op l r
    assignTo l v
    return .unit
  | .assign l r _ => do
    let v ← eval r
    assignTo l v
    return .unit
  | .call f args _ =>
    match f with
    | .name i _ => do
      let vs ← values eval args
      callName eval i.name vs
    | _ => fault .notNamedCallee
  | .method receiver name args _ => do
    let v ← eval receiver
    let vs ← values eval args
    callMethod calls v name.name vs
  | .invocation m _ => invocation eval m
  | .ifThen condition yes no _ => do
    if ← truth eval condition then block eval yes
    else
      match no with
      | some e => eval e
      | none => return .unit
  | .block b _ => block eval b
  | .whileLoop condition body _ => do
    rounds (do if ← truth eval condition then loopBody (block eval body) else return false) fuel
    return .unit
  | .loop body _ => do
    rounds (loopBody (block eval body)) fuel
    return .unit
  | .forLoop p items body _ => do
    let n ← bindingName p
    let round := fun v => inScope [(n, v)] (loopBody (block eval body))
    match items with
    | .range (some first) (some last) closed _ =>
      let a ← whole eval first
      let b ← whole eval last
      overRange round a.toInt (rangeCount a b closed)
    | .range _ _ _ _ => fault .openRange
    | e =>
      match ← eval e with
      | .list vs => overList round vs
      | v => fault (.notIterable (Ty.ofValue v))
    return .unit
  | .breakLoop _ _ => throw .broke
  | .continueLoop _ => throw .continued
  | .returnFn value _ => do
    match value with
    | some e => throw (.returned (← eval e))
    | none => throw (.returned .unit)
  | .array items _ => do return .list (← values eval items)
  | .index target position _ => do
    let v ← eval target
    let n ← whole eval position
    ofOutcome (v.element n)
  | .cast e t _ => do ofOutcome ((← eval e).cast (castTarget t))
  | .range .. => fault .unsupportedExpression
  | .other .. => fault .unsupportedExpression

/-- Evaluates an expression with a fuel that bounds how deep evaluations stand in each other and how often
a loop goes round. -/
def eval (calls : HostCalls σ) : Nat → Evaluator σ
  | 0 => fun _ => throw .outOfFuel
  | fuel + 1 => fun e => step calls fuel (eval calls fuel) e

/-- What code at the outermost level comes to. -/
inductive Ending
  | value (v : Value)
  | fault (f : Fault)
  | panicked (message : String)
  | outOfFuel

/-- Evaluates an expression at the outermost level, in the frame that is given. The store and the state
of the host are kept however it ends. -/
def topLevel (calls : HostCalls σ) (fuel : Nat) (frame : Frame) (e : Expr) (store : Store) (world : σ) :
    Ending × Store × σ :=
  let start : Machine σ := { frames := [frame], store, world }
  let (result, m) := (eval calls fuel e).run start
  let ending : Ending :=
    match result with
    | .ok v => .value v
    | .error (.returned v) => .value v
    | .error (.fault f) => .fault f
    | .error .broke | .error .continued => .fault ⟨.strayJump, m.frames.map Frame.label ++ bridgeFrames⟩
    | .error (.panicked message) => .panicked message
    | .error .outOfFuel => .outOfFuel
  (ending, m.store, m.world)

end Run

end Notebook.Guest

import Notebook.Syntax.Grammar.Items

/-!
The grammar as a whole: the statements of a unit, and the rules tied together. Statements, the expression
that one starts with and its first operand may be taken from the grammar in a row, but then a token is read,
so a grammar as deep as three times the tokens is as good as a deeper one.
-/
namespace Notebook.Syntax
open Notebook.Text

/-- Whether an item comes next. -/
def itemAhead (rest : List TokenTree) : Bool :=
  let second := skipOne rest
  let third := skipOne second
  isWord "pub" rest ||
  (isWord "crate" rest && !isPunct "::" second) ||
  isWord "extern" rest ||
  isWord "use" rest ||
  (isWord "static" rest &&
    (isWord "mut" second ||
      (isIdent second && !(isWord "async" second && (isWord "move" third || isPunct "|" third))))) ||
  (isWord "const" rest &&
    !(isGroup .brace second || isWord "static" second ||
      (isWord "async" second && !(isWord "unsafe" third || isWord "extern" third || isWord "fn" third)) ||
      isWord "move" second || isPunct "|" second)) ||
  (isWord "unsafe" rest && !isGroup .brace second) ||
  (isWord "async" rest && (isWord "unsafe" second || isWord "extern" second || isWord "fn" second)) ||
  ["fn", "mod", "type", "struct", "enum", "trait", "impl", "macro"].any (isWord · rest) ||
  (isWord "union" rest && isIdent second) ||
  (isWord "auto" rest && isWord "trait" second) ||
  (isWord "default" rest && (isWord "unsafe" second || isWord "impl" second))

/-- What a path with an exclamation mark at the start of a statement is. -/
inductive MacroStart
  | item
  | braces
  | none
  deriving DecidableEq

/-- Looks for a macro call at the start of a statement. One in braces stands for a statement unless a
point or a question mark goes on with it. -/
def macroStart : Parse MacroStart := do
  let found ← ahead? do
    discard plainPath
    if ← peek (isPunct "!") then
      let second := skipOne (← input).rest
      if isIdent second || isWord "try" second then return MacroStart.item
      let third := skipOne second
      if isGroup .brace second && !((isPunct "." third && !isPunct ".." third) || isPunct "?" third)
      then return .braces
    return .none
  return found.getD .none

/-- A statement. -/
def statement (g : Grammar) : Parse Stmt := do
  let start ← here
  let docs ← outerAttributes g
  match ← macroStart with
  | .braces => macroStmt g start
  | kind =>
    let rest := (← input).rest
    if isWord "let" rest then letStmt g start
    else if itemAhead rest || kind = .item then
      let value ← itemRest g docs
      return .item value (← spanFrom start)
    else exprStmt g start

/-- Whether another statement may not follow without a semicolon. -/
def Stmt.wantsSemicolon : Stmt → Bool
  | .expr e ended _ => !ended && !e.endsStatement
  | _ => false

/-- Statements up to the end. Each is read for itself; a semicolon by itself is a statement that has no
meaning. -/
def stmtsRule (g : Grammar) : Parse (List Stmt) :=
  iterate [] fun read => do
    let start ← here
    if ← punct? ";" then return .inl (.expr (.other false Span.none) true start :: read)
    else if ← atEnd then return .inr read.reverse
    else
      let s ← afresh (statement g)
      if ← atEnd then return .inr (s :: read).reverse
      else if s.wantsSemicolon then wrong "unexpected token, expected `;`"
      else return .inl (s :: read)

/-- The grammar of a depth. -/
def grammar : Nat → Grammar
  | 0 =>
    let deep {α} : Parse α := failWith fun _ => .unexpected none
    { expr := fun _ => deep, free := deep, operand := fun _ => deep, climb := fun _ _ _ => deep
      type := fun _ => deep, pattern := deep, stmts := deep, item := deep
      importTree := fun _ => deep }
  | n + 1 =>
    { expr := fun s => .later fun _ => exprRule (grammar n) s
      free := .later fun _ => freeRule (grammar n)
      operand := fun s => .later fun _ => operandRule (grammar n) s
      climb := fun s e p => .later fun _ => climbRule (grammar n) s e p
      type := fun p => .later fun _ => typeRule (grammar n) p
      pattern := .later fun _ => patternRule (grammar n)
      stmts := .later fun _ => stmtsRule (grammar n)
      item := .later fun _ => itemRule (grammar n)
      importTree := fun r => .later fun _ => importTreeRule (grammar n) r }

/-- Token trees in parts: every semicolon outside of brackets ends one. What follows the semicolon at
once is not part of it. -/
def parts : List TokenTree → List (List TokenTree)
  | [] => []
  | .punct ';' _ s :: rest => [.punct ';' false s] :: parts rest
  | t :: rest =>
    match parts rest with
    | [] => [[t]]
    | part :: others => (t :: part) :: others

/-- How deep the grammar has to be for some tokens. -/
def depthFor (tokens : List TokenTree) : Nat := 3 * TokenTree.sizes tokens + 8

/-- The statements of a part, and the first token that was left over in a group of it. -/
def readPart (part : List TokenTree) : Except ParseError (List Stmt × Option ParseError) := do
  let rule := (grammar (depthFor part)).stmts
  let (stmts, after) ← rule.run { rest := part, scope := Span.none }
  return (stmts, after.leftover)

/-- The statements of token trees. No statement goes on behind a semicolon outside of brackets, so they
are read part by part. Something left over in a group is found when all parts have been read. -/
def readStmts (tokens : List TokenTree) : Except ParseError (List Stmt) := do
  let reads ← (parts tokens).mapM readPart
  match reads.findSome? (·.2) with
  | some e => throw e
  | none => return reads.flatMap (·.1)

/-- The statements of a text that stands at a place. -/
def parseAt (p : Position) (cs : List Char) : Except ParseError (List Stmt) := do
  readStmts (← lexFrom p [] [] cs)

/-- The statements of a text. -/
def parse (cs : List Char) : Except ParseError (List Stmt) := do readStmts (← lex cs)

/-- The statements of a unit. A last declaration may lack its semicolon. -/
def parseUnit (cs : List Char) : Except ParseError (List Stmt) :=
  match parse cs with
  | .ok stmts => .ok stmts
  | .error e =>
    let trimmed := trimEnd cs
    if trimmed.getLast? = some ';' || trimmed.getLast? = some '\x7d' then .error e
    else
      match parse (trimmed ++ [';']) with
      | .ok stmts => .ok stmts
      | .error _ => .error e

end Notebook.Syntax

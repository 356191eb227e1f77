import Notebook.Syntax.Grammar.Patterns

/-!
Reading expressions and statements. Operators bind by precedence; what the guest language has no meaning
for is read all the same and becomes a node that knows its place.
-/
namespace Notebook.Syntax
open Notebook.Text

/-! ### Operators -/

/-- A binary operator, whether it assigns, and how it is written. -/
structure Operator where
  op : BinaryOp
  assigns : Bool
  text : String

/-- Operators, longer ones first. -/
def operators : List Operator := [
  ⟨.add, true, "+="⟩, ⟨.sub, true, "-="⟩, ⟨.mul, true, "*="⟩, ⟨.div, true, "/="⟩,
  ⟨.rem, true, "%="⟩, ⟨.bitXor, true, "^="⟩, ⟨.bitAnd, true, "&="⟩, ⟨.bitOr, true, "|="⟩,
  ⟨.shl, true, "<<="⟩, ⟨.shr, true, ">>="⟩, ⟨.and, false, "&&"⟩, ⟨.or, false, "||"⟩,
  ⟨.shl, false, "<<"⟩, ⟨.shr, false, ">>"⟩, ⟨.eq, false, "=="⟩, ⟨.le, false, "<="⟩,
  ⟨.ne, false, "!="⟩, ⟨.ge, false, ">="⟩, ⟨.add, false, "+"⟩, ⟨.sub, false, "-"⟩,
  ⟨.mul, false, "*"⟩, ⟨.div, false, "/"⟩, ⟨.rem, false, "%"⟩, ⟨.bitXor, false, "^"⟩,
  ⟨.bitAnd, false, "&"⟩, ⟨.bitOr, false, "|"⟩, ⟨.lt, false, "<"⟩, ⟨.gt, false, ">"⟩]

/-- The binary operator that comes next. -/
def operator? (rest : List TokenTree) : Option Operator := operators.find? fun o => isPunct o.text rest

def Operator.precedence (o : Operator) : Precedence :=
  if o.assigns then .assign
  else
    match o.op with
    | .add | .sub => .sum
    | .mul | .div | .rem => .product
    | .and => .and
    | .or => .or
    | .bitXor => .bitXor
    | .bitAnd => .bitAnd
    | .bitOr => .bitOr
    | .shl | .shr => .shift
    | .eq | .lt | .le | .ne | .ge | .gt => .compare

/-- Whether a plain equals sign comes next. -/
def isAssignment (rest : List TokenTree) : Bool := isPunct "=" rest && !isPunct "=>" rest

/-- The precedence of what comes next. -/
def precedenceAhead (rest : List TokenTree) : Precedence :=
  match operator? rest with
  | some o => o.precedence
  | none =>
    if isAssignment rest then .assign
    else if isPunct ".." rest then .range
    else if isWord "as" rest then .cast
    else .jump

/-- The right side of an operator: an operand, and the operators that bind tighter. -/
def rightSide (g : Grammar) (allowStruct : Bool) (p : Precedence) : Parse Expr := do
  iterate (← g.operand allowStruct) fun e => do
    let rest := (← input).rest
    let next := precedenceAhead rest
    if p.rank < next.rank || (next = p && p = .assign) then
      let e ← g.climb allowStruct e next
      if (← input).rest.length = rest.length then return .inr e else return .inl e
    else return .inr e

/-- The dots of a range: whether the end belongs to it. -/
def rangeLimits : Parse Bool := return (← rangeDots false).1

/-- Punctuation before which a range without an end may stop. -/
def rangeStops : List String := [
  ",", ";", "?", "=>", "=", "+", "/", "%", "^", ">", "<=", "!=", "-=", "*=", "&=", "|=", "<<="]

/-- The end of a range, if it has one. -/
def rangeEnd (g : Grammar) (closed allowStruct : Bool) : Parse (Option Expr) := do
  let rest := (← input).rest
  if !closed && (rest.isEmpty || rangeStops.any (isPunct · rest) ||
      (isPunct "." rest && !isPunct ".." rest) || (!allowStruct && isGroup .brace rest) ||
      isWord "as" rest) then
    return none
  else return some (← rightSide g allowStruct .range)

/-- Checks that nothing follows a cast that would bind tighter. -/
def checkAfterCast : Parse Unit := do
  let rest := (← input).rest
  let followed := "casts cannot be followed by "
  if isPunct "." rest && !isPunct ".." rest then
    if ← peekSecond (isWord "await") then wrong (followed ++ "`.await`")
    else if (← peekSecond isIdent) &&
        ((← peekThird (isGroup .parenthesis)) || (← peekThird (isPunct "::"))) then
      wrong (followed ++ "a method call")
    else wrong (followed ++ "a field access")
  else if isPunct "?" rest then wrong (followed ++ "`?`")
  else if isGroup .bracket rest then wrong (followed ++ "indexing")
  else if isGroup .parenthesis rest then wrong (followed ++ "a function call")

/-- The operators after a first operand that bind at least as tightly as `base`. -/
def climbRule (g : Grammar) (allowStruct : Bool) (first : Expr) (base : Precedence) : Parse Expr :=
  iterate first fun left => do
    let rest := (← input).rest
    if left.isRange then return .inr left
    match operator? rest with
    | some o =>
      let p := o.precedence
      if p.rank < base.rank then return .inr left
      if p = .compare && left.isComparison then wrong "comparison operators cannot be chained"
      punct o.text
      let right ← rightSide g allowStruct p
      let span := left.span.upTo right.span
      return .inl (if o.assigns then .compound o.op left right span else .binary o.op left right span)
    | none =>
      if base.rank ≤ Precedence.assign.rank && isAssignment rest then
        punct "="
        let right ← rightSide g allowStruct .assign
        return .inl (.assign left right (left.span.upTo right.span))
      else if base.rank ≤ Precedence.range.rank && isPunct ".." rest then
        let closed ← rangeLimits
        let last ← rangeEnd g closed allowStruct
        return .inl (.range (some left) last closed (← spanFrom left.span))
      else if base.rank ≤ Precedence.cast.rank && isWord "as" rest then
        word "as"
        let type ← typeExpr g false
        checkAfterCast
        return .inl (.cast left type (← spanFrom left.span))
      else return .inr left

/-! ### What trails an operand -/

/-- The arguments of a call. -/
def arguments (g : Grammar) : Parse (List Expr) := group .parenthesis (commaSeparated (g.expr true))

/-- The parts of a number between its points, as fields that are counted. -/
def fieldIndices (text : List Char) : List (List Char) :=
  (String.ofList text).splitOn "." |>.map String.toList

/-- Checks that a field is counted by a plain number. -/
def checkIndex (text : List Char) (span : Span) : Parse Unit :=
  match Literal.ofText text with
  | .integer n "" =>
    if n < UInt32.size then return () else wrongAt span "number too large to fit in target type"
  | .integer _ _ => wrongAt span "expected unsuffixed integer"
  | _ => wrongAt span "expected integer literal"

/-- A number with a point after a point: fields of fields. Whether a name must follow. -/
def fieldNumber? : Parse (Option Bool) := do
  match (← input).rest with
  | .literal cs s :: _ =>
    if isNumberText cs then
      match Literal.ofText cs with
      | .decimal _ =>
        discard literal
        let trailing := cs.getLast? = some '.'
        for part in fieldIndices (if trailing then cs.dropLast else cs) do checkIndex part s
        return some trailing
      | _ => return none
    else return none
  | _ => return none

/-- The member after a point. -/
inductive Member
  | named (name : Ident)
  | counted

/-- A name or a number after a point. -/
def member : Parse Member := do
  match (← input).rest with
  | .literal cs s :: _ =>
    match Literal.ofText cs with
    | .integer _ _ =>
      discard literal
      checkIndex cs s
      return .counted
    | _ => wrong "expected identifier or integer"
  | rest =>
    if isIdent rest then return .named (← ident) else wrong "expected identifier or integer"

/-- What comes after a point: a call of a method, or something without a meaning. -/
def afterPoint (g : Grammar) (e : Expr) : Parse Expr := do
  match ← fieldNumber? with
  | some false => return .other false (← spanFrom e.span)
  | _ =>
    if ← word? "await" then return .other false (← spanFrom e.span)
    match ← member with
    | .named name =>
      let turbofish ← peek (isPunct "::")
      if turbofish then
        punct "::"
        angleArguments g (bound g)
      if turbofish || (← peek (isGroup .parenthesis)) then
        let args ← arguments g
        return .method e name args (← spanFrom e.span)
      else return .other false (← spanFrom e.span)
    | .counted => return .other false (← spanFrom e.span)

/-- Calls, members, indices and question marks after an expression. -/
def trailers (g : Grammar) (e : Expr) : Parse Expr :=
  iterate e fun e => do
    let rest := (← input).rest
    if isGroup .parenthesis rest then
      let args ← arguments g
      return .inl (.call e args (← spanFrom e.span))
    else if isPunct "." rest && !isPunct ".." rest && !e.isRange then
      punct "."
      return .inl (← afterPoint g e)
    else if isGroup .bracket rest then
      let position ← group .bracket (g.expr true)
      return .inl (.index e position (← spanFrom e.span))
    else if isPunct "?" rest && !e.isRange then
      punct "?"
      return .inl (.other false (← spanFrom e.span))
    else return .inr e

/-! ### Blocks -/

/-- Statements in braces, after attributes of their own if those are allowed. -/
def blockWith (g : Grammar) (inner : Bool) : Parse Block := do
  let (stmts, span) ← withSpan <| group .brace do
    if inner then discard (innerAttributes g)
    g.stmts
  return .mk stmts span

/-- Statements in braces. -/
def block (g : Grammar) : Parse Block := blockWith g false

/-- The name before a loop or block, with its colon. -/
def label : Parse Unit := do
  discard lifetime
  punct ":"

/-- An if with all its branches. -/
def ifExpr (g : Grammar) : Parse Expr := do
  discard (outerAttributes g)
  let clauses ← iterate [] fun clauses => do
    let start ← here
    word "if"
    let condition ← g.expr false
    let yes ← block g
    if ← word? "else" then
      let rest := (← input).rest
      if isWord "if" rest then return .inl ((start, condition, yes) :: clauses)
      else if isGroup .brace rest then
        let no ← block g
        return .inr ((start, condition, yes) :: clauses, some no)
      else expected ["`if`", "curly braces"]
    else return .inr ((start, condition, yes) :: clauses, none)
  let stop := (← input).last.stop
  let last : Option Expr := clauses.2.map fun b => .block b b.span
  let whole := clauses.1.foldl (fun no (start, condition, yes) =>
    some (Expr.ifThen condition yes no ⟨start.start, stop⟩)) last
  return whole.getD default

def whileExpr (g : Grammar) (start : Span) : Parse Expr := do
  discard (outerAttributes g)
  if ← peek isLifetime then label
  word "while"
  let condition ← g.expr false
  let body ← blockWith g true
  return .whileLoop condition body (← spanFrom start)

def forExpr (g : Grammar) (start : Span) : Parse Expr := do
  discard (outerAttributes g)
  if ← peek isLifetime then label
  word "for"
  let p ← patterns g
  word "in"
  let items ← g.expr false
  let body ← blockWith g true
  return .forLoop p.pattern items body (← spanFrom start)

def loopExpr (g : Grammar) (start : Span) : Parse Expr := do
  discard (outerAttributes g)
  if ← peek isLifetime then label
  word "loop"
  let body ← blockWith g true
  return .loop body (← spanFrom start)

def blockExpr (g : Grammar) (start : Span) : Parse Expr := do
  let body ← blockWith g true
  return .block body (← spanFrom start)

/-- A loop or block with a name. -/
def labeled (g : Grammar) : Parse Expr := do
  let start ← here
  label
  let rest := (← input).rest
  if isWord "while" rest then whileExpr g start
  else if isWord "for" rest then forExpr g start
  else if isWord "loop" rest then loopExpr g start
  else if isGroup .brace rest then blockExpr g start
  else wrong "expected loop or block expression"

/-- A match, whose arms are read and dropped. -/
def matchExpr (g : Grammar) : Parse Expr := do
  let start ← here
  discard (outerAttributes g)
  word "match"
  discard (g.expr false)
  group .brace do
    discard (innerAttributes g)
    discard <| many (return !(← atEnd)) do
      discard (outerAttributes g)
      discard (patterns g)
      if ← word? "if" then discard (g.expr true)
      punct "=>"
      let body ← g.free
      if needsComma body && !(← atEnd) then punct "," else discard (punct? ",")
  return .other true (← spanFrom start)
where
  /-- Whether an arm needs a comma after its body; a macro call does, even in braces. -/
  needsComma : Expr → Bool
    | .invocation .. => true
    | e => !e.endsStatement

/-! ### Operands -/

/-- A struct in braces after its path. -/
def structFields (g : Grammar) : Parse Unit :=
  group .brace <| iterate () fun _ => do
    if ← atEnd then return .inr ()
    if ← punct? ".." then
      unless ← atEnd do discard (g.expr true)
      return .inr ()
    discard (outerAttributes g)
    match ← member with
    | .named _ => if ← punct? ":" then discard (g.expr true)
    | .counted =>
      punct ":"
      discard (g.expr true)
    if ← atEnd then return .inr ()
    punct ","
    return .inl ()

/-- The expressions between the brackets of a macro call, and the first one in writing. -/
def macroItems (g : Grammar) : Parse (List Expr × List Char) := do
  let items ← commaSeparated (withText (g.expr true))
  return (items.map (·.1), (items.head?.map (·.2)).getD [])

/-- A macro call from its exclamation mark on. -/
def macroCall (g : Grammar) (name : Option Ident) (pathSpan : Span) : Parse MacroCall := do
  punct "!"
  let (d, body, bodySpan) ← anyGroup
  let args := match readAll (macroItems g) body (TokenTree.closeSpan bodySpan) with
    | .ok (items, first) => MacroArgs.items items first
    | .error e => MacroArgs.malformed e
  return .mk (name.map (·.name)) pathSpan args (d = .brace) (← spanFrom pathSpan)

/-- An expression that starts with a path. -/
def pathExpr (g : Grammar) (allowStruct : Bool) : Parse Expr := do
  let (p, span) ← withSpan (path g true)
  if !p.qualified && (← peek (isPunct "!")) && !(← peek (isPunct "!=")) && !p.hasArgs then
    let call ← macroCall g p.plain span
    return .invocation call (← spanFrom span)
  else if allowStruct && (← peek (isGroup .brace)) then
    structFields g
    return .other false (← spanFrom span)
  else
    match p.plain with
    | some name => return .name name span
    | none => return .path span

/-- An expression in parentheses, or a tuple. -/
def parenExpr (g : Grammar) : Parse Expr := do
  let (inside, span) ← withSpan <| group .parenthesis do
    if ← atEnd then return none
    let first ← g.expr true
    if ← atEnd then return some first
    punct ","
    discard (commaSeparated (g.expr true))
    return none
  match inside with
  | some e => return .paren e span
  | none => return .other false span

/-- A list in brackets, or a value with its count. -/
def arrayExpr (g : Grammar) : Parse Expr := do
  let (items, span) ← withSpan <| group .bracket do
    if ← atEnd then return some []
    let first ← g.expr true
    if ← atEnd then return some [first]
    else if ← punct? "," then return some (first :: (← commaSeparated (g.expr true)))
    else if ← punct? ";" then
      discard (g.expr true)
      return none
    else wrong "expected `,` or `;`"
  match items with
  | some es => return .array es span
  | none => return .other false span

/-- Whether an expression may start with what comes next. -/
def canBegin (rest : List TokenTree) : Bool :=
  let butNot (s : String) (nots : List String) := isPunct s rest && !nots.any (isPunct · rest)
  isAnyWord rest || isGroup .parenthesis rest || isGroup .bracket rest || isGroup .brace rest ||
    isLiteral rest || butNot "!" ["!="] || butNot "-" ["-=", "->"] || butNot "*" ["*="] ||
    butNot "|" ["|="] || butNot "&" ["&="] || isPunct ".." rest || butNot "<" ["<=", "<<="] ||
    isPunct "::" rest || isLifetime rest || isPunct "#" rest

/-- The value of a jump, if one follows. -/
def jumpValue (g : Grammar) : Parse (Option Expr) := do
  if ← peek canBegin then return some (← g.expr true) else return none

def breakExpr (g : Grammar) (allowStruct : Bool) : Parse Expr := do
  let start ← here
  word "break"
  let rest := (← input).rest
  if isLifetime rest && isPunct ":" (skipOne rest) then
    let name ← here
    discard (g.expr true)
    wrongAt (← spanFrom name) "parentheses required"
  discard lifetime?
  let value ← if (← peek canBegin) && (allowStruct || !(← peek (isGroup .brace))) then
      some <$> g.expr true
    else pure none
  return .breakLoop value.isSome (← spanFrom start)

/-- A closure, which is read and dropped. -/
def closureExpr (g : Grammar) (allowStruct : Bool) : Parse Expr := do
  let start ← here
  discard (binder? g (bound g))
  for w in ["const", "static", "async", "move"] do discard (word? w)
  punct "|"
  discard <| separatedUntil (peek (isPunct "|")) "," do
    discard (outerAttributes g)
    discard g.pattern
    if ← punct? ":" then discard (g.type true)
  punct "|"
  if ← punct? "->" then
    discard (g.type true)
    discard (block g)
  else discard (g.expr allowStruct)
  return .other false (← spanFrom start)

/-- A condition that binds by a pattern. -/
def letExpr (g : Grammar) (allowStruct : Bool) : Parse Expr := do
  let start ← here
  word "let"
  discard (patterns g)
  punct "="
  let first ← g.operand allowStruct
  discard (g.climb allowStruct first .compare)
  return .other false (← spanFrom start)

/-- A block after keywords, which is read and dropped. -/
def markedBlock (g : Grammar) (words : List String) (inner ends : Bool) : Parse Expr := do
  let start ← here
  for w in words do discard (word? w)
  discard (blockWith g inner)
  return .other ends (← spanFrom start)

/-- The operand that the words `builtin #` start. -/
def builtinExpr : Parse Expr := do
  let start ← here
  discard anyWord
  punct "#"
  discard ident
  group .parenthesis (.change (fun now => { now with rest := [], last := lastSpan now.rest now.last })
    fun now => ⟨now.rest, (List.append_nil now.rest).symm, rfl⟩)
  return .other false (← spanFrom start)

/-- An operand without anything before or after it. -/
def atom (g : Grammar) (allowStruct : Bool) : Parse Expr := do
  let start ← here
  let rest := (← input).rest
  let second := skipOne rest
  if isLiteral rest then
    let value ← literal
    return .literal value (← spanFrom start)
  else if isWord "async" rest &&
      (isGroup .brace second || (isWord "move" second && isGroup .brace (skipOne second))) then
    markedBlock g ["async", "move"] false false
  else if isWord "try" rest && isGroup .brace second then markedBlock g ["try"] false true
  else if isPunct "|" rest || isWord "move" rest ||
      (isWord "for" rest && (← parametersAfterWord)) ||
      (isWord "const" rest && !isGroup .brace second) || isWord "static" rest ||
      (isWord "async" rest && (isPunct "|" second || isWord "move" second)) then
    closureExpr g allowStruct
  else if isWord "builtin" rest && isPunct "#" second then builtinExpr
  else if isPathWord rest || isPunct "::" rest || isPunct "<" rest ||
      (isWord "try" rest && (isPunct "!" second || isPunct "::" second)) then
    pathExpr g allowStruct
  else if isGroup .parenthesis rest then parenExpr g
  else if isWord "break" rest then breakExpr g allowStruct
  else if isWord "continue" rest then
    word "continue"
    discard lifetime?
    return .continueLoop (← spanFrom start)
  else if isWord "return" rest then
    word "return"
    let value ← jumpValue g
    return .returnFn value (← spanFrom start)
  else if isWord "become" rest then
    word "become"
    discard (g.expr true)
    return .other false (← spanFrom start)
  else if isGroup .bracket rest then arrayExpr g
  else if isWord "let" rest then letExpr g allowStruct
  else if isWord "if" rest then ifExpr g
  else if isWord "while" rest then whileExpr g start
  else if isWord "for" rest then forExpr g start
  else if isWord "loop" rest then loopExpr g start
  else if isWord "match" rest then matchExpr g
  else if isWord "yield" rest then
    word "yield"
    discard (jumpValue g)
    return .other false (← spanFrom start)
  else if isWord "unsafe" rest then
    word "unsafe"
    discard (blockWith g true)
    return .other true (← spanFrom start)
  else if isWord "const" rest then
    word "const"
    discard (blockWith g true)
    return .other true (← spanFrom start)
  else if isGroup .brace rest then blockExpr g start
  else if isPunct ".." rest then
    let closed ← rangeLimits
    let last ← rangeEnd g closed allowStruct
    return .range none last closed (← spanFrom start)
  else if isWord "_" rest then
    underscore
    return .other false (← spanFrom start)
  else if isLifetime rest then labeled g
  else wrong "expected an expression"
where
  /-- Whether parameters in angle brackets follow the next word. -/
  parametersAfterWord : Parse Bool := do
    return (← ahead? (do discard anyWord; parametersAhead)).getD false

/-- An operand with the operators and attributes before it and what trails it. -/
def operandRule (g : Grammar) (allowStruct : Bool) : Parse Expr := do
  let start ← here
  discard (outerAttributes g)
  let rest := (← input).rest
  if isPunct "&" rest then
    punct "&"
    let second := (← input).rest
    let raw := isWord "raw" second &&
      (isWord "mut" (skipOne second) || isWord "const" (skipOne second))
    if raw then word "raw"
    let mutable ← word? "mut"
    if raw && !mutable then word "const"
    let inner ← g.operand allowStruct
    let span ← spanFrom start
    return if raw then .other false span else .reference inner span
  else
    let unary (text : String) (op : UnaryOp) : Parse Expr := do
      punct text
      let inner ← g.operand allowStruct
      return .unary op inner (← spanFrom start)
    if isPunct "*" rest then unary "*" .deref
    else if isPunct "!" rest then unary "!" .not
    else if isPunct "-" rest then unary "-" .neg
    else
      let first ← atom g allowStruct
      let e ← trailers g first
      match e with
      | .range none _ closed s =>
        if start.start = s.start then return e
        else
          wrongAt ⟨s.start, ⟨s.start.line, s.start.column + if closed then 3 else 2⟩⟩
            "attributes are not allowed on range expressions starting with `..`"
      | _ => return e.withStart start.start

/-- An expression. -/
def exprRule (g : Grammar) (allowStruct : Bool) : Parse Expr := do
  let first ← g.operand allowStruct
  g.climb allowStruct first .jump

/-! ### Statements -/

/-- An expression at the start of a statement or of the body of an arm: what ends a statement by itself is
not an operand, unless a point or a question mark follows it. -/
def freeRule (g : Grammar) : Parse Expr := do
  discard (outerAttributes g)
  let start ← here
  let rest := (← input).rest
  let second := skipOne rest
  let generic ← ahead? (do discard anyWord; parametersAhead)
  let special : Option (Parse Expr) :=
    if isWord "if" rest then some (ifExpr g)
    else if isWord "while" rest then some (whileExpr g start)
    else if isWord "for" rest && !generic.getD false then some (forExpr g start)
    else if isWord "loop" rest then some (loopExpr g start)
    else if isWord "match" rest then some (matchExpr g)
    else if isWord "try" rest && isGroup .brace second then some (markedBlock g ["try"] false true)
    else if isWord "unsafe" rest then some (markedBlock g ["unsafe"] true true)
    else if isWord "const" rest && isGroup .brace second then
      some (markedBlock g ["const"] true true)
    else if isGroup .brace rest then some (blockExpr g start)
    else if isLifetime rest then some (labeled g)
    else none
  match special with
  | some p =>
    let e ← p
    let rest := (← input).rest
    if (isPunct "." rest && !isPunct ".." rest) || isPunct "?" rest then
      let e ← trailers g e
      g.climb true e .jump
    else return e
  | none => g.expr true

/-- A binding. -/
def letStmt (g : Grammar) (start : Span) : Parse Stmt := do
  let keyword ← here
  word "let"
  let p ← g.pattern
  let pattern ← if ← punct? ":" then
      pure (Pattern.typed p.pattern (← typeExpr g true))
    else pure p.pattern
  let value ← if ← punct? "=" then
      let e ← g.expr true
      if !(← input).braced then
        if ← word? "else" then discard (block g)
      pure (some e)
    else pure none
  punct ";"
  return .bind pattern value keyword (← spanFrom start)

/-- A macro call in braces, as a statement. -/
def macroStmt (g : Grammar) (start : Span) : Parse Stmt := do
  let (p, span) ← withSpan plainPath
  let call ← macroCall g p.plain span
  let exprSpan ← spanFrom start
  discard (punct? ";")
  return .expr (.invocation call exprSpan) true (← spanFrom start)

/-- An expression as a statement. -/
def exprStmt (g : Grammar) (start : Span) : Parse Stmt := do
  let e ← freeRule g
  let e := if start.start = e.span.start then e else e.extendLeft start.start
  let ended ← punct? ";"
  let isMacroStmt := match e with
    | .invocation (.mk _ _ _ braced _) _ => ended || braced
    | _ => false
  return .expr e (ended || isMacroStmt) (← spanFrom start)

end Notebook.Syntax

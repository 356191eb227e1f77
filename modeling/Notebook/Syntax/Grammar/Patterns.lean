import Notebook.Syntax.Grammar.Types

/-!
Reading patterns. All patterns of the surrounding language are read, so that what is wrong with them is
said in its words; only names have a meaning.
-/
namespace Notebook.Syntax
open Notebook.Text

/-- A pattern that has no meaning of its own. -/
def plainPattern (span : Span) : ReadPattern := ⟨.other span, none⟩

/-- Whether a single bar comes next, neither doubled nor with an equals sign. -/
def barAhead : Parse Bool := do
  return (← peek (isPunct "|")) && !(← peek (isPunct "||")) && !(← peek (isPunct "|="))

/-- Alternatives between bars, of which the first may have a bar before it. -/
def patterns (g : Grammar) : Parse ReadPattern := do
  let start ← here
  let leading ← punct? "|"
  let first ← g.pattern
  if leading || (← barAhead) then
    discard <| many barAhead do
      punct "|"
      discard g.pattern
    return plainPattern (← spanFrom start)
  else return first

/-- The dots of a range in a pattern: whether they want an end. -/
def rangeDots (obsolete : Bool) : Parse (Bool × Span) := do
  let start ← here
  if ← punct? "..=" then return (true, ← spanFrom start)
  else if ← peek (isPunct "...") then
    if obsolete then
      punct "..."
      return (true, ← spanFrom start)
    else expected ["`..`", "`..=`"]
  else if ← punct? ".." then return (false, ← spanFrom start)
  else expected ["`..`"]

/-- An end of a range in a pattern, if there is one. -/
def rangeBound (g : Grammar) : Parse Bool := do
  if (← atEnd) || (← peek (isPunct "|")) || (← peek (isPunct "=")) ||
      ((← peek (isPunct ":")) && !(← peek (isPunct "::"))) || (← peek (isPunct ",")) ||
      (← peek (isPunct ";")) || (← peek (isWord "if")) then
    return false
  let rest := (← input).rest
  if isLiteral rest then
    discard literal
    return true
  else if isPathWord rest || isPunct "::" rest || isPunct "<" rest then
    discard (path g true)
    return true
  else if isWord "const" rest then
    word "const"
    group .brace do
      discard (innerAttributes g)
      discard g.stmts
    return true
  else
    expected ["literal", "identifier", "`::`", "`<`", "`self`", "`Self`", "`super`", "`crate`",
      "`const`"]

/-- The rest of a range that has a start; without an end its dots must not want one. -/
def rangeAfterStart (g : Grammar) (start : Span) : Parse ReadPattern := do
  let (closed, dots) ← rangeDots true
  let bounded ← rangeBound g
  if closed && !bounded then wrong "expected range upper bound"
  return ⟨.other (← spanFrom start), if bounded then none else some dots⟩

/-- The field of a struct pattern. -/
def fieldPattern (g : Grammar) : Parse Unit := do
  let boxed ← word? "box"
  let byRef ← word? "ref"
  let mutable ← word? "mut"
  if boxed || byRef || mutable then discard ident
  else if ← peek isIdent then
    discard ident
    if ← punct? ":" then discard (patterns g)
  else
    match (← input).rest with
    | .literal cs _ :: _ =>
      if isNumberText cs then
        discard literal
        punct ":"
        discard (patterns g)
      else wrong "expected identifier or integer"
    | _ => wrong "expected identifier or integer"

/-- A pattern that starts with a path. -/
def pathPattern (g : Grammar) : Parse ReadPattern := do
  let start ← here
  let p ← path g true
  if !p.qualified && (← peek (isPunct "!")) && !(← peek (isPunct "!=")) && !p.hasArgs then
    punct "!"
    discard anyGroup
    return plainPattern (← spanFrom start)
  else if ← peek (isGroup .brace) then
    group .brace <| iterate () fun _ => do
      if ← atEnd then return .inr ()
      discard (outerAttributes g)
      if ← punct? ".." then return .inr ()
      fieldPattern g
      if ← atEnd then return .inr ()
      punct ","
      return .inl ()
    return plainPattern (← spanFrom start)
  else if ← peek (isGroup .parenthesis) then
    discard (group .parenthesis (commaSeparated (patterns g)))
    return plainPattern (← spanFrom start)
  else if ← peek (isPunct "..") then rangeAfterStart g start
  else return plainPattern (← spanFrom start)

/-- A name, with what may stand before it, and perhaps a pattern after an at sign. -/
def namePattern (g : Grammar) : Parse ReadPattern := do
  let start ← here
  discard (word? "ref")
  discard (word? "mut")
  let name ← if ← peek (isWord "self") then anyWord else ident
  if ← punct? "@" then
    discard g.pattern
    return plainPattern (← spanFrom start)
  else return ⟨.name name.name, none⟩

/-- A pattern without alternatives. -/
def patternRule (g : Grammar) : Parse ReadPattern := do
  let start ← here
  let rest := (← input).rest
  let goesOn ← do
    let next := skipOne rest
    pure (isPunct "::" next || isPunct "!" next || isGroup .brace next || isGroup .parenthesis next ||
      isPunct ".." next)
  if (isIdent rest && goesOn) || (isWord "self" rest && isPunct "::" (skipOne rest)) ||
      isPunct "::" rest || isPunct "<" rest || isWord "Self" rest || isWord "super" rest ||
      isWord "crate" rest then
    pathPattern g
  else if isWord "_" rest then
    underscore
    return plainPattern (← spanFrom start)
  else if isWord "box" rest then
    word "box"
    discard g.pattern
    return plainPattern (← spanFrom start)
  else if isPunct "-" rest || isLiteral rest || isWord "const" rest then
    discard (rangeBound g)
    if ← peek (isPunct "..") then rangeAfterStart g start
    else return plainPattern (← spanFrom start)
  else if isWord "ref" rest || isWord "mut" rest || isWord "self" rest || isIdent rest then
    namePattern g
  else if isPunct "&" rest then
    punct "&"
    discard (word? "mut")
    discard g.pattern
    return plainPattern (← spanFrom start)
  else if isGroup .parenthesis rest then
    discard (group .parenthesis (commaSeparated (patterns g)))
    return plainPattern (← spanFrom start)
  else if isGroup .bracket rest then
    discard <| group .bracket <| commaSeparated do
      let p ← patterns g
      match p.openRange with
      | some dots =>
        wrongAt dots "range pattern is not allowed unparenthesized inside slice pattern"
      | none => return ()
    return plainPattern (← spanFrom start)
  else if isPunct ".." rest && !isPunct "..." rest then
    let (closed, dots) ← rangeDots false
    if ← rangeBound g then return ⟨.other (← spanFrom start), some dots⟩
    else if closed then wrong "expected range upper bound"
    else return plainPattern (← spanFrom start)
  else
    expected ["identifier", "`::`", "`<`", "`_`", "literal", "`const`", "`ref`", "`mut`", "`&`",
      "parentheses", "square brackets", "`..`", "`const`"]

end Notebook.Syntax

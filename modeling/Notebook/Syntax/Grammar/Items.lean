import Notebook.Syntax.Grammar.Expressions

/-!
Reading items. Constants, functions, structs and imports have a meaning; the other items are read to
their end.
-/
namespace Notebook.Syntax
open Notebook.Text

/-- Documentation from attributes: their texts, trimmed, one a line. -/
def documentation (docs : List (List Char)) : List Char :=
  ['\n'].intercalate (docs.map trim)

/-- Who may see an item; whether that is said. -/
def visibility : Parse Bool := do
  if ← word? "pub" then
    let restricted ← ahead? <| group .parenthesis do
      if ["crate", "self", "super"].any (isWord · (← input).rest) then
        discard anyWord
        return (← atEnd)
      else return isWord "in" (← input).rest
    if restricted.getD false then
      group .parenthesis do
        if ← word? "in" then discard plainPath else discard anyWord
    return true
  else return false

/-- Takes a word that tells how safe something is; `safe` may be such a word. -/
def unsafety (safe : Bool) : Parse Unit := do
  let marked ← if safe then word? "safe" else pure false
  unless marked do discard (word? "unsafe")

/-- Whether a function follows, with the words that may stand before it. -/
def signatureAhead (safe : Bool) : Parse Bool := do
  let found ← ahead? do
    discard (word? "const")
    discard (word? "async")
    unsafety safe
    if ← word? "extern" then
      if ← peek isTextLiteral then discard literal
    peek (isWord "fn")
  return found.getD false

/-! ### Functions -/

/-- The receiver of a method. The place of the word `self` in it comes along. -/
def receiver (g : Grammar) : Parse Span := do
  let reference ← punct? "&"
  if reference then discard lifetime?
  discard (word? "mut")
  let self ← here
  word "self"
  if !reference then
    if ← punct? ":" then discard (g.type true)
  return self

/-- A parameter; nothing if it stands for any number of values. -/
def param (g : Grammar) (first receivers : Bool) : Parse (Option Param) := do
  let start ← here
  discard (outerAttributes g)
  if ← punct? "..." then return none
  if let some self ← attempt? (receiver g) then
    if receivers then wrongAt self "unexpected second method receiver"
    if !first then wrongAt self "unexpected method receiver"
    return some (.receiver (← spanFrom start))
  if (← peek isIdent) && (← peekSecond (isPunct "<")) then
    let span := ((← input).rest.head?.map TokenTree.span).getD Span.none
    return some (.typed (.other span) (← typeExpr g true))
  let p ← g.pattern
  punct ":"
  if ← punct? "..." then return none
  return some (.typed p.pattern (← typeExpr g true))

/-- The parameters of a function between parentheses. -/
def params (g : Grammar) : Parse (List Param) :=
  group .parenthesis <| iterate ([] : List Param) fun read => do
    if ← atEnd then return .inr read.reverse
    let receivers := read.any fun p => match p with | .receiver _ => true | _ => false
    match ← param g read.isEmpty receivers with
    | none =>
      unless ← atEnd do punct ","
      return .inr read.reverse
    | some p =>
      let read := p :: read
      if ← atEnd then return .inr read.reverse
      punct ","
      return .inl read

/-- A function up to its body. -/
def signature (g : Grammar) (safe : Bool) : Parse FnHeader := do
  discard (word? "const")
  discard (word? "async")
  unsafety safe
  if ← word? "extern" then
    if ← peek isTextLiteral then discard literal
  word "fn"
  let name ← ident
  let generics ← generics g
  let params ← params g
  let result ← if ← punct? "->" then some <$> typeExpr g true else pure none
  discard (whereClause g)
  return ⟨[], name.name, generics, params, result⟩

/-- The body of a function, with what attributes in it document. -/
def functionBody (g : Grammar) : Parse (List (List Char) × Block) := do
  let ((docs, stmts), span) ← withSpan <| group .brace do
    let docs ← innerAttributes g
    return (docs, ← g.stmts)
  return (docs, .mk stmts span)

/-! ### Types -/

/-- Fields between braces. -/
def namedFields (g : Grammar) : Parse (List Field) :=
  group .brace <| commaSeparated do
    discard (outerAttributes g)
    discard visibility
    let label ← if ← peek (isWord "_") then anyWord else ident
    punct ":"
    return ⟨some label.name, ← typeExpr g true⟩

/-- Fields between parentheses. -/
def countedFields (g : Grammar) : Parse (List Field) :=
  group .parenthesis <| commaSeparated do
    discard (outerAttributes g)
    discard visibility
    return ⟨none, ← typeExpr g true⟩

/-- A struct from its keyword on. -/
def structDecl (g : Grammar) (docs : List (List Char)) : Parse StructDecl := do
  word "struct"
  let name ← ident
  let generics ← generics g
  let conditions ← whereClause g
  let rest := (← input).rest
  let fields ←
    if !conditions && isGroup .parenthesis rest then
      let fields ← countedFields g
      let conditions ← whereClause g
      unless ← punct? ";" do
        expected (if conditions then ["`;`"] else ["`where`", "`;`"])
      pure fields
    else if isGroup .brace rest then namedFields g
    else if ← punct? ";" then pure []
    else
      expected <| (if conditions then [] else ["`where`", "parentheses"]) ++ ["curly braces", "`;`"]
  return ⟨documentation docs, name.name, generics, fields⟩

/-- An enumeration from its keyword on. -/
def enumDecl (g : Grammar) : Parse Unit := do
  word "enum"
  discard ident
  discard (generics g)
  discard (whereClause g)
  discard <| group .brace <| commaSeparated do
    discard (outerAttributes g)
    discard visibility
    discard ident
    if ← peek (isGroup .brace) then discard (namedFields g)
    else if ← peek (isGroup .parenthesis) then discard (countedFields g)
    if ← punct? "=" then discard (g.expr true)

/-- Bounds after a colon, if there is one, up to a stop. -/
def boundsUntil (g : Grammar) (stop : Parse Bool) (rules : BoundRules) : Parse Unit :=
  iterate () fun _ => do
    if ← stop then return .inr ()
    discard (bound g rules)
    if ← stop then return .inr ()
    punct "+"
    return .inl ()

/-- A type item from its keyword on; where its conditions may stand. -/
def typeItem (g : Grammar) (before after : Bool) : Parse Unit := do
  word "type"
  discard ident
  discard (generics g)
  if ← punct? ":" then
    let stop : Parse Bool := do
      return (← peek (isWord "where")) || (← peek (isPunct "=")) || (← peek (isPunct ";"))
    boundsUntil g stop { const := true }
  let conditions ← if before then whereClause g else pure false
  if ← punct? "=" then discard (g.type true)
  if after && !conditions then discard (whereClause g)
  punct ";"

/-! ### Imports -/

/-- A tree of imported paths; whether it is one that an import may hold. -/
def importTreeRule (g : Grammar) (rootAllowed : Bool) : Parse Bool := do
  let rest := (← input).rest
  if isIdent rest || ["self", "super", "crate", "try"].any (isWord · rest) then
    discard anyWord
    if ← punct? "::" then g.importTree false
    else if ← word? "as" then
      if ← peek isIdent then discard ident
      else if ← peek (isWord "_") then underscore
      else wrong "expected identifier or underscore"
      return true
    else return true
  else if ← punct? "*" then return true
  else if isGroup .brace rest then
    let trees ← group .brace <| commaSeparated do
      let rooted ← if rootAllowed then punct? "::" else pure false
      let ok ← g.importTree (rootAllowed && !rooted)
      return ok && !rooted
    return trees.all id
  else
    expected ["identifier", "`self`", "`super`", "`crate`", "`try`", "`*`", "curly braces"]

/-- An import from its keyword on. -/
def importItem (g : Grammar) : Parse Item := do
  word "use"
  let rooted ← punct? "::"
  let root := match (← input).rest with
    | .word w _ :: _ => w
    | _ => ""
  let ((ok, text), span) ← withSpan (withText (g.importTree !rooted))
  punct ";"
  return if ok then .imports ⟨root, text, span⟩ else .other

/-! ### Constants, modules, macros -/

/-- A constant from its keyword on. -/
def constantItem (g : Grammar) : Parse Item := do
  word "const"
  let name ← if (← peek isIdent) || (← peek (isWord "_")) then anyWord
    else expected ["identifier", "`_`"]
  let parameters ← peek (isPunct "<")
  discard (generics g)
  punct ":"
  let type ← typeExpr g true
  let value ← if ← punct? "=" then some <$> g.expr true else pure none
  let conditions ← whereClause g
  punct ";"
  match value with
  | some e => return if parameters || conditions then .other else .constant name.name type e
  | none => return .other

/-- A static from its keyword on. -/
def staticItem (g : Grammar) (typed : Bool) : Parse Unit := do
  word "static"
  discard (word? "mut")
  discard ident
  let untyped ← if typed then pure false else punct? "="
  if untyped then
    discard (g.expr true)
    punct ";"
  else
    punct ":"
    discard (g.type true)
    let ended ← if typed then pure false else punct? ";"
    unless ended do
      if typed then
        if ← punct? "=" then discard (g.expr true)
      else
        punct "="
        discard (g.expr true)
      punct ";"

/-- A macro call as an item. -/
def macroItem : Parse Unit := do
  discard plainPath
  punct "!"
  if ← peek (isWord "try") then discard anyWord
  else if ← peek isIdent then discard ident
  let (d, _, _) ← anyGroup
  unless d = .brace do punct ";"

/-- A macro call inside a trait, implementation or block of foreign items. -/
def macroMember : Parse Unit := do
  discard plainPath
  punct "!"
  let (d, _, _) ← anyGroup
  if d = .brace then discard (punct? ";") else punct ";"

/-- Whether a path may start here. -/
def isMacroStart (rest : List TokenTree) : Bool :=
  isIdent rest || ["self", "super", "crate"].any (isWord · rest) || isPunct "::" rest

/-- Things that a path may start with, as an error names them. -/
def macroStarts : List String := ["identifier", "`self`", "`super`", "`crate`", "`::`"]

/-- The body of a function that may be missing. -/
def bodyOrSemicolon (g : Grammar) : Parse Unit := do
  if ← peek (isGroup .brace) then discard (functionBody g)
  else unless ← punct? ";" do expected ["curly braces", "`;`"]

/-- A constant inside a trait or implementation. -/
def constantMember (g : Grammar) : Parse Unit := do
  if (← peek isIdent) || (← peek (isWord "_")) then discard anyWord
  else expected ["identifier", "`_`"]
  discard (generics g)
  punct ":"
  discard (g.type true)
  if ← punct? "=" then discard (g.expr true)
  discard (whereClause g)
  punct ";"

/-- A member of a trait. -/
def traitMember (g : Grammar) : Parse Unit := do
  discard (outerAttributes g)
  let visible ← visibility
  let isDefault ← word? "default"
  let rest := (← input).rest
  if ← signatureAhead false then
    discard (signature g false)
    bodyOrSemicolon g
  else if isWord "const" rest then
    let second := skipOne rest
    if isIdent second || isWord "_" second then
      word "const"
      constantMember g
    else if ["async", "unsafe", "extern", "fn"].any (isWord · second) then
      discard (signature g false)
      bodyOrSemicolon g
    else
      word "const"
      expected ["identifier", "`_`", "`async`", "`unsafe`", "`extern`", "`fn`"]
  else if isWord "type" rest then typeItem g false true
  else if !visible && !isDefault && isMacroStart rest then macroMember
  else expected (["`fn`", "`const`", "`type`"] ++ (if visible || isDefault then [] else macroStarts))

/-- A member of an implementation. -/
def implMember (g : Grammar) : Parse Unit := do
  discard (outerAttributes g)
  let visible ← visibility
  let isDefault := isWord "default" (← input).rest && !isPunct "!" (skipOne (← input).rest)
  if isDefault then discard anyWord
  let rest := (← input).rest
  if ← signatureAhead false then
    discard (signature g false)
    if ← punct? ";" then return () else discard (functionBody g)
  else if isWord "const" rest then
    word "const"
    constantMember g
  else if isWord "type" rest then typeItem g false true
  else if !visible && !isDefault && isMacroStart rest then macroMember
  else
    expected <| (if isDefault then [] else ["`default`"]) ++ ["`fn`", "`const`", "`type`"] ++
      (if visible || isDefault then [] else macroStarts)

/-- A member of a block of foreign items. -/
def foreignMember (g : Grammar) : Parse Unit := do
  discard (outerAttributes g)
  let visible ← visibility
  let rest := (← input).rest
  if ← signatureAhead true then
    discard (signature g true)
    if ← peek (isGroup .brace) then discard (functionBody g) else punct ";"
  else if isWord "static" rest ||
      ((isWord "unsafe" rest || isWord "safe" rest) && isWord "static" (skipOne rest)) then
    unless ← word? "unsafe" do discard (word? "safe")
    staticItem g true
  else if isWord "type" rest then typeItem g true true
  else if !visible && isMacroStart rest then macroMember
  else expected (["`fn`", "`static`", "`type`"] ++ (if visible then [] else macroStarts))

/-- Members between braces, after attributes of their own. -/
def members (g : Grammar) (member : Parse Unit) : Parse Unit :=
  group .brace do
    discard (innerAttributes g)
    discard (many (return !(← atEnd)) member)

/-- A trait from behind its name and parameters on. -/
def traitRest (g : Grammar) : Parse Unit := do
  if ← punct? ":" then
    boundsUntil g (return (← peek (isWord "where")) || (← peek (isGroup .brace))) { const := true }
  discard (whereClause g)
  members g (traitMember g)

/-- A trait from its keyword on, or another name for bounds. -/
def traitItem (g : Grammar) (aliasAllowed : Bool) : Parse Unit := do
  word "trait"
  discard ident
  discard (generics g)
  if !aliasAllowed then traitRest g
  else
    let rest := (← input).rest
    if isGroup .brace rest || isPunct ":" rest || isWord "where" rest then traitRest g
    else if ← punct? "=" then
      boundsUntil g (return (← peek (isWord "where")) || (← peek (isPunct ";"))) {}
      discard (whereClause g)
      punct ";"
    else expected ["curly braces", "`:`", "`where`", "`=`"]

/-- An implementation, from the words before its keyword on. -/
def implItem (g : Grammar) : Parse Unit := do
  discard (word? "default")
  discard (word? "unsafe")
  word "impl"
  if ← parametersAhead then discard (generics g)
  let rest := (← input).rest
  if isWord "const" rest || (isPunct "?" rest && isWord "const" (skipOne rest)) then
    discard (punct? "?")
    word "const"
  let rest := (← input).rest
  if isPunct "!" rest && !isGroup .brace (skipOne rest) then punct "!"
  discard (g.type true)
  if ← word? "for" then discard (g.type true)
  discard (whereClause g)
  members g (implMember g)

/-- A module from the words before its keyword on. -/
def moduleItem (g : Grammar) : Parse Unit := do
  discard (word? "unsafe")
  word "mod"
  if ← peek (isWord "try") then discard anyWord else discard ident
  if ← punct? ";" then return ()
  else if ← peek (isGroup .brace) then members g g.item
  else expected ["`;`", "curly braces"]

/-- A block of foreign items. -/
def foreignItem (g : Grammar) : Parse Unit := do
  discard (word? "unsafe")
  word "extern"
  if ← peek isTextLiteral then discard literal
  members g (foreignMember g)

/-- An item that starts with the word `extern` and is no function. -/
def externItem (g : Grammar) : Parse Unit := do
  let rest := skipOne (← input).rest
  if isWord "crate" rest then
    word "extern"
    word "crate"
    if ← peek (isWord "self") then discard anyWord else discard ident
    if ← word? "as" then
      if ← peek isIdent then discard ident else underscore
    punct ";"
  else if isGroup .brace rest || (isTextLiteral rest && isGroup .brace (skipOne rest)) then
    foreignItem g
  else
    word "extern"
    if isTextLiteral rest then
      discard literal
      expected ["curly braces"]
    else expected ["`crate`", "curly braces", "string literal"]

/-- A macro declared by its keyword. -/
def macroDecl : Parse Unit := do
  discard anyWord
  discard ident
  let parens ← peek (isGroup .parenthesis)
  if parens then discard anyGroup
  if ← peek (isGroup .brace) then discard anyGroup
  else expected (if parens then ["curly braces"] else ["parentheses", "curly braces"])

/-- An item behind its attributes. -/
def itemRest (g : Grammar) (docs : List (List Char)) : Parse Item := do
  let visible ← visibility
  let rest := (← input).rest
  let second := skipOne rest
  let other (p : Parse Unit) : Parse Item := do
    p
    return .other
  if ← signatureAhead false then
    let header ← signature g false
    if ← punct? ";" then return .other
    let (inner, body) ← functionBody g
    return .function { header with doc := documentation (docs ++ inner) } body
  else if isWord "extern" rest then other (externItem g)
  else if isWord "use" rest then importItem g
  else if isWord "static" rest then other (staticItem g false)
  else if isWord "const" rest then constantItem g
  else if isWord "unsafe" rest then
    if isWord "trait" second || (isWord "auto" second && isWord "trait" (skipOne second)) then
      other do
        word "unsafe"
        discard (word? "auto")
        traitItem g false
    else if isWord "impl" second then other (implItem g)
    else if isWord "extern" second then other (foreignItem g)
    else if isWord "mod" second then other (moduleItem g)
    else
      word "unsafe"
      expected ["`trait`", "`auto`", "`impl`", "`extern`", "`mod`"]
  else if isWord "mod" rest then other (moduleItem g)
  else if isWord "type" rest then other (typeItem g true false)
  else if isWord "struct" rest then return .struct (← structDecl g docs)
  else if isWord "enum" rest then other (enumDecl g)
  else if isWord "union" rest && isIdent second then
    other do
      word "union"
      discard ident
      discard (generics g)
      discard (whereClause g)
      discard (namedFields g)
  else if isWord "trait" rest then other (traitItem g true)
  else if isWord "auto" rest && isWord "trait" second then
    other do
      word "auto"
      traitItem g false
  else if isWord "impl" rest || (isWord "default" rest && !isPunct "!" second) then other (implItem g)
  else if isWord "macro" rest then other macroDecl
  else if !visible && isMacroStart rest then other macroItem
  else
    expected <| ["`fn`", "`extern`", "`use`", "`static`", "`const`", "`unsafe`", "`mod`", "`type`",
      "`struct`", "`enum`", "`union`", "`trait`", "`auto`", "`impl`", "`default`", "`macro`"] ++
      (if visible then [] else macroStarts)

/-- An item with its attributes. -/
def itemRule (g : Grammar) : Parse Unit := do
  let docs ← outerAttributes g
  discard (itemRest g docs)

end Notebook.Syntax

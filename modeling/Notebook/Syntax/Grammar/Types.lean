import Notebook.Syntax.Grammar.Basic

/-!
Reading attributes, paths, types and generics.
-/
namespace Notebook.Syntax
open Notebook.Text

/-! ### Paths -/

/-- What counts of a path: its name if it is one plain word, its last word, how many words it has,
whether it starts with `::` or with a type in angle brackets, whether any segment has arguments, and
whether the last one has some. -/
structure Path where
  plain : Option Ident
  last : String
  segments : Nat
  rooted : Bool
  qualified : Bool
  hasArgs : Bool
  endsInArgs : Bool
  /-- The last arguments stand in parentheses. -/
  endsInParens : Bool := false

/-- Words that a path may start with although they are reserved. -/
def pathWords : List String := ["super", "self", "Self", "crate"]

/-- Whether a segment of a plain path comes next. -/
def isPathWord (rest : List TokenTree) : Bool := isIdent rest || pathWords.any (isWord · rest)

/-- A path of words without arguments. -/
def plainPath : Parse Path := do
  let rooted ← punct? "::"
  let words ← iterate [] fun read => do
    if !(← peek isPathWord) then
      if read.isEmpty then
        discard ident
        return .inr read
      else wrong "expected path segment after `::`"
    else
      let read := (← anyWord) :: read
      if ← punct? "::" then return .inl read else return .inr read
  let last := (words.head?.map Ident.name).getD ""
  let plain := if words.length = 1 && !rooted then words.head? else none
  return ⟨plain, last, words.length, rooted, false, false, false, false⟩

/-! ### Attributes -/

/-- An attribute between its brackets; its text if it documents something. -/
def attributeBody (g : Grammar) : Parse (Option (List Char)) := do
  let path ← do
    if ← word? "unsafe" then pure ⟨none, "unsafe", 1, false, false, false, false, false⟩
    else plainPath
  if (← peek (isGroup .parenthesis)) || (← peek (isGroup .bracket)) || (← peek (isGroup .brace)) then
    discard anyGroup
    return none
  else if ← punct? "=" then
    let alone ← ahead? do
      let value ← literal
      return (value, ← atEnd)
    match alone with
    | some (_, true) =>
      match ← literal with
      | .text cs => return if path.plain.any (·.name == "doc") then some cs else none
      | _ => return none
    | _ =>
      if (← peek (isPunct "#")) && (← peekSecond (isGroup .bracket)) then
        wrong "unexpected attribute inside of attribute"
      else
        discard (g.expr true)
        return none
  else return none

/-- An attribute before something. -/
def outerAttribute (g : Grammar) : Parse (Option (List Char)) := do
  punct "#"
  group .bracket (attributeBody g)

/-- Attributes before something, as far as they document it. -/
def outerAttributes (g : Grammar) : Parse (List (List Char)) := do
  return (← many (peek (isPunct "#")) (outerAttribute g)).filterMap id

/-- Attributes at the start of a body. -/
def innerAttributes (g : Grammar) : Parse (List (List Char)) := do
  let next : Parse Bool := do return (← peek (isPunct "#")) && (← peekSecond (isPunct "!"))
  let attributes ← many next do
    punct "#"
    punct "!"
    group .bracket (attributeBody g)
  return attributes.filterMap id

/-! ### Generic arguments -/

/-- A constant as a generic argument. -/
def constArgument (g : Grammar) : Parse Unit := do
  if ← peek isLiteral then discard literal
  else if ← peek isIdent then discard ident
  else if ← peek (isGroup .brace) then
    group .brace do
      discard (innerAttributes g)
      discard g.stmts
  else expected []

/-- A path after a keyword such as `for`: whether angle brackets with parameters come next rather than a
type. -/
def parametersAhead : Parse Bool := do
  if !(← peek (isPunct "<")) then return false
  else if (← peekSecond (isPunct ">")) || (← peekSecond (isPunct "#")) || (← peekSecond (isWord "const"))
  then return true
  else if (← peekSecond isLifetime) || (← peekSecond isIdent) then
    return (← peekThird (isPunct ">")) || (← peekThird (isPunct ",")) ||
      ((← peekThird (isPunct ":")) && !(← peekThird (isPunct "::"))) || (← peekThird (isPunct "="))
  else return false

/-- A bound of a lifetime or type, with what it may be. -/
structure BoundRules where
  capture : Bool := false
  const : Bool := false

/-- What a bound turned out to be. -/
inductive BoundKind
  | trait
  | lifetime (name : Span)
  | capture (last : Span)
  | other
  deriving DecidableEq

/-- The part of a sequence of arguments that is one of them: whether it is a lifetime, its text, and
whether a comma follows. -/
structure ArgumentText where
  isLifetime : Bool
  pieces : List Piece
  comma : Bool

/-- Arguments between angle brackets in writing: lifetimes come first. -/
def ArgumentText.join (args : List ArgumentText) : List Piece :=
  let comma : Piece := ⟨[','], false⟩
  let text (a : ArgumentText) : List Piece := a.pieces ++ (if a.comma then [comma] else [])
  let (lifetimes, others) := args.partition (·.isLifetime)
  let settled := (lifetimes.getLast?.map (·.comma)).getD true
  let rec go : Bool → List ArgumentText → List Piece
    | _, [] => []
    | settled, a :: as => (if settled then [] else [comma]) ++ text a ++ go a.comma as
  lifetimes.flatMap text ++ go settled others

/-- The parameters of a binder, with their bounds, between angle brackets. -/
def genericParamsWith (g : Grammar) (bound : BoundRules → Parse BoundKind) : Parse Unit := do
  punct "<"
  discard <| separatedUntil (peek (isPunct ">")) "," do
    discard (outerAttributes g)
    if ← peek isLifetime then
      discard lifetime
      if ← punct? ":" then
        let stop : Parse Bool := do
          return (← atEnd) || (← peek (isPunct ",")) || (← peek (isPunct ">"))
        discard (chain stop "+" lifetime)
    else if ← peek isIdent then
      discard ident
      if ← punct? ":" then
        let stop : Parse Bool := do
          return (← atEnd) || (← peek (isPunct ",")) || (← peek (isPunct ">")) || (← peek (isPunct "="))
        discard (chain stop "+" (bound { const := true }))
      if ← punct? "=" then discard (g.type true)
    else if ← peek (isWord "const") then
      word "const"
      discard ident
      punct ":"
      discard (g.type true)
      if ← punct? "=" then constArgument g
    else if ← peek (isWord "_") then discard anyWord
    else expected ["lifetime", "identifier", "`const`"]
  punct ">"

/-- A binder of lifetimes, if one comes next. -/
def binder? (g : Grammar) (bound : BoundRules → Parse BoundKind) : Parse Bool := do
  if ← word? "for" then
    genericParamsWith g bound
    return true
  else return false

/-- The type after an arrow, if an arrow comes next; whether it is in parentheses. -/
def resultType (g : Grammar) (plus : Bool) : Parse (Option ReadType) := do
  if ← punct? "->" then return some (← g.type plus) else return none

/-- Arguments in parentheses, with a type after them: whether a path may go on after them. -/
def parenthesizedArguments (g : Grammar) : Parse Bool := do
  discard (group .parenthesis (commaSeparated (g.type true)))
  match ← resultType g false with
  | none => return true
  | some t => return match t.form with | .paren _ => true | _ => false

/-- Whether arguments in parentheses come next, after two colons or not. -/
def parensAhead : Parse Bool := do
  return (← peek (isGroup .parenthesis)) ||
    ((← peek (isPunct "::")) && (← peekThird (isGroup .parenthesis)))

/-- Drops two colons that are not written again. -/
def dropColons : Parse Unit := discard (captured (punct? "::"))

section Bounds

variable (g : Grammar)

/-- Arguments between angle brackets. -/
def angleArguments (bound : BoundRules → Parse BoundKind) : Parse Unit := do
  punct "<"
  let argument : Parse Bool := do
    if (← peek isLifetime) && !(← peekSecond (isPunct "+")) then
      discard lifetime
      return true
    if (← peek isLiteral) || (← peek (isGroup .brace)) then
      constArgument g
      return false
    let type ← g.type true
    if type.isSegment then
      if ← punct? "=" then
        if (← peek isLiteral) || (← peek (isGroup .brace)) then constArgument g
        else discard (g.type true)
      else if ← punct? ":" then
        let stop : Parse Bool := do return (← peek (isPunct ",")) || (← peek (isPunct ">"))
        discard (chain stop "+" (bound { const := true }))
    return false
  let (args, _) ← captured <| iterate ([] : List ArgumentText) fun read => do
    if ← peek (isPunct ">") then return .inr read.reverse
    let (isLifetime, pieces) ← captured argument
    if ← peek (isPunct ">") then return .inr (⟨isLifetime, pieces, false⟩ :: read).reverse
    punct ","
    return .inl (⟨isLifetime, pieces, true⟩ :: read)
  for p in ArgumentText.join args do print p
  punct ">"

/-- One segment of a path. In an expression arguments stand only after two colons. -/
def pathSegment (bound : BoundRules → Parse BoundKind) (inExpr : Bool) : Parse (Ident × Bool) := do
  let rest := (← input).rest
  if ["super", "self", "crate", "try"].any (isWord · rest) then return (← anyWord, false)
  let name ← if ← peek (isWord "Self") then anyWord else ident
  let direct := !inExpr && (← peek (isPunct "<")) && !(← peek (isPunct "<="))
  let colons := (← peek (isPunct "::")) && (← peekThird (isPunct "<"))
  if direct || colons then
    discard (punct? "::")
    angleArguments g bound
    return (name, true)
  else return (name, false)

/-- The segments after the first ones of a path. -/
def pathRest (bound : BoundRules → Parse BoundKind) (inExpr : Bool) (path : Path) : Parse Path :=
  iterate path fun path => do
    if (← peek (isPunct "::")) && !(← peekThird (isGroup .parenthesis)) then
      punct "::"
      let (name, args) ← pathSegment g bound inExpr
      return .inl { path with
        plain := none, last := name.name, segments := path.segments + 1
        hasArgs := path.hasArgs || args, endsInArgs := args, endsInParens := false }
    else return .inr path

/-- A path that may start with two colons. -/
def unqualifiedPath (bound : BoundRules → Parse BoundKind) (inExpr : Bool) : Parse Path := do
  let rooted ← punct? "::"
  let (name, args) ← pathSegment g bound inExpr
  let plain := if rooted || args then none else some name
  pathRest g bound inExpr ⟨plain, name.name, 1, rooted, false, args, args, false⟩

/-- The bound of a type: a lifetime, or a trait with what may stand before and after it. -/
def boundWith (self : BoundRules → Parse BoundKind) (rules : BoundRules) : Parse BoundKind := do
  if ← peek isLifetime then
    let start ← here
    discard lifetime
    let s := (← input).last
    return .lifetime (if start = s then start else s)
  if ← peek (isWord "use") then
    let start ← here
    word "use"
    punct "<"
    discard <| separatedUntil (peek (isPunct ">")) "," do
      if ← peek isLifetime then discard lifetime
      else if (← peek isIdent) || (← peek (isWord "Self")) then discard anyWord
      else expected ["lifetime", "identifier", "`Self`"]
    punct ">"
    let span ← spanFrom start
    if rules.capture then return .capture (← input).last
    else wrongAt span "`use<...>` precise capturing syntax is not allowed here"
  let trait : Parse BoundKind := do
    let binder ← binder? g self
    let mut kind := BoundKind.trait
    if ← peek (isGroup .bracket) then
      let start ← here
      group .bracket (word "const")
      kind := .other
      unless rules.const do wrongAt start "`[const]` is not allowed here"
    else if ← peek (isWord "const") then
      let start ← here
      word "const"
      kind := .other
      unless rules.const do wrongAt start "`const` is not allowed here"
    let mark ← here
    let maybe ← punct? "?"
    let binder ← if !binder && maybe then binder? g self else pure binder
    let path ← unqualifiedPath g self false
    if !path.endsInArgs && (← parensAhead) then
      dropColons
      discard (parenthesizedArguments g)
    if binder && maybe then
      wrongAt mark "`for<...>` binder not allowed with `?` trait polarity modifier"
    return kind
  if ← peek (isGroup .parenthesis) then group .parenthesis trait else trait

end Bounds

/-- Bounds nest no deeper than the tokens do; the depth is passed down. -/
def boundFor (g : Grammar) : Nat → BoundRules → Parse BoundKind
  | 0 => fun _ => failWith fun _ => .unexpected none
  | n + 1 => boundWith g (boundFor g n)

/-- The bound of a type. -/
def bound (g : Grammar) (rules : BoundRules) : Parse BoundKind := do
  boundFor g (TokenTree.sizes (← input).rest + 1) rules

/-- Parameters between angle brackets, if some come next: the place that they take up unless there are
none. -/
def generics (g : Grammar) : Parse (Option Span) := do
  if ← peek (isPunct "<") then
    let empty ← peekSecond (isPunct ">")
    let ((), span) ← withSpan (genericParamsWith g (bound g))
    return if empty then none else some span
  else return none

/-- A path in a type or an expression; it may start with a type between angle brackets. -/
def path (g : Grammar) (inExpr : Bool) : Parse Path := do
  if ← punct? "<" then
    discard (g.type true)
    if ← word? "as" then discard (unqualifiedPath g (bound g) false)
    punct ">"
    punct "::"
    let (name, args) ← pathSegment g (bound g) inExpr
    let start : Path := ⟨none, name.name, 1, true, true, args, args, false⟩
    iterate start fun path => do
      if ← punct? "::" then
        let (name, args) ← pathSegment g (bound g) inExpr
        return .inl { path with
          last := name.name, segments := path.segments + 1
          hasArgs := path.hasArgs || args, endsInArgs := args }
      else return .inr path
  else unqualifiedPath g (bound g) inExpr

/-- A path between two colons that may not start with a type. -/
def simplePath (g : Grammar) : Parse Path := unqualifiedPath g (bound g) false

/-- Whether another bound may follow a plus sign. -/
def boundAhead (const : Bool) : Parse Bool := do
  return (← peek isAnyWord) || (← peek (isPunct "::")) || (← peek (isPunct "?")) ||
    (← peek isLifetime) || (← peek (isGroup .parenthesis)) ||
    (const && ((← peek (isGroup .bracket)) || (← peek (isWord "const"))))

/-- Bounds joined by plus signs. -/
def bounds (g : Grammar) (plus : Bool) (rules : BoundRules) : Parse (List BoundKind) :=
  iterate [] fun read => do
    let read := (← bound g rules) :: read
    let more ← if plus then punct? "+" else pure false
    if !more then return .inr read.reverse
    else if ← boundAhead rules.const then return .inl read
    else return .inr read.reverse

/-- Checks that bounds hold more than lifetimes. -/
def requireTrait (start : Span) (what : String) (kinds : List BoundKind) : Parse Unit := do
  let isTrait : BoundKind → Bool
    | .lifetime _ | .capture _ => false
    | _ => true
  if kinds.any isTrait then return
  let last := match kinds.getLast? with
    | some (.lifetime s) | some (.capture s) => s
    | _ => start
  wrongAt (start.upTo last) what

/-- Bounds of an object type. -/
def objectBounds (g : Grammar) (start : Span) (plus : Bool) : Parse (List BoundKind) := do
  let kinds ← bounds g plus {}
  requireTrait start "at least one trait is required for an object type" kinds
  return kinds

/-- The rest of bounds after the first one, each after a plus sign. -/
def boundsAfterPlus (g : Grammar) : Parse Unit :=
  discard (many (punct? "+") (discard (bound g {})))

/-- The pointer to a function, from its qualifiers on. -/
def functionPointer (g : Grammar) : Parse Unit := do
  discard (word? "unsafe")
  if ← word? "extern" then
    if ← peek isTextLiteral then discard literal
  word "fn"
  group .parenthesis <| iterate true fun first => do
    if ← atEnd then return .inr ()
    discard (outerAttributes g)
    let named := ((← peek isIdent) || (← peek (isWord "_"))) && (← peekSecond (isPunct ":"))
    if (← peek (isPunct "...")) || (named && (← peekThird (isPunct "..."))) then
      if !(← peek (isPunct "...")) then
        discard anyWord
        punct ":"
      punct "..."
      discard (punct? ",")
      return .inr ()
    discard (outerAttributes g)
    let mutSelf := first && (← peek (isWord "mut")) && (← peekSecond (isWord "self"))
    if mutSelf then word "mut"
    let nameable := (← peek isIdent) || (← peek (isWord "_")) || (first && (← peek (isWord "self")))
    if nameable && (← peekSecond (isPunct ":")) && !(← peekSecond (isPunct "::")) then
      discard anyWord
      punct ":"
      discard (g.type true)
    else if mutSelf then word "self"
    else discard (g.type true)
    if ← atEnd then return .inr ()
    punct ","
    return .inl false
  discard (resultType g false)

/-- A type that starts with a path. -/
def pathType (g : Grammar) : Parse Path := do
  let start ← path g false
  iterate start fun p => do
    if !p.endsInArgs && (← parensAhead) then
      dropColons
      let goesOn ← parenthesizedArguments g
      let p := { p with plain := none, hasArgs := true, endsInArgs := true, endsInParens := true }
      return .inl (← if goesOn then pathRest g (bound g) false p else pure p)
    else return .inr p

/-- A type in parentheses, or a tuple, or bounds of which the first is in parentheses. -/
def parenType (g : Grammar) (plus : Bool) : Parse ReadType := do
  let inside ← group .parenthesis do
    if ← atEnd then return (.unit, false)
    if ← peek isLifetime then
      discard (objectBounds g (← here) true)
      return (TypeForm.paren .other, false)
    if ← peek (isPunct "?") then
      discard (bound g {})
      return (.other, true)
    let first ← g.type true
    if ← punct? "," then
      discard (commaSeparated (g.type true))
      return (.other, false)
    return (.paren first.form, first.isPath || first.isBound)
  match inside with
  | (.other, true) =>
    boundsAfterPlus g
    return { form := .other, isBound := false }
  | (form, boundLike) =>
    if boundLike && plus && (← peek (isPunct "+")) then
      boundsAfterPlus g
      return { form := .other }
    else return { form }

/-- Words that may come after a binder in a type. -/
def afterBinder : List String := ["fn", "unsafe", "extern", "super", "self", "Self", "crate"]

/-- A type. -/
def typeRule (g : Grammar) (plus : Bool) : Parse ReadType := do
  let binder ← binder? g (bound g)
  if binder then
    let rest := (← input).rest
    if !(isIdent rest || afterBinder.any (isWord · rest)) then
      expected ("identifier" :: afterBinder.map quotedThing)
  let rest := (← input).rest
  if isGroup .parenthesis rest then parenType g plus
  else if isWord "fn" rest || isWord "unsafe" rest || isWord "extern" rest then
    functionPointer g
    return { form := .other }
  else if isPathWord rest || isPunct "::" rest || isPunct "<" rest then
    let p ← pathType g
    if p.qualified then return { form := .other }
    if (← peek (isPunct "!")) && !(← peek (isPunct "!=")) && !p.hasArgs then
      punct "!"
      discard anyGroup
      return { form := .other }
    if binder || (plus && (← peek (isPunct "+"))) then
      let single ← if plus then
          iterate true fun single => do
            if ← punct? "+" then
              if ← boundAhead false then
                discard (bound g {})
                return .inl false
              else return .inr false
            else return .inr single
        else pure true
      return { form := .other, isBound := single }
    return { form := .named p.last, isPath := true
             isSegment := !p.rooted && p.segments = 1 && !p.endsInParens }
  else if isWord "dyn" rest then
    let start ← here
    word "dyn"
    discard (punct? "*")
    discard (objectBounds g start plus)
    return { form := .other }
  else if isGroup .bracket rest then
    group .bracket do
      discard (g.type true)
      if ← punct? ";" then discard (g.expr true)
    return { form := .other }
  else if isPunct "*" rest then
    punct "*"
    unless ← word? "const" do
      unless ← word? "mut" do expected ["`const`", "`mut`"]
    discard (g.type false)
    return { form := .other }
  else if isPunct "&" rest then
    punct "&"
    discard lifetime?
    discard (word? "mut")
    let inner ← g.type false
    return { form := .reference inner.form }
  else if isPunct "!" rest && !isPunct "=" rest then
    punct "!"
    return { form := .other }
  else if isWord "impl" rest then
    let start ← here
    word "impl"
    let kinds ← bounds g plus { capture := true, const := true }
    requireTrait start "at least one trait must be specified" kinds
    return { form := .other }
  else if isWord "_" rest then
    underscore
    return { form := .infer }
  else if isLifetime rest then
    let kinds ← objectBounds g (← here) true
    return { form := .other, isBound := kinds.length = 1 }
  else
    expected ["`for`", "parentheses", "`fn`", "`unsafe`", "`extern`", "identifier", "`::`", "`<`",
      "`dyn`", "square brackets", "`*`", "`&`", "`!`", "`impl`", "`_`", "lifetime"]

/-- A type with its text and its place. -/
def typeExpr (g : Grammar) (plus : Bool) : Parse TypeExpr := do
  let ((type, text), span) ← withSpan (withText (g.type plus))
  return ⟨type.form, text, span⟩

/-- Conditions on type parameters, if they come next. -/
def whereClause (g : Grammar) : Parse Bool := do
  if ← word? "where" then
    let stop : Parse Bool := do
      return (← atEnd) || (← peek (isGroup .brace)) || (← peek (isPunct ",")) ||
        (← peek (isPunct ";")) || ((← peek (isPunct ":")) && !(← peek (isPunct "::"))) ||
        (← peek (isPunct "="))
    discard <| chain stop "," do
      if (← peek isLifetime) && (← peekSecond (isPunct ":")) then
        discard lifetime
        punct ":"
        discard (chain stop "+" lifetime)
      else
        discard (binder? g (bound g))
        discard (g.type true)
        punct ":"
        discard (chain stop "+" (discard (bound g { const := true })))
    return true
  else return false

end Notebook.Syntax

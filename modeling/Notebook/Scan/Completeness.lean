import Notebook.Scan.Lexeme

/-!
Where the first unit of a text ends. An item ends at its closing brace, a block at its closing brace
unless something goes on with it, and everything else at a semicolon or, where nothing dangles, at the
end of the text.
-/
namespace Notebook.Scan
open Notebook.Text

/-- What a text that may still grow holds. -/
inductive Completeness
  /-- Nothing but blanks and comments. -/
  | empty
  /-- The start of a unit that needs more input. -/
  | incomplete
  /-- A unit that takes up the first `length` bytes. -/
  | complete (length : Nat)
  deriving DecidableEq, Repr

/-- How a unit ends. -/
inductive UnitClass
  | item
  | block
  | simple
  deriving DecidableEq, Repr

/-- Keywords that start an item. -/
def itemKeywords : List String := ["fn", "struct", "enum", "impl", "trait", "mod", "pub"]

/-- Keywords that start a block. -/
def blockKeywords : List String := ["if", "while", "for", "loop", "match", "unsafe"]

/-- Keywords that cannot end a unit. -/
def danglingKeywords : List String := [
  "let", "else", "in", "as", "mut", "fn", "struct", "enum", "use", "if", "while", "for", "match",
  "impl", "const", "static", "pub", "type", "trait", "mod"]

/-- Punctuation that cannot end a unit. -/
def danglingPunctuation : List Char := "+-*/%=<>&|^!,.:".toList

/-- The class of the unit that starts with a token. -/
def UnitClass.ofToken (t : Token) : UnitClass :=
  if t.kind = .keyword && t.isAny itemKeywords then .item
  else if t.kind = .keyword && t.isAny blockKeywords then .block
  else if t.kind = .punctuation && t.is "#" then .item
  else if t.kind = .punctuation && t.is "\x7b" then .block
  else .simple

/-- Whether a token may go on with a unit whose closing brace has just come. -/
def UnitClass.continuesWith (c : UnitClass) (t : Token) : Bool :=
  t.is "else" || t.is ";" || (c = .block && t.is ".")

/-- The bracket that a closing bracket answers. -/
def openingOf (t : Token) : Char :=
  if t.is ")" then '(' else if t.is "]" then '[' else '\x7b'

/-- Whether a unit that ends with this token wants more. -/
def Token.dangles (t : Token) : Bool :=
  match t.kind with
  | .punctuation => t.text.all danglingPunctuation.contains
  | .keyword => t.isAny danglingKeywords
  | _ => false

/-- How far the reading of a unit has come: the open brackets, innermost first, and the class and the
last token of the unit once it has begun. -/
structure Progress where
  stack : List Char := []
  begun : Option (UnitClass × Token) := none

/-- What a text of `total` bytes holds whose remaining tokens are given. -/
def completenessFrom (total : Nat) (p : Progress) : List Token → Completeness
  | [] =>
    match p.begun with
    | none => .empty
    | some (unit, last) =>
      if !p.stack.isEmpty || unit ≠ .simple || last.dangles then .incomplete
      else .complete last.stop
  | t :: rest =>
    if !t.terminated then .incomplete
    else if t.kind.isTrivia then completenessFrom total p rest
    else
      let unit := (p.begun.map (·.1)).getD (UnitClass.ofToken t)
      let begun := some (unit, t)
      if t.kind ≠ .punctuation then completenessFrom total { p with begun } rest
      else if t.isAny ["(", "[", "\x7b"] then
        completenessFrom total ⟨t.text ++ p.stack, begun⟩ rest
      else if t.isAny [")", "]", "\x7d"] then
        if p.stack.head? ≠ some (openingOf t) then .complete total
        else
          let stack := p.stack.tail
          let continues := (rest.find? (·.isSignificant)).any unit.continuesWith
          if t.is "\x7d" && stack.isEmpty && unit ≠ .simple && !continues then .complete t.stop
          else completenessFrom total ⟨stack, begun⟩ rest
      else if t.is ";" && p.stack.isEmpty then .complete t.stop
      else completenessFrom total ⟨p.stack, begun⟩ rest

/-- What a text holds. A closing bracket that answers no opening one makes the whole text one unit, for
the parser to refuse. -/
def completeness (cs : List Char) : Completeness :=
  completenessFrom (width cs) {} (tokens cs)

end Notebook.Scan

import Notebook.Text.Position
import Notebook.Text.Quoted

/-!
Token trees of the guest language: words, punctuation characters, literals, and groups between brackets.
Every token knows where it stands, and trees can be written out again with one space between tokens.
-/
namespace Notebook.Syntax
open Notebook.Text

/-- The brackets around a group. -/
inductive Delimiter
  | parenthesis
  | bracket
  | brace
  deriving DecidableEq, Repr

namespace Delimiter

def opening : Delimiter → Char
  | parenthesis => '('
  | bracket => '['
  | brace => '\x7b'

def closing : Delimiter → Char
  | parenthesis => ')'
  | bracket => ']'
  | brace => '\x7d'

def all : List Delimiter := [parenthesis, bracket, brace]

/-- The delimiter that a character opens. -/
def opened? (c : Char) : Option Delimiter := all.find? (·.opening = c)

/-- The delimiter that a character closes. -/
def closed? (c : Char) : Option Delimiter := all.find? (·.closing = c)

/-- How an error names what it misses. -/
def describe : Delimiter → String
  | parenthesis => "parentheses"
  | bracket => "square brackets"
  | brace => "curly braces"

end Delimiter

/-- A token, or a group of tokens between brackets. A punctuation character is joint if another one
follows it at once. -/
inductive TokenTree
  | word (text : String) (span : Span)
  | punct (char : Char) (joint : Bool) (span : Span)
  | literal (text : List Char) (span : Span)
  | group (delimiter : Delimiter) (body : List TokenTree) (span : Span)

namespace TokenTree

def span : TokenTree → Span
  | word _ s => s
  | punct _ _ s => s
  | literal _ s => s
  | group _ _ s => s

/-- The span of the opening bracket of a group, and of any other token as a whole. -/
def openSpan : TokenTree → Span
  | group _ _ s => ⟨s.start, ⟨s.start.line, s.start.column + 1⟩⟩
  | t => t.span

/-- The span of the bracket that ends a group with the given span. -/
def closeSpan (s : Span) : Span := ⟨⟨s.stop.line, s.stop.column - 1⟩, s.stop⟩

end TokenTree

/-- A token in writing. A space follows it unless it is glued to the next one. -/
structure Piece where
  text : List Char
  glued : Bool

namespace Piece

/-- Pieces in a row. -/
def join : List Piece → List Char
  | [] => []
  | [p] => p.text
  | p :: ps => p.text ++ (if p.glued then join ps else ' ' :: join ps)

/-- Pieces between brackets; braces keep a space on either side. -/
def group (d : Delimiter) (inside : List Char) : Piece :=
  match d with
  | .brace =>
    ⟨d.opening :: ' ' :: inside ++ (if inside.isEmpty then [d.closing] else [' ', d.closing]), false⟩
  | _ => ⟨d.opening :: inside ++ [d.closing], false⟩

end Piece

mutual

/-- A token tree in writing. -/
def TokenTree.piece : TokenTree → Piece
  | .word text _ => ⟨text.toList, false⟩
  | .punct c joint _ => ⟨[c], joint⟩
  | .literal text _ => ⟨text, false⟩
  | .group d body _ => Piece.group d (Piece.join (TokenTree.pieces body))

/-- Token trees in writing. -/
def TokenTree.pieces : List TokenTree → List Piece
  | [] => []
  | t :: ts => t.piece :: TokenTree.pieces ts

end

mutual

/-- Number of tokens in a tree. A group is one more than what it holds; a semicolon, behind which no rule goes
deeper, is none. -/
def TokenTree.size : TokenTree → Nat
  | .group _ body _ => TokenTree.sizes body + 1
  | .punct ';' _ _ => 0
  | _ => 1

/-- Number of tokens in a list of trees. -/
def TokenTree.sizes : List TokenTree → Nat
  | [] => 0
  | t :: ts => t.size + TokenTree.sizes ts

end

/-- Why a text is no program. -/
inductive Problem
  /-- The text cannot be cut into tokens. -/
  | notTokens
  /-- Nothing may follow here; a group that should end here is closed by the delimiter. -/
  | unexpected (inside : Option Delimiter)
  /-- One of several things should stand here; `atEnd` if the input ends instead. -/
  | expected (things : List String) (atEnd : Bool)
  /-- Something else is wrong here; `atEnd` if the input ends here. -/
  | wrong (what : String) (atEnd : Bool)
  deriving DecidableEq, Repr

namespace Problem

/-- What is said about things of which one is missing. -/
def listing : List String → String
  | [] => ""
  | [a] => "expected " ++ a
  | [a, b] => "expected " ++ a ++ " or " ++ b
  | many => "expected one of: " ++ ", ".intercalate many

/-- The wording of a problem. -/
def message : Problem → String
  | notTokens => "cannot parse string into token stream"
  | unexpected none => "unexpected token"
  | unexpected (some d) => "unexpected token, expected `" ++ String.singleton d.closing ++ "`"
  | expected [] atEnd => if atEnd then "unexpected end of input" else "unexpected token"
  | expected things atEnd =>
    if atEnd then "unexpected end of input, " ++ listing things else listing things
  | wrong what atEnd => if atEnd then "unexpected end of input, " ++ what else what

end Problem

/-- A problem and where it was found. -/
structure ParseError where
  problem : Problem
  span : Span
  deriving DecidableEq, Repr

end Notebook.Syntax

import Notebook.Text.Word
import Notebook.Text.Offset

/-!
Cutting a text into lexemes. The cut is a light one, made for texts that are still being typed: every
text has one, lexemes tile the text, and what lacks its end is marked as not terminated.
-/
namespace Notebook.Scan
open Notebook.Text

/-- Kinds of lexemes. -/
inductive Kind
  | word
  | keyword
  | number
  | string
  | character
  | lifetime
  | lineComment
  | blockComment
  | punctuation
  | blank
  deriving DecidableEq, Repr

/-- Blanks and comments carry no meaning. -/
def Kind.isTrivia : Kind → Bool
  | .blank | .lineComment | .blockComment => true
  | _ => false

/-- A piece of text of one kind; `terminated` is false where a string, character or block comment lacks
its end. -/
structure Lexeme where
  kind : Kind
  text : List Char
  terminated : Bool
  deriving DecidableEq, Repr

/-- The words of the language that are no names. -/
def keywords : List String := [
  "as", "break", "const", "continue", "crate", "else", "enum", "false", "fn", "for", "if", "impl",
  "in", "let", "loop", "match", "mod", "move", "mut", "pub", "ref", "return", "self", "Self",
  "static", "struct", "super", "trait", "true", "type", "unsafe", "use", "where", "while"]

/-- Whether a text is a keyword. -/
def isKeyword (cs : List Char) : Bool := keywords.contains (String.ofList cs)

/-- What a lexeme is found to be from its first character on: its kind, how many characters it has
beyond the first, and whether it is terminated. -/
structure Extent where
  kind : Kind
  more : Nat
  terminated : Bool

/-- Number of characters at the start that have the property. -/
def countWhile (p : Char → Bool) (cs : List Char) : Nat := (cs.takeWhile p).length

/-- Characters up to the end of the outermost of `depth` open block comments, and whether it ends. -/
def blockCommentLength : Nat → List Char → Nat × Bool
  | _, [] => (0, false)
  | depth, '/' :: '*' :: cs =>
    let (n, closed) := blockCommentLength (depth + 1) cs
    (n + 2, closed)
  | depth, '*' :: '/' :: cs =>
    if depth ≤ 1 then (2, true)
    else
      let (n, closed) := blockCommentLength (depth - 1) cs
      (n + 2, closed)
  | depth, _ :: cs =>
    let (n, closed) := blockCommentLength depth cs
    (n + 1, closed)

/-- Characters up to a quote that `hashes` hash signs follow, and whether there is one. -/
def rawStringLength (hashes : Nat) : List Char → Nat × Bool
  | [] => (0, false)
  | c :: cs =>
    if c = '"' && (cs.take hashes).all (· = '#') && hashes ≤ cs.length then (hashes + 1, true)
    else
      let (n, closed) := rawStringLength hashes cs
      (n + 1, closed)

/-- Characters up to a quote that is not escaped, and whether there is one. -/
def stringLength : List Char → Nat × Bool
  | [] => (0, false)
  | '\\' :: _ :: cs =>
    let (n, closed) := stringLength cs
    (n + 2, closed)
  | c :: cs =>
    if c = '"' then (1, true)
    else
      let (n, closed) := stringLength cs
      (n + 1, closed)

/-- Characters up to the next apostrophe, and whether there is one. -/
def apostropheLength : List Char → Nat × Bool
  | [] => (0, false)
  | c :: cs =>
    if c = '\x27' then (1, true)
    else
      let (n, closed) := apostropheLength cs
      (n + 1, closed)

/-- Characters of a number beyond its first digit: word characters, and points that a digit follows. -/
def numberLength : List Char → Nat
  | [] => 0
  | c :: cs =>
    if isWordChar c then numberLength cs + 1
    else if c = '.' && cs.head?.any Char.isDigit then numberLength cs + 1
    else 0

/-- Whether hash signs, if any, and then a quote stand at the start. -/
def rawStringAhead (cs : List Char) : Bool := (cs.dropWhile (· = '#')).head? == some '"'

/-- The extent of what starts with an apostrophe: a character if it is escaped or closed at once, a
lifetime if a word follows. -/
def apostropheExtent : List Char → Extent
  | '\\' :: cs =>
    let (n, closed) := apostropheLength cs
    ⟨.character, n + 1, closed⟩
  | _ :: '\x27' :: _ => ⟨.character, 2, true⟩
  | c :: cs =>
    if isWordChar c then ⟨.lifetime, countWhile isWordChar (c :: cs), true⟩
    else ⟨.character, 0, false⟩
  | [] => ⟨.character, 0, false⟩

/-- The extent of the lexeme that starts with `c` where `rest` follows. -/
def extent (c : Char) (rest : List Char) : Extent :=
  if isBlank c then ⟨.blank, countWhile isBlank rest, true⟩
  else if c = '/' && rest.head? == some '/' then
    ⟨.lineComment, countWhile (· ≠ '\n') rest, true⟩
  else if c = '/' && rest.head? == some '*' then
    let (n, closed) := blockCommentLength 1 rest.tail
    ⟨.blockComment, n + 1, closed⟩
  else if c = 'r' && rawStringAhead rest then
    let hashes := countWhile (· = '#') rest
    let (n, closed) := rawStringLength hashes (rest.drop (hashes + 1))
    ⟨.string, hashes + 1 + n, closed⟩
  else if c = '"' then
    let (n, closed) := stringLength rest
    ⟨.string, n, closed⟩
  else if c = 'b' && rest.head? == some '"' then
    let (n, closed) := stringLength rest.tail
    ⟨.string, n + 1, closed⟩
  else if c = '\x27' then apostropheExtent rest
  else if c.isDigit then ⟨.number, numberLength rest, true⟩
  else if isWordChar c then
    let n := countWhile isWordChar rest
    ⟨if isKeyword (c :: rest.take n) then .keyword else .word, n, true⟩
  else ⟨.punctuation, 0, true⟩

/-- The lexemes of a text. -/
def lexemes : List Char → List Lexeme
  | [] => []
  | c :: rest =>
    let e := extent c rest
    ⟨e.kind, c :: rest.take e.more, e.terminated⟩ :: lexemes (rest.drop e.more)
termination_by cs => cs.length
decreasing_by simp only [List.length_drop, List.length_cons]; omega

/-- Lexemes tile the text. -/
theorem flatMap_text_lexemes (cs : List Char) : (lexemes cs).flatMap (·.text) = cs := by
  fun_induction lexemes cs with
  | case1 => rfl
  | case2 c rest e ih => simp [ih]

/-- A lexeme with the bytes it takes up. -/
structure Token extends Lexeme where
  start : Nat
  stop : Nat
  deriving DecidableEq, Repr

/-- Lexemes laid one after another from an offset on. -/
def placed (offset : Nat) : List Lexeme → List Token
  | [] => []
  | l :: ls => ⟨l, offset, offset + width l.text⟩ :: placed (offset + width l.text) ls

/-- The tokens of a text. -/
def tokens (cs : List Char) : List Token := placed 0 (lexemes cs)

/-- Tokens that carry meaning. -/
def Token.isSignificant (t : Token) : Bool := !t.kind.isTrivia

/-- Whether the token's text is `s`. -/
def Token.is (t : Token) (s : String) : Bool := t.text == s.toList

/-- Whether the token's text is one of several. -/
def Token.isAny (t : Token) (ss : List String) : Bool := ss.any t.is

/-- Classes of tokens that a reader tells apart by colour. -/
inductive Highlight
  | keyword
  | identifier
  | number
  | string
  | comment
  | punctuation
  deriving DecidableEq, Repr

/-- The class of a kind; blanks have none. -/
def Kind.highlight? : Kind → Option Highlight
  | .blank => none
  | .keyword => some .keyword
  | .word | .lifetime => some .identifier
  | .number => some .number
  | .string | .character => some .string
  | .lineComment | .blockComment => some .comment
  | .punctuation => some .punctuation

/-- A classified stretch of bytes. -/
structure HighlightSpan where
  start : Nat
  stop : Nat
  kind : Highlight
  deriving DecidableEq, Repr

/-- The classified stretches of a text. -/
def highlight (cs : List Char) : List HighlightSpan :=
  (tokens cs).filterMap fun t => t.kind.highlight?.map fun k => ⟨t.start, t.stop, k⟩

/-- Start of the word that ends at a caret. -/
def wordStart (cs : List Char) (caret : Nat) : Nat :=
  let before := takeBytes cs caret
  width before - width (before.reverse.takeWhile isWordChar)

/-- End of the word that a caret stands in or before. -/
def wordEnd (cs : List Char) (caret : Nat) : Nat :=
  floorOffset cs caret + width ((dropBytes cs caret).takeWhile isWordChar)

end Notebook.Scan

import Notebook.Syntax.Token
import Notebook.Text.Identifier

/-!
Cutting a text into token trees. Literals are taken as long as they go, comments are left out except
those that document something, and brackets have to match.

A recogniser tells how many characters at the start of a text belong to what it recognises.
-/
namespace Notebook.Syntax
open Notebook.Text

/-- Whether a text starts with another. -/
def startsWith (cs : List Char) (s : String) : Bool := s.toList.isPrefixOf cs

/-- An identifier. -/
def identifierLength? : List Char → Option Nat
  | [] => none
  | c :: cs => if isIdentifierStart c then some (1 + (cs.takeWhile isIdentifierContinue).length) else none

/-- A literal of `n` characters, with the word that may follow it as its suffix. -/
def withSuffix (cs : List Char) (n : Nat) : Nat := n + (identifierLength? (cs.drop n)).getD 0

/-- A number of `n` characters, with its suffix; nothing if the word goes on after it. -/
def withSuffix? (cs : List Char) (n : Nat) : Option Nat :=
  let n := withSuffix cs n
  if (cs.drop n).head?.any isIdentifierContinue then none else some n

def isHexDigit (c : Char) : Bool := c.isDigit || ('a' ≤ c && c ≤ 'f') || ('A' ≤ c && c ≤ 'F')

def hexValue (c : Char) : Nat :=
  if c.isDigit then c.toNat - '0'.toNat
  else if 'a' ≤ c && c ≤ 'f' then c.toNat - 'a'.toNat + 10
  else c.toNat - 'A'.toNat + 10

/-- Code points that are characters. -/
def isCodePoint (n : Nat) : Bool := n < 0xD800 || (0xDFFF < n && n < 0x110000)

/-- The digits of an escape by code point, up to its closing brace: how many characters, and the code
point. -/
def codePointDigits? (value digits : Nat) : List Char → Option (Nat × Nat)
  | [] => none
  | c :: cs =>
    if isHexDigit c then
      if digits = 6 then none
      else (codePointDigits? (value * 16 + hexValue c) (digits + 1) cs).map fun (n, v) => (n + 1, v)
    else if c = '_' && 0 < digits then
      (codePointDigits? value digits cs).map fun (n, v) => (n + 1, v)
    else if c = '\x7d' && 0 < digits && isCodePoint value then some (1, value)
    else none

/-- What follows the `\u` of an escape. -/
def codePoint? : List Char → Option (Nat × Nat)
  | '\x7b' :: cs => (codePointDigits? 0 0 cs).map fun (n, v) => (n + 1, v)
  | _ => none

/-- The blanks that a line break after a backslash takes with it; the text must go on after them. -/
def continuationLength? : List Char → Option Nat
  | [] => none
  | '\r' :: '\n' :: cs => (continuationLength? cs).map (· + 2)
  | c :: cs =>
    if c = '\r' then none
    else if c = ' ' || c = '\t' || c = '\n' then (continuationLength? cs).map (· + 1)
    else some 0

/-- Kinds of quoted text. -/
inductive Quotation
  | text
  | bytes
  | cText
  deriving DecidableEq

/-- What follows a backslash in quoted text. -/
def escapeLength? (q : Quotation) : List Char → Option Nat
  | 'x' :: a :: b :: _ =>
    match q with
    | .text => if '0' ≤ a && a ≤ '7' && isHexDigit b then some 3 else none
    | .bytes => if isHexDigit a && isHexDigit b then some 3 else none
    | .cText => if isHexDigit a && isHexDigit b && !(a = '0' && b = '0') then some 3 else none
  | 'u' :: cs =>
    if q = .bytes then none
    else
      match codePoint? cs with
      | some (n, v) => if q = .cText && v = 0 then none else some (n + 1)
      | none => none
  | '0' :: _ => if q = .cText then none else some 1
  | '\r' :: '\n' :: cs => (continuationLength? cs).map (· + 2)
  | c :: cs =>
    if ['n', 'r', 't', '\\', '\x27', '"'].contains c then some 1
    else if c = '\n' then (continuationLength? cs).map (· + 1)
    else none
  | [] => none

/-- Characters that stand for themselves in quoted text. -/
def Quotation.admits (q : Quotation) (c : Char) : Bool :=
  match q with
  | .text => true
  | .bytes => isAscii c
  | .cText => c ≠ '\x00'

/-- How many more characters the element of quoted text has that starts with `c`. -/
def elementMore? (q : Quotation) (c : Char) (rest : List Char) : Option Nat :=
  if c = '\\' then escapeLength? q rest
  else if c = '\r' then (if rest.head? = some '\n' then some 1 else none)
  else if q.admits c then some 0
  else none

/-- Quoted text from behind its opening quote up to its closing one. -/
def quotedLength? (q : Quotation) : List Char → Option Nat
  | [] => none
  | c :: rest =>
    if c = '"' then some 1
    else
      match elementMore? q c rest with
      | none => none
      | some n => (quotedLength? q (rest.drop n)).map (· + n + 1)
termination_by cs => cs.length
decreasing_by simp only [List.length_drop, List.length_cons]; omega

/-- Raw text up to a quote that `hashes` hash signs follow. -/
def rawLength? (q : Quotation) (hashes : Nat) : List Char → Option Nat
  | [] => none
  | '\r' :: '\n' :: cs => (rawLength? q hashes cs).map (· + 2)
  | c :: cs =>
    if c = '"' && (List.replicate hashes '#').isPrefixOf cs then some (hashes + 1)
    else if c = '\r' || !q.admits c then none
    else (rawLength? q hashes cs).map (· + 1)

/-- Raw text from its hash signs on. -/
def rawFrom? (q : Quotation) (cs : List Char) : Option Nat :=
  let hashes := (cs.takeWhile (· = '#')).length
  match cs.drop hashes with
  | '"' :: inside => if hashes > 255 then none else (rawLength? q hashes inside).map (· + hashes + 1)
  | _ => none

/-- A character or byte literal from behind its opening quote on. -/
def characterLength? (q : Quotation) : List Char → Option Nat
  | '\\' :: cs =>
    match cs.head? with
    | some '\n' | some '\r' => none
    | _ =>
      match escapeLength? q cs with
      | some n => if (cs.drop n).head? = some '\x27' then some (n + 2) else none
      | none => none
  | c :: '\x27' :: _ => if q.admits c then some 2 else none
  | _ => none

/-- The exponent of a number from behind its letter on; nothing if it has no digit. -/
def exponentLength? (signed digits : Bool) : List Char → Option Nat
  | [] => if digits then some 0 else none
  | c :: cs =>
    if c = '+' || c = '-' then
      if digits then some 0
      else if signed then none
      else (exponentLength? true digits cs).map (· + 1)
    else if c.isDigit then (exponentLength? signed true cs).map (· + 1)
    else if c = '_' then (exponentLength? signed digits cs).map (· + 1)
    else if digits then some 0
    else none

/-- The digits of a number with a point or an exponent, from its first digit on. An exponent without a
digit is left to the suffix if a point came before. -/
def decimalLength? (dotted : Bool) : List Char → Option Nat
  | [] => if dotted then some 0 else none
  | c :: cs =>
    if c.isDigit || c = '_' then (decimalLength? dotted cs).map (· + 1)
    else if c = '.' then
      if dotted then some 0
      else if cs.head?.any fun d => d = '.' || isIdentifierStart d then none
      else (decimalLength? true cs).map (· + 1)
    else if c = 'e' || c = 'E' then
      match exponentLength? false false cs with
      | some n => some (n + 1)
      | none => if dotted then some 0 else none
    else if dotted then some 0
    else none

/-- A number with a point or an exponent. -/
def floatLength? (cs : List Char) : Option Nat :=
  if cs.head?.any Char.isDigit then (decimalLength? false cs).bind (withSuffix? cs) else none

/-- The digits of a whole number to a base; a digit too large for the base spoils it. -/
def digitsLength? (base : Nat) (empty : Bool) : List Char → Option Nat
  | [] => if empty then none else some 0
  | c :: cs =>
    if c.isDigit then
      if hexValue c ≥ base then none else (digitsLength? base false cs).map (· + 1)
    else if isHexDigit c && hexValue c < base then (digitsLength? base false cs).map (· + 1)
    else if c = '_' then
      if empty && base = 10 then none else (digitsLength? base empty cs).map (· + 1)
    else if empty then none
    else some 0

/-- A whole number. -/
def integerLength? (cs : List Char) : Option Nat :=
  let digits :=
    if startsWith cs "0x" then (digitsLength? 16 true (cs.drop 2)).map (· + 2)
    else if startsWith cs "0o" then (digitsLength? 8 true (cs.drop 2)).map (· + 2)
    else if startsWith cs "0b" then (digitsLength? 2 true (cs.drop 2)).map (· + 2)
    else digitsLength? 10 true cs
  digits.bind (withSuffix? cs)

/-- Text, bytes or C text between quotes, raw or not. -/
def stringLength? (cs : List Char) : Option Nat :=
  let body : Option Nat :=
    match cs with
    | '"' :: r => (quotedLength? .text r).map (· + 1)
    | 'r' :: r => (rawFrom? .text r).map (· + 1)
    | 'b' :: '"' :: r => (quotedLength? .bytes r).map (· + 2)
    | 'b' :: 'r' :: r => (rawFrom? .bytes r).map (· + 2)
    | 'c' :: '"' :: r => (quotedLength? .cText r).map (· + 2)
    | 'c' :: 'r' :: r => (rawFrom? .cText r).map (· + 2)
    | 'b' :: '\x27' :: r => (characterLength? .bytes r).map (· + 2)
    | '\x27' :: r => (characterLength? .text r).map (· + 1)
    | _ => none
  body.map (withSuffix cs)

/-- A literal. -/
def literalLength? (cs : List Char) : Option Nat :=
  stringLength? cs <|> floatLength? cs <|> integerLength? cs

/-- Characters of punctuation. -/
def punctuation : List Char := "~!@#$%^&*-=+|;:,<.>/?".toList ++ ['\x27']

/-- Whether punctuation stands at the start; a slash that starts a comment is none. -/
def startsPunct (cs : List Char) : Bool :=
  !startsWith cs "//" && !startsWith cs "/*" && cs.head?.any punctuation.contains

/-- A word, which may be marked as raw by `r#`; a raw word is no path keyword. -/
def wordLength? (cs : List Char) : Option Nat :=
  if startsWith cs "r#" then
    match identifierLength? (cs.drop 2) with
    | none => none
    | some n =>
      if ["_", "super", "self", "Self", "crate"].contains (String.ofList ((cs.drop 2).take n)) then none
      else some (n + 2)
  else identifierLength? cs

/-- How raw and marked literals begin; what begins like one is no word. -/
def literalMarks : List String :=
  ["r\"", "r#\"", "r##", "b\"", "b\x27", "br\"", "br#", "c\"", "cr\"", "cr#"]

/-- A comment in nested pairs of marks, from behind its opening mark on, with `depth` open ones. -/
def nestedCommentLength? : Nat → List Char → Option Nat
  | _, [] => none
  | depth, '/' :: '*' :: cs => (nestedCommentLength? (depth + 1) cs).map (· + 2)
  | depth, '*' :: '/' :: cs =>
    if depth ≤ 1 then some 2 else (nestedCommentLength? (depth - 1) cs).map (· + 2)
  | depth, _ :: cs => (nestedCommentLength? depth cs).map (· + 1)

/-- A comment between marks. -/
def blockCommentLength? (cs : List Char) : Option Nat :=
  if startsWith cs "/*" then (nestedCommentLength? 1 (cs.drop 2)).map (· + 2) else none

/-- The rest of a line, without the carriage return before its line feed. -/
def lineLength : List Char → Nat
  | [] => 0
  | '\r' :: '\n' :: _ => 0
  | c :: cs => if c = '\n' then 0 else lineLength cs + 1

/-- The rest of a line, with the carriage return before its line feed. -/
def lineLengthWithReturn (cs : List Char) : Nat :=
  let n := lineLength cs
  if (cs.drop n).head? = some '\r' then n + 1 else n

/-- Blanks between tokens: white space and the two direction marks. -/
def isTokenBlank (c : Char) : Bool := isBlank c || c = '\u200e' || c = '\u200f'

/-- One blank or one comment that documents nothing. -/
def triviaLength? (cs : List Char) : Option Nat :=
  if startsWith cs "//" && (!startsWith cs "///" || startsWith cs "////") && !startsWith cs "//!" then
    some (lineLengthWithReturn cs)
  else if startsWith cs "/**/" then some 4
  else if startsWith cs "/*" && (!startsWith cs "/**" || startsWith cs "/***") &&
      !startsWith cs "/*!" then
    blockCommentLength? cs
  else if cs.head?.any isTokenBlank then some 1
  else none

/-- Drops blanks and comments. -/
def skipTrivia (p : Position) : List Char → Position × List Char
  | [] => (p, [])
  | c :: rest =>
    match triviaLength? (c :: rest) with
    | none | some 0 => (p, c :: rest)
    | some (n + 1) => skipTrivia (p.after (c :: rest.take n)) (rest.drop n)
termination_by cs => cs.length
decreasing_by simp only [List.length_drop, List.length_cons]; omega

theorem length_skipTrivia_le (p : Position) (cs : List Char) :
    (skipTrivia p cs).2.length ≤ cs.length := by
  fun_induction skipTrivia p cs with
  | case1 => simp
  | case2 => simp
  | case3 => simp
  | case4 p c rest n _ ih => simp only [List.length_drop, List.length_cons] at ih ⊢; omega

/-- A comment that documents something. -/
structure DocComment where
  length : Nat
  content : List Char
  inner : Bool

/-- Whether every carriage return has a line feed after it. -/
def returnsPaired : List Char → Bool
  | [] => true
  | '\r' :: '\n' :: cs => returnsPaired cs
  | c :: cs => c ≠ '\r' && returnsPaired cs

/-- The documenting comment at the start of a text. -/
def docComment? (cs : List Char) : Option DocComment :=
  let line (inner : Bool) : DocComment :=
    let inside := cs.drop 3
    ⟨3 + lineLengthWithReturn inside, inside.take (lineLength inside), inner⟩
  let block (inner : Bool) : Option DocComment :=
    (blockCommentLength? cs).map fun n => ⟨n, (cs.drop 3).take (n - 5), inner⟩
  let found : Option DocComment :=
    if startsWith cs "//!" then some (line true)
    else if startsWith cs "/*!" then block true
    else if startsWith cs "///" then (if startsWith cs "////" then none else some (line false))
    else if startsWith cs "/**" && !startsWith cs "/***" then block false
    else none
  found.filter fun d => returnsPaired d.content

/-- The attribute that a documenting comment stands for. -/
def DocComment.trees (d : DocComment) (s : Span) : List TokenTree :=
  [.punct '#' false s] ++ (if d.inner then [.punct '!' false s] else []) ++
    [.group .bracket [.word "doc" s, .punct '=' false s, .literal (quoted d.content) s] s]

/-- What a token that cannot be read is replaced by, which counts as a literal. -/
def errorMark : String := "(/*ERROR*/)"

/-- The group that opens at the start of a text. -/
def opening? (cs : List Char) : Option Delimiter :=
  if startsWith cs errorMark then none else cs.head?.bind Delimiter.opened?

/-- How many characters the token at the start has, and the token for the span that it takes up. -/
def leaf? (cs : List Char) : Option (Nat × (Span → TokenTree)) :=
  match literalLength? cs with
  | some n => some (n, .literal (cs.take n))
  | none =>
    if startsPunct cs then
      if cs.head? = some '\x27' then
        match wordLength? cs.tail with
        | none => none
        | some n =>
          let next := (cs.tail.drop n).head?
          if next = some '\x27' || (next = some '#' && !startsWith cs.tail "r#") then none
          else some (1, .punct '\x27' true)
      else cs.head?.map fun c => (1, .punct c (startsPunct cs.tail))
    else if startsWith cs errorMark then some (errorMark.length, .literal errorMark.toList)
    else if literalMarks.any (startsWith cs) then none
    else (wordLength? cs).map fun n => (n, .word (String.ofList (cs.take n)))

/-- A group that is still open: its delimiter, where it starts, and the trees before it, last first. -/
structure OpenGroup where
  delimiter : Delimiter
  start : Position
  before : List TokenTree

/-- The token trees of a text, given the open groups and the trees since the last bracket. -/
def lexFrom (p : Position) (stack : List OpenGroup) (trees : List TokenTree) (cs : List Char) :
    Except ParseError (List TokenTree) :=
  match _h : (skipTrivia p cs).2 with
  | [] =>
    match stack with
    | [] => .ok trees.reverse
    | g :: _ => .error ⟨.notTokens, ⟨g.start, g.start⟩⟩
  | c :: rest =>
    have := length_skipTrivia_le p cs
    let start := (skipTrivia p cs).1
    let failed : Except ParseError (List TokenTree) := .error ⟨.notTokens, ⟨start, start⟩⟩
    match docComment? (c :: rest) with
    | some d =>
      let stop := start.after ((c :: rest).take d.length)
      lexFrom stop stack ((d.trees ⟨start, stop⟩).reverse ++ trees) (rest.drop (d.length - 1))
    | none =>
      match opening? (c :: rest) with
      | some d => lexFrom (start.next c) (⟨d, start, trees⟩ :: stack) [] rest
      | none =>
        match Delimiter.closed? c with
        | some d =>
          match stack with
          | [] => failed
          | g :: stack =>
            if g.delimiter ≠ d then failed
            else
              let stop := start.next c
              lexFrom stop stack (.group d trees.reverse ⟨g.start, stop⟩ :: g.before) rest
        | none =>
          match leaf? (c :: rest) with
          | none => failed
          | some (n, token) =>
            let stop := start.after ((c :: rest).take n)
            lexFrom stop stack (token ⟨start, stop⟩ :: trees) (rest.drop (n - 1))
termination_by cs.length
decreasing_by all_goals simp only [_h, List.length_cons, List.length_drop] at *; omega

/-- The token trees of a text. A byte order mark before it counts as a column and as nothing else. -/
def lex (cs : List Char) : Except ParseError (List TokenTree) :=
  match cs with
  | '\ufeff' :: rest => lexFrom (Position.origin.next '\ufeff') [] [] rest
  | _ => lexFrom Position.origin [] [] cs

end Notebook.Syntax

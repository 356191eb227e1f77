import Notebook.Syntax.Lexer

/-!
What literals mean. A number is kept as it is written, without underscores; how large a number may be,
only its use decides.
-/
namespace Notebook.Syntax
open Notebook.Text

/-- A decimal number in writing: whole digits, digits after the point, and an exponent of ten. -/
structure DecimalText where
  whole : List Char
  fraction : List Char
  exponent : Int
  deriving DecidableEq, Repr

/-- The literals that have a meaning in the guest language; all others are `other`. -/
inductive Literal
  | integer (value : Nat) (suffix : String)
  | decimal (value : DecimalText)
  | text (value : List Char)
  | truth (value : Bool)
  | other
  deriving DecidableEq, Repr

namespace Literal

/-- The character an escape of one letter stands for. -/
def simpleEscape? (c : Char) : Option Char :=
  [('n', '\n'), ('r', '\r'), ('t', '\t'), ('\\', '\\'), ('0', '\x00'), ('\x27', '\x27'),
    ('"', '"')].lookup c

/-- How many more characters the element has that starts with `c`, and what it stands for. -/
def element (c : Char) (rest : List Char) : Nat × List Char :=
  if c = '\r' then (1, ['\n'])
  else if c = '\\' then
    match rest with
    | 'x' :: a :: b :: _ => (3, [Char.ofNat (hexValue a * 16 + hexValue b)])
    | 'u' :: cs =>
      match codePoint? cs with
      | some (n, v) => (n + 1, [Char.ofNat v])
      | none => (0, [])
    | e :: cs =>
      match simpleEscape? e with
      | some v => (1, [v])
      | none => (1 + (cs.takeWhile fun b => b = ' ' || b = '\t' || b = '\n' || b = '\r').length, [])
    | [] => (0, [])
  else (0, [c])

/-- Quoted text from behind its opening quote on. -/
def unquote : List Char → List Char
  | [] => []
  | c :: rest =>
    if c = '"' then []
    else
      let (n, value) := element c rest
      value ++ unquote (rest.drop n)
termination_by cs => cs.length
decreasing_by simp only [List.length_drop, List.length_cons]; omega

/-- Raw text from its hash signs on. -/
def unquoteRaw (cs : List Char) : List Char :=
  let hashes := (cs.takeWhile (· = '#')).length
  let inside := cs.drop (hashes + 1)
  let suffixed := inside.reverse.dropWhile (· ≠ '"')
  (suffixed.drop 1).reverse

/-- Digits without the underscores between them. -/
def digitsOnly (cs : List Char) : List Char := cs.filter (· ≠ '_')

/-- The number that digits to a base stand for. -/
def valueOf (base : Nat) (cs : List Char) : Nat := cs.foldl (fun n c => n * base + hexValue c) 0

/-- The value of decimal digits. -/
def decimalValue (cs : List Char) : Nat := valueOf 10 cs

/-- The digits of a whole number and what follows them. -/
def readInteger? (cs : List Char) : Option Literal :=
  let read (base : Nat) (isDigit : Char → Bool) (cs : List Char) : Option Literal :=
    let digits := cs.takeWhile fun c => isDigit c || c = '_'
    let suffix := cs.drop digits.length
    let value := digitsOnly digits
    if value.isEmpty then none else some (.integer (valueOf base value) (String.ofList suffix))
  if startsWith cs "0x" then read 16 isHexDigit (cs.drop 2)
  else if startsWith cs "0o" then read 8 Char.isDigit (cs.drop 2)
  else if startsWith cs "0b" then read 2 Char.isDigit (cs.drop 2)
  else read 10 Char.isDigit cs

/-- Whether what follows the digits of a number makes it a decimal one: a point, or an exponent with a
digit in it. -/
def isDecimalTail : List Char → Bool
  | '.' :: _ => true
  | c :: cs =>
    (c = 'e' || c = 'E') &&
      match cs.dropWhile (· = '_') with
      | [] => false
      | d :: _ => d.isDigit || d = '+' || d = '-'
  | [] => false

/-- The exponent at the start of a text, if there is one. -/
def exponentOf (cs : List Char) : Int :=
  match cs with
  | c :: rest =>
    if (c = 'e' || c = 'E') && isDecimalTail cs then
      let body := digitsOnly (rest.takeWhile fun d => d.isDigit || d = '_' || d = '+' || d = '-')
      let digits := body.filter Char.isDigit
      if body.head? = some '-' then - (decimalValue digits : Int) else decimalValue digits
    else 0
  | [] => 0

/-- A number with a point or an exponent. -/
def readDecimal (cs : List Char) : DecimalText :=
  let isPart := fun c : Char => c.isDigit || c = '_'
  let whole := cs.takeWhile isPart
  match cs.drop whole.length with
  | '.' :: rest =>
    let fraction := rest.takeWhile isPart
    ⟨digitsOnly whole, digitsOnly fraction, exponentOf (rest.drop fraction.length)⟩
  | rest => ⟨digitsOnly whole, [], exponentOf rest⟩

/-- The literal that a token's text stands for. -/
def ofText (cs : List Char) : Literal :=
  match cs with
  | '"' :: rest => .text (unquote rest)
  | 'r' :: rest => .text (unquoteRaw rest)
  | c :: _ =>
    if c.isDigit then
      let tail := cs.dropWhile fun d => d.isDigit || d = '_'
      if isDecimalTail tail then .decimal (readDecimal cs) else (readInteger? cs).getD .other
    else .other
  | [] => .other

end Literal

end Notebook.Syntax

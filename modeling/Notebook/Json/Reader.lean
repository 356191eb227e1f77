import Notebook.Text.Offset
import Notebook.Decimal.Text
import Notebook.Text.Quoted

/-!
Reading JSON from the front. A fault is told with the line and the column, counted in bytes, up to which
the text had been read. Whole values can be passed over, whatever they are.
-/
namespace Notebook.Json
open Notebook.Text

/-- Why a text is no JSON, or not the JSON that was asked for. -/
inductive Cause
  | endInList
  | endInObject
  | endInString
  | endInValue
  | colon
  | listEnd
  | objectEnd
  | word
  | value
  | escape
  | number
  | range
  | control
  | key
  | surrogate
  | hexEnd
  | comma
  | trailing
  /-- A value of the wrong kind. -/
  | wrong (message : String)
  deriving DecidableEq, Repr

def Cause.message : Cause → String
  | endInList => "EOF while parsing a list"
  | endInObject => "EOF while parsing an object"
  | endInString => "EOF while parsing a string"
  | endInValue => "EOF while parsing a value"
  | colon => "expected `:`"
  | listEnd => "expected `,` or `]`"
  | objectEnd => "expected `,` or `\x7d`"
  | word => "expected ident"
  | value => "expected value"
  | escape => "invalid escape"
  | number => "invalid number"
  | range => "number out of range"
  | control => "control character (\\u0000-\\u001F) found while parsing a string"
  | key => "key must be a string"
  | surrogate => "lone leading surrogate in hex escape"
  | hexEnd => "unexpected end of hex escape"
  | comma => "trailing comma"
  | trailing => "trailing characters"
  | wrong m => m

/-- A fault in a text and the number of bytes that had been read. -/
structure Fault where
  cause : Cause
  offset : Nat
  deriving DecidableEq, Repr

/-- A fault with the line and column of its place. -/
def Fault.message (f : Fault) (text : List Char) : String :=
  let before := takeBytes text f.offset
  let line := 1 + before.countP (· = '\n')
  let column := f.offset - (width before - width (before.reverse.takeWhile (· ≠ '\n')))
  f.cause.message ++ " at line " ++ toString line ++ " column " ++ toString column

/-- How far a text has been read. -/
structure Cursor where
  rest : List Char
  offset : Nat := 0

/-- Reading from the front of a text. -/
abbrev Reader := StateT Cursor (Except Fault)

/-- A fault at what has been read. -/
def fail {α} (cause : Cause) : Reader α := do throw ⟨cause, (← get).offset⟩

/-- A fault at the character that comes next. -/
def failAhead {α} (cause : Cause) : Reader α := do
  let c ← get
  throw ⟨cause, if c.rest.isEmpty then c.offset else c.offset + 1⟩

/-- The character that comes next. -/
def peek : Reader (Option Char) := return (← get).rest.head?

/-- Takes the character that comes next. -/
def next : Reader (Option Char) := do
  let c ← get
  match c.rest with
  | [] => return none
  | d :: rest =>
    set { c with rest, offset := c.offset + d.utf8Size }
    return some d

/-- The characters that may stand between values. -/
def isJsonBlank (c : Char) : Bool := c = ' ' || c = '\n' || c = '\t' || c = '\r'

/-- Passes over blanks. The character that comes then is told. -/
def peekSolid : Reader (Option Char) := do
  modify fun c =>
    let blanks := c.rest.takeWhile isJsonBlank
    { c with rest := c.rest.drop blanks.length, offset := c.offset + width blanks }
  peek

/-- Takes the rest of a word. -/
def word : List Char → Reader Unit
  | [] => return ()
  | c :: cs => do
    match ← next with
    | none => fail .endInValue
    | some d => if c = d then word cs else fail .word

/-- The value of a hexadecimal digit. -/
def hexDigit? (c : Char) : Option Nat :=
  if c.isDigit then some (c.toNat - '0'.toNat)
  else if 'a' ≤ c ∧ c ≤ 'f' then some (c.toNat - 'a'.toNat + 10)
  else if 'A' ≤ c ∧ c ≤ 'F' then some (c.toNat - 'A'.toNat + 10)
  else none

/-- Takes four hexadecimal digits. -/
def hexEscape : Reader Nat := do
  let c ← get
  if width c.rest < 4 then
    set ({ rest := [], offset := c.offset + width c.rest } : Cursor)
    fail .endInString
  else
    set { c with rest := c.rest.drop 4, offset := c.offset + 4 }
    match (c.rest.take 4).mapM hexDigit? with
    | some [a, b, c, d] => return ((a * 16 + b) * 16 + c) * 16 + d
    | _ => fail .escape

/-- Takes a character that has to come next inside of an escape. -/
def expectInEscape (c : Char) : Reader Unit := do
  match ← next with
  | none => fail .endInString
  | some d => if c = d then return () else fail .hexEnd

/-- The character of an escape by number; one beyond the first plane takes two numbers. -/
def unicodeEscape : Reader Char := do
  let high ← hexEscape
  if 0xDC00 ≤ high ∧ high ≤ 0xDFFF then fail .surrogate
  else if high < 0xD800 ∨ 0xDBFF < high then return Char.ofNat high
  else
    expectInEscape '\\'
    expectInEscape 'u'
    let low ← hexEscape
    if 0xDC00 ≤ low ∧ low ≤ 0xDFFF then
      return Char.ofNat (0x10000 + (high - 0xD800) * 0x400 + (low - 0xDC00))
    else fail .surrogate

/-- The characters that an escape of one letter stands for. -/
def plainEscapes : List (Char × Char) := [
  ('"', '"'), ('\\', '\\'), ('/', '/'), ('b', '\x08'), ('f', '\x0c'), ('n', '\n'), ('r', '\r'),
  ('t', '\t')]

/-- The character of an escape. -/
def escaped : Reader Char := do
  match ← next with
  | none => fail .endInString
  | some 'u' => unicodeEscape
  | some c =>
    match plainEscapes.lookup c with
    | some d => return d
    | none => fail .escape

/-- The string from behind its opening quote on, in so many steps at most. -/
def stringFor : Nat → List Char → Reader (List Char)
  | 0, _ => fail .endInString
  | steps + 1, read => do
    match ← next with
    | none => fail .endInString
    | some '"' => return read.reverse
    | some '\\' => do
      let c ← escaped
      stringFor steps (c :: read)
    | some c => if c.toNat < 0x20 then fail .control else stringFor steps (c :: read)

/-- The string from behind its opening quote on. -/
def string : Reader (List Char) := do stringFor ((← get).rest.length + 1) []

/-- Passes over a string, in so many steps at most. Escapes by number are not put together. -/
def skipStringFor : Nat → Reader Unit
  | 0 => fail .endInString
  | steps + 1 => do
    match ← peek with
    | none => fail .endInString
    | some '"' => discard next
    | some '\\' => do
      discard next
      match ← next with
      | none => fail .endInString
      | some 'u' => discard hexEscape
      | some c => if (plainEscapes.lookup c).isNone then fail .escape
      skipStringFor steps
    | some c =>
      if c.toNat < 0x20 then fail .control
      else do
        discard next
        skipStringFor steps

/-- Passes over a string from behind its opening quote on. -/
def skipString : Reader Unit := do skipStringFor ((← get).rest.length + 1)

/-- Takes decimal digits. -/
def digits : Reader (List Char) := do
  let c ← get
  let ds := c.rest.takeWhile Char.isDigit
  set { c with rest := c.rest.drop ds.length, offset := c.offset + ds.length }
  return ds

/-- A number: a whole one or any other. -/
inductive Number
  | whole (n : Int)
  | other (x : Float)

/-- Takes the digits after a point. -/
def fraction : Reader (List Char) := do
  discard next
  let ds ← digits
  if ds.isEmpty then
    match ← peek with
    | some _ => failAhead .number
    | none => failAhead .endInValue
  return ds

/-- Takes an exponent from its letter on. -/
def exponent : Reader Int := do
  discard next
  let negative := (← peek) = some '-'
  if negative || (← peek) = some '+' then discard next
  match ← next with
  | none => fail .endInValue
  | some c =>
    if c.isDigit then
      let ds := c :: (← digits)
      let n : Int := Decimal.digitsValue ds
      return if negative then -n else n
    else fail .number

/-- Takes the parts of a number after its whole digits. -/
def decimal (negative : Bool) (whole : List Char) : Reader Float := do
  let places ← if (← peek) = some '.' then fraction else pure []
  let scale ←
    match ← peek with
    | some 'e' | some 'E' => exponent
    | _ => pure 0
  let x := Decimal.ofDigits (Decimal.digitsValue (whole ++ places)) (scale - places.length)
  if x.isInf then fail .range
  return if negative then -x else x

/-- Takes a number from behind its sign on. One that does not fit into 64 bits is no whole number. -/
def number (negative : Bool) : Reader Number := do
  match ← next with
  | none => fail .endInValue
  | some c =>
    if !c.isDigit then fail .number
    else
      if c = '0' && (← peek).any Char.isDigit then failAhead .number
      let ds := c :: (← digits)
      match ← peek with
      | some '.' | some 'e' | some 'E' => return .other (← decimal negative ds)
      | _ =>
        let n := Decimal.digitsValue ds
        if !negative && n < UInt64.size then return .whole n
        else if negative && 0 < n && n ≤ UInt64.size / 2 then return .whole (-n)
        else return .other (← decimal negative ds)

/-- Passes over a number from behind its sign on. -/
def skipNumber : Reader Unit := do
  match ← next with
  | none => fail .endInValue
  | some c =>
    if !c.isDigit then fail .number
    else
      if c = '0' && (← peek).any Char.isDigit then failAhead .number
      discard digits
      if (← peek) = some '.' then discard fraction
      match ← peek with
      | some 'e' | some 'E' => discard exponent
      | _ => return ()

/-- The brackets that may be open. -/
inductive Bracket
  | list
  | object
  deriving DecidableEq

/-- Passes over the key of an entry and its colon. -/
def skipKey : Reader Unit := do
  match ← peekSolid with
  | some '"' => discard next
  | some _ => failAhead .key
  | none => failAhead .endInObject
  skipString
  match ← peekSolid with
  | some ':' => discard next
  | some _ => failAhead .colon
  | none => failAhead .endInObject

/-- Passes over closing brackets up to the next element of the innermost open bracket, in so many steps
at most. Nothing is open at the end of the value. `comma` tells whether an element came before. -/
def closeFor : Nat → Bool → List Bracket → Reader (List Bracket)
  | _, _, [] => return []
  | 0, _, open' => return open'
  | steps + 1, comma, bracket :: outer => do
    match ← peekSolid, bracket with
    | some ',', _ =>
      if comma then
        discard next
        return bracket :: outer
      else return bracket :: outer
    | some ']', .list | some '\x7d', .object =>
      discard next
      closeFor steps true outer
    | some _, _ =>
      if comma then failAhead (if bracket = .list then .listEnd else .objectEnd)
      else return bracket :: outer
    | none, _ => failAhead (if bracket = .list then .endInList else .endInObject)

/-- Passes over a value, with brackets that are open, in so many steps at most. -/
def skipFor : Nat → List Bracket → Reader Unit
  | 0, _ => fail .endInValue
  | steps + 1, outer => do
    let (comma, inner) ← do
      match ← peekSolid with
      | none => failAhead .endInValue
      | some 'n' => do
        discard next
        word "ull".toList
        pure (true, outer)
      | some 't' => do
        discard next
        word "rue".toList
        pure (true, outer)
      | some 'f' => do
        discard next
        word "alse".toList
        pure (true, outer)
      | some '"' => do
        discard next
        skipString
        pure (true, outer)
      | some '[' => do
        discard next
        pure (false, .list :: outer)
      | some '\x7b' => do
        discard next
        pure (false, .object :: outer)
      | some '-' => do
        discard next
        skipNumber
        pure (true, outer)
      | some c =>
        if c.isDigit then do
          skipNumber
          pure (true, outer)
        else failAhead .value
    match ← closeFor ((← get).rest.length + 1) comma inner with
    | [] => return ()
    | .list :: rest => skipFor steps (.list :: rest)
    | .object :: rest => do
      skipKey
      skipFor steps (.object :: rest)

/-- Passes over a value. -/
def skip : Reader Unit := do skipFor ((← get).rest.length + 1) []

/-- A floating-point number as a fault tells of it: positional from 0.00001 up to 16 digits, and else
with an exponent. -/
def floatShown (x : Float) : String :=
  let p := Decimal.parts x
  let sign := if p.negative then "-" else ""
  match p.magnitude with
  | .finite m e =>
    if m = 0 then sign ++ "0.0"
    else
      let d := Decimal.shortest m e
      let ds := Decimal.natText d.digits
      let point : Int := ds.length + d.exponent
      let text :=
        if 0 ≤ d.exponent ∧ point ≤ 16 then ds ++ List.replicate d.exponent.toNat '0' ++ ".0".toList
        else if -5 < point ∧ point ≤ 16 then d.positional
        else
          let mantissa := match ds with
            | a :: b :: rest => a :: '.' :: b :: rest
            | ds => ds
          mantissa ++ 'e' :: Decimal.intText (point - 1)
      sign ++ String.ofList text
  | _ => ""

/-- A number as a fault tells of it. -/
def Number.shown : Number → String
  | whole n => "integer `" ++ String.ofList (Decimal.intText n) ++ "`"
  | other x => "floating point `" ++ floatShown x ++ "`"

/-- A fault about a value of the wrong kind, told at its end. -/
def wrongKind {α} (found expected : String) : Reader α :=
  fail (.wrong ("invalid type: " ++ found ++ ", expected " ++ expected))

/-- Takes a value that is of the wrong kind, and tells so. A list or an object is not gone into. -/
def wrongValue {α} (expected : String) : Reader α := do
  match ← peek with
  | some 'n' => do
    discard next
    word "ull".toList
    wrongKind "null" expected
  | some 't' => do
    discard next
    word "rue".toList
    wrongKind "boolean `true`" expected
  | some 'f' => do
    discard next
    word "alse".toList
    wrongKind "boolean `false`" expected
  | some '"' => do
    discard next
    let cs ← string
    wrongKind ("string " ++ String.ofList (quoted cs)) expected
  | some '[' => wrongKind "sequence" expected
  | some '\x7b' => wrongKind "map" expected
  | some '-' => do
    discard next
    wrongKind (← number true).shown expected
  | some c =>
    if c.isDigit then wrongKind (← number false).shown expected else failAhead .value
  | none => failAhead .value

end Notebook.Json

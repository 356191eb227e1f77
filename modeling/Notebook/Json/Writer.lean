import Notebook.Decimal.Text

/-!
Writing JSON. Lists and objects that hold something take a line for each thing that they hold, which is
indented by two blanks more than the line of the bracket.
-/
namespace Notebook.Json
open Notebook.Decimal

/-- A value to be written. The fields of an object keep their order. -/
inductive Document
  | null
  | number (n : Nat)
  | text (cs : List Char)
  | list (items : List Document)
  | object (fields : List (String × Document))

/-- The digit of a number below sixteen. -/
def hexDigit (n : Nat) : Char := if n < 10 then Char.ofNat (48 + n) else Char.ofNat (87 + n)

/-- A character as it stands in a string. -/
def writeChar (c : Char) : List Char :=
  if c = '"' then ['\\', '"']
  else if c = '\\' then ['\\', '\\']
  else if c = '\n' then ['\\', 'n']
  else if c = '\r' then ['\\', 'r']
  else if c = '\t' then ['\\', 't']
  else if c = '\x08' then ['\\', 'b']
  else if c = '\x0c' then ['\\', 'f']
  else if c.toNat < 32 then ['\\', 'u', '0', '0', hexDigit (c.toNat / 16), hexDigit (c.toNat % 16)]
  else [c]

/-- A string. -/
def writeText (cs : List Char) : List Char := '"' :: cs.flatMap writeChar ++ ['"']

/-- A new line that is indented. -/
def newLine (depth : Nat) : List Char := '\n' :: List.replicate (2 * depth) ' '

namespace Document

mutual

/-- A value in writing, at a depth. -/
def write (depth : Nat) : Document → List Char
  | null => "null".toList
  | number n => natText n
  | text cs => writeText cs
  | list [] => "[]".toList
  | list (d :: ds) =>
    '[' :: newLine (depth + 1) ++ write (depth + 1) d ++ writeItems (depth + 1) ds ++
      newLine depth ++ [']']
  | object [] => ['\x7b', '\x7d']
  | object ((key, d) :: fields) =>
    '\x7b' :: newLine (depth + 1) ++ writeText key.toList ++ ": ".toList ++ write (depth + 1) d ++
      writeFields (depth + 1) fields ++ newLine depth ++ ['\x7d']

/-- What follows the first item of a list. -/
def writeItems (depth : Nat) : List Document → List Char
  | [] => []
  | d :: ds => ',' :: newLine depth ++ write depth d ++ writeItems depth ds

/-- What follows the first field of an object. -/
def writeFields (depth : Nat) : List (String × Document) → List Char
  | [] => []
  | (key, d) :: fields =>
    ',' :: newLine depth ++ writeText key.toList ++ ": ".toList ++ write depth d ++
      writeFields depth fields

end

/-- A value that may be missing. -/
def ofOption {α} (f : α → Document) : Option α → Document
  | none => null
  | some a => f a

/-- A value in writing. -/
def pretty (d : Document) : List Char := d.write 0

end Document

end Notebook.Json

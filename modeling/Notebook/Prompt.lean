import Notebook.Text.Blank
import Notebook.Decimal.Text

/-!
Lines typed at the prompt: commands start with a colon, anything else is code.
-/
namespace Notebook
open Notebook.Text

/-- What a line at the prompt asks for. -/
inductive Input
  | source (text : List Char)
  | blank
  | help
  | quit
  | complete (text : List Char)
  | documentation (text : List Char)
  | activate (name : List Char)
  | capabilities
  | drop (id : Nat)
  | unknown (command : List Char)
  deriving DecidableEq, Repr

/-- A number of 64 bits in decimal digits, with a plus sign in front or none. -/
def readId? (cs : List Char) : Option Nat :=
  let digits := match cs with
    | '+' :: ds => ds
    | ds => ds
  if digits.isEmpty || !digits.all Char.isDigit then none
  else
    let n := Decimal.digitsValue digits
    if n < UInt64.size then some n else none

/-- What a line asks for. Only code keeps the blanks around it. -/
def Input.ofLine (line : List Char) : Input :=
  match trim line with
  | [] => .blank
  | ':' :: command =>
    let name := command.takeWhile (!isBlank ·)
    let argument := trimStart (command.drop name.length)
    let unknown := .unknown (':' :: command)
    let ifGiven (input : Input) := if argument.isEmpty then unknown else input
    match String.ofList name with
    | "help" | "h" => .help
    | "quit" | "q" => .quit
    | "complete" => ifGiven (.complete argument)
    | "doc" => ifGiven (.documentation argument)
    | "activate" => ifGiven (.activate argument)
    | "caps" => .capabilities
    | "drop" => ((readId? (argument.dropWhile (· = '#'))).map .drop).getD unknown
    | _ => unknown
  | _ => .source line

end Notebook

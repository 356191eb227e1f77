import Notebook.Guest.Value
import Notebook.Syntax.Tree

/-!
Static types of the guest language, the functions and methods that are built in, and the rule by which
operators combine types.
-/
namespace Notebook.Guest
open Notebook.Syntax

/-- A static type. -/
inductive Ty
  | unit
  | bool
  | int
  | float
  | str
  | list
  | host (name : String)
  | struct (name : String)
  /-- Not known before the program runs. -/
  | unknown
  deriving DecidableEq, Repr, Inhabited

namespace Ty

/-- Names of the whole number types, which are one type here. -/
def integerNames : List String := [
  "i8", "i16", "i32", "i64", "i128", "isize", "u8", "u16", "u32", "u64", "u128", "usize"]

/-- The built-in type that a name stands for. -/
def ofName? (name : String) : Option Ty :=
  if integerNames.contains name then some int
  else if name = "f32" || name = "f64" then some float
  else if name = "bool" then some bool
  else if name = "String" || name = "str" then some str
  else if name = "Vec" then some list
  else none

/-- What a written type stands for before the declared structs are looked at. -/
inductive Reading
  | known (ty : Ty)
  | named (name : String)
  | unsupported
  deriving DecidableEq

/-- Reads a written type. References and parentheses do not matter. -/
def read : TypeForm → Reading
  | .unit => .known unit
  | .reference t => read t
  | .paren t => read t
  | .infer => .known unknown
  | .named name =>
    match ofName? name with
    | some ty => .known ty
    | none => .named name
  | .other => .unsupported

/-- The name of a type. -/
def name : Ty → String
  | unit => "()"
  | bool => "bool"
  | int => "i64"
  | float => "f64"
  | str => "String"
  | list => "Vec"
  | host n | struct n => n
  | unknown => "_"

/-- The type of a value. -/
def ofValue : Value → Ty
  | .unit => unit
  | .bool _ => bool
  | .int _ => int
  | .float _ => float
  | .str _ => str
  | .list _ => list
  | .host h => host h.typeName

/-- Types of which either may stand for the other. -/
def compatible (a b : Ty) : Bool := a = b || a = unknown || b = unknown

def isKnown (t : Ty) : Bool := t ≠ unknown

/-- What a declaration holds whose initial value could not be had. -/
def defaultValue : Ty → Value
  | bool => .bool false
  | int => .int 0
  | float => .float 0.0
  | str => .str ""
  | list => .list []
  | _ => .unit

/-- The type of `left op right`, if the operator takes these types. -/
def binary? (op : BinaryOp) (left right : Ty) : Option Ty :=
  let known := if left.isKnown then left else right
  match op.opClass with
  | .arith =>
    match left, right with
    | int, int => some int
    | float, float => some float
    | str, str => if op = .add then some str else none
    | _, _ =>
      if left = unknown || right = unknown then
        match known with
        | int | float | unknown => some known
        | str => if op = .add then some str else none
        | _ => none
      else none
  | .compare => if left.compatible right then some bool else none
  | .logic => if bool.compatible left && bool.compatible right then some bool else none
  | .bit =>
    if (known = int || known = unknown) && int.compatible left && int.compatible right then some int
    else if known = bool && !op.isShift && bool.compatible left && bool.compatible right then
      some bool
    else none

/-- The type of a call of a built-in method, if the receiver has it with that many arguments. An unknown
receiver may have any method. -/
def method? (receiver : Ty) (method : String) (count : Nat) : Option Ty :=
  let found : Option (Ty × Nat) :=
    match receiver, method with
    | str, "len" => some (int, 0)
    | str, "is_empty" => some (bool, 0)
    | str, "to_uppercase" | str, "to_lowercase" | str, "trim" | str, "to_string" | str, "clone" =>
      some (str, 0)
    | str, "contains" | str, "starts_with" | str, "ends_with" => some (bool, 1)
    | list, "len" => some (int, 0)
    | list, "is_empty" => some (bool, 0)
    | list, "contains" => some (bool, 1)
    | list, "sum" => some (unknown, 0)
    | list, "clone" => some (list, 0)
    | int, "pow" => some (int, 1)
    | int, "abs" => some (int, 0)
    | int, "to_string" | float, "to_string" | bool, "to_string" => some (str, 0)
    | float, "sqrt" | float, "abs" | float, "floor" | float, "ceil" | float, "round" =>
      some (float, 0)
    | float, "powi" => some (float, 1)
    | _, _ => none
  if receiver = unknown then some unknown
  else
    match found with
    | some (ty, arity) => if arity = count then some ty else none
    | none => none

/-- The names of the built-in methods of a type, in order. -/
def methodNames : Ty → List String
  | str => ["clone", "contains", "ends_with", "is_empty", "len", "starts_with", "to_lowercase",
      "to_string", "to_uppercase", "trim"]
  | list => ["clone", "contains", "is_empty", "len", "sum"]
  | int => ["abs", "pow", "to_string"]
  | float => ["abs", "ceil", "floor", "powi", "round", "sqrt", "to_string"]
  | bool => ["to_string"]
  | _ => []

end Ty

/-- A function that is built in. -/
structure Builtin where
  name : String
  params : List Ty
  result : Ty
  doc : String
  deriving DecidableEq, Repr

namespace Builtin

/-- The functions that are built in. -/
def all : List Builtin := [
  ⟨"abs", [.int], .int, "Absolute value of an integer."⟩,
  ⟨"min", [.int, .int], .int, "Smaller of two integers."⟩,
  ⟨"max", [.int, .int], .int, "Larger of two integers."⟩,
  ⟨"sqrt", [.float], .float, "Square root of a float."⟩]

/-- The built-in function of a name. -/
def find? (name : String) : Option Builtin := all.find? (·.name == name)

def signature (b : Builtin) : String :=
  "fn " ++ b.name ++ "(" ++ ", ".intercalate (b.params.map Ty.name) ++ ") -> " ++ b.result.name

end Builtin

/-- The macros that have a meaning. -/
inductive MacroKind
  | println
  | print
  | format
  | vec
  | panic
  | assert
  deriving DecidableEq, Repr

namespace MacroKind

def all : List MacroKind := [println, print, format, vec, panic, assert]

def name : MacroKind → String
  | println => "println"
  | print => "print"
  | format => "format"
  | vec => "vec"
  | panic => "panic"
  | assert => "assert"

/-- The macro that a name calls. -/
def ofName? (name : Option String) : Option MacroKind :=
  name.bind fun n => all.find? (·.name == n)

end MacroKind

end Notebook.Guest

import Notebook.Guest.Fault
import Notebook.Guest.Integer
import Notebook.Text.LetterCase
import Notebook.Text.Blank
import Notebook.Text.Offset

/-!
What operators, built-in functions and built-in methods do to values.
-/
namespace Notebook.Guest
open Notebook.Text Notebook.Syntax

/-- A result, or the cause of a fault. -/
abbrev Outcome := Except FaultCause

/-- A value that an operation has, or else a fault. -/
def Outcome.ofOption {α} (cause : FaultCause) : Option α → Outcome α
  | some a => .ok a
  | none => .error cause

namespace Value

/-- A whole number, or a fault. -/
def ofInt? (cause : FaultCause) (n : Option Int64) : Outcome Value :=
  Outcome.ofOption cause (n.map .int)

/-- An operator applied to a value. -/
def unary (op : UnaryOp) (v : Value) : Outcome Value :=
  match op, v with
  | .neg, .int n => ofInt? .negation (Integer.neg? n)
  | .neg, .float x => .ok (.float (-x))
  | .not, .bool b => .ok (.bool !b)
  | .not, .int n => .ok (.int (~~~n))
  | .deref, v => .ok v
  | _, v => .error (.unary (Ty.ofValue v))

/-- Arithmetic on whole numbers. -/
def intArith (op : BinaryOp) (a b : Int64) : Outcome Value :=
  if op = .div && b = 0 then .error .divisionByZero
  else if op = .rem && b = 0 then .error .remainderByZero
  else
    ofInt? (.overflow op) <|
      match op with
      | .add => Integer.add? a b
      | .sub => Integer.sub? a b
      | .mul => Integer.mul? a b
      | .div => Integer.div? a b
      | _ => Integer.rem? a b

/-- Arithmetic on floating-point numbers. -/
def floatArith (op : BinaryOp) (x y : Float) : Float :=
  match op with
  | .add => x + y
  | .sub => x - y
  | .mul => x * y
  | .div => x / y
  | _ => Decimal.remainder x y

/-- Whether a comparison holds, given whether the left side is smaller and whether it is equal. Where
neither side is smaller and they are not equal, `ge` holds if `greater` does. -/
def holds (op : BinaryOp) (less equal greater : Bool) : Bool :=
  match op with
  | .eq => equal
  | .ne => !equal
  | .lt => less
  | .le => less || equal
  | .gt => greater
  | _ => greater || equal

/-- Operations on bits. -/
def intBits (op : BinaryOp) (a b : Int64) : Outcome Value :=
  ofInt? .shift <|
    match op with
    | .bitXor => some (a ^^^ b)
    | .bitAnd => some (a &&& b)
    | .bitOr => some (a ||| b)
    | .shl => Integer.shl? a b
    | _ => Integer.shr? a b

/-- Operations on truth values that look at both sides. -/
def boolBits (op : BinaryOp) (a b : Bool) : Bool :=
  match op with
  | .bitXor => a != b
  | .bitAnd => a && b
  | _ => a || b

/-- An operator between two values. The logical operators are no operations on values, since they may
leave their right side alone. -/
def binary (op : BinaryOp) (left right : Value) : Outcome Value :=
  let mismatch : Outcome Value := .error (.binary op (Ty.ofValue left) (Ty.ofValue right))
  match op.opClass with
  | .arith =>
    match left, right with
    | .int a, .int b => intArith op a b
    | .float x, .float y => .ok (.float (floatArith op x y))
    | .str s, .str t => if op = .add then .ok (.str (s ++ t)) else mismatch
    | _, _ => mismatch
  | .compare =>
    match left, right with
    | .int a, .int b => .ok (.bool (holds op (a < b) (a = b) (b < a)))
    | .float x, .float y => .ok (.bool (holds op (x < y) (x == y) (y < x)))
    | .str s, .str t => .ok (.bool (holds op (s < t) (s = t) (t < s)))
    | .bool a, .bool b => .ok (.bool (holds op (!a && b) (a == b) (a && !b)))
    | _, _ =>
      if op = .eq then .ok (.bool (left.same right))
      else if op = .ne then .ok (.bool !(left.same right))
      else mismatch
  | .bit =>
    match left, right with
    | .int a, .int b => intBits op a b
    | .bool a, .bool b => if op.isShift then mismatch else .ok (.bool (boolBits op a b))
    | _, _ => mismatch
  | .logic => mismatch

/-- A number as a number of another type. -/
def cast (target : Ty) (v : Value) : Outcome Value :=
  match v, target with
  | .int n, .float => .ok (.float n.toFloat)
  | .float x, .int => .ok (.int x.toInt64)
  | .int n, _ => .ok (.int n)
  | .float x, _ => .ok (.float x)
  | v, target => .error (.cast (Ty.ofValue v) target)

/-- The value of a literal. A whole number with the suffix of a floating-point type is one. -/
def ofLiteral : Literal → Outcome Value
  | .integer n suffix =>
    if suffix = "f32" || suffix = "f64" then .ok (.float (Decimal.ofDigits n 0))
    else ofInt? .tooLarge (Integer.fit? n)
  | .decimal d =>
    .ok (.float (Decimal.ofDigits (Decimal.digitsValue (d.whole ++ d.fraction))
      (d.exponent - d.fraction.length)))
  | .text cs => .ok (.str (String.ofList cs))
  | .truth b => .ok (.bool b)
  | .other => .error .unsupportedLiteral

/-- The whole numbers in a list of nothing else. -/
def ints? (items : List Value) : Option (List Int64) :=
  items.mapM fun
    | .int n => some n
    | _ => none

/-- The floating-point numbers in a list of nothing else. -/
def floats? (items : List Value) : Option (List Float) :=
  items.mapM fun
    | .float x => some x
    | _ => none

/-- The sum of a list of numbers of one type. The sum of no numbers is a whole number. -/
def sum (items : List Value) : Outcome Value :=
  match ints? items with
  | some ns => ofInt? (.overflow .add) (Integer.sumFrom? 0 ns)
  | none =>
    match floats? items with
    | some xs => .ok (.float (xs.foldl (· + ·) (-0.0)))
    | none => .error .mixedSum

/-- A call of a built-in function. -/
def builtin (name : String) (args : List Value) : Outcome Value :=
  match name, args with
  | "abs", [.int n] => ofInt? .negation (Integer.abs? n)
  | "min", [.int a, .int b] => .ok (.int (if b < a then b else a))
  | "max", [.int a, .int b] => .ok (.int (if b < a then a else b))
  | "sqrt", [.float x] => .ok (.float x.sqrt)
  | "sqrt", [.int n] => .ok (.float n.toFloat.sqrt)
  | name, _ => .error (.builtinArguments name)

/-- Whether one text stands somewhere in another. -/
def occursIn (part : List Char) : List Char → Bool
  | [] => part.isEmpty
  | c :: cs => part.isPrefixOf (c :: cs) || occursIn part cs

/-- The exponents that a floating-point number can be raised to. -/
def isExponent (n : Int64) : Bool := -2147483648 ≤ n.toInt && n.toInt < 2147483648

/-- A call of a built-in method. -/
def method (receiver : Value) (name : String) (args : List Value) : Outcome Value :=
  match receiver, name, args with
  | .str s, "len", [] => .ok (.int (Int64.ofNat (width s.toList)))
  | .str s, "is_empty", [] => .ok (.bool s.toList.isEmpty)
  | .str s, "to_uppercase", [] => .ok (.str (String.ofList (upperCase s.toList)))
  | .str s, "to_lowercase", [] => .ok (.str (String.ofList (lowerCase s.toList)))
  | .str s, "trim", [] => .ok (.str (String.ofList (trim s.toList)))
  | .str s, "to_string", [] => .ok (.str s)
  | .str s, "clone", [] => .ok (.str s)
  | .str s, "contains", [.str p] => .ok (.bool (occursIn p.toList s.toList))
  | .str s, "starts_with", [.str p] => .ok (.bool (p.toList.isPrefixOf s.toList))
  | .str s, "ends_with", [.str p] => .ok (.bool (p.toList.isSuffixOf s.toList))
  | .list items, "len", [] => .ok (.int (Int64.ofNat items.length))
  | .list items, "is_empty", [] => .ok (.bool items.isEmpty)
  | .list items, "contains", [v] => .ok (.bool (items.any (·.same v)))
  | .list items, "clone", [] => .ok (.list items)
  | .list items, "sum", [] => sum items
  | .int a, "pow", [.int n] =>
    ofInt? (.overflow .mul) (if 0 ≤ n.toInt && n.toInt < 4294967296 then Integer.pow? a n.toInt.toNat else none)
  | .int a, "abs", [] => builtin "abs" [.int a]
  | .float x, "sqrt", [] => .ok (.float x.sqrt)
  | .float x, "abs", [] => .ok (.float x.abs)
  | .float x, "floor", [] => .ok (.float x.floor)
  | .float x, "ceil", [] => .ok (.float x.ceil)
  | .float x, "round", [] => .ok (.float x.round)
  | .float x, "powi", [.int n] =>
    if isExponent n then .ok (.float (Decimal.power x n.toInt)) else .error .exponent
  | .int n, "to_string", [] => .ok (.str (String.ofList (Value.int n).plainText))
  | .float x, "to_string", [] => .ok (.str (String.ofList (Value.float x).plainText))
  | .bool b, "to_string", [] => .ok (.str (String.ofList (Value.bool b).plainText))
  | receiver, name, _ => .error (.noMethod name (Ty.ofValue receiver))

/-- An element of a list. -/
def element (target : Value) (position : Int64) : Outcome Value :=
  match target with
  | .list items =>
    let found := if 0 ≤ position.toInt then items[position.toInt.toNat]? else none
    Outcome.ofOption (.outOfBounds items.length position) found
  | v => .error (.notIndexable (Ty.ofValue v))

end Value

end Notebook.Guest

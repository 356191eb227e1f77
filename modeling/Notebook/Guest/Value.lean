import Notebook.Decimal.Text
import Notebook.Text.Quoted

/-!
Values of the guest language, and the objects of the host that guest code may hold.
-/
namespace Notebook.Guest
open Notebook.Text Notebook.Decimal

/-- What a host object says about one of its methods. -/
structure MethodDoc where
  name : String
  signature : String
  doc : String
  deriving DecidableEq, Repr

/-- An object of the host: the type it shows, its identity, and its methods. -/
structure HostObject where
  typeName : String
  identity : Nat
  methods : List MethodDoc := []
  deriving DecidableEq, Repr

/-- A value. -/
inductive Value
  | unit
  | bool (b : Bool)
  | int (n : Int64)
  | float (x : Float)
  | str (s : String)
  | list (items : List Value)
  | host (object : HostObject)
  deriving Repr, Inhabited

namespace Value

/-- The name of a value's type. -/
def typeName : Value → String
  | unit => "()"
  | bool _ => "bool"
  | int _ => "i64"
  | float _ => "f64"
  | str _ => "String"
  | list _ => "Vec"
  | host h => h.typeName

mutual

/-- A value as it is shown: strings are quoted. -/
def text : Value → List Char
  | unit => "()".toList
  | bool b => (if b then "true" else "false").toList
  | int n => intText n.toInt
  | float x => floatText x
  | str s => quoted s.toList
  | list items => '[' :: listText items ++ [']']
  | host h => '<' :: h.typeName.toList ++ ['>']

/-- Values as they are shown, with commas between them. -/
def listText : List Value → List Char
  | [] => []
  | [v] => v.text
  | v :: vs => v.text ++ ", ".toList ++ listText vs

end

/-- A value as it is printed: a string as it is, anything else as it is shown. -/
def plainText : Value → List Char
  | str s => s.toList
  | v => v.text

mutual

/-- Equality of values. Floating-point numbers are compared as numbers, host objects by identity. -/
def same : Value → Value → Bool
  | unit, unit => true
  | bool a, bool b => a == b
  | int a, int b => a == b
  | float a, float b => a == b
  | str a, str b => a == b
  | list as, list bs => sameList as bs
  | host a, host b => a.identity == b.identity
  | _, _ => false

/-- Equality of lists of values. -/
def sameList : List Value → List Value → Bool
  | [], [] => true
  | a :: as, b :: bs => same a b && sameList as bs
  | _, _ => false

end

/-- The text of a string. -/
def asString? : Value → Option String
  | str s => some s
  | _ => none

def isNumeric : Value → Bool
  | int _ | float _ => true
  | _ => false

end Value

/-- What a call of a host object comes to: a value, an error that the guest sees, or a failure of the
host itself. -/
inductive HostReply
  | value (v : Value)
  | error (message : String)
  | panic (message : String)

/-- How host objects answer calls. A call may change the state of the host. -/
structure HostCalls (σ : Type) where
  call : HostObject → String → List Value → σ → HostReply × σ

end Notebook.Guest

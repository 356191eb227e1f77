import Notebook.Guest.Ty
import Notebook.Guest.Template

/-!
What can go wrong while code runs: the cause, the class that it belongs to, and its wording.
-/
namespace Notebook.Guest
open Notebook.Syntax

/-- Classes of faults. -/
inductive FaultClass
  | wrongType
  | unsupported
  | arithmetic
  | unresolved
  | index
  | stackOverflow
  | host
  | assertion
  | panic
  deriving DecidableEq, Repr

/-- The name of a class. -/
def FaultClass.name : FaultClass → String
  | wrongType => "TypeError"
  | unsupported => "UnsupportedOperationError"
  | arithmetic => "ArithmeticError"
  | unresolved => "UnresolvedReferenceError"
  | index => "IndexError"
  | stackOverflow => "StackOverflowError"
  | host => "HostError"
  | assertion => "AssertionError"
  | panic => "Panic"

/-- Causes of faults. -/
inductive FaultCause
  | notPlace
  | pattern
  | uninitialized
  | expected (wanted found : Ty)
  | qualifiedPath
  | notTruth
  | openRange
  | notIterable (ty : Ty)
  | notIndexable (ty : Ty)
  | cast (source target : Ty)
  | unsupportedLiteral
  | unary (ty : Ty)
  | binary (op : BinaryOp) (left right : Ty)
  | notNamedCallee
  | argumentCount (name : String) (wanted found : Nat)
  | jumpOutsideLoop
  | builtinArguments (name : String)
  | noMethod (method : String) (ty : Ty)
  | mixedSum
  | malformed (problem : Syntax.Problem)
  | assertWithoutCondition
  | templateNotLiteral
  | template (error : TemplateError)
  | templateArgument
  | nestedItem
  | unknownMacro
  | unsupportedExpression
  | strayJump
  | overflow (op : BinaryOp)
  | negation
  | divisionByZero
  | remainderByZero
  | shift
  | exponent
  | tooLarge
  | undeclared (name : String)
  | unassignable (name : String)
  | uncallable (name : String)
  | waiting (name : String) (missing : List String)
  | outOfBounds (length : Nat) (position : Int64)
  | tooDeep (limit : Nat)
  | host (message : String)
  | assertion (message : String)
  | panic (message : String)
  deriving Repr

namespace FaultCause

/-- The class of a cause. -/
def kind : FaultCause → FaultClass
  | notPlace | pattern | uninitialized | expected .. | qualifiedPath | notTruth | openRange
  | notIterable _ | notIndexable _ | cast .. | unsupportedLiteral | unary _ | binary .. | notNamedCallee
  | argumentCount .. | jumpOutsideLoop | builtinArguments _ | noMethod .. | mixedSum | malformed _
  | assertWithoutCondition | templateNotLiteral | template _ | templateArgument => .wrongType
  | nestedItem | unknownMacro | unsupportedExpression | strayJump => .unsupported
  | overflow _ | negation | divisionByZero | remainderByZero | shift | exponent | tooLarge => .arithmetic
  | undeclared _ | unassignable _ | uncallable _ | waiting .. => .unresolved
  | outOfBounds .. => .index
  | tooDeep _ => .stackOverflow
  | host _ => .host
  | assertion _ => .assertion
  | panic _ => .panic

/-- What an operator does, as a verb. -/
def verb : BinaryOp → String
  | .add => "add"
  | .sub => "subtract"
  | .mul => "multiply"
  | .div => "divide"
  | _ => "calculate the remainder"

/-- The wording of a cause. -/
def message : FaultCause → String
  | notPlace => "only variables can be assigned"
  | pattern => "only simple identifier patterns are supported"
  | uninitialized => "`let` without an initializer"
  | expected wanted found => "expected `" ++ wanted.name ++ "`, found `" ++ found.name ++ "`"
  | qualifiedPath => "qualified paths are not supported"
  | notTruth => "logical operands must be `bool`"
  | openRange => "ranges in `for` need both bounds"
  | notIterable ty => "`" ++ ty.name ++ "` is not iterable"
  | notIndexable ty => "cannot index into a value of type `" ++ ty.name ++ "`"
  | cast source target => "cannot cast `" ++ source.name ++ "` as `" ++ target.name ++ "`"
  | unsupportedLiteral => "unsupported literal"
  | unary ty => "cannot apply unary operator to `" ++ ty.name ++ "`"
  | binary op left right =>
    "cannot apply `" ++ op.symbol ++ "` to `" ++ left.name ++ "` and `" ++ right.name ++ "`"
  | notNamedCallee => "only named functions can be called"
  | argumentCount name wanted found =>
    "function `" ++ name ++ "` takes " ++ toString wanted ++ " argument(s) but " ++ toString found ++
      " were supplied"
  | jumpOutsideLoop | strayJump => "`break` outside of a loop"
  | builtinArguments name => "invalid arguments to `" ++ name ++ "`"
  | noMethod method ty => "no method named `" ++ method ++ "` found for `" ++ ty.name ++ "`"
  | mixedSum => "`sum` needs a list of numbers of one type"
  | malformed problem => problem.message
  | assertWithoutCondition => "`assert!` requires a condition"
  | templateNotLiteral => "format argument must be a string literal"
  | template error => error.message
  | templateArgument => "missing format argument"
  | nestedItem => "nested items are not supported"
  | unknownMacro => "unknown macro"
  | unsupportedExpression => "unsupported expression"
  | overflow op => "attempt to " ++ verb op ++ " with overflow"
  | negation => "attempt to negate with overflow"
  | divisionByZero => "attempt to divide by zero"
  | remainderByZero => "attempt to calculate the remainder with a divisor of zero"
  | shift => "attempt to shift with overflow"
  | exponent => "exponent out of range"
  | tooLarge => "number too large to fit in target type"
  | undeclared name => "attempted to use `" ++ name ++ "` which is not declared"
  | unassignable name => "attempted to assign `" ++ name ++ "` which is not declared"
  | uncallable name => "attempted to call `" ++ name ++ "` which is not declared"
  | waiting name [] => "attempted to call function `" ++ name ++ "` which no longer checks"
  | waiting name missing =>
    "attempted to call function `" ++ name ++ "` which cannot be invoked until " ++
      ", ".intercalate (missing.map fun n => "`" ++ n ++ "`") ++ " is declared"
  | outOfBounds length position =>
    "index out of bounds: the len is " ++ toString length ++ " but the index is " ++
      String.ofList (Decimal.intText position.toInt)
  | tooDeep limit => "call depth exceeded " ++ toString limit ++ " frames"
  | host message | assertion message | panic message => message

end FaultCause

/-- A fault: its cause, and the frames in which it arose, innermost first. -/
structure Fault where
  cause : FaultCause
  stack : List String
  deriving Repr

end Notebook.Guest

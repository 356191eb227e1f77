import Notebook.Syntax.Literal

/-!
Syntax trees of the guest language. A node knows the stretch of text it was read from. What the language
reads but gives no meaning to is kept as a node that knows its place and nothing else.
-/
namespace Notebook.Syntax
open Notebook.Text

/-- A name and where it stands. -/
structure Ident where
  name : String
  span : Span
  deriving DecidableEq, Repr

/-- The shape of a written type. -/
inductive TypeForm
  /-- The empty tuple. -/
  | unit
  | reference (inner : TypeForm)
  | paren (inner : TypeForm)
  /-- An underscore. -/
  | infer
  /-- A path, of which the last segment counts. -/
  | named (name : String)
  | other
  deriving DecidableEq, Repr

/-- A written type: its shape, its text with one space between tokens, and its place. -/
structure TypeExpr where
  form : TypeForm
  text : List Char
  span : Span
  deriving DecidableEq, Repr

/-- Patterns, of which only a plain name, with or without a type, has a meaning. -/
inductive Pattern
  | name (name : String)
  | typed (inner : Pattern) (type : TypeExpr)
  | other (span : Span)
  deriving Repr

inductive UnaryOp
  | neg
  | not
  | deref
  deriving DecidableEq, Repr

inductive BinaryOp
  | add | sub | mul | div | rem
  | and | or
  | bitXor | bitAnd | bitOr | shl | shr
  | eq | lt | le | ne | ge | gt
  deriving DecidableEq, Repr

/-- Classes of operators that follow one rule. -/
inductive OpClass
  | arith
  | compare
  | logic
  | bit
  deriving DecidableEq, Repr

namespace BinaryOp

def opClass : BinaryOp → OpClass
  | add | sub | mul | div | rem => .arith
  | and | or => .logic
  | bitXor | bitAnd | bitOr | shl | shr => .bit
  | eq | lt | le | ne | ge | gt => .compare

def symbol : BinaryOp → String
  | add => "+" | sub => "-" | mul => "*" | div => "/" | rem => "%"
  | and => "&&" | or => "||"
  | bitXor => "^" | bitAnd => "&" | bitOr => "|" | shl => "<<" | shr => ">>"
  | eq => "==" | lt => "<" | le => "<=" | ne => "!=" | ge => ">=" | gt => ">"

def isShift : BinaryOp → Bool
  | shl | shr => true
  | _ => false

end BinaryOp

/-- A parameter of a function: a pattern with its type, or the receiver of a method. -/
inductive Param
  | typed (pattern : Pattern) (type : TypeExpr)
  | receiver (span : Span)
  deriving Repr

/-- What is known of a function before its body: documentation, name, generics if it has any,
parameters, and the type after the arrow. -/
structure FnHeader where
  doc : List Char
  name : String
  generics : Option Span
  params : List Param
  result : Option TypeExpr
  deriving Repr

/-- A field of a struct; fields without a name are counted. -/
structure Field where
  label : Option String
  type : TypeExpr
  deriving Repr

/-- A struct declaration. -/
structure StructDecl where
  doc : List Char
  name : String
  generics : Option Span
  fields : List Field
  deriving Repr

/-- An import: the first name of its path, and the tree of paths in writing. -/
structure ImportTree where
  root : String
  text : List Char
  span : Span
  deriving Repr

mutual

inductive Expr
  | literal (value : Literal) (span : Span)
  | name (ident : Ident) (span : Span)
  /-- A path that is more than one plain name. -/
  | path (span : Span)
  | paren (inner : Expr) (span : Span)
  | reference (inner : Expr) (span : Span)
  | unary (op : UnaryOp) (inner : Expr) (span : Span)
  | binary (op : BinaryOp) (left right : Expr) (span : Span)
  /-- An operator with an equals sign: the left side takes the result. -/
  | compound (op : BinaryOp) (left right : Expr) (span : Span)
  | assign (left right : Expr) (span : Span)
  | call (callee : Expr) (args : List Expr) (span : Span)
  | method (receiver : Expr) (name : Ident) (args : List Expr) (span : Span)
  | invocation (call : MacroCall) (span : Span)
  | ifThen (condition : Expr) (yes : Block) (no : Option Expr) (span : Span)
  | block (body : Block) (span : Span)
  | whileLoop (condition : Expr) (body : Block) (span : Span)
  | loop (body : Block) (span : Span)
  | forLoop (pattern : Pattern) (items : Expr) (body : Block) (span : Span)
  | range (first last : Option Expr) (closed : Bool) (span : Span)
  | breakLoop (hasValue : Bool) (span : Span)
  | continueLoop (span : Span)
  | returnFn (value : Option Expr) (span : Span)
  | array (items : List Expr) (span : Span)
  | index (target position : Expr) (span : Span)
  | cast (inner : Expr) (type : TypeExpr) (span : Span)
  /-- Anything else; `ends` if it may stand as a statement without a semicolon. -/
  | other (ends : Bool) (span : Span)

/-- A call of a macro by its path, which is a plain name or not. -/
inductive MacroCall
  | mk (name : Option String) (nameSpan : Span) (args : MacroArgs) (braced : Bool) (span : Span)

/-- What stands between the brackets of a macro call, read as expressions between commas; the first one
is also kept in writing. -/
inductive MacroArgs
  | items (args : List Expr) (first : List Char)
  | malformed (error : ParseError)

/-- Statements between braces. -/
inductive Block
  | mk (stmts : List Stmt) (span : Span)

inductive Stmt
  | bind (pattern : Pattern) (value : Option Expr) (keyword : Span) (span : Span)
  /-- An expression; `ended` if a semicolon follows it, or if it is a macro call that stands for a
  statement. -/
  | expr (value : Expr) (ended : Bool) (span : Span)
  | item (value : Item) (span : Span)

inductive Item
  | constant (name : String) (type : TypeExpr) (value : Expr)
  | function (header : FnHeader) (body : Block)
  | struct (decl : StructDecl)
  | imports (tree : ImportTree)
  | other

end

instance : Inhabited Expr := ⟨.other false Span.none⟩

namespace Expr

def span : Expr → Span
  | literal _ s | name _ s | path s | paren _ s | reference _ s | unary _ _ s | binary _ _ _ s
  | compound _ _ _ s | assign _ _ s | call _ _ s | method _ _ _ s | invocation _ s | ifThen _ _ _ s
  | block _ s | whileLoop _ _ s | loop _ s | forLoop _ _ _ s | range _ _ _ s | breakLoop _ s
  | continueLoop s | returnFn _ s | array _ s | index _ _ s | cast _ _ s | other _ s => s

/-- Whether the expression may stand as a statement without a semicolon. -/
def endsStatement : Expr → Bool
  | ifThen .. | block .. | whileLoop .. | loop .. | forLoop .. => true
  | invocation (.mk _ _ _ braced _) _ => braced
  | other ends _ => ends
  | _ => false

def isRange : Expr → Bool
  | range .. => true
  | _ => false

/-- Whether the outermost operator is a comparison. -/
def isComparison : Expr → Bool
  | binary op _ _ _ => op.opClass = .compare
  | _ => false

/-- The same expression, starting at another place. -/
def withStart (start : Position) : Expr → Expr
  | literal v s => literal v ⟨start, s.stop⟩
  | name i s => name i ⟨start, s.stop⟩
  | path s => path ⟨start, s.stop⟩
  | paren e s => paren e ⟨start, s.stop⟩
  | reference e s => reference e ⟨start, s.stop⟩
  | unary op e s => unary op e ⟨start, s.stop⟩
  | binary op l r s => binary op l r ⟨start, s.stop⟩
  | compound op l r s => compound op l r ⟨start, s.stop⟩
  | assign l r s => assign l r ⟨start, s.stop⟩
  | call f as s => call f as ⟨start, s.stop⟩
  | method e n as s => method e n as ⟨start, s.stop⟩
  | invocation m s => invocation m ⟨start, s.stop⟩
  | ifThen c y n s => ifThen c y n ⟨start, s.stop⟩
  | block b s => block b ⟨start, s.stop⟩
  | whileLoop c b s => whileLoop c b ⟨start, s.stop⟩
  | loop b s => loop b ⟨start, s.stop⟩
  | forLoop p e b s => forLoop p e b ⟨start, s.stop⟩
  | range a b c s => range a b c ⟨start, s.stop⟩
  | breakLoop v s => breakLoop v ⟨start, s.stop⟩
  | continueLoop s => continueLoop ⟨start, s.stop⟩
  | returnFn v s => returnFn v ⟨start, s.stop⟩
  | array es s => array es ⟨start, s.stop⟩
  | index t p s => index t p ⟨start, s.stop⟩
  | cast e t s => cast e t ⟨start, s.stop⟩
  | other e s => other e ⟨start, s.stop⟩

/-- The expression with what stands before it counted as part of its leftmost operand. -/
def extendLeft (start : Position) : Expr → Expr
  | assign l r s => assign (l.extendLeft start) r ⟨start, s.stop⟩
  | binary op l r s => binary op (l.extendLeft start) r ⟨start, s.stop⟩
  | compound op l r s => compound op (l.extendLeft start) r ⟨start, s.stop⟩
  | cast e t s => cast (e.extendLeft start) t ⟨start, s.stop⟩
  | e => e.withStart start

end Expr

namespace Block

def stmts : Block → List Stmt
  | mk ss _ => ss

def span : Block → Span
  | mk _ s => s

end Block

namespace Stmt

def span : Stmt → Span
  | bind _ _ _ s | expr _ _ s | item _ s => s

end Stmt

end Notebook.Syntax

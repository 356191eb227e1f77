import Notebook.Syntax.Tree

/-!
Reading token trees. A reader takes tokens from the front of an input and remembers how they are
written, where the last one ended, and the first token that was left over in a group that has ended.

The grammar refers to itself. A rule that needs another one from scratch takes it from a `Grammar` that
it is handed; the grammar of depth `n + 1` is made from the grammar of depth `n`.
-/
namespace Notebook.Syntax
open Notebook.Text

/-- What is left to read: the tokens, the place that stands for their end, the tokens read so far in
writing, last one first, the last token read, whether that was a group in braces, and the first token
left over in a group that has ended. -/
structure Input where
  rest : List TokenTree
  scope : Span
  printed : List Piece := []
  last : Span := Span.none
  braced : Bool := false
  leftover : Option ParseError := none

/-- The place of the last one of some tokens, or `before` if there are none. -/
def lastSpan (tokens : List TokenTree) (before : Span) : Span :=
  (tokens.getLast?.map TokenTree.span).getD before

/-- An input that is left of another one when tokens have been taken from its front. Where the last of them
ended is remembered. -/
def Input.Follows (after now : Input) : Prop :=
  ∃ used, now.rest = used ++ after.rest ∧ after.last = lastSpan used now.last

theorem lastSpan_append (first others : List TokenTree) (before : Span) :
    lastSpan (first ++ others) before = lastSpan others (lastSpan first before) := by
  unfold lastSpan
  rw [List.getLast?_append]
  cases others.getLast? <;> rfl

theorem Input.Follows.refl (now : Input) : now.Follows now := ⟨[], rfl, rfl⟩

theorem Input.Follows.trans {now middle after : Input} (h : middle.Follows now) (h' : after.Follows middle) :
    after.Follows now := by
  obtain ⟨first, hrest, hlast⟩ := h
  obtain ⟨others, hrest', hlast'⟩ := h'
  refine ⟨first ++ others, by rw [hrest, hrest', List.append_assoc], ?_⟩
  rw [hlast', hlast, lastSpan_append]

/-- A reader of token trees. It takes tokens from the front of its input and brings in none, so what it
leaves is the end of what there was. -/
structure Parse (α : Type) where
  run : Input → Except ParseError (α × Input)
  follows : ∀ {input after : Input} {a : α}, run input = .ok (a, after) → after.Follows input

namespace Parse

theorem suffix {α} (p : Parse α) {input after : Input} {a : α} (h : p.run input = .ok (a, after)) :
    after.rest <:+ input.rest := by
  obtain ⟨used, hrest, -⟩ := p.follows h
  exact ⟨used, hrest.symm⟩

/-- Reads nothing. -/
protected def pure {α} (a : α) : Parse α where
  run input := .ok (a, input)
  follows h := by
    cases h
    exact .refl _

/-- Reads, and then reads what follows. -/
protected def bind {α β} (p : Parse α) (f : α → Parse β) : Parse β where
  run input :=
    match p.run input with
    | .ok (a, after) => (f a).run after
    | .error e => .error e
  follows := by
    intro input after b h
    split at h
    · rename_i a middle hp
      exact (p.follows hp).trans ((f a).follows h)
    · cases h

instance : Monad Parse where
  pure := Parse.pure
  bind := Parse.bind

/-- Changes what is left to read, and takes nothing but tokens from the front. -/
def change (f : Input → Input) (h : ∀ input, (f input).Follows input) : Parse Unit where
  run input := .ok ((), f input)
  follows hrun := by
    cases hrun
    exact h _

/-- Fails with a problem at a place. -/
def fail {α} (e : ParseError) : Parse α where
  run _ := .error e
  follows h := by cases h

/-- A reader that is made when it is needed. -/
def later {α} (p : Unit → Parse α) : Parse α where
  run input := (p ()).run input
  follows := (p ()).follows

end Parse

/-- What is left to read. -/
def input : Parse Input where
  run now := .ok (now, now)
  follows h := by
    cases h
    exact .refl _

/-! ### Looking at what comes next -/

/-- Whether the word comes next. -/
def isWord (w : String) : List TokenTree → Bool
  | .word v _ :: _ => v == w
  | _ => false

/-- Words that are no identifiers. -/
def reserved : List String := [
  "_", "abstract", "as", "async", "await", "become", "box", "break", "const", "continue", "crate",
  "do", "dyn", "else", "enum", "extern", "false", "final", "fn", "for", "if", "impl", "in", "let",
  "loop", "macro", "match", "mod", "move", "mut", "override", "priv", "pub", "ref", "return", "Self",
  "self", "static", "struct", "super", "trait", "true", "try", "type", "typeof", "unsafe", "unsized",
  "use", "virtual", "where", "while", "yield"]

/-- Whether an identifier comes next. -/
def isIdent : List TokenTree → Bool
  | .word v _ :: _ => !reserved.contains v
  | _ => false

/-- Whether any word comes next. -/
def isAnyWord : List TokenTree → Bool
  | .word _ _ :: _ => true
  | _ => false

/-- Whether a group of the delimiter comes next. -/
def isGroup (d : Delimiter) : List TokenTree → Bool
  | .group e _ _ :: _ => d = e
  | _ => false

/-- Whether an apostrophe with a name comes next. -/
def isLifetime : List TokenTree → Bool
  | .punct '\x27' true _ :: .word _ _ :: _ => true
  | _ => false

/-- Whether the text of a literal is that of a number. -/
def isNumberText (cs : List Char) : Bool := cs.head?.any Char.isDigit

/-- Whether a literal comes next; a number may have a minus sign. -/
def isLiteral : List TokenTree → Bool
  | .literal _ _ :: _ => true
  | .word v _ :: _ => v == "true" || v == "false"
  | .punct '-' _ _ :: .literal cs _ :: _ => isNumberText cs
  | _ => false

/-- Whether a text between double quotes comes next. -/
def isTextLiteral : List TokenTree → Bool
  | .literal cs _ :: _ => cs.head? = some '"' || cs.head? = some 'r'
  | _ => false

/-- Whether the punctuation comes next; what follows its last character does not matter. -/
def isPunctChars : List Char → List TokenTree → Bool
  | [], _ => true
  | c :: cs, .punct d joint _ :: rest =>
    d = c && d ≠ '\x27' && (cs.isEmpty || (joint && isPunctChars cs rest))
  | _ :: _, _ => false

/-- Whether the punctuation comes next. -/
def isPunct (s : String) (rest : List TokenTree) : Bool := isPunctChars s.toList rest

/-- What follows the next token; an apostrophe and its name count as one. -/
def skipOne : List TokenTree → List TokenTree
  | .punct '\x27' true _ :: .word _ _ :: rest => rest
  | _ :: rest => rest
  | [] => []

/-- Whether something comes next. -/
def peek (p : List TokenTree → Bool) : Parse Bool := do return p (← input).rest

/-- Whether something comes after the next token. -/
def peekSecond (p : List TokenTree → Bool) : Parse Bool := do
  let rest := (← input).rest
  return !rest.isEmpty && p (skipOne rest)

/-- Whether something comes after the next two tokens. -/
def peekThird (p : List TokenTree → Bool) : Parse Bool := do
  let rest := (← input).rest
  return !rest.isEmpty && !(skipOne rest).isEmpty && p (skipOne (skipOne rest))

/-- Whether nothing is left. -/
def atEnd : Parse Bool := do return (← input).rest.isEmpty

/-- The place of the next token, or of the end. -/
def here : Parse Span := do
  let now ← input
  return (now.rest.head?.map TokenTree.span).getD now.scope

/-- From a place on to the end of the last token read. -/
def spanFrom (start : Span) : Parse Span := do return ⟨start.start, (← input).last.stop⟩

/-! ### Failing -/

/-- Fails at the next token, or at the end. -/
def failWith {α} (problem : Bool → Problem) : Parse α := do
  let now ← input
  match now.rest with
  | [] => .fail ⟨problem true, now.scope⟩
  | t :: _ => .fail ⟨problem false, t.openSpan⟩

/-- One of several things is missing. -/
def expected {α} (things : List String) : Parse α := failWith (.expected things)

/-- Something is wrong with what comes next. -/
def wrong {α} (what : String) : Parse α := failWith (.wrong what)

/-- Something is wrong with what stands at a place. -/
def wrongAt {α} (span : Span) (what : String) : Parse α :=
  .fail ⟨.wrong what false, span⟩

/-- A thing is missing, which is said in the same words at the end. -/
def missing {α} (thing : String) : Parse α := failWith fun _ => .expected [thing] false

/-- A thing between back quotes. -/
def quotedThing (s : String) : String := "`" ++ s ++ "`"

/-! ### Taking tokens -/

/-- Changes what is remembered of the tokens in writing. -/
def reprint (f : List Piece → List Piece) : Parse Unit :=
  .change (fun now => { now with printed := f now.printed }) fun _ => ⟨[], rfl, rfl⟩

/-- Remembers a token in writing. -/
def print (p : Piece) : Parse Unit := reprint (p :: ·)

/-- Goes on behind so many tokens, of which the last one may be a group in braces. -/
def advance (n : Nat) (braced : Bool := false) : Parse Unit :=
  .change (fun now => { now with
      rest := now.rest.drop n, last := lastSpan (now.rest.take n) now.last, braced })
    fun now => ⟨now.rest.take n, (List.take_append_drop n now.rest).symm, rfl⟩

/-- Takes punctuation if it comes next. -/
def punct? (s : String) : Parse Bool := do
  let now ← input
  if isPunct s now.rest then
    advance s.toList.length
    print ⟨s.toList, false⟩
    return true
  else return false

/-- Takes punctuation. -/
def punct (s : String) : Parse Unit := do
  unless ← punct? s do missing (quotedThing s)

/-- Takes whatever word comes next. -/
def anyWord : Parse Ident := do
  match (← input).rest with
  | .word w s :: _ =>
    advance 1
    print ⟨w.toList, false⟩
    return ⟨w, s⟩
  | _ => expected ["ident"]

/-- Takes a word if it comes next. -/
def word? (w : String) : Parse Bool := do
  if ← peek (isWord w) then
    discard anyWord
    return true
  else return false

/-- Takes a word. -/
def word (w : String) : Parse Unit := do
  unless ← word? w do expected [quotedThing w]

/-- Takes an identifier. -/
def ident : Parse Ident := do
  match (← input).rest with
  | .word w _ :: _ =>
    if reserved.contains w then wrong ("expected identifier, found keyword " ++ quotedThing w)
    else anyWord
  | _ => expected ["identifier"]

/-- Takes an underscore. -/
def underscore : Parse Unit := do
  unless ← word? "_" do expected [quotedThing "_"]

/-- Takes an apostrophe and its name. -/
def lifetime : Parse Span := do
  match (← input).rest with
  | .punct '\x27' true s :: .word w t :: _ =>
    advance 2
    print ⟨'\x27' :: w.toList, false⟩
    return s.upTo t
  | _ => expected ["lifetime"]

/-- Takes an apostrophe and its name if they come next. -/
def lifetime? : Parse Bool := do
  if ← peek isLifetime then
    discard lifetime
    return true
  else return false

/-- Takes a literal. -/
def literal : Parse Literal := do
  match (← input).rest with
  | .literal cs _ :: _ =>
    advance 1
    print ⟨cs, false⟩
    return .ofText cs
  | .word w _ :: _ =>
    if w == "true" || w == "false" then
      advance 1
      print ⟨w.toList, false⟩
      return .truth (w == "true")
    else expected ["literal"]
  | .punct '-' _ _ :: .literal cs _ :: _ =>
    if isNumberText cs then
      advance 2
      print ⟨'-' :: cs, false⟩
      return .other
    else expected ["literal"]
  | _ => expected ["literal"]

/-- Takes a group of any delimiter without reading it. -/
def anyGroup : Parse (Delimiter × List TokenTree × Span) := do
  match (← input).rest with
  | .group d body s :: _ =>
    advance 1 (d == Delimiter.brace)
    print (TokenTree.group d body s).piece
    return (d, body, s)
  | _ => expected ["delimiter"]

/-- Takes a group and reads what is in it. A token left over in it is remembered. -/
def group {α} (d : Delimiter) (inside : Parse α) : Parse α where
  run now :=
    match now.rest with
    | .group e body s :: rest =>
      if d = e then
        match inside.run
          { now with rest := body, scope := TokenTree.closeSpan s, printed := [], last := s } with
        | .error e => .error e
        | .ok (value, after) =>
          let leftover := after.leftover <|>
            after.rest.head?.map fun t => ⟨.unexpected (some d), t.span⟩
          .ok (value, { now with
            rest, last := s, braced := d == Delimiter.brace, leftover
            printed := Piece.group d (Piece.join after.printed.reverse) :: now.printed })
      else (expected [d.describe]).run now
    | _ => (expected [d.describe]).run now
  follows := by
    intro now after a h
    split at h
    · rename_i e body s rest hrest
      split at h
      · split at h
        · cases h
        · cases h
          -- what follows the group is left, whatever is left in it
          exact ⟨[.group e body s], hrest, rfl⟩
      · exact Parse.follows _ h
    · exact Parse.follows _ h

/-- Reads without remembering how it is written; that comes beside the value. -/
def captured {α} (p : Parse α) : Parse (α × List Piece) := do
  let before := (← input).printed
  reprint fun _ => []
  let value ← p
  let pieces := (← input).printed.reverse
  reprint fun _ => before
  return (value, pieces)

/-- Reads, with the text of what was read. -/
def withText {α} (p : Parse α) : Parse (α × List Char) := do
  let (value, pieces) ← captured p
  reprint (pieces.reverse ++ ·)
  return (value, Piece.join pieces)

/-- Reads without what is remembered of the tokens before. It is remembered again behind. -/
def afresh {α} (p : Parse α) : Parse α where
  run now :=
    match p.run { rest := now.rest, scope := now.scope } with
    | .error e => .error e
    | .ok (value, after) => .ok (value, { after with
        scope := now.scope
        printed := after.printed ++ now.printed
        last := if after.rest.length < now.rest.length then after.last else now.last
        leftover := now.leftover <|> after.leftover })
  follows := by
    intro now after a h
    split at h
    · cases h
    · rename_i value behind hp
      cases h
      obtain ⟨used, hrest, hlast⟩ := p.follows hp
      refine ⟨used, hrest, ?_⟩
      dsimp only at hrest hlast ⊢
      rw [hrest, List.length_append, hlast]
      cases used with
      | nil => simp [lastSpan]
      | cons t used => simp [lastSpan, List.getLast?_cons]

/-- Reads, with the place of what was read. -/
def withSpan {α} (p : Parse α) : Parse (α × Span) := do
  let start ← here
  let value ← p
  return (value, ← spanFrom start)

/-- Reads if that succeeds, and takes nothing otherwise. -/
def attempt? {α} (p : Parse α) : Parse (Option α) where
  run now :=
    match p.run now with
    | .ok (value, after) => .ok (some value, after)
    | .error _ => .ok (none, now)
  follows := by
    intro now after a h
    split at h
    · rename_i value after' hp
      cases h
      exact p.follows hp
    · cases h
      exact .refl _

/-- What reading would give, taking nothing. -/
def ahead? {α} (p : Parse α) : Parse (Option α) where
  run now :=
    match p.run now with
    | .ok (value, _) => .ok (some value, now)
    | .error _ => .ok (none, now)
  follows := by
    intro now after a h
    split at h <;> cases h <;> exact .refl _

/-! ### Repetition -/

/-- Goes from state to state until one step ends it, for at most so many steps. -/
def iterateFor {σ α} (step : σ → Parse (σ ⊕ α)) : Nat → σ → Parse α
  | 0, _ => failWith fun _ => .unexpected none
  | n + 1, s => do
    match ← step s with
    | .inl s => iterateFor step n s
    | .inr a => return a

/-- Goes from state to state until one step ends it. A step takes a token or ends. -/
def iterate {σ α} (s : σ) (step : σ → Parse (σ ⊕ α)) : Parse α := do
  iterateFor step ((← input).rest.length + 1) s

/-- Reads while a condition holds. -/
def many {α} (condition : Parse Bool) (p : Parse α) : Parse (List α) :=
  iterate [] fun read => do
    if ← condition then return .inl ((← p) :: read) else return .inr read.reverse

/-- Reads values between separators up to a stop, with or without a separator at its end. -/
def separatedUntil {α} (stop : Parse Bool) (separator : String) (p : Parse α) : Parse (List α) :=
  iterate [] fun read => do
    if ← stop then return .inr read.reverse
    let read := (← p) :: read
    if ← stop then return .inr read.reverse
    punct separator
    return .inl read

/-- Reads values between commas up to the end. -/
def commaSeparated {α} (p : Parse α) : Parse (List α) := separatedUntil atEnd "," p

/-- Reads values after each of which a separator lets another one follow; a stop may come before any. -/
def chain {α} (stop : Parse Bool) (separator : String) (p : Parse α) : Parse (List α) :=
  iterate [] fun read => do
    if ← stop then return .inr read.reverse
    let read := (← p) :: read
    if ← punct? separator then return .inl read else return .inr read.reverse

/-! ### Running a reader -/

/-- Reads all of the tokens. Something left over in a group comes before something left over after
all. -/
def readAll {α} (p : Parse α) (tokens : List TokenTree) (scope : Span) : Except ParseError α := do
  let (value, after) ← p.run { rest := tokens, scope }
  match after.leftover, after.rest with
  | some e, _ => throw e
  | none, t :: _ => throw ⟨.unexpected none, t.span⟩
  | none, [] => return value

/-! ### The grammar -/

/-- How tightly an operator binds. -/
inductive Precedence
  | jump | assign | range | or | and | compare | bitOr | bitXor | bitAnd | shift | sum | product | cast
  deriving DecidableEq, Repr

/-- The place of a precedence in their order. -/
def Precedence.rank : Precedence → Nat
  | jump => 0 | assign => 1 | range => 2 | or => 3 | and => 4 | compare => 5 | bitOr => 6
  | bitXor => 7 | bitAnd => 8 | shift => 9 | sum => 10 | product => 11 | cast => 12

/-- A type as it is read: its shape, and what decides how it may go on. -/
structure ReadType where
  form : TypeForm
  /-- A path without a type in front. -/
  isPath : Bool := false
  /-- A path of one segment, without parentheses. -/
  isSegment : Bool := false
  /-- A single bound without a keyword. -/
  isBound : Bool := false

/-- A pattern as it is read, with the place of the dots of a range that lacks an end. -/
structure ReadPattern where
  pattern : Pattern
  openRange : Option Span := none

/-- The rules that other rules refer to from scratch. -/
structure Grammar where
  /-- An expression; a struct in braces may be forbidden. -/
  expr : Bool → Parse Expr
  /-- An expression that ends where a statement ends. -/
  free : Parse Expr
  /-- An operand with the operators before it and what trails it. -/
  operand : Bool → Parse Expr
  /-- An expression of which the first operand has been read. -/
  climb : Bool → Expr → Precedence → Parse Expr
  /-- A type; bounds joined by plus signs may be forbidden. -/
  type : Bool → Parse ReadType
  /-- A pattern without alternatives. -/
  pattern : Parse ReadPattern
  /-- Statements up to the end. -/
  stmts : Parse (List Stmt)
  /-- An item. -/
  item : Parse Unit
  /-- A tree of imported paths; a leading `::` may be forbidden. -/
  importTree : Bool → Parse Bool

end Notebook.Syntax

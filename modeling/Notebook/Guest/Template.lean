import Notebook.Text.Blank

/-!
Templates of printed text: literal text with places for values. A brace of the text is written twice.
-/
namespace Notebook.Guest
open Notebook.Text

/-- A part of a template. A value is printed or, after a colon and a question mark, shown. -/
inductive TemplatePiece
  | literal (text : List Char)
  /-- The next of the values given. -/
  | next (shown : Bool)
  /-- The value of a name. -/
  | named (name : List Char) (shown : Bool)
  deriving DecidableEq, Repr

/-- What may be wrong with a template. -/
inductive TemplateError
  | unterminated
  | unmatched
  | unsupported (spec : List Char)
  deriving DecidableEq, Repr

def TemplateError.message : TemplateError → String
  | unterminated => "unterminated format placeholder"
  | unmatched => "unmatched `\x7d` in format string"
  | unsupported spec => "unsupported format spec `" ++ String.ofList spec ++ "`"

/-- The place that stands between two braces. -/
def TemplatePiece.ofSpec (spec : List Char) : Except TemplateError TemplatePiece :=
  let name := trim (spec.takeWhile (· ≠ ':'))
  let place (shown : Bool) : TemplatePiece := if name.isEmpty then .next shown else .named name shown
  match (spec.dropWhile (· ≠ ':')).drop 1 with
  | [] => .ok (place false)
  | ['?'] => .ok (place true)
  | other => .error (.unsupported other)

/-- Literal text as a piece, unless there is none. -/
def TemplatePiece.ofLiteral (text : List Char) : List TemplatePiece := if text.isEmpty then [] else [.literal text]

/-- The pieces of a template of which some literal text has been read, last character first. -/
def parseTemplateFrom (literal : List Char) : List Char → Except TemplateError (List TemplatePiece)
  | [] => .ok (TemplatePiece.ofLiteral literal.reverse)
  | '\x7b' :: '\x7b' :: cs => parseTemplateFrom ('\x7b' :: literal) cs
  | '\x7d' :: '\x7d' :: cs => parseTemplateFrom ('\x7d' :: literal) cs
  | c :: cs =>
    if c = '\x7b' then
      let spec := cs.takeWhile (· ≠ '\x7d')
      match _h : cs.dropWhile (· ≠ '\x7d') with
      | [] => .error .unterminated
      | _ :: rest => do
        let piece ← TemplatePiece.ofSpec spec
        return TemplatePiece.ofLiteral literal.reverse ++ piece :: (← parseTemplateFrom [] rest)
    else if c = '\x7d' then .error .unmatched
    else parseTemplateFrom (c :: literal) cs
termination_by cs => cs.length
decreasing_by
  · simp only [List.length_cons]; omega
  · simp only [List.length_cons]; omega
  · have := (List.dropWhile_sublist (· ≠ '\x7d') (l := cs)).length_le
    rw [_h] at this
    simp only [List.length_cons] at this ⊢
    omega
  · simp only [List.length_cons]; omega

/-- The pieces of a template. -/
def parseTemplate (cs : List Char) : Except TemplateError (List TemplatePiece) := parseTemplateFrom [] cs

end Notebook.Guest

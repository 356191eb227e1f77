import Notebook.Snippet
import Notebook.Text.Offset

/-!
Completion of what is typed: the suggestions for a caret, and what a press of the tab key makes of them.
-/
namespace Notebook
open Notebook.Text

/-- Suggestions for a caret. A suggestion replaces the text from the anchor to the caret. -/
structure CompletionResult where
  suggestions : List Suggestion
  anchor : Nat
  deriving DecidableEq, Repr

/-- Keeps the first suggestion of each continuation, apart from those that were seen before. -/
def dedupeAfter (seen : List String) : List Suggestion → List Suggestion
  | [] => []
  | s :: ss =>
    if seen.contains s.continuation then dedupeAfter seen ss
    else s :: dedupeAfter (s.continuation :: seen) ss

/-- Keeps the first suggestion of each continuation. -/
def dedupe (ss : List Suggestion) : List Suggestion := dedupeAfter [] ss

/-- Suggestions without repetition, with an anchor that is not beyond the caret. -/
def CompletionResult.ofSuggestions (ss : List Suggestion) (anchor caret : Nat) : CompletionResult :=
  ⟨dedupe ss, min anchor caret⟩

/-- The offset of the first character in which two texts that go on from an offset differ. -/
def differenceFrom? (offset : Nat) : List Char → List Char → Option Nat
  | a :: as, b :: bs => if a = b then differenceFrom? (offset + a.utf8Size) as bs else some offset
  | _, _ => none

/-- Number of bytes that two texts start with in common. -/
def sharedBytes (as bs : List Char) : Nat :=
  (differenceFrom? 0 as bs).getD (min (width as) (width bs))

/-- The end, in a first text, of what it starts with in common with others. -/
def commonEnd (first : List Char) (rest : List (List Char)) : Nat :=
  rest.foldl (fun stop cs => min (sharedBytes first cs) stop) (width first)

/-- The characters that all texts start with in common. -/
def commonStart : List (List Char) → List Char
  | [] => []
  | first :: rest => takeBytes first (commonEnd first rest)

/-- What a press of the tab key does. -/
inductive TabAction
  | nothing
  /-- There is one suggestion, which is taken. -/
  | apply (continuation : String)
  /-- All suggestions go on in the same way, which is typed. -/
  | insertShared (continuation : String)
  /-- There is a choice. -/
  | choose (continuations : List String)
  deriving DecidableEq, Repr

/-- The text between two offsets; there is none if one is within a character or the order is wrong. -/
def between (text : List Char) (start stop : Nat) : List Char :=
  if isBoundary text start && isBoundary text stop && start ≤ stop then
    takeBytes (dropBytes text start) (stop - start)
  else []

/-- What a press of the tab key does at a caret. -/
def CompletionResult.tab (r : CompletionResult) (text : List Char) (caret : Nat) : TabAction :=
  let caret := floorOffset text caret
  match r.suggestions with
  | [] => .nothing
  | [s] => .apply s.continuation
  | ss =>
    let shared := commonStart (ss.map (·.continuation.toList))
    if shared.length > (between text (min r.anchor caret) caret).length then
      .insertShared (String.ofList shared)
    else .choose (ss.map (·.continuation))

/-- Puts a continuation in the place of the text from the anchor to the caret. The caret then stands
behind it. -/
def splice (text : List Char) (anchor caret : Nat) (continuation : List Char) : List Char × Nat :=
  let caret := floorOffset text caret
  let before := takeBytes text (min anchor caret) ++ continuation
  (before ++ dropBytes text caret, width before)

end Notebook

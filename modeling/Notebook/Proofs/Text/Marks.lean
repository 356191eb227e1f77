import Mathlib.Data.Prod.Lex
import Notebook.Text.Position

/-!
# Brackets and semicolons by their places

Two readings of one text cut it alike if they find the same brackets and semicolons at the same places.
Places follow each other as the characters do (`Position.key_lt_after`), so the marks before a place are
known from the marks of the whole text (`Mark.eq_of_append`).
-/

namespace Notebook.Text

namespace Position

/-- The place of a position in their order: lines first. -/
def key (p : Position) : ℕ ×ₗ ℕ := toLex (p.line, p.column)

theorem key_lt_next (p : Position) (c : Char) : p.key < (p.next c).key := by
  unfold next key
  split
  · exact Prod.Lex.toLex_lt_toLex.2 (.inl (Nat.lt_succ_self _))
  · exact Prod.Lex.toLex_lt_toLex.2 (.inr ⟨rfl, Nat.lt_succ_self _⟩)

theorem after_nil (p : Position) : p.after [] = p := rfl

theorem after_append (p : Position) (front back : List Char) :
    p.after (front ++ back) = (p.after front).after back := List.foldl_append

theorem key_le_after (p : Position) (cs : List Char) : p.key ≤ (p.after cs).key := by
  induction cs generalizing p with
  | nil => exact le_refl _
  | cons c cs ih => exact (key_lt_next p c).le.trans (ih (p.next c))

theorem key_lt_after (p : Position) {cs : List Char} (h : cs ≠ []) : p.key < (p.after cs).key := by
  cases cs with
  | nil => exact absurd rfl h
  | cons c cs => exact (key_lt_next p c).trans_le (key_le_after (p.next c) cs)

end Position

/-- A bracket or a semicolon at the place where it stands. -/
structure Mark where
  place : Position
  char : Char
  deriving DecidableEq, Repr

namespace Mark

/-- Brackets that open a group. -/
def openings : List Char := ['(', '[', '\x7b']

/-- The opening bracket that a closing one answers. -/
def answered? (c : Char) : Option Char :=
  if c = ')' then some '(' else if c = ']' then some '[' else if c = '\x7d' then some '\x7b' else none

/-- Characters that are marked. -/
def isMarked (c : Char) : Bool := openings.contains c || (answered? c).isSome || c = ';'

/-- The open brackets behind one more mark, innermost first; nothing if a closing one answers no open
one. -/
def read (stack : List Char) (m : Mark) : Option (List Char) :=
  if openings.contains m.char then some (m.char :: stack)
  else
    match answered? m.char with
    | some c => if stack.head? = some c then some stack.tail else none
    | none => some stack

/-- The open brackets behind marks. -/
def readAll (stack : List Char) (ms : List Mark) : Option (List Char) := ms.foldlM read stack

@[simp] theorem readAll_nil (stack : List Char) : readAll stack [] = some stack := rfl

@[simp] theorem readAll_cons (stack : List Char) (m : Mark) (ms : List Mark) :
    readAll stack (m :: ms) = (read stack m).bind fun stack => readAll stack ms := rfl

@[simp] theorem readAll_append (stack : List Char) (ms ns : List Mark) :
    readAll stack (ms ++ ns) = (readAll stack ms).bind fun stack => readAll stack ns :=
  List.foldlM_append

theorem readAll_singleton (stack : List Char) (m : Mark) : readAll stack [m] = read stack m :=
  Option.bind_fun_some _

@[simp] theorem read_semicolon (stack : List Char) (p : Position) : read stack ⟨p, ';'⟩ = some stack := rfl

/-- Marks on both sides of a place are told apart by it. -/
theorem eq_of_append {front back front' back' : List Mark} {p : Position}
    (h : front ++ back = front' ++ back')
    (hfront : ∀ m ∈ front, m.place.key < p.key) (hback : ∀ m ∈ back, p.key ≤ m.place.key)
    (hfront' : ∀ m ∈ front', m.place.key < p.key) (hback' : ∀ m ∈ back', p.key ≤ m.place.key) :
    front = front' ∧ back = back' := by
  have hbefore {front back : List Mark} (hfront : ∀ m ∈ front, m.place.key < p.key)
      (hback : ∀ m ∈ back, p.key ≤ m.place.key) :
      (front ++ back).filter (·.place.key < p.key) = front := by
    rw [List.filter_append, List.filter_eq_self.2 (by simpa using hfront),
      List.filter_eq_nil_iff.2 (by simpa using hback), List.append_nil]
  have heq : front = front' := by rw [← hbefore hfront hback, h, hbefore hfront' hback']
  rw [heq] at h
  exact ⟨heq, List.append_cancel_left h⟩

end Mark

end Notebook.Text

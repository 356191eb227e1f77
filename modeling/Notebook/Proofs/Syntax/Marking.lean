import Notebook.Proofs.Syntax.Lexing

/-!
# Brackets and semicolons that the lexer finds

A step of the lexer finds at most one bracket or semicolon (`LexState.Step.marks_eq`), and which groups are
open is known from those found so far (`LexState.readAll_marks`).
-/

namespace Notebook.Syntax
open Notebook.Text

/-! ## The marks of token trees -/

/-- Whether a token tree is what a comment stands for that documents something: a group whose tokens end
where it ends. -/
def TokenTree.isDoc : TokenTree → Bool
  | .group _ body s => body.getLast?.map (·.span.stop) = some s.stop
  | _ => false

mutual

/-- The brackets and semicolons of a token tree.  A comment has none, also if it stands for a group. -/
def TokenTree.marks : TokenTree → List Mark
  | .punct c _ s => if c = ';' then [⟨s.start, c⟩] else []
  | .group d body s =>
    if TokenTree.isDoc (.group d body s) then []
    else ⟨s.start, d.opening⟩ :: TokenTree.marksAll body ++ [⟨(TokenTree.closeSpan s).start, d.closing⟩]
  | _ => []

/-- The brackets and semicolons of token trees. -/
def TokenTree.marksAll : List TokenTree → List Mark
  | [] => []
  | t :: ts => t.marks ++ TokenTree.marksAll ts

end

open TokenTree (marksAll)

@[simp] theorem marksAll_nil : marksAll [] = [] := by simp only [marksAll]

@[simp] theorem marksAll_cons (t : TokenTree) (ts : List TokenTree) :
    marksAll (t :: ts) = t.marks ++ marksAll ts := by simp only [marksAll]

@[simp] theorem marksAll_append (ts us : List TokenTree) :
    marksAll (ts ++ us) = marksAll ts ++ marksAll us := by
  induction ts with
  | nil => simp
  | cons t ts ih => simp [ih]

theorem read_opening (stack : List Char) (p : Position) (d : Delimiter) :
    Mark.read stack ⟨p, d.opening⟩ = some (d.opening :: stack) := by
  cases d <;> rfl

theorem read_closing (stack : List Char) (p : Position) (d : Delimiter) :
    Mark.read (d.opening :: stack) ⟨p, d.closing⟩ = some stack := by
  cases d <;> rfl

mutual

/-- Brackets of token trees match. -/
theorem readAll_marks (stack : List Char) : (t : TokenTree) → Mark.readAll stack t.marks = some stack
  | .word .. => by simp [TokenTree.marks]
  | .literal .. => by simp [TokenTree.marks]
  | .punct c _ s => by
    rw [TokenTree.marks]
    split
    · rename_i hc
      subst hc
      rfl
    · rfl
  | .group d body s => by
    rw [TokenTree.marks]
    split
    · rfl
    · simp [readAll_marksAll _ body, read_opening, read_closing]

theorem readAll_marksAll (stack : List Char) : (ts : List TokenTree) →
    Mark.readAll stack (marksAll ts) = some stack
  | [] => by simp
  | t :: ts => by simp [readAll_marks stack t, readAll_marksAll stack ts]

end

/-! ## Tokens that are marks -/

theorem leaf?_semicolon (rest : List Char) :
    leaf? (';' :: rest) = some (1, .punct ';' (startsPunct rest)) := by
  have hliteral : literalLength? (';' :: rest) = none := by
    simp [literalLength?, stringLength?, floatLength?, integerLength?, startsWith, digitsLength?,
      show Char.isDigit ';' = false by decide, show isHexDigit ';' = false by decide]
  have hpunct : startsPunct (';' :: rest) = true := by
    rw [startsPunct_of_ne rest (by decide)]
    decide
  exact leaf?_eq_some_iff.2 (.sign hliteral hpunct rfl (by decide))

/-- A token is a literal, a word, or the punctuation character that stands first. -/
theorem cases_leaf? {cs : List Char} {n : Nat} {token : Span → TokenTree} (h : leaf? cs = some (n, token)) :
    (∃ text, token = .literal text) ∨ (∃ text, token = .word text) ∨
      ∃ c joint, cs.head? = some c ∧ n = 1 ∧ token = .punct c joint := by
  cases leaf?_eq_some_iff.1 h with
  | literal => exact .inl ⟨_, rfl⟩
  | quote _ _ hquote => exact .inr (.inr ⟨_, _, hquote, rfl, rfl⟩)
  | sign _ _ hhead => exact .inr (.inr ⟨_, _, hhead, rfl, rfl⟩)
  | mark => exact .inl ⟨_, rfl⟩
  | word => exact .inr (.inl ⟨_, rfl⟩)

/-- A token is a mark if it is a semicolon. -/
theorem marks_leaf {c : Char} {rest : List Char} {n : Nat} {token : Span → TokenTree}
    (h : leaf? (c :: rest) = some (n, token)) (s : Span) :
    (token s).marks = if c = ';' then [⟨s.start, ';'⟩] else [] := by
  by_cases hc : c = ';'
  · subst hc
    rw [leaf?_semicolon] at h
    cases h
    simp [TokenTree.marks]
  · rw [if_neg hc]
    obtain ⟨text, rfl⟩ | ⟨text, rfl⟩ | ⟨d, joint, hd, -, rfl⟩ := cases_leaf? h
    · simp [TokenTree.marks]
    · simp [TokenTree.marks]
    · cases hd
      simp [TokenTree.marks, hc]

theorem span_leaf {cs : List Char} {n : Nat} {token : Span → TokenTree} (h : leaf? cs = some (n, token))
    (s : Span) : (token s).span = s := by
  obtain ⟨text, rfl⟩ | ⟨text, rfl⟩ | ⟨c, joint, -, -, rfl⟩ := cases_leaf? h <;> rfl

theorem marksAll_doc (d : DocComment) (s : Span) : marksAll (d.trees s) = [] := by
  unfold DocComment.trees
  cases d.inner <;> simp [TokenTree.marks, TokenTree.isDoc, TokenTree.span]

theorem exists_last_doc (d : DocComment) (s : Span) :
    ∃ t, (d.trees s).getLast? = some t ∧ t.span = s ∧ t.isDoc = true := by
  refine ⟨_, List.getLast?_concat, rfl, ?_⟩
  simp [TokenTree.isDoc, TokenTree.span]

theorem ne_newline_of_closed? {c : Char} {d : Delimiter} (h : Delimiter.closed? c = some d) : c ≠ '\n' := by
  intro hc
  subst hc
  cases h

theorem closing_of_closed? {c : Char} {d : Delimiter} (h : Delimiter.closed? c = some d) : d.closing = c := by
  simpa using List.find?_some h

namespace LexState

/-- The marks of open groups and of what stands before them. -/
def openMarks : List OpenGroup → List Mark
  | [] => []
  | g :: stack => openMarks stack ++ marksAll g.before.reverse ++ [⟨g.start, g.delimiter.opening⟩]

/-- The marks that have been found. -/
def marks (s : LexState) : List Mark := openMarks s.stack ++ marksAll s.trees.reverse

theorem readAll_openMarks (stack : List OpenGroup) :
    Mark.readAll [] (openMarks stack) = some (stack.map (·.delimiter.opening)) := by
  induction stack with
  | nil => rfl
  | cons g stack ih => simp [openMarks, ih, readAll_marksAll, read_opening]

/-- The open groups are known from the marks that have been found. -/
theorem readAll_marks (s : LexState) :
    Mark.readAll [] s.marks = some (s.stack.map (·.delimiter.opening)) := by
  simp [marks, readAll_openMarks, readAll_marksAll]

/-- What has been found stands before the place. -/
structure Behind (s : LexState) : Prop where
  trees : ∀ t, s.trees.head? = some t → t.span.stop.key ≤ s.place.key
  marks : ∀ m ∈ s.marks, m.place.key < s.place.key

theorem behind_start (p : Position) : Behind ⟨p, [], []⟩ where
  trees _ h := nomatch h
  marks _ h := by simp [LexState.marks, openMarks] at h

variable {s s' : LexState} {cs : List Char} {n : Nat}

/-- A step finds at most one mark, which is all that it takes. -/
theorem Step.marks_eq (hs : s.Behind) (h : Step s cs n s') :
    s'.marks = s.marks ∨
      n = 1 ∧ ∃ c rest, cs = c :: rest ∧ s'.marks = s.marks ++ [⟨s.place, c⟩] := by
  cases h with
  | trivia h => exact .inl rfl
  | doc hno h =>
    left
    simp [marks, marksAll_doc]
  | opening h =>
    rename_i c rest d
    refine .inr ⟨rfl, c, rest, rfl, ?_⟩
    simp [marks, openMarks, (opening?_eq_some.1 h).2]
  | closing hstack h =>
    rename_i c rest g stack
    refine .inr ⟨rfl, c, rest, rfl, ?_⟩
    -- the tokens inside end before the bracket
    have hinside : ¬(TokenTree.group g.delimiter s.trees.reverse ⟨g.start, s.place.next c⟩).isDoc = true := by
      intro hlast
      rw [TokenTree.isDoc, decide_eq_true_eq] at hlast
      obtain ⟨t, ht, hstop⟩ := Option.map_eq_some_iff.1 hlast
      rw [List.getLast?_reverse] at ht
      have hle := hs.trees t ht
      rw [hstop] at hle
      exact absurd hle (not_le_of_gt (Position.key_lt_next _ _))
    have hplace : (TokenTree.closeSpan ⟨g.start, s.place.next c⟩).start = s.place := by
      simp [TokenTree.closeSpan, Position.next, ne_newline_of_closed? h]
    have hgroup : (TokenTree.group g.delimiter s.trees.reverse ⟨g.start, s.place.next c⟩).marks =
        ⟨g.start, g.delimiter.opening⟩ :: marksAll s.trees.reverse ++ [⟨s.place, c⟩] := by
      rw [TokenTree.marks, if_neg hinside, hplace, closing_of_closed? h]
    simp [marks, hstack, openMarks, hgroup]
  | leaf hno hdoc hopen hclose h =>
    rename_i c rest token
    have hmarks := marks_leaf h ⟨s.place, s.place.after ((c :: rest).take n)⟩
    by_cases hc : c = ';'
    · subst hc
      have hn : n = 1 := by
        rw [leaf?_semicolon] at h
        cases h
        rfl
      rw [if_pos rfl] at hmarks
      exact .inr ⟨hn, _, _, rfl, by simp [marks, hmarks]⟩
    · rw [if_neg hc] at hmarks
      left
      simp [marks, hmarks]

theorem Step.place_lt (h : Step s cs n s') (hcs : cs ≠ []) : s.place.key < s'.place.key := by
  rw [h.place]
  exact Position.key_lt_after _ (by simpa [List.take_eq_nil_iff, hcs] using Nat.ne_of_gt h.pos)

theorem Step.ne_nil (h : Step s cs n s') : cs ≠ [] := by
  cases h with
  | trivia h =>
    rintro rfl
    cases h
  | doc hno h =>
    rintro rfl
    simp [docComment?, startsWith] at h
  | opening => exact List.cons_ne_nil _ _
  | closing => exact List.cons_ne_nil _ _
  | leaf => exact List.cons_ne_nil _ _

/-- What a step does to the trees: nothing, or it begins a group, or it adds a tree that ends where the
step ends. -/
theorem Step.trees_eq (h : Step s cs n s') :
    s'.trees = s.trees ∧ s'.stack = s.stack ∨ s'.trees = [] ∧ s'.stack ≠ [] ∨
      ∃ t, s'.trees.head? = some t ∧ t.span.stop = s'.place := by
  cases h with
  | trivia h => exact .inl ⟨rfl, rfl⟩
  | doc hno h =>
    rename_i d
    obtain ⟨t, ht, hspan, -⟩ := exists_last_doc d ⟨s.place, s.place.after (cs.take d.length)⟩
    refine .inr (.inr ⟨t, ?_, by rw [hspan]⟩)
    rw [List.head?_append, List.head?_reverse, ht]
    rfl
  | opening h => exact .inr (.inl ⟨rfl, List.cons_ne_nil _ _⟩)
  | closing hs h => exact .inr (.inr ⟨_, rfl, rfl⟩)
  | leaf hno hdoc hopen hclose h => exact .inr (.inr ⟨_, rfl, by rw [span_leaf h]⟩)

theorem Step.behind (hs : s.Behind) (h : Step s cs n s') : s'.Behind := by
  have hlt := h.place_lt h.ne_nil
  refine ⟨?_, ?_⟩
  · intro t ht
    rcases h.trees_eq with ⟨heq, -⟩ | ⟨heq, -⟩ | ⟨u, hu, hstop⟩
    · rw [heq] at ht
      exact (hs.trees t ht).trans hlt.le
    · rw [heq] at ht
      cases ht
    · rw [hu, Option.some.injEq] at ht
      rw [← ht, hstop]
  · intro m hm
    rcases h.marks_eq hs with heq | ⟨-, c, rest, -, heq⟩
    · rw [heq] at hm
      exact (hs.marks m hm).trans hlt
    · rw [heq] at hm
      rcases List.mem_append.1 hm with hm | hm
      · exact (hs.marks m hm).trans hlt
      · rw [List.mem_singleton.1 hm]
        exact hlt

end LexState

end Notebook.Syntax

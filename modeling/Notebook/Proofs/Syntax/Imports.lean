import Mathlib.Data.List.TakeWhile
import Notebook.Proofs.Syntax.Marking
import Notebook.Proofs.Syntax.Statements

/-!
# Imports are read

The text `use w;` is a single import of `w`, for every identifier `w` that is not reserved
(`parseUnit_import`).
-/

namespace Notebook.Syntax
open Notebook.Text

/-! ## Identifiers -/

/-- A text that is one identifier. -/
def IsIdentifier (cs : List Char) : Prop := identifierLength? cs = some cs.length

instance (cs : List Char) : Decidable (IsIdentifier cs) := inferInstanceAs (Decidable (_ = _))

/-- A text in which a sign stands first, or behind letters, that neither goes on with a word nor ends it. -/
def Marked (cs : List Char) : Prop :=
  ∃ letters sign rest, cs = letters ++ sign :: rest ∧ letters.all goesOn = true ∧
    goesOn sign = false ∧ endsToken sign = false

theorem marked_append (letters : List Char) (sign : Char) (rest : List Char)
    (h : (letters.all goesOn && !goesOn sign && !endsToken sign) = true) :
    Marked (letters ++ sign :: rest) := by
  simp only [Bool.and_eq_true, Bool.not_eq_true'] at h
  exact ⟨letters, sign, rest, rfl, h.1.1, h.1.2, h.2⟩

/-- A word goes on up to where it ends, and runs into no sign. -/
theorem not_marked_append {w z : List Char} (hw : ∀ c ∈ w, goesOn c = true) (hz : Stops z) :
    ¬ Marked (w ++ z) := by
  rintro ⟨letters, sign, rest, heq, hletters, hsign, hends⟩
  have hfirst : (w ++ z).takeWhile goesOn = w := by
    rw [takeWhile_append_stops hz w fun _ h => h]
    exact List.takeWhile_eq_self_iff.2 hw
  have hsecond : (letters ++ sign :: rest).takeWhile goesOn = letters := by
    rw [List.takeWhile_append_of_pos (List.all_eq_true.1 hletters),
      List.takeWhile_cons_of_neg (by simp [hsign]), List.append_nil]
  rw [heq, hsecond] at hfirst
  subst hfirst
  have hz' : z = sign :: rest := List.append_cancel_left heq
  rw [hz sign (by rw [hz']; rfl)] at hends
  cases hends

theorem marked_rawFrom? {q : Quotation} (letters : List Char) {cs : List Char}
    (hletters : letters.all goesOn = true) (h : rawFrom? q cs ≠ none) : Marked (letters ++ cs) := by
  cases cs with
  | nil => exact absurd rfl h
  | cons c cs =>
    by_cases hhash : c = '#'
    · exact ⟨letters, c, cs, rfl, hletters, by rw [hhash]; decide, by rw [hhash]; decide⟩
    by_cases hquote : c = '"'
    · exact ⟨letters, c, cs, rfl, hletters, by rw [hquote]; decide, by rw [hquote]; decide⟩
    refine absurd ?_ h
    have hnone : ((c :: cs).takeWhile (· = '#')).length = 0 := by
      rw [List.takeWhile_cons_of_neg (by simpa using hhash), List.length_nil]
    unfold rawFrom?
    rw [hnone]
    dsimp only [List.drop_zero]
    split
    · rename_i heq
      cases heq
      exact absurd rfl hquote
    · rfl

/-- Quoted text begins with a sign, or with letters and a sign. -/
theorem marked_stringBody? {cs : List Char} (h : stringBody? cs ≠ none) : Marked cs := by
  have hraw {q : Quotation} {m : Nat} {cs : List Char} (h : (rawFrom? q cs).map (· + m) ≠ none) :
      rawFrom? q cs ≠ none := fun hnone => h (by rw [hnone]; rfl)
  unfold stringBody? at h
  split at h
  · exact marked_append [] '"' _ (by decide)
  · exact marked_rawFrom? ['r'] (by decide) (hraw h)
  · exact marked_append ['b'] '"' _ (by decide)
  · exact marked_rawFrom? ['b', 'r'] (by decide) (hraw h)
  · exact marked_append ['c'] '"' _ (by decide)
  · exact marked_rawFrom? ['c', 'r'] (by decide) (hraw h)
  · exact marked_append ['b'] '\x27' _ (by decide)
  · exact marked_append [] '\x27' _ (by decide)
  · exact absurd rfl h

theorem marked_of_startsWith {cs : List Char} {s : String} (h : startsWith cs s = true)
    (hs : Marked s.toList) : Marked cs := by
  obtain ⟨rest, rfl⟩ := List.isPrefixOf_iff_prefix.1 h
  obtain ⟨letters, sign, more, heq, hsign⟩ := hs
  exact ⟨letters, sign, more ++ rest, by rw [heq, List.append_assoc, List.cons_append], hsign⟩

theorem marked_literalMarks : ∀ s ∈ literalMarks, Marked s.toList := by
  simp only [literalMarks, List.forall_mem_cons, List.not_mem_nil, false_implies, implies_true, and_true]
  exact ⟨marked_append ['r'] '"' [] (by decide), marked_append ['r'] '#' ['"'] (by decide),
    marked_append ['r'] '#' ['#'] (by decide), marked_append ['b'] '"' [] (by decide),
    marked_append ['b'] '\x27' [] (by decide), marked_append ['b', 'r'] '"' [] (by decide),
    marked_append ['b', 'r'] '#' [] (by decide), marked_append ['c'] '"' [] (by decide),
    marked_append ['c', 'r'] '"' [] (by decide), marked_append ['c', 'r'] '#' [] (by decide)⟩

section Identifier

variable {c : Char} {cs z : List Char}

theorem isIdentifier_cons :
    IsIdentifier (c :: cs) ↔ isIdentifierStart c = true ∧ ∀ d ∈ cs, isIdentifierContinue d = true := by
  show (if isIdentifierStart c then some (1 + (cs.takeWhile isIdentifierContinue).length) else none) =
    some (c :: cs).length ↔ _
  by_cases hc : isIdentifierStart c = true
  · rw [if_pos hc, Option.some.injEq, List.length_cons, Nat.add_comm, Nat.add_right_cancel_iff]
    rw [and_iff_right hc, ← List.takeWhile_eq_self_iff]
    exact ⟨fun h => (List.takeWhile_prefix _).eq_of_length h, fun h => congrArg List.length h⟩
  · rw [if_neg hc]
    exact iff_of_false nofun fun h => hc h.1

theorem IsIdentifier.mem {w : List Char} (h : IsIdentifier w) {d : Char} (hd : d ∈ w) :
    isIdentifierStart d = true ∨ isIdentifierContinue d = true := by
  cases w with
  | nil => cases hd
  | cons c cs =>
    obtain ⟨hc, hcs⟩ := isIdentifier_cons.1 h
    rcases List.mem_cons.1 hd with rfl | hd
    · exact .inl hc
    · exact .inr (hcs d hd)

theorem IsIdentifier.goesOn {w : List Char} (h : IsIdentifier w) : ∀ c ∈ w, goesOn c = true := by
  intro c hc
  rcases h.mem hc with hstart | hcontinue
  · simp [Syntax.goesOn, hstart]
  · simp [Syntax.goesOn, hcontinue]

theorem endsToken_of_isTokenBlank (h : isTokenBlank c = true) : endsToken c = true := by
  unfold isTokenBlank at h
  rw [Bool.or_eq_true, Bool.or_eq_true, decide_eq_true_eq, decide_eq_true_eq] at h
  rcases h with (hblank | rfl) | rfl
  · exact endsToken_of_isBlank hblank
  · decide
  · decide

theorem isDigit_of_isIdentifierStart (hc : isIdentifierStart c = true) : c.isDigit = false := by
  rw [Bool.eq_false_iff]
  intro hdigit
  have hrange : 48 ≤ c.toNat ∧ c.toNat ≤ 57 := by
    simpa [Char.isDigit, UInt32.le_iff_toNat_le] using hdigit
  have hall : (List.range 58).all (fun n => n < 48 || !isIdentifierStart (Char.ofNat n)) = true := by
    decide +kernel
  have hchar := List.all_eq_true.1 hall c.toNat (List.mem_range.2 (Nat.lt_succ_of_le hrange.2))
  rw [Char.ofNat_toNat, hc, Bool.or_eq_true, decide_eq_true_eq] at hchar
  rcases hchar with hlt | h
  · omega
  · cases h

/-- An identifier starts with no blank, no digit, no bracket and no sign. -/
structure StartsWord (c : Char) : Prop where
  ne_slash : c ≠ '/'
  not_blank : isTokenBlank c = false
  not_digit : c.isDigit = false
  not_punct : punctuation.contains c = false
  ne_paren : c ≠ '('
  not_closed : Delimiter.closed? c = none

theorem StartsWord.isBlank_eq (h : StartsWord c) : isBlank c = false := by
  have hnot := h.not_blank
  simp only [isTokenBlank, Bool.or_eq_false_iff] at hnot
  exact hnot.1.1

theorem startsWord (hc : isIdentifierStart c = true) : StartsWord c := by
  have hne {d : Char} (hd : isIdentifierStart d = false) : c ≠ d := by
    rintro rfl
    rw [hc] at hd
    cases hd
  refine ⟨hne (by decide), Bool.eq_false_iff.2 fun hblank => ?_, isDigit_of_isIdentifierStart hc,
    Bool.eq_false_iff.2 fun hpunct => ?_, hne (by decide), List.find?_eq_none.2 fun d _ hclose => ?_⟩
  · have hgoes : goesOn c = true := by simp [Syntax.goesOn, hc]
    rw [goesOn_of_endsToken (endsToken_of_isTokenBlank hblank)] at hgoes
    cases hgoes
  · have hall : punctuation.all (fun d => !isIdentifierStart d) = true := by decide
    have hc' := List.all_eq_true.1 hall c (List.contains_iff_mem.1 hpunct)
    rw [hc] at hc'
    cases hc'
  · exact hne (d := d.closing) (by cases d <;> decide) (of_decide_eq_true hclose).symm

/-! ## Words as tokens -/

theorem floatLength?_of_not_digit (hc : c.isDigit = false) : floatLength? (c :: cs) = none := by
  unfold floatLength?
  rw [if_neg]
  simpa using hc

theorem integerLength?_of_not_digit (hc : c.isDigit = false) : integerLength? (c :: cs) = none := by
  have hzero : c ≠ '0' := by
    rintro rfl
    cases hc
  have hvalue : ¬ hexValue c < 10 := by
    unfold hexValue
    rw [if_neg (by simp [hc])]
    split <;> omega
  have hdigits : digitsLength? 10 true (c :: cs) = none := by
    simp [digitsLength?, hc, hvalue]
  unfold integerLength?
  dsimp only
  rw [startsWith_of_ne (a := '0') cs (by decide) hzero, startsWith_of_ne (a := '0') cs (by decide) hzero,
    startsWith_of_ne (a := '0') cs (by decide) hzero, hdigits]
  rfl

theorem leaf?_identifier {w : List Char} (hw : IsIdentifier w) (hz : Stops z) :
    leaf? (w ++ z) = some (w.length, .word (String.ofList w)) := by
  have hmarked : ¬ Marked (w ++ z) := not_marked_append hw.goesOn hz
  cases w with
  | nil => cases hw
  | cons c cs =>
    have hstart := startsWord (isIdentifier_cons.1 hw).1
    have hliteral : literalLength? (c :: cs ++ z) = none := by
      have hbody : stringBody? (c :: cs ++ z) = none :=
        Decidable.byContradiction fun h => hmarked (marked_stringBody? h)
      rw [literalLength?_of_unquoted hz hbody, floatLength?_of_not_digit hstart.not_digit,
        integerLength?_of_not_digit hstart.not_digit]
      rfl
    have hpunct : startsPunct (c :: cs ++ z) = false := by
      rw [List.cons_append, startsPunct_of_ne _ hstart.ne_slash, hstart.not_punct]
    have hmarks : literalMarks.any (startsWith (c :: cs ++ z)) = false := by
      rw [List.any_eq_false]
      exact fun s hs h => hmarked (marked_of_startsWith h (marked_literalMarks s hs))
    have hraw : startsWith (c :: cs ++ z) "r#" = false := by
      rw [Bool.eq_false_iff]
      exact fun h => hmarked (marked_of_startsWith h (marked_append ['r'] '#' [] (by decide)))
    have hlength : wordLength? (c :: cs ++ z) = some (c :: cs).length := by
      unfold wordLength?
      rw [hraw, if_neg Bool.false_ne_true, identifierLength?_append_stops hz]
      exact hw
    have hmark : startsWith (c :: cs ++ z) errorMark = false :=
      startsWith_of_ne (cs ++ z) (a := '(') (by decide) hstart.ne_paren
    have hleaf := Leaf.word hliteral hpunct hmark hmarks hlength
    rw [List.take_left' rfl] at hleaf
    exact leaf?_eq_some_iff.2 hleaf

namespace LexState

variable (s : LexState) {w : List Char}

theorem lex_identifier (hw : IsIdentifier w) (hz : Stops z) :
    s.lex (w ++ z) =
      { s with
        place := s.place.after w
        trees := .word (String.ofList w) ⟨s.place, s.place.after w⟩ :: s.trees }.lex z := by
  have hleaf := leaf?_identifier hw hz
  have htake : (w ++ z).take w.length = w := List.take_left' rfl
  have hdrop : (w ++ z).drop w.length = z := List.drop_left' rfl
  cases w with
  | nil => cases hw
  | cons c cs =>
    have hstart := startsWord (isIdentifier_cons.1 hw).1
    have hstep := Step.leaf (s := s) (noTrivia_of_ne hstart.ne_slash hstart.not_blank)
      (docComment?_of_ne (cs ++ z) hstart.ne_slash) (opening?_of_leaf? hleaf) hstart.not_closed hleaf
    have hlex := hstep.lex
    rw [← List.cons_append, htake, hdrop] at hlex
    exact hlex

theorem lex_space (cs : List Char) : s.lex (' ' :: cs) = { s with place := s.place.next ' ' }.lex cs := by
  have htrivia : triviaLength? (' ' :: cs) = some 1 := by
    rw [triviaLength?_of_ne cs (by decide)]
    rfl
  exact (Step.trivia htrivia).lex

theorem lex_semicolon (cs : List Char) :
    s.lex (';' :: cs) =
      { s with
        place := s.place.next ';'
        trees := .punct ';' (startsPunct cs) ⟨s.place, s.place.next ';'⟩ :: s.trees }.lex cs :=
  (Step.leaf (noTrivia_of_ne (by decide) (by decide)) (docComment?_of_ne cs (by decide))
    (opening?_of_leaf? (leaf?_semicolon cs)) (by decide) (leaf?_semicolon cs)).lex

theorem lex_nil (hstack : s.stack = []) : s.lex [] = .ok s.trees.reverse := by
  unfold LexState.lex
  rw [lexFrom_eq, skipTrivia]
  dsimp only
  rw [hstack]

end LexState

end Identifier

/-- The text of an import. -/
def importText (w : List Char) : List Char := "use ".toList ++ w ++ [';']

/-- The trees of an import of a word. -/
def importTrees (w : String) (s s' t : Span) : List TokenTree :=
  [.word "use" s, .word w s', .punct ';' false t]

theorem lex_import {w : List Char} (hw : IsIdentifier w) :
    ∃ s s' t, lex (importText w) = .ok (importTrees (String.ofList w) s s' t) := by
  have hsplit : importText w = "use".toList ++ ' ' :: (w ++ [';']) := by simp [importText]
  have hlex : lex (importText w) = LexState.lex ⟨Position.origin, [], []⟩ (importText w) := by
    rw [hsplit]
    rfl
  have hspace : Stops (' ' :: (w ++ [';'])) := stops_cons (by decide)
  have hsemicolon : Stops [';'] := stops_cons (by decide)
  let p := Position.origin.after "use".toList
  let q := (p.next ' ').after w
  refine ⟨⟨Position.origin, p⟩, ⟨p.next ' ', q⟩, ⟨q, q.next ';'⟩, ?_⟩
  rw [hlex, hsplit, LexState.lex_identifier _ (by decide) hspace, LexState.lex_space,
    LexState.lex_identifier _ hw hsemicolon, LexState.lex_semicolon, LexState.lex_nil _ rfl]
  rfl

/-! ## The grammar of an import -/

/-- What follows a reader that succeeds goes on where that one ended. -/
theorem Parse.run_bind_of_ok {α β : Type} {p : Parse α} {f : α → Parse β} {i j : Input} {a : α}
    (h : p.run i = .ok (a, j)) : (p >>= f).run i = (f a).run j := by
  change (p.bind f).run i = _
  unfold Parse.bind
  dsimp only
  rw [h]

/-- What is read afresh is read from an input of which nothing is remembered. -/
theorem run_afresh_of_ok {α : Type} {p : Parse α} {after : Input} {a : α} (now : Input)
    (h : p.run { rest := now.rest, scope := now.scope } = .ok (a, after)) :
    (afresh p).run now = .ok (a, { after with
      scope := now.scope
      printed := after.printed ++ now.printed
      last := if after.rest.length < now.rest.length then after.last else now.last
      leftover := now.leftover <|> after.leftover }) := by
  unfold afresh
  dsimp only
  rw [h]

section Import

variable {w : String} (hw : w ∉ reserved) (now : Input) {s s' t : Span} (n : Nat)

/-- What is left behind the import of a word. -/
def Input.behindImport (now : Input) (w : String) (t : Span) : Input :=
  { now with
    rest := []
    printed := ⟨[';'], false⟩ :: ⟨w.toList, false⟩ :: ⟨"use".toList, false⟩ :: now.printed
    last := t
    braced := false }

include hw

theorem run_importTreeRule (g : Grammar) (rootAllowed : Bool) :
    (importTreeRule g rootAllowed).run { now with rest := [.word w s', .punct ';' false t] } =
      .ok (true,
        { now with
          rest := [.punct ';' false t], printed := ⟨w.toList, false⟩ :: now.printed, last := s'
          braced := false }) := by
  have hident : isIdent [.word w s', .punct ';' false t] = true := by simp [isIdent, hw]
  unfold importTreeRule
  refine (Parse.run_bind_of_ok rfl).trans ?_
  dsimp only
  rw [hident, Bool.true_or, if_pos rfl]
  rfl

theorem run_withText_importTree :
    (withText ((grammar (n + 1)).importTree true)).run
        { now with rest := [.word w s', .punct ';' false t] } =
      .ok ((true, w.toList),
        { now with
          rest := [.punct ';' false t], printed := ⟨w.toList, false⟩ :: now.printed, last := s'
          braced := false }) := by
  unfold withText captured
  refine (Parse.run_bind_of_ok (a := (true, [⟨w.toList, false⟩]))
    (j := { now with rest := [.punct ';' false t], last := s', braced := false }) ?_).trans rfl
  -- nothing is written yet where the text of the import begins
  refine (Parse.run_bind_of_ok rfl).trans ?_
  refine (Parse.run_bind_of_ok rfl).trans ?_
  exact (Parse.run_bind_of_ok (run_importTreeRule hw { now with printed := [] } (grammar n) true)).trans rfl

theorem run_importItem :
    (importItem (grammar (n + 1))).run { now with rest := importTrees w s s' t } =
      .ok (.imports ⟨w, w.toList, s'⟩, now.behindImport w t) := by
  unfold importItem
  -- the keyword, no colons before the root, and the root
  refine (Parse.run_bind_of_ok rfl).trans ?_
  refine (Parse.run_bind_of_ok rfl).trans ?_
  refine (Parse.run_bind_of_ok rfl).trans ?_
  have htext := @run_withText_importTree w hw
    { now with printed := ⟨"use".toList, false⟩ :: now.printed, last := s, braced := false } s' t n
  have hspan : (withSpan (withText ((grammar (n + 1)).importTree true))).run
      { now with
        rest := [.word w s', .punct ';' false t], printed := ⟨"use".toList, false⟩ :: now.printed
        last := s, braced := false } = .ok (((true, w.toList), s'), _) :=
    (Parse.run_bind_of_ok rfl).trans ((Parse.run_bind_of_ok htext).trans rfl)
  exact (Parse.run_bind_of_ok hspan).trans rfl

theorem run_statement_import :
    (statement (grammar (n + 1))).run { now with rest := importTrees w s s' t } =
      .ok (.item (.imports ⟨w, w.toList, s'⟩) ⟨s.start, t.stop⟩, now.behindImport w t) := by
  unfold statement
  -- no attributes and no macro call come first
  refine (Parse.run_bind_of_ok rfl).trans ?_
  refine (Parse.run_bind_of_ok rfl).trans ?_
  refine (Parse.run_bind_of_ok rfl).trans ?_
  refine (Parse.run_bind_of_ok rfl).trans ?_
  have hitem : (itemRest (grammar (n + 1)) []).run { now with rest := importTrees w s s' t } =
      .ok (.imports ⟨w, w.toList, s'⟩, now.behindImport w t) := by
    unfold itemRest
    -- it is neither marked as public nor a function
    refine (Parse.run_bind_of_ok rfl).trans ?_
    refine (Parse.run_bind_of_ok rfl).trans ?_
    refine (Parse.run_bind_of_ok rfl).trans ?_
    exact run_importItem hw now n
  exact (Parse.run_bind_of_ok hitem).trans rfl

theorem run_stmts_import :
    (grammar (n + 2)).stmts.run { rest := importTrees w s s' t, scope := now.scope } =
      .ok ([.item (.imports ⟨w, w.toList, s'⟩) ⟨s.start, t.stop⟩],
        Input.behindImport { rest := [], scope := now.scope } w t) := by
  show (stmtsRule (grammar (n + 1))).run _ = _
  unfold stmtsRule iterate
  refine (Parse.run_bind_of_ok rfl).trans ?_
  refine (Parse.run_bind_of_ok (a := .inr [.item (.imports ⟨w, w.toList, s'⟩) ⟨s.start, t.stop⟩])
    (j := Input.behindImport { rest := [], scope := now.scope } w t) ?_).trans rfl
  -- neither a semicolon nor the end comes first
  refine (Parse.run_bind_of_ok rfl).trans ?_
  refine (Parse.run_bind_of_ok rfl).trans ?_
  refine (Parse.run_bind_of_ok rfl).trans ?_
  have hafresh := run_afresh_of_ok { rest := importTrees w s s' t, scope := now.scope }
    (run_statement_import hw { rest := [], scope := now.scope } n)
  exact (Parse.run_bind_of_ok hafresh).trans rfl

theorem readStmts_import :
    readStmts (importTrees w s s' t) = .ok [.item (.imports ⟨w, w.toList, s'⟩) ⟨s.start, t.stop⟩] := by
  have hpart : readPart (importTrees w s s' t) =
      .ok ([.item (.imports ⟨w, w.toList, s'⟩) ⟨s.start, t.stop⟩], none) := by
    unfold readPart
    show ((grammar (12 + 2)).stmts.run { rest := importTrees w s s' t, scope := Span.none } >>= _) = _
    rw [run_stmts_import hw { rest := [], scope := Span.none }]
    rfl
  have hparts : (parts (importTrees w s s' t)).mapM readPart = .ok [_] :=
    mapM_readPart.2 (congrArg (fun read => [read]) hpart)
  exact readStmts_of_findSome?_none hparts rfl

end Import

/-- What imports an identifier that is not reserved is read as an import of it, and nothing else. -/
theorem parseUnit_import {w : List Char} (hw : IsIdentifier w) (hfree : String.ofList w ∉ reserved) :
    ∃ span place, parseUnit (importText w) = .ok [.item (.imports ⟨String.ofList w, w, span⟩) place] := by
  obtain ⟨s, s', t, hlex⟩ := lex_import hw
  have hparse : parse (importText w) = .ok [.item (.imports ⟨String.ofList w, w, s'⟩) ⟨s.start, t.stop⟩] := by
    unfold parse
    rw [hlex]
    show readStmts _ = _
    rw [readStmts_import hfree, String.toList_ofList]
  refine ⟨s', ⟨s.start, t.stop⟩, ?_⟩
  unfold parseUnit
  rw [hparse]

end Notebook.Syntax

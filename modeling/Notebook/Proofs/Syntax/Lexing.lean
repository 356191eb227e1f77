import Notebook.Proofs.Syntax.Cut
import Notebook.Proofs.Text.Marks

/-!
# The lexer step by step
-/

namespace Notebook.Syntax
open Notebook.Text

/-! ## One step -/

/-- Neither a blank nor a comment stands at the start. -/
def NoTrivia (cs : List Char) : Prop := ∀ n, triviaLength? cs ≠ some (n + 1)

theorem skipTrivia_of_trivia {p : Position} {cs : List Char} {n : Nat}
    (h : triviaLength? cs = some (n + 1)) :
    skipTrivia p cs = skipTrivia (p.after (cs.take (n + 1))) (cs.drop (n + 1)) := by
  cases cs with
  | nil => simp [triviaLength?, startsWith] at h
  | cons c rest =>
    rw [skipTrivia]
    simp only [h]
    rfl

theorem skipTrivia_of_noTrivia {p : Position} {cs : List Char} (h : NoTrivia cs) :
    skipTrivia p cs = (p, cs) := by
  cases cs with
  | nil => simp [skipTrivia]
  | cons c rest =>
    rw [skipTrivia]
    split
    · rfl
    · rfl
    · rename_i n hn
      exact absurd hn (h n)

/-- What the lexer makes of a text that starts with a token. -/
def lexToken (p : Position) (stack : List OpenGroup) (trees : List TokenTree) (c : Char)
    (rest : List Char) : Except ParseError (List TokenTree) :=
  match docComment? (c :: rest) with
  | some d =>
    let stop := p.after ((c :: rest).take d.length)
    lexFrom stop stack ((d.trees ⟨p, stop⟩).reverse ++ trees) (rest.drop (d.length - 1))
  | none =>
    match opening? (c :: rest) with
    | some d => lexFrom (p.next c) (⟨d, p, trees⟩ :: stack) [] rest
    | none =>
      match Delimiter.closed? c with
      | some d =>
        match stack with
        | [] => .error ⟨.notTokens, ⟨p, p⟩⟩
        | g :: stack =>
          if g.delimiter ≠ d then .error ⟨.notTokens, ⟨p, p⟩⟩
          else lexFrom (p.next c) stack (.group d trees.reverse ⟨g.start, p.next c⟩ :: g.before) rest
      | none =>
        match leaf? (c :: rest) with
        | none => .error ⟨.notTokens, ⟨p, p⟩⟩
        | some (n, token) =>
          let stop := p.after ((c :: rest).take n)
          lexFrom stop stack (token ⟨p, stop⟩ :: trees) (rest.drop (n - 1))

/-- The lexer leaves out blanks and comments, and goes on at a token or is done. -/
theorem lexFrom_eq (p : Position) (stack : List OpenGroup) (trees : List TokenTree) (cs : List Char) :
    lexFrom p stack trees cs =
      match skipTrivia p cs with
      | (_, []) =>
        match stack with
        | [] => .ok trees.reverse
        | g :: _ => .error ⟨.notTokens, ⟨g.start, g.start⟩⟩
      | (q, c :: rest) => lexToken q stack trees c rest := by
  rcases hskip : skipTrivia p cs with ⟨q, rest⟩
  rw [lexFrom.eq_def]
  split
  · rename_i hrest
    rw [hskip] at hrest
    cases hrest
    rfl
  · rename_i hrest
    rw [hskip] at hrest
    cases hrest
    obtain rfl : (skipTrivia p cs).1 = q := congrArg Prod.fst hskip
    rfl

theorem lexFrom_of_trivia {p : Position} {stack : List OpenGroup} {trees : List TokenTree}
    {cs : List Char} {n : Nat} (h : triviaLength? cs = some (n + 1)) :
    lexFrom p stack trees cs =
      lexFrom (p.after (cs.take (n + 1))) stack trees (cs.drop (n + 1)) := by
  rw [lexFrom_eq p, lexFrom_eq (p.after _), skipTrivia_of_trivia h]

theorem lexFrom_of_noTrivia {p : Position} {stack : List OpenGroup} {trees : List TokenTree}
    {c : Char} {rest : List Char} (h : NoTrivia (c :: rest)) :
    lexFrom p stack trees (c :: rest) = lexToken p stack trees c rest := by
  rw [lexFrom_eq, skipTrivia_of_noTrivia h]

theorem lexFrom_blanks {p : Position} {stack : List OpenGroup} {trees : List TokenTree} (blanks text : List Char)
    (h : ∀ c ∈ blanks, isBlank c = true) :
    lexFrom p stack trees (blanks ++ text) = lexFrom (p.after blanks) stack trees text := by
  induction blanks generalizing p with
  | nil => rfl
  | cons c blanks ih =>
    obtain ⟨hblank, hblanks⟩ := List.forall_mem_cons.1 h
    have hslash : c ≠ '/' := by
      rintro rfl
      exact absurd hblank (by decide)
    have htrivia : triviaLength? (c :: (blanks ++ text)) = some 1 := by
      rw [triviaLength?_of_ne _ hslash, isTokenBlank, hblank]
      rfl
    rw [List.cons_append, lexFrom_of_trivia htrivia]
    exact ih hblanks

/-! ## Tokens at a slash -/

theorem docComment?_of_starts {cs : List Char} (hline : startsWith cs "//" = false)
    (hblock : startsWith cs "/*" = false) : docComment? cs = none := by
  have hno {s t : String} (hst : s.toList <+: t.toList) (hs : startsWith cs s = false) :
      startsWith cs t = false :=
    Bool.eq_false_iff.2 fun h => by rw [startsWith_of_longer hst h] at hs; cases hs
  unfold docComment?
  dsimp only
  rw [hno (s := "//") (t := "//!") (by decide) hline, hno (s := "/*") (t := "/*!") (by decide) hblock,
    hno (s := "//") (t := "///") (by decide) hline, hno (s := "/*") (t := "/**") (by decide) hblock]
  rfl

theorem docComment?_of_ne {c : Char} (cs : List Char) (hc : c ≠ '/') : docComment? (c :: cs) = none :=
  docComment?_of_starts (startsWith_of_ne cs (a := '/') (by decide) hc)
    (startsWith_of_ne cs (a := '/') (by decide) hc)

theorem docComment?_of_startsPunct {cs : List Char} (h : startsPunct cs = true) : docComment? cs = none := by
  unfold startsPunct at h
  simp only [Bool.and_eq_true, Bool.not_eq_true'] at h
  exact docComment?_of_starts h.1.1 h.1.2

/-- A slash is no token unless it is punctuation. -/
theorem startsPunct_of_leaf? {cs : List Char} {n : Nat} {token : Span → TokenTree}
    (h : leaf? ('/' :: cs) = some (n, token)) : startsPunct ('/' :: cs) = true := by
  have hliteral : literalLength? ('/' :: cs) = none := by
    simp [literalLength?, stringLength?, floatLength?, integerLength?, startsWith, digitsLength?,
      show Char.isDigit '/' = false by decide, show isHexDigit '/' = false by decide]
  cases leaf?_eq_some_iff.1 h with
  | literal hlength => cases hliteral.symm.trans hlength
  | quote _ hpunct => exact hpunct
  | sign _ hpunct => exact hpunct
  | mark _ _ hmark => cases (startsWith_of_ne cs (a := '(') (by decide) (by decide)).symm.trans hmark
  | word _ _ _ _ hlength => cases (wordLength?_slash cs).symm.trans hlength

/-- Nothing that documents something is left out, but for an empty comment. -/
theorem noTrivia_of_docComment? {cs : List Char} {d : DocComment} (h : docComment? cs = some d)
    (hempty : startsWith cs "/**/" = false) : NoTrivia cs := by
  intro n hn
  have hslash : cs.head?.any isTokenBlank = false := by
    have hslash : isTokenBlank '/' = false := by decide
    cases cs with
    | nil => rfl
    | cons c cs =>
      by_cases hc : c = '/'
      · rw [hc, List.head?_cons, Option.any_some, hslash]
      · rw [docComment?_of_ne _ hc] at h
        cases h
  -- a comment to the end of its line and one between marks start differently
  have hkinds : startsWith cs "//" = true → startsWith cs "/*" = false := by
    intro hline
    obtain ⟨rest, rfl⟩ := List.isPrefixOf_iff_prefix.1 hline
    rfl
  have hline : startsWith cs "//!" = true ∨ startsWith cs "///" = true → startsWith cs "//" = true := by
    rintro (h | h)
    · exact startsWith_of_longer (by decide) h
    · exact startsWith_of_longer (by decide) h
  have hblock : startsWith cs "/*!" = true ∨ startsWith cs "/**" = true → startsWith cs "/*" = true := by
    rintro (h | h)
    · exact startsWith_of_longer (by decide) h
    · exact startsWith_of_longer (by decide) h
  unfold triviaLength? at hn
  rw [hempty, hslash] at hn
  unfold docComment? at h
  dsimp only at h
  obtain ⟨hfound, -⟩ := Option.filter_eq_some_iff.1 h
  split at hfound
  · rename_i h
    simp [h, hkinds (hline (.inl h))] at hn
  split at hfound
  · rename_i h
    have hno := mt hkinds (by simp [hblock (.inl h)])
    simp [h, hno] at hn
  split at hfound
  · rename_i h
    split at hfound
    · cases hfound
    · rename_i hfour
      simp [h, hfour, hkinds (hline (.inr h))] at hn
  split at hfound
  · rename_i h
    simp only [Bool.and_eq_true, Bool.not_eq_true'] at h
    have hno := mt hkinds (by simp [hblock (.inr h.1)])
    simp [h.1, h.2, hno] at hn
  · cases hfound

/-! ## Tokens take something -/

theorem le_withSuffix?  {cs : List Char} {m n : Nat} (h : withSuffix? cs m = some n) : m ≤ n := by
  unfold withSuffix? at h
  dsimp only at h
  split at h
  · cases h
  · cases h
    exact Nat.le_add_right ..

theorem digitsLength?_pos {base n : Nat} {cs : List Char} (h : digitsLength? base true cs = some n) :
    0 < n := by
  cases cs with
  | nil => cases h
  | cons c cs =>
    rw [digitsLength?] at h
    grind [Option.map_eq_some_iff]

theorem literalLength?_pos {cs : List Char} {n : Nat} (h : literalLength? cs = some n) : 0 < n := by
  cases hbody : stringBody? cs with
  | some m =>
    have hm : 0 < m := by
      unfold stringBody? at hbody
      grind [Option.map_eq_some_iff]
    rw [literalLength?_of_quoted hbody] at h
    cases h
    exact Nat.lt_of_lt_of_le hm (Nat.le_add_right ..)
  | none =>
    have h : (floatLength? cs <|> integerLength? cs) = some n := by
      rw [← List.append_nil cs] at hbody h
      rwa [literalLength?_of_unquoted stops_nil hbody] at h
    cases hfloat : floatLength? cs with
    | some m =>
      rw [hfloat] at h
      cases h
      unfold floatLength? at hfloat
      split at hfloat
      · rename_i hdigit
        obtain ⟨m, hm, hsuffix⟩ := Option.bind_eq_some_iff.1 hfloat
        have hpos : 0 < m := by
          cases cs with
          | nil => cases hdigit
          | cons c cs =>
            rw [List.head?_cons, Option.any_some] at hdigit
            rw [decimalLength?, if_pos (by rw [hdigit, Bool.true_or])] at hm
            grind [Option.map_eq_some_iff]
        exact Nat.lt_of_lt_of_le hpos (le_withSuffix? hsuffix)
      · cases hfloat
    | none =>
      rw [hfloat] at h
      have h : integerLength? cs = some n := h
      unfold integerLength? at h
      obtain ⟨m, hm, hsuffix⟩ := Option.bind_eq_some_iff.1 h
      have hpos : 0 < m := by
        grind [Option.map_eq_some_iff, → digitsLength?_pos]
      exact Nat.lt_of_lt_of_le hpos (le_withSuffix? hsuffix)

theorem identifierLength?_pos {cs : List Char} {n : Nat} (h : identifierLength? cs = some n) : 0 < n := by
  unfold identifierLength? at h
  split at h
  · cases h
  · split at h
    · cases h
      omega
    · cases h

theorem wordLength?_pos {cs : List Char} {n : Nat} (h : wordLength? cs = some n) : 0 < n := by
  unfold wordLength? at h
  split at h
  · split at h
    · cases h
    · split at h
      · cases h
      · cases h
        omega
  · exact identifierLength?_pos h

theorem leaf?_pos {cs : List Char} {n : Nat} {token : Span → TokenTree} (h : leaf? cs = some (n, token)) :
    0 < n := by
  cases leaf?_eq_some_iff.1 h with
  | literal hlength => exact literalLength?_pos hlength
  | quote => exact Nat.zero_lt_one
  | sign => exact Nat.zero_lt_one
  | mark => decide
  | word _ _ _ _ hlength => exact wordLength?_pos hlength

theorem noTrivia_of_ne {c : Char} {cs : List Char} (hc : c ≠ '/') (hblank : isTokenBlank c = false) :
    NoTrivia (c :: cs) := by
  intro n hn
  rw [triviaLength?_of_ne _ hc, hblank] at hn
  cases hn

/-! ## The lexer as a machine -/

/-- How far the lexer has come: the place, the open groups, and the trees since the last bracket, last one
first. -/
structure LexState where
  place : Position
  stack : List OpenGroup := []
  trees : List TokenTree := []

namespace LexState

/-- What the lexer makes of a text from a state on. -/
def lex (s : LexState) (cs : List Char) : Except ParseError (List TokenTree) :=
  lexFrom s.place s.stack s.trees cs

/-- What the lexer does first at a text: it takes so many characters and comes to a state. -/
inductive Step (s : LexState) : List Char → Nat → LexState → Prop
  | trivia {cs : List Char} {n : Nat} (h : triviaLength? cs = some (n + 1)) :
    Step s cs (n + 1) { s with place := s.place.after (cs.take (n + 1)) }
  | doc {cs : List Char} {d : DocComment} (hno : NoTrivia cs) (h : docComment? cs = some d) :
    Step s cs d.length
      { s with
        place := s.place.after (cs.take d.length)
        trees := (d.trees ⟨s.place, s.place.after (cs.take d.length)⟩).reverse ++ s.trees }
  | opening {c : Char} {rest : List Char} {d : Delimiter} (h : opening? (c :: rest) = some d) :
    Step s (c :: rest) 1 ⟨s.place.next c, ⟨d, s.place, s.trees⟩ :: s.stack, []⟩
  | closing {c : Char} {rest : List Char} {g : OpenGroup} {stack : List OpenGroup}
    (hs : s.stack = g :: stack) (h : Delimiter.closed? c = some g.delimiter) :
    Step s (c :: rest) 1
      ⟨s.place.next c, stack, .group g.delimiter s.trees.reverse ⟨g.start, s.place.next c⟩ :: g.before⟩
  | leaf {c : Char} {rest : List Char} {n : Nat} {token : Span → TokenTree} (hno : NoTrivia (c :: rest))
    (hdoc : docComment? (c :: rest) = none) (hopen : opening? (c :: rest) = none)
    (hclose : Delimiter.closed? c = none) (h : leaf? (c :: rest) = some (n, token)) :
    Step s (c :: rest) n
      { s with
        place := s.place.after ((c :: rest).take n)
        trees := token ⟨s.place, s.place.after ((c :: rest).take n)⟩ :: s.trees }

theorem Step.place {s s' : LexState} {cs : List Char} {n : Nat} (h : Step s cs n s') :
    s'.place = s.place.after (cs.take n) := by
  cases h <;> rfl

end LexState

theorem docComment?_pos {cs : List Char} {d : DocComment} (h : docComment? cs = some d) : 0 < d.length :=
  Nat.lt_of_lt_of_le (by decide) (three_le_of_docComment? h)

theorem opening?_eq_none {c : Char} (rest : List Char) (h : Delimiter.opened? c = none) :
    opening? (c :: rest) = none := by
  unfold opening?
  split
  · rfl
  · exact h

theorem opening?_eq_some {c : Char} {rest : List Char} {d : Delimiter} :
    opening? (c :: rest) = some d ↔ startsWith (c :: rest) errorMark = false ∧ d.opening = c := by
  have hopened : Delimiter.opened? d.opening = some d := by cases d <;> rfl
  unfold opening?
  split
  · rename_i hmark
    simp [hmark]
  · rename_i hmark
    refine ⟨fun h => ⟨Bool.eq_false_iff.2 hmark, ?_⟩, fun h => h.2 ▸ hopened⟩
    simpa using List.find?_some (show Delimiter.opened? c = some d from h)

theorem ne_slash_of_opening? {c : Char} {rest : List Char} {d : Delimiter} (h : opening? (c :: rest) = some d) :
    c ≠ '/' ∧ isTokenBlank c = false := by
  obtain ⟨-, rfl⟩ := opening?_eq_some.1 h
  cases d <;> decide

theorem ne_slash_of_closed? {c : Char} {d : Delimiter} (h : Delimiter.closed? c = some d) :
    c ≠ '/' ∧ isTokenBlank c = false := by
  have hc : d.closing = c := by simpa using List.find?_some h
  subst hc
  cases d <;> decide

/-- A token opens no group. -/
theorem opening?_of_leaf? {c : Char} {rest : List Char} {n : Nat} {token : Span → TokenTree}
    (h : leaf? (c :: rest) = some (n, token)) : opening? (c :: rest) = none := by
  by_contra hopen
  obtain ⟨d, hd⟩ := Option.ne_none_iff_exists'.1 hopen
  obtain ⟨hmark, rfl⟩ := opening?_eq_some.1 hd
  have hliteral : literalLength? (d.opening :: rest) = none := by
    cases d <;> simp [literalLength?, stringLength?, floatLength?, integerLength?, startsWith, digitsLength?,
      Delimiter.opening, isHexDigit]
  have hpunct : startsPunct (d.opening :: rest) = false := by
    rw [startsPunct_of_ne rest (ne_slash_of_opening? hd).1]
    cases d <;> decide
  have hword : wordLength? (d.opening :: rest) = none := by
    have hstart : isIdentifierStart d.opening = false := by cases d <;> decide
    have hraw : startsWith (d.opening :: rest) "r#" = false :=
      startsWith_of_ne rest (a := 'r') (by decide) (by cases d <;> decide)
    simp [wordLength?, hraw, identifierLength?, hstart]
  cases leaf?_eq_some_iff.1 h with
  | literal hlength => cases hliteral.symm.trans hlength
  | quote _ hyes => cases hpunct.symm.trans hyes
  | sign _ hyes => cases hpunct.symm.trans hyes
  | mark _ _ hyes => cases hmark.symm.trans hyes
  | word _ _ _ _ hlength => cases hword.symm.trans hlength

theorem opening?_of_closed? {c : Char} {d : Delimiter} (rest : List Char) (h : Delimiter.closed? c = some d) :
    opening? (c :: rest) = none := by
  have hc : d.closing = c := by simpa using List.find?_some h
  subst hc
  exact opening?_eq_none rest (by cases d <;> decide)

namespace LexState

variable {s s' : LexState} {cs : List Char} {n : Nat}

theorem Step.pos (h : Step s cs n s') : 0 < n := by
  cases h with
  | trivia => exact Nat.succ_pos _
  | doc hno h => exact docComment?_pos h
  | opening => exact Nat.one_pos
  | closing => exact Nat.one_pos
  | leaf _ _ _ _ h => exact leaf?_pos h

theorem drop_eq_drop {c : Char} {rest : List Char} {n : Nat} (hn : 0 < n) :
    rest.drop (n - 1) = (c :: rest).drop n := by
  obtain ⟨n, rfl⟩ := Nat.exists_eq_succ_of_ne_zero (Nat.ne_of_gt hn)
  rfl

/-- Behind a step the lexer goes on from the state that it has come to. -/
theorem Step.lex (h : Step s cs n s') : s.lex cs = s'.lex (cs.drop n) := by
  unfold LexState.lex
  cases h with
  | trivia h => exact lexFrom_of_trivia h
  | doc hno h =>
    cases cs with
    | nil => simp [docComment?, startsWith] at h
    | cons c rest =>
      rw [lexFrom_of_noTrivia hno]
      unfold lexToken
      simp only [h]
      rw [drop_eq_drop (c := c) (docComment?_pos h)]
  | opening h =>
    obtain ⟨hne, hblank⟩ := ne_slash_of_opening? h
    rw [lexFrom_of_noTrivia (noTrivia_of_ne hne hblank)]
    unfold lexToken
    simp only [docComment?_of_ne _ hne, h]
    rfl
  | closing hs h =>
    obtain ⟨hne, hblank⟩ := ne_slash_of_closed? h
    rw [lexFrom_of_noTrivia (noTrivia_of_ne hne hblank)]
    unfold lexToken
    simp only [docComment?_of_ne _ hne, opening?_of_closed? _ h, h, hs]
    rw [if_neg (fun h => h rfl)]
    rfl
  | leaf hno hdoc hopen hclose h =>
    rw [lexFrom_of_noTrivia hno]
    unfold lexToken
    simp only [hdoc, hopen, hclose, h]
    rw [drop_eq_drop (leaf?_pos h)]

/-- Where the lexer comes to an end, it has taken one step after the other. -/
theorem exists_step {out : List TokenTree} (h : s.lex cs = .ok out) (hcs : cs ≠ []) :
    ∃ n s', Step s cs n s' ∧ s'.lex (cs.drop n) = .ok out := by
  have hfound : ∃ n s', Step s cs n s' := by
    by_cases hno : NoTrivia cs
    case neg =>
      have hsome : ∃ n, triviaLength? cs = some (n + 1) := by
        by_contra hnone
        exact hno fun n hn => hnone ⟨n, hn⟩
      obtain ⟨n, hn⟩ := hsome
      exact ⟨_, _, .trivia hn⟩
    obtain ⟨c, rest, rfl⟩ := List.exists_cons_of_ne_nil hcs
    unfold LexState.lex at h
    rw [lexFrom_of_noTrivia hno] at h
    unfold lexToken at h
    cases hdoc : docComment? (c :: rest) with
    | some d => exact ⟨_, _, .doc hno hdoc⟩
    | none =>
      rw [hdoc] at h
      cases hopen : opening? (c :: rest) with
      | some d => exact ⟨_, _, .opening hopen⟩
      | none =>
        rw [hopen] at h
        cases hclose : Delimiter.closed? c with
        | some d =>
          rw [hclose] at h
          cases hs : s.stack with
          | nil =>
            rw [hs] at h
            cases h
          | cons g stack =>
            simp only [hs] at h
            split at h
            · cases h
            · rename_i hd
              have hd : g.delimiter = d := not_not.1 hd
              exact ⟨_, _, .closing hs (hd ▸ hclose)⟩
        | none =>
          rw [hclose] at h
          cases hleaf : leaf? (c :: rest) with
          | none =>
            rw [hleaf] at h
            cases h
          | some found => exact ⟨_, _, .leaf hno hdoc hopen hclose hleaf⟩
  obtain ⟨n, s', hstep⟩ := hfound
  exact ⟨n, s', hstep, by rw [← hstep.lex, h]⟩

end LexState

end Notebook.Syntax

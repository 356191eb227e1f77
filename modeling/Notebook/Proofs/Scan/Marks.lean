import Notebook.Proofs.Scan.Cut
import Notebook.Proofs.Text.Marks
import Notebook.Scan.Completeness

/-!
# Where the scanner ends a unit

The scanner knows the open brackets from the marks that it has read.  If they match, and every lexeme has
its end, a unit ends behind a semicolon or a closing brace with no bracket open, or with the last lexeme
that carries meaning; and a text is held back only for how it starts or for its last lexeme
(`means_completenessFrom`).
-/

namespace Notebook.Scan
open Notebook.Text

/-! ## The marks of lexemes -/

/-- The mark that a lexeme is, if it is one. -/
def Lexeme.mark? (p : Position) (l : Lexeme) : Option Mark :=
  match l.kind, l.text with
  | .punctuation, [c] => if Mark.isMarked c then some ⟨p, c⟩ else none
  | _, _ => none

/-- The brackets and semicolons of lexemes that stand at a place. -/
def marks (p : Position) : List Lexeme → List Mark
  | [] => []
  | l :: ls => (l.mark? p).toList ++ marks (p.after l.text) ls

/-- Where the last lexeme ends that carries meaning. -/
def lastStop? (p : Position) : List Lexeme → Option Position
  | [] => none
  | l :: ls =>
    (lastStop? (p.after l.text) ls).or (if l.kind.isTrivia then none else some (p.after l.text))

theorem marks_append (p : Position) (ls ls' : List Lexeme) :
    marks p (ls ++ ls') = marks p ls ++ marks (p.after (ls.flatMap (·.text))) ls' := by
  induction ls generalizing p with
  | nil => rfl
  | cons l ls ih =>
    rw [List.cons_append, marks, marks, ih, List.flatMap_cons, Position.after_append, List.append_assoc]

theorem lastStop?_append (p : Position) (ls ls' : List Lexeme) :
    lastStop? p (ls ++ ls') = (lastStop? (p.after (ls.flatMap (·.text))) ls').or (lastStop? p ls) := by
  induction ls generalizing p with
  | nil => simp [lastStop?, Position.after_nil]
  | cons l ls ih =>
    rw [List.cons_append, lastStop?, lastStop?, ih, List.flatMap_cons, Position.after_append,
      Option.or_assoc]

theorem mark?_of_isTrivia {l : Lexeme} (h : l.kind.isTrivia = true) (p : Position) : l.mark? p = none := by
  unfold Lexeme.mark?
  split
  · rename_i hkind _
    rw [hkind] at h
    cases h
  · rfl

theorem marks_of_isTrivia {ls : List Lexeme} (h : ∀ l ∈ ls, l.kind.isTrivia = true) (p : Position) :
    marks p ls = [] := by
  induction ls generalizing p with
  | nil => rfl
  | cons l ls ih =>
    rw [marks, mark?_of_isTrivia (h l List.mem_cons_self), ih fun l hl => h l (List.mem_cons_of_mem _ hl)]
    rfl

theorem lastStop?_of_isTrivia {ls : List Lexeme} (h : ∀ l ∈ ls, l.kind.isTrivia = true) (p : Position) :
    lastStop? p ls = none := by
  induction ls generalizing p with
  | nil => rfl
  | cons l ls ih =>
    rw [lastStop?, ih fun l hl => h l (List.mem_cons_of_mem _ hl), if_pos (h l List.mem_cons_self)]
    rfl

/-- A mark stands where its lexeme starts. -/
theorem eq_of_mark? {l : Lexeme} {p : Position} {m : Mark} (h : l.mark? p = some m) :
    m.place = p ∧ l.text = [m.char] := by
  unfold Lexeme.mark? at h
  split at h
  · rename_i c hkind htext
    split at h
    · cases h
      exact ⟨rfl, htext⟩
    · cases h
  · cases h

theorem key_of_mem_marks {p : Position} {ls : List Lexeme} {m : Mark} (h : m ∈ marks p ls) :
    p.key ≤ m.place.key ∧ m.place.key < (p.after (ls.flatMap (·.text))).key := by
  induction ls generalizing p with
  | nil => exact absurd h List.not_mem_nil
  | cons l ls ih =>
    rw [List.flatMap_cons, Position.after_append]
    rw [marks, List.mem_append, Option.mem_toList] at h
    rcases h with h | h
    · obtain ⟨hplace, htext⟩ := eq_of_mark? h
      rw [hplace, htext]
      exact ⟨le_refl _, (Position.key_lt_after p (List.cons_ne_nil _ _)).trans_le (Position.key_le_after _ _)⟩
    · obtain ⟨hle, hlt⟩ := ih h
      exact ⟨(Position.key_le_after p l.text).trans hle, hlt⟩

theorem key_lt_of_lastStop? {p q : Position} {ls : List Lexeme} (hne : ∀ l ∈ ls, l.text ≠ [])
    (h : lastStop? p ls = some q) : p.key < q.key := by
  induction ls generalizing p with
  | nil => cases h
  | cons l ls ih =>
    have hlt := Position.key_lt_after p (hne l List.mem_cons_self)
    rw [lastStop?] at h
    cases hrest : lastStop? (p.after l.text) ls with
    | some q' =>
      rw [hrest] at h
      cases h
      exact hlt.trans (ih (fun l hl => hne l (List.mem_cons_of_mem _ hl)) hrest)
    | none =>
      rw [hrest, Option.none_or] at h
      split at h
      · cases h
      · cases h
        exact hlt

/-! ## One lexeme -/

/-- The brackets that are open behind one more lexeme. -/
def readLexeme (stack : List Char) (l : Lexeme) : Option (List Char) :=
  Mark.readAll stack (l.mark? Position.origin).toList

theorem readAll_mark? (stack : List Char) (l : Lexeme) (p : Position) :
    Mark.readAll stack (l.mark? p).toList = readLexeme stack l := by
  unfold readLexeme Lexeme.mark?
  split
  · split <;> rfl
  · rfl

theorem readAll_marks_cons (stack : List Char) (p : Position) (l : Lexeme) (ls : List Lexeme) :
    Mark.readAll stack (marks p (l :: ls)) =
      (readLexeme stack l).bind fun stack => Mark.readAll stack (marks (p.after l.text) ls) := by
  rw [marks, Mark.readAll_append, readAll_mark?]

variable {stack : List Char} {t : Token}

theorem readLexeme_of_kind (h : t.kind ≠ .punctuation) : readLexeme stack t.toLexeme = some stack := by
  unfold readLexeme Lexeme.mark?
  split
  · contradiction
  · rfl

theorem readLexeme_of_text {c : Char} (hkind : t.kind = .punctuation) (htext : t.text = [c])
    (hmarked : Mark.isMarked c = true) :
    readLexeme stack t.toLexeme = Mark.read stack ⟨Position.origin, c⟩ := by
  rw [readLexeme, Lexeme.mark?, hkind, htext]
  simp only [hmarked, if_true, Option.toList_some, Mark.readAll_singleton]

theorem readLexeme_opening (hkind : t.kind = .punctuation) (h : t.isAny ["(", "[", "\x7b"] = true) :
    readLexeme stack t.toLexeme = some (t.text ++ stack) := by
  have htext : t.text = ['('] ∨ t.text = ['['] ∨ t.text = ['\x7b'] := by
    simpa [Token.isAny, Token.is] using h
  rcases htext with htext | htext | htext <;> rw [readLexeme_of_text hkind htext rfl, htext] <;> rfl

theorem readLexeme_closing (hkind : t.kind = .punctuation) (h : t.isAny [")", "]", "\x7d"] = true) :
    readLexeme stack t.toLexeme = if stack.head? = some (openingOf t) then some stack.tail else none := by
  have htext : t.text = [')'] ∨ t.text = [']'] ∨ t.text = ['\x7d'] := by
    simpa [Token.isAny, Token.is] using h
  unfold openingOf Token.is
  rcases htext with htext | htext | htext <;> rw [readLexeme_of_text hkind htext rfl, htext] <;> rfl

theorem readLexeme_other (hopen : ¬t.isAny ["(", "[", "\x7b"] = true)
    (hclose : ¬t.isAny [")", "]", "\x7d"] = true) : readLexeme stack t.toLexeme = some stack := by
  unfold readLexeme Lexeme.mark?
  split
  · rename_i c hkind htext
    simp only [Token.isAny, Token.is, htext, List.any_cons, List.any_nil, Bool.or_false, Bool.or_eq_true,
      beq_iff_eq, not_or] at hopen hclose
    split
    · have hopen : ¬Mark.openings.contains c = true := by
        simpa [Mark.openings] using hopen
      have hclose : Mark.answered? c = none := by
        simp_all [Mark.answered?]
      rw [Option.toList_some, Mark.readAll_singleton, Mark.read, if_neg hopen, hclose]
    · rfl
  · rfl

/-! ## Where a unit ends -/

theorem lastStop?_concat (ls : List Lexeme) {l : Lexeme} (p : Position) (h : l.kind.isTrivia = false) :
    lastStop? p (ls ++ [l]) = some (p.after ((ls ++ [l]).flatMap (·.text))) := by
  rw [lastStop?_append, lastStop?, lastStop?, h, List.flatMap_append, Position.after_append]
  simp

/-- Lexemes behind which a unit may end. -/
def Lexeme.endsUnit (l : Lexeme) : Bool :=
  l.kind = .punctuation && (l.text = [';'] || l.text = ['\x7d'])

theorem exists_mark_of_endsUnit {l : Lexeme} (h : l.endsUnit = true) :
    ∃ c, (c = ';' ∨ c = '\x7d') ∧ (∀ p, l.mark? p = some ⟨p, c⟩) ∧ l.text = [c] := by
  simp only [Lexeme.endsUnit, Bool.and_eq_true, Bool.or_eq_true, decide_eq_true_eq] at h
  obtain ⟨hkind, htext | htext⟩ := h
  · exact ⟨';', .inl rfl, fun p => by rw [Lexeme.mark?, hkind, htext]; rfl, htext⟩
  · exact ⟨'\x7d', .inr rfl, fun p => by rw [Lexeme.mark?, hkind, htext]; rfl, htext⟩

/-- A significant token ends the unit, or the reading goes on with the brackets that are open behind it.
Nothing is refused where brackets match, and of what follows only the next significant token matters. -/
theorem completenessFrom_read {p : Progress} {stack : List Char} (rest : List Token)
    (hend : t.terminated = true) (hsig : t.isSignificant = true)
    (hread : readLexeme p.stack t.toLexeme = some stack) :
    (∀ total, completenessFrom total p (t :: rest) = .complete t.stop) ∧ stack = [] ∧
        t.toLexeme.endsUnit = true ∨
      ∀ total rest', rest'.find? (·.isSignificant) = rest.find? (·.isSignificant) →
        completenessFrom total p (t :: rest') =
          completenessFrom total ⟨stack, some ((p.begun.map (·.1)).getD (UnitClass.ofToken t), t)⟩ rest' := by
  have hmeans : ¬t.kind.isTrivia = true := by simpa [Token.isSignificant] using hsig
  simp only [completenessFrom, hend, Bool.not_true, Bool.false_eq_true, if_false, hmeans]
  by_cases hpunct : t.kind ≠ .punctuation
  · rw [readLexeme_of_kind hpunct, Option.some.injEq] at hread
    refine .inr fun total rest' _ => ?_
    rw [if_pos hpunct, hread]
  simp only [if_neg hpunct]
  have hkind : t.kind = .punctuation := not_not.1 hpunct
  by_cases hopen : t.isAny ["(", "[", "\x7b"] = true
  · rw [readLexeme_opening hkind hopen, Option.some.injEq] at hread
    refine .inr fun total rest' _ => ?_
    rw [if_pos hopen, hread]
  simp only [if_neg hopen]
  by_cases hclose : t.isAny [")", "]", "\x7d"] = true
  · rw [readLexeme_closing hkind hclose] at hread
    split at hread
    · rename_i hanswer
      rw [Option.some.injEq] at hread
      simp only [if_pos hclose, if_neg (not_not.2 hanswer), hread]
      generalize hunit : (p.begun.map (·.1)).getD (UnitClass.ofToken t) = unit
      by_cases hlast : (t.is "\x7d" && stack.isEmpty && decide (unit ≠ .simple) &&
          !(rest.find? (·.isSignificant)).any unit.continuesWith) = true
      · refine .inl ⟨fun total => if_pos hlast, ?_⟩
        simp only [Bool.and_eq_true, List.isEmpty_iff] at hlast
        obtain ⟨⟨⟨hbrace, hnil⟩, -⟩, -⟩ := hlast
        have htext : t.text = ['\x7d'] := by simpa [Token.is] using hbrace
        exact ⟨hnil, by simp [Lexeme.endsUnit, hkind, htext]⟩
      · refine .inr fun total rest' hnext => ?_
        rw [hnext, if_neg hlast]
    · cases hread
  rw [readLexeme_other hopen hclose, Option.some.injEq] at hread
  simp only [if_neg hclose, hread]
  by_cases hlast : (t.is ";" && stack.isEmpty) = true
  · refine .inl ⟨fun total => if_pos hlast, ?_⟩
    simp only [Bool.and_eq_true, List.isEmpty_iff] at hlast
    have htext : t.text = [';'] := by simpa [Token.is] using hlast.1
    exact ⟨hlast.2, by simp [Lexeme.endsUnit, hkind, htext]⟩
  · exact .inr fun total rest' _ => if_neg hlast

theorem completenessFrom_trivia (total : Nat) (p : Progress) (rest : List Token)
    (hend : t.terminated = true) (htrivia : t.kind.isTrivia = true) :
    completenessFrom total p (t :: rest) = completenessFrom total p rest := by
  simp [completenessFrom, hend, htrivia]

/-- How a unit ends with a lexeme: no bracket is open behind it, and it ends units or nothing with a
meaning follows. -/
structure EndsUnit (stack : List Char) (q : Position) (first : List Lexeme) (last : Lexeme)
    (others : List Lexeme) : Prop where
  significant : last.kind.isTrivia = false
  read : Mark.readAll stack (marks q (first ++ [last])) = some []
  ends : last.endsUnit = true ∨ ∀ l ∈ others, l.kind.isTrivia = true

/-- What an answer about lexemes means that stand at an offset and a place, where the reading has come so
far. -/
def Means (p : Progress) (offset : Nat) (q : Position) (ls : List Lexeme) : Completeness → Prop
  | .empty => p.begun = none ∧ ∀ l ∈ ls, l.kind.isTrivia = true
  | .incomplete =>
    let significant := (placed offset ls).filter (·.isSignificant)
    ∃ unit last, (p.begun.map (·.1)).or (significant.head?.map UnitClass.ofToken) = some unit ∧
      significant.getLast?.or (p.begun.map (·.2)) = some last ∧ (unit ≠ .simple ∨ last.dangles = true)
  | .complete n =>
    (∃ first last others, ls = first ++ last :: others ∧
      n = offset + width ((first ++ [last]).flatMap (·.text)) ∧ EndsUnit p.stack q first last others) ∨
    (∀ l ∈ ls, l.kind.isTrivia = true) ∧ p.begun.map (·.2.stop) = some n ∧ p.stack = []

theorem means_nil (total : Nat) {p : Progress} (offset : Nat) (q : Position) (hstack : p.stack = []) :
    Means p offset q [] (completenessFrom total p []) := by
  have hnone : ∀ l ∈ ([] : List Lexeme), l.kind.isTrivia = true := fun l hl => absurd hl List.not_mem_nil
  obtain ⟨stack, begun⟩ := p
  cases hstack
  cases begun with
  | none => exact ⟨rfl, hnone⟩
  | some begun =>
    obtain ⟨unit, last⟩ := begun
    rw [completenessFrom]
    simp only
    split
    · rename_i h
      refine ⟨unit, last, rfl, rfl, ?_⟩
      simpa using h
    · exact .inr ⟨hnone, rfl, rfl⟩

theorem isSignificant_placed (l : Lexeme) (start stop : Nat) :
    (⟨l, start, stop⟩ : Token).isSignificant = !l.kind.isTrivia := rfl

section Cons

variable {p : Progress} {offset : Nat} {q : Position} {l : Lexeme} {ls : List Lexeme} {answer : Completeness}

/-- Blanks and comments do not matter. -/
theorem Means.cons_trivia (htrivia : l.kind.isTrivia = true)
    (h : Means p (offset + width l.text) (q.after l.text) ls answer) : Means p offset q (l :: ls) answer := by
  cases answer with
  | empty => exact ⟨h.1, List.forall_mem_cons.2 ⟨htrivia, h.2⟩⟩
  | incomplete =>
    obtain ⟨unit, last, hunit, hlast, hwhy⟩ := h
    refine ⟨unit, last, ?_, ?_, hwhy⟩ <;>
      rwa [placed, List.filter_cons_of_neg (by simp [isSignificant_placed, htrivia])]
  | complete n =>
    rcases h with ⟨first, last, others, rfl, hn, hends⟩ | ⟨hall, hbegun, hstack⟩
    · refine .inl ⟨l :: first, last, others, rfl, ?_, hends.significant, ?_, hends.ends⟩
      · rw [hn, List.cons_append, List.flatMap_cons, width_append, Nat.add_assoc]
      · rw [List.cons_append, marks, mark?_of_isTrivia htrivia]
        exact hends.read
    · exact .inr ⟨List.forall_mem_cons.2 ⟨htrivia, hall⟩, hbegun, hstack⟩

/-- A lexeme with a meaning is the first of the unit if there was none, and the last so far. -/
theorem Means.cons_significant {stack : List Char} (hmeans : l.kind.isTrivia = false)
    (hread : readLexeme p.stack l = some stack)
    (h : Means ⟨stack, some ((p.begun.map (·.1)).getD
        (UnitClass.ofToken ⟨l, offset, offset + width l.text⟩), ⟨l, offset, offset + width l.text⟩)⟩
      (offset + width l.text) (q.after l.text) ls answer) : Means p offset q (l :: ls) answer := by
  cases answer with
  | empty => cases h.1
  | incomplete =>
    obtain ⟨unit, last, hunit, hlast, hwhy⟩ := h
    have hfilter : (placed offset (l :: ls)).filter (·.isSignificant) =
        ⟨l, offset, offset + width l.text⟩ ::
          (placed (offset + width l.text) ls).filter (·.isSignificant) := by
      rw [placed, List.filter_cons_of_pos (by simp [isSignificant_placed, hmeans])]
    refine ⟨unit, last, ?_, ?_, hwhy⟩
    · rw [hfilter, List.head?_cons, Option.map_some]
      rw [Option.map_some, Option.some_or] at hunit
      rw [← hunit]
      cases p.begun <;> rfl
    · rw [hfilter, List.getLast?_cons]
      rw [← hlast]
      cases ((placed (offset + width l.text) ls).filter (·.isSignificant)).getLast? <;> rfl
  | complete n =>
    rcases h with ⟨first, last, others, rfl, hn, hends⟩ | ⟨hall, hbegun, hstack⟩
    · refine .inl ⟨l :: first, last, others, rfl, ?_, hends.significant, ?_, hends.ends⟩
      · rw [hn, List.cons_append, List.flatMap_cons, width_append, Nat.add_assoc]
      · rw [List.cons_append, readAll_marks_cons, hread]
        exact hends.read
    · -- nothing with a meaning follows
      refine .inl ⟨[], l, ls, rfl, ?_, hmeans, ?_, .inr hall⟩
      · simpa using (Option.some.inj hbegun).symm
      · rw [List.nil_append, readAll_marks_cons, hread, ← hstack]
        rfl

end Cons

/-- Where lexemes have their ends and brackets match, the answer of the scanner means what it should. -/
theorem means_completenessFrom (total : Nat) {p : Progress} (offset : Nat) {q : Position} {ls : List Lexeme}
    (hterm : ∀ l ∈ ls, l.terminated = true) (hread : Mark.readAll p.stack (marks q ls) = some []) :
    Means p offset q ls (completenessFrom total p (placed offset ls)) := by
  induction ls generalizing p offset q with
  | nil => exact means_nil total offset q (Option.some.inj hread)
  | cons l ls ih =>
    have hend := hterm l List.mem_cons_self
    have hothers : ∀ l ∈ ls, l.terminated = true := fun l hl => hterm l (List.mem_cons_of_mem _ hl)
    rw [readAll_marks_cons] at hread
    obtain ⟨stack, hlexeme, hread⟩ := Option.bind_eq_some_iff.1 hread
    rw [placed]
    by_cases htrivia : l.kind.isTrivia = true
    · have hstack : p.stack = stack := by
        rw [readLexeme, mark?_of_isTrivia htrivia] at hlexeme
        exact Option.some.inj hlexeme
      rw [completenessFrom_trivia _ _ _ hend htrivia]
      exact (ih _ hothers (hstack ▸ hread)).cons_trivia htrivia
    have hmeans : l.kind.isTrivia = false := Bool.eq_false_iff.2 htrivia
    rcases completenessFrom_read (placed (offset + width l.text) ls)
        (t := ⟨l, offset, offset + width l.text⟩) hend (by simp [isSignificant_placed, hmeans]) hlexeme with
      ⟨hcomplete, hstack, hends⟩ | hgoes
    · rw [hcomplete total]
      refine .inl ⟨[], l, ls, rfl, by simp, hmeans, ?_, .inl hends⟩
      rw [List.nil_append, readAll_marks_cons, hlexeme, hstack]
      rfl
    · rw [hgoes total _ rfl]
      exact (ih _ hothers hread).cons_significant hmeans hlexeme

/-! ## Lexemes of what is left -/

/-- The lexemes behind the first ones are those of the text behind them. -/
theorem lexemes_of_append {cs : List Char} {first others : List Lexeme} (h : lexemes cs = first ++ others) :
    lexemes (others.flatMap (·.text)) = others := by
  induction first generalizing cs with
  | nil =>
    rw [List.nil_append] at h
    rw [← h, flatMap_text_lexemes]
  | cons l first ih =>
    cases cs with
    | nil => simp [lexemes] at h
    | cons c rest =>
      rw [lexemes, List.cons_append, List.cons.injEq] at h
      exact ih h.2

theorem text_ne_nil_of_mem {cs : List Char} {l : Lexeme} (h : l ∈ lexemes cs) : l.text ≠ [] := by
  fun_induction lexemes cs with
  | case1 => exact absurd h List.not_mem_nil
  | case2 c rest e ih =>
    rcases List.mem_cons.1 h with rfl | h
    · exact List.cons_ne_nil _ _
    · exact ih h

theorem take_countWhile (p : Char → Bool) (cs : List Char) : cs.take (countWhile p cs) = cs.takeWhile p :=
  (List.prefix_iff_eq_take.1 (List.takeWhile_prefix _)).symm

theorem drop_countWhile (p : Char → Bool) (cs : List Char) : cs.drop (countWhile p cs) = cs.dropWhile p := by
  have hall := cs.take_append_drop (countWhile p cs)
  rw [take_countWhile] at hall
  exact List.append_cancel_left (hall.trans List.takeWhile_append_dropWhile.symm)

/-- Blanks at the start are lexemes for themselves. -/
theorem exists_lexemes_trimStart (cs : List Char) :
    ∃ before, lexemes cs = before ++ lexemes (trimStart cs) ∧
      before.flatMap (·.text) = cs.takeWhile isBlank ∧ ∀ l ∈ before, l.kind.isTrivia = true := by
  cases cs with
  | nil => exact ⟨[], rfl, rfl, fun l hl => absurd hl List.not_mem_nil⟩
  | cons c rest =>
    by_cases hblank : isBlank c = true
    · have hextent : extent c rest = ⟨.blank, countWhile isBlank rest, true⟩ := by
        rw [extent, if_pos hblank]
      refine ⟨[⟨.blank, (c :: rest).takeWhile isBlank, true⟩], ?_, by simp, ?_⟩
      · rw [lexemes, hextent]
        simp only [take_countWhile, drop_countWhile, trimStart, List.takeWhile_cons_of_pos hblank,
          List.dropWhile_cons_of_pos hblank, List.singleton_append]
      · intro l hl
        rw [List.mem_singleton.1 hl]
        rfl
    · refine ⟨[], ?_, ?_, fun l hl => absurd hl List.not_mem_nil⟩
      · rw [trimStart, List.dropWhile_cons_of_neg hblank]
        rfl
      · rw [List.takeWhile_cons_of_neg hblank]
        rfl

theorem isTrivia_apostropheExtent (cs : List Char) : (apostropheExtent cs).kind.isTrivia = false := by
  unfold apostropheExtent
  split
  · rfl
  · rfl
  · split <;> rfl
  · rfl

/-- Blanks and comments start with a blank or with a slash and what makes it a comment. -/
theorem of_isTrivia_extent {c : Char} {rest : List Char} (h : (extent c rest).kind.isTrivia = true) :
    isBlank c = true ∨ c = '/' ∧ (rest.head? = some '/' ∨ rest.head? = some '*') := by
  -- the cases are the kinds of lexemes in the order in which they are tried
  fun_cases extent c rest with
  | case1 hblank => exact .inl hblank
  | case2 hblank hline =>
    simp only [Bool.and_eq_true, decide_eq_true_eq, beq_iff_eq] at hline
    exact .inr ⟨hline.1, .inl hline.2⟩
  | case3 hblank hline hblock =>
    simp only [Bool.and_eq_true, decide_eq_true_eq, beq_iff_eq] at hblock
    exact .inr ⟨hblock.1, .inr hblock.2⟩
  | case4 hblank hline hblock hraw =>
    rw [extent, if_neg hblank, if_neg hline, if_neg hblock, if_pos hraw] at h
    cases h
  | case5 hblank hline hblock hraw hquote =>
    rw [extent, if_neg hblank, if_neg hline, if_neg hblock, if_neg hraw, if_pos hquote] at h
    cases h
  | case6 hblank hline hblock hraw hquote hbytes =>
    rw [extent, if_neg hblank, if_neg hline, if_neg hblock, if_neg hraw, if_neg hquote, if_pos hbytes] at h
    cases h
  | case7 hblank hline hblock hraw hquote hbytes hapostrophe =>
    rw [extent, if_neg hblank, if_neg hline, if_neg hblock, if_neg hraw, if_neg hquote, if_neg hbytes,
      if_pos hapostrophe, isTrivia_apostropheExtent] at h
    cases h
  | case8 hblank hline hblock hraw hquote hbytes hapostrophe hdigit =>
    rw [extent, if_neg hblank, if_neg hline, if_neg hblock, if_neg hraw, if_neg hquote, if_neg hbytes,
      if_neg hapostrophe, if_pos hdigit] at h
    cases h
  | case9 hblank hline hblock hraw hquote hbytes hapostrophe hdigit hword n =>
    rw [extent, if_neg hblank, if_neg hline, if_neg hblock, if_neg hraw, if_neg hquote, if_neg hbytes,
      if_neg hapostrophe, if_neg hdigit, if_pos hword] at h
    simp only at h
    split at h <;> cases h
  | case10 hblank hline hblock hraw hquote hbytes hapostrophe hdigit hword =>
    rw [extent, if_neg hblank, if_neg hline, if_neg hblock, if_neg hraw, if_neg hquote, if_neg hbytes,
      if_neg hapostrophe, if_neg hdigit, if_neg hword] at h
    cases h

end Notebook.Scan

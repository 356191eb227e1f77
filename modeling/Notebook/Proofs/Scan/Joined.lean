import Notebook.Proofs.Scan.Marks

/-!
# Lexemes of joined texts

A lexeme that has its end is the same whatever is appended to the text, if there is something behind it that
it could not go on with (`extent_append`).  So the lexemes before such a character stay as they are
(`lexemes_append_of_mem`), and a text that ends in a semicolon or a closing bracket, with all lexemes closed,
keeps all its lexemes when more is appended (`lexemes_append`).
-/

namespace Notebook.Scan
open Notebook.Text

/-! ## What stands behind a lexeme -/

/-- Characters that a lexeme neither goes on with nor looks for behind its end. -/
structure Separates (x : Char) : Prop where
  notBlank : isBlank x = false
  notWord : isWordChar x = false
  notDigit : x.isDigit = false
  notSpecial : x ∉ ['.', '#', '/', '*', '"', '\x27']

theorem separates_semicolon : Separates ';' := by constructor <;> decide +kernel

theorem separates_brace : Separates '\x7d' := by constructor <;> decide +kernel

/-- A text starts with such a character. -/
def StartsApart (back : List Char) : Prop := ∃ x xs, back = x :: xs ∧ Separates x

/-- A lexeme cannot go on when a text is appended: something is left behind it that no lexeme looks for, or
the text starts apart, which does not end a comment. -/
def Stops (e : Extent) (rest back : List Char) : Prop :=
  (∃ y ∈ rest.drop e.more, y ≠ '.' ∧ y ≠ '#') ∨ e.kind ≠ .lineComment ∧ StartsApart back

/-! ## Lengths that a longer text keeps -/

theorem countWhile_append {p : Char → Bool} {cs : List Char} (h : countWhile p cs < cs.length)
    (back : List Char) : countWhile p (cs ++ back) = countWhile p cs := by
  unfold countWhile at *
  rw [List.takeWhile_append, if_neg (by omega)]

theorem countWhile_append_cons {p : Char → Bool} {x : Char} (hx : p x = false) (cs xs : List Char) :
    countWhile p (cs ++ x :: xs) = countWhile p cs := by
  unfold countWhile
  rw [List.takeWhile_append, List.takeWhile_cons_of_neg (by simp [hx]), List.append_nil]
  split
  · rename_i hall
    exact hall.symm
  · rfl

theorem blockCommentLength_append {depth : Nat} {cs : List Char} (h : (blockCommentLength depth cs).2 = true)
    (back : List Char) : blockCommentLength depth (cs ++ back) = blockCommentLength depth cs := by
  fun_induction blockCommentLength depth cs with
  | case1 => cases h
  | case2 depth cs n closed heq ih => simp [blockCommentLength, ih (by rw [heq]; exact h), heq]
  | case3 depth cs hdepth => simp [blockCommentLength, hdepth]
  | case4 depth cs hdepth n closed heq ih =>
    simp [blockCommentLength, hdepth, ih (by rw [heq]; exact h), heq]
  | case5 depth c cs hopen hclose n closed heq ih =>
    have hrest := ih (by rw [heq]; exact h)
    -- a comment that has its end goes on
    obtain ⟨d, ds, rfl⟩ : ∃ d ds, cs = d :: ds := by
      cases cs with
      | nil => simp_all [blockCommentLength]
      | cons d ds => exact ⟨d, ds, rfl⟩
    rw [List.cons_append, blockCommentLength, hrest, heq]
    · intro rest hc hds
      simp only [List.cons_append, List.cons.injEq] at hds
      exact hopen ds hc (by rw [hds.1])
    · intro rest hc hds
      simp only [List.cons_append, List.cons.injEq] at hds
      exact hclose ds hc (by rw [hds.1])

theorem stringLength_append {cs : List Char} (h : (stringLength cs).2 = true) (back : List Char) :
    stringLength (cs ++ back) = stringLength cs := by
  fun_induction stringLength cs with
  | case1 => cases h
  | case2 c cs n closed heq ih => simp [stringLength, ih (by rw [heq]; exact h), heq]
  | case3 cs _ => simp [stringLength]
  | case4 c cs hescape hquote n closed heq ih =>
    have hrest := ih (by rw [heq]; exact h)
    obtain ⟨d, ds, rfl⟩ : ∃ d ds, cs = d :: ds := by
      cases cs with
      | nil => simp_all [stringLength]
      | cons d ds => exact ⟨d, ds, rfl⟩
    rw [List.cons_append, stringLength, if_neg hquote, hrest, heq]
    intro e rest hc hds
    simp only [List.cons_append, List.cons.injEq] at hds
    exact hescape d ds hc (by rw [hds.1])

theorem apostropheLength_append {cs : List Char} (h : (apostropheLength cs).2 = true) (back : List Char) :
    apostropheLength (cs ++ back) = apostropheLength cs := by
  fun_induction apostropheLength cs with
  | case1 => cases h
  | case2 cs => simp [apostropheLength]
  | case3 c cs hquote n closed heq ih => simp [apostropheLength, hquote, ih (by rw [heq]; exact h), heq]

theorem lt_length_of_rawStringLength {hashes : Nat} {cs : List Char}
    (h : (rawStringLength hashes cs).2 = true) : hashes < cs.length := by
  fun_induction rawStringLength hashes cs with
  | case1 => cases h
  | case2 c cs hend =>
    simp only [Bool.and_eq_true, decide_eq_true_eq] at hend
    exact Nat.lt_succ_of_le hend.2
  | case3 c cs hend n closed heq ih => exact (ih (by rw [heq]; exact h)).trans (Nat.lt_succ_self _)

theorem rawStringLength_append {hashes : Nat} {cs : List Char} (h : (rawStringLength hashes cs).2 = true)
    (back : List Char) : rawStringLength hashes (cs ++ back) = rawStringLength hashes cs := by
  fun_induction rawStringLength hashes cs with
  | case1 => cases h
  | case2 c cs hend =>
    have hle : hashes ≤ cs.length := by
      simp only [Bool.and_eq_true, decide_eq_true_eq] at hend
      exact hend.2
    have hlonger : hashes ≤ (cs ++ back).length := by
      rw [List.length_append]
      exact hle.trans (Nat.le_add_right _ _)
    rw [List.cons_append, rawStringLength, List.take_append_of_le_length hle, if_pos]
    simp only [Bool.and_eq_true, decide_eq_true_eq] at hend ⊢
    exact ⟨hend.1, hlonger⟩
  | case3 c cs hend n closed heq ih =>
    have hclosed : (rawStringLength hashes cs).2 = true := by rw [heq]; exact h
    have hle : hashes ≤ cs.length := (lt_length_of_rawStringLength hclosed).le
    rw [List.cons_append, rawStringLength, ih hclosed, heq, List.take_append_of_le_length hle, if_neg]
    -- the hashes that would end the string stand before the quote that does
    intro hearly
    apply hend
    simp only [Bool.and_eq_true, decide_eq_true_eq] at hearly ⊢
    exact ⟨hearly.1, hle⟩

theorem numberLength_append {cs back : List Char}
    (h : (∃ y ∈ cs.drop (numberLength cs), y ≠ '.') ∨ StartsApart back) :
    numberLength (cs ++ back) = numberLength cs := by
  fun_induction numberLength cs with
  | case1 =>
    rcases h with ⟨y, hy, -⟩ | ⟨x, xs, rfl, hx⟩
    · exact absurd hy List.not_mem_nil
    · have hpoint : x ≠ '.' := by rintro rfl; exact hx.notSpecial (by decide)
      simp [numberLength, hx.notWord, hpoint]
  | case2 c cs hword ih => rw [List.cons_append, numberLength, if_pos hword, ih h]
  | case3 c cs hword hpoint ih =>
    have hpoint' : (c = '.' && (cs ++ back).head?.any Char.isDigit) = true := by
      cases cs with
      | nil => simp at hpoint
      | cons d cs => exact hpoint
    rw [List.cons_append, numberLength, if_neg hword, if_pos hpoint', ih h]
  | case4 c cs hword hpoint =>
    rw [List.cons_append, numberLength, if_neg hword, if_neg]
    -- a point at the end of the text is the only one that what is appended could go on with
    cases cs with
    | cons d cs => exact hpoint
    | nil =>
      rcases h with ⟨y, hy, hne⟩ | ⟨x, xs, rfl, hx⟩
      · rw [List.drop_zero, List.mem_singleton] at hy
        simp [← hy, hne]
      · simp [hx.notDigit]

theorem rawStringAhead_append {cs back : List Char} (h : (∃ y ∈ cs, y ≠ '#') ∨ StartsApart back) :
    rawStringAhead (cs ++ back) = rawStringAhead cs := by
  unfold rawStringAhead
  induction cs with
  | nil =>
    rcases h with ⟨y, hy, -⟩ | ⟨x, xs, rfl, hx⟩
    · exact absurd hy List.not_mem_nil
    · have hspecial := hx.notSpecial
      simp only [List.mem_cons, List.not_mem_nil, or_false, not_or] at hspecial
      simp [hspecial]
  | cons c cs ih =>
    by_cases hc : c = '#'
    · subst hc
      have hrest : (∃ y ∈ cs, y ≠ '#') ∨ StartsApart back := by
        refine h.imp_left ?_
        rintro ⟨y, hy, hne⟩
        exact ⟨y, (List.mem_cons.1 hy).resolve_left hne, hne⟩
      simpa using ih hrest
    · simp [hc]

/-- A quote stands behind the hash signs of a raw string. -/
theorem countWhile_lt_of_rawStringAhead {cs : List Char} (h : rawStringAhead cs = true) :
    countWhile (· = '#') cs < cs.length := by
  rw [rawStringAhead, beq_iff_eq, ← drop_countWhile, List.head?_drop] at h
  exact (List.getElem?_eq_some_iff.1 h).1

/-! ## The extent of a lexeme -/

theorem apostropheExtent_append {cs back : List Char} (h : (apostropheExtent cs).terminated = true)
    (hstop : (apostropheExtent cs).more < cs.length ∨ StartsApart back) :
    apostropheExtent (cs ++ back) = apostropheExtent cs := by
  fun_cases apostropheExtent cs with
  | case1 cs n closed heq =>
    have hclosed : (apostropheLength cs).2 = true := by simpa [apostropheExtent, heq] using h
    simp [apostropheExtent, apostropheLength_append hclosed, heq]
  | case2 c cs hescape => simp [apostropheExtent]
  | case3 c cs hescape hclosed hword =>
    have hextent : apostropheExtent (c :: cs) = ⟨.lifetime, countWhile isWordChar (c :: cs), true⟩ := by
      rw [apostropheExtent, if_pos hword]
      · exact hescape
      · exact hclosed
    rw [hextent] at hstop
    have hcount : countWhile isWordChar (c :: cs ++ back) = countWhile isWordChar (c :: cs) := by
      rcases hstop with hlt | ⟨x, xs, rfl, hx⟩
      · exact countWhile_append hlt back
      · exact countWhile_append_cons hx.notWord _ xs
    rw [← hcount, List.cons_append, apostropheExtent, if_pos hword]
    · exact hescape
    · -- no apostrophe follows the first character, as it would close a character
      intro rest hrest
      cases cs with
      | cons d cs =>
        rw [List.cons_append, List.cons.injEq] at hrest
        exact hclosed cs (by rw [hrest.1])
      | nil =>
        rcases hstop with hlt | ⟨x, xs, rfl, hx⟩
        · simp [countWhile, hword] at hlt
        · obtain ⟨rfl, -⟩ := List.cons.inj hrest
          exact hx.notSpecial (by decide)
  | case4 c cs hescape hclosed hword =>
    rw [apostropheExtent, if_neg hword] at h
    · cases h
    · exact hescape
    · exact hclosed
  | case5 => cases h

theorem Separates.extent_eq {x : Char} (hx : Separates x) (back : List Char) :
    extent x back = ⟨.punctuation, 0, true⟩ := by
  have hr : x ≠ 'r' := by rintro rfl; exact absurd hx.notWord (by decide +kernel)
  have hb : x ≠ 'b' := by rintro rfl; exact absurd hx.notWord (by decide +kernel)
  have hspecial := hx.notSpecial
  simp only [List.mem_cons, List.not_mem_nil, or_false, not_or] at hspecial
  obtain ⟨-, -, hslash, -, hquote, hapostrophe⟩ := hspecial
  simp [extent, hx.notBlank, hx.notWord, hx.notDigit, hr, hb, hslash, hquote, hapostrophe]

/-- A lexeme that has its end, and cannot go on, is the same in a longer text. -/
theorem extent_append {c : Char} {rest back : List Char} (hend : (extent c rest).terminated = true)
    (hstop : Stops (extent c rest) rest back) : extent c (rest ++ back) = extent c rest := by
  have hleft : (extent c rest).more < rest.length ∨ (extent c rest).kind ≠ .lineComment ∧ StartsApart back := by
    refine hstop.imp_left ?_
    rintro ⟨y, hy, -⟩
    have := List.length_pos_of_mem hy
    rw [List.length_drop] at this
    omega
  have hnext (y : Char) (hy : y ∈ ['/', '*', '"']) : ((rest ++ back).head? == some y) = (rest.head? == some y) := by
    cases rest with
    | cons d rest => rfl
    | nil =>
      obtain ⟨x, xs, rfl, hx⟩ := (hleft.resolve_left (Nat.not_lt_zero _)).2
      have hne : x ≠ y := by
        rintro rfl
        exact hx.notSpecial (by simp at hy ⊢; tauto)
      simp [hne]
  have htail (y : Char) (hy : (rest.head? == some y) = true) : (rest ++ back).tail = rest.tail ++ back := by
    cases rest with
    | cons d rest => rfl
    | nil => simp at hy
  have hahead : rawStringAhead (rest ++ back) = rawStringAhead rest := by
    apply rawStringAhead_append
    refine hstop.imp ?_ And.right
    rintro ⟨y, hy, -, hsharp⟩
    exact ⟨y, List.mem_of_mem_drop hy, hsharp⟩
  have hcount (p : Char → Bool) (hp : ∀ x, Separates x → p x = false)
      (h : countWhile p rest < rest.length ∨ StartsApart back) : countWhile p (rest ++ back) = countWhile p rest := by
    rcases h with hlt | ⟨x, xs, rfl, hx⟩
    · exact countWhile_append hlt back
    · exact countWhile_append_cons (hp x hx) rest xs
  -- the cases are the kinds of lexemes in the order in which they are tried: what stands next decides
  -- among them, and this has not changed
  fun_cases extent c rest with
  | case1 hblank =>
    simp only [extent, if_pos hblank] at hleft
    simp only [extent, if_pos hblank, hcount _ (fun x hx => hx.notBlank) (hleft.imp_right And.right)]
  | case2 hblank hline =>
    simp only [extent, if_neg hblank, if_pos hline] at hleft
    have hcomment := countWhile_append (hleft.resolve_right fun h => h.1 rfl) back
    simp only [extent, if_neg hblank, hnext '/' (by decide), if_pos hline, hcomment]
  | case3 hblank hline hblock n closed heq =>
    have hclosed : (blockCommentLength 1 rest.tail).2 = true := by
      simpa only [extent, if_neg hblank, if_neg hline, if_pos hblock] using hend
    simp only [extent, if_neg hblank, hnext '/' (by decide), hnext '*' (by decide), if_neg hline, if_pos hblock,
      htail '*' (Bool.and_eq_true_iff.1 hblock).2, blockCommentLength_append hclosed, heq]
  | case4 hblank hline hblock hraw hashes n closed heq =>
    have hclosed : (rawStringLength hashes (rest.drop (hashes + 1))).2 = true := by
      simpa only [extent, if_neg hblank, if_neg hline, if_neg hblock, if_pos hraw] using hend
    have hquote : hashes < rest.length := countWhile_lt_of_rawStringAhead (Bool.and_eq_true_iff.1 hraw).2
    have hhashes : countWhile (· = '#') (rest ++ back) = hashes := countWhile_append hquote back
    have hdrop : (rest ++ back).drop (hashes + 1) = rest.drop (hashes + 1) ++ back :=
      List.drop_append_of_le_length hquote
    simp only [extent, if_neg hblank, hnext '/' (by decide), hnext '*' (by decide), if_neg hline, if_neg hblock,
      hahead, if_pos hraw, hhashes, hdrop, rawStringLength_append hclosed, heq]
  | case5 hblank hline hblock hraw hquote n closed heq =>
    have hclosed : (stringLength rest).2 = true := by
      simpa only [extent, if_neg hblank, if_neg hline, if_neg hblock, if_neg hraw, if_pos hquote] using hend
    simp only [extent, if_neg hblank, hnext '/' (by decide), hnext '*' (by decide), if_neg hline, if_neg hblock,
      hahead, if_neg hraw, if_pos hquote, stringLength_append hclosed, heq]
  | case6 hblank hline hblock hraw hquote hbytes n closed heq =>
    have hclosed : (stringLength rest.tail).2 = true := by
      simpa only [extent, if_neg hblank, if_neg hline, if_neg hblock, if_neg hraw, if_neg hquote,
        if_pos hbytes] using hend
    simp only [extent, if_neg hblank, hnext '/' (by decide), hnext '*' (by decide), hnext '"' (by decide),
      if_neg hline, if_neg hblock, hahead, if_neg hraw, if_neg hquote, if_pos hbytes,
      htail '"' (Bool.and_eq_true_iff.1 hbytes).2, stringLength_append hclosed, heq]
  | case7 hblank hline hblock hraw hquote hbytes hapostrophe =>
    simp only [extent, if_neg hblank, if_neg hline, if_neg hblock, if_neg hraw, if_neg hquote,
      if_neg hbytes, if_pos hapostrophe] at hend hleft
    simp only [extent, if_neg hblank, hnext '/' (by decide), hnext '*' (by decide), hnext '"' (by decide),
      if_neg hline, if_neg hblock, hahead, if_neg hraw, if_neg hquote, if_neg hbytes, if_pos hapostrophe,
      apostropheExtent_append hend (hleft.imp_right And.right)]
  | case8 hblank hline hblock hraw hquote hbytes hapostrophe hdigit =>
    simp only [extent, if_neg hblank, if_neg hline, if_neg hblock, if_neg hraw, if_neg hquote,
      if_neg hbytes, if_neg hapostrophe, if_pos hdigit] at hstop
    have hnumber : numberLength (rest ++ back) = numberLength rest := by
      apply numberLength_append
      refine hstop.imp ?_ And.right
      rintro ⟨y, hy, hpoint, -⟩
      exact ⟨y, hy, hpoint⟩
    simp only [extent, if_neg hblank, hnext '/' (by decide), hnext '*' (by decide), hnext '"' (by decide),
      if_neg hline, if_neg hblock, hahead, if_neg hraw, if_neg hquote, if_neg hbytes, if_neg hapostrophe,
      if_pos hdigit, hnumber]
  | case9 hblank hline hblock hraw hquote hbytes hapostrophe hdigit hword n =>
    simp only [extent, if_neg hblank, if_neg hline, if_neg hblock, if_neg hraw, if_neg hquote,
      if_neg hbytes, if_neg hapostrophe, if_neg hdigit, if_pos hword] at hleft
    have hlength : countWhile isWordChar (rest ++ back) = n :=
      hcount _ (fun x hx => hx.notWord) (hleft.imp_right And.right)
    have htake : (rest ++ back).take n = rest.take n :=
      List.take_append_of_le_length (List.takeWhile_prefix isWordChar).length_le
    simp only [extent, if_neg hblank, hnext '/' (by decide), hnext '*' (by decide), hnext '"' (by decide),
      if_neg hline, if_neg hblock, hahead, if_neg hraw, if_neg hquote, if_neg hbytes, if_neg hapostrophe,
      if_neg hdigit, if_pos hword, hlength, htake, n]
  | case10 hblank hline hblock hraw hquote hbytes hapostrophe hdigit hword =>
    simp only [extent, if_neg hblank, hnext '/' (by decide), hnext '*' (by decide), hnext '"' (by decide),
      if_neg hline, if_neg hblock, hahead, if_neg hraw, if_neg hquote, if_neg hbytes, if_neg hapostrophe,
      if_neg hdigit, if_neg hword]

/-- Lexemes that have their ends are the same in a longer text, if a character is left behind them that no
lexeme looks for. -/
theorem lexemes_append_of_mem {cs : List Char} {first others : List Lexeme} {y : Char}
    (h : lexemes cs = first ++ others) (hend : ∀ l ∈ first, l.terminated = true)
    (hy : y ∈ others.flatMap (·.text)) (hpoint : y ≠ '.') (hsharp : y ≠ '#') (back : List Char) :
    lexemes (cs ++ back) = first ++ lexemes (others.flatMap (·.text) ++ back) := by
  induction first generalizing cs with
  | nil =>
    rw [List.nil_append] at h
    rw [← h, flatMap_text_lexemes, List.nil_append]
  | cons l first ih =>
    cases cs with
    | nil => simp [lexemes] at h
    | cons c rest =>
      rw [lexemes, List.cons_append, List.cons.injEq] at h
      obtain ⟨rfl, hrest⟩ := h
      have hleft : y ∈ rest.drop (extent c rest).more := by
        rw [← flatMap_text_lexemes (rest.drop _), hrest, List.flatMap_append]
        exact List.mem_append_right _ hy
      have hle : (extent c rest).more ≤ rest.length := by
        have := List.length_pos_of_mem hleft
        rw [List.length_drop] at this
        omega
      have hextent : extent c (rest ++ back) = extent c rest :=
        extent_append (hend _ List.mem_cons_self) (.inl ⟨y, hleft, hpoint, hsharp⟩)
      rw [List.cons_append, lexemes, hextent, List.take_append_of_le_length hle,
        List.drop_append_of_le_length hle, ih hrest fun l hl => hend l (List.mem_cons_of_mem _ hl), List.cons_append]

/-- A text that ends in such a character keeps its lexemes when more is appended. -/
theorem lexemes_append {cs : List Char} {first : List Lexeme} {x : Char} (hx : Separates x)
    (h : lexemes cs = first ++ [⟨.punctuation, [x], true⟩]) (hend : ∀ l ∈ first, l.terminated = true)
    (back : List Char) : lexemes (cs ++ back) = lexemes cs ++ lexemes back := by
  have hpoint : x ≠ '.' := by rintro rfl; exact hx.notSpecial (by decide)
  have hsharp : x ≠ '#' := by rintro rfl; exact hx.notSpecial (by decide)
  have hlast : lexemes ([x] ++ back) = ⟨.punctuation, [x], true⟩ :: lexemes back := by
    rw [List.singleton_append, lexemes, hx.extent_eq, List.take_zero, List.drop_zero]
  rw [lexemes_append_of_mem h hend (by simp) hpoint hsharp back, h, List.append_assoc]
  exact congrArg (first ++ ·) hlast

/-! ## Units that end before what follows -/

theorem placed_append (offset : Nat) (ls ls' : List Lexeme) :
    placed offset (ls ++ ls') = placed offset ls ++ placed (offset + width (ls.flatMap (·.text))) ls' := by
  induction ls generalizing offset with
  | nil => rfl
  | cons l ls ih =>
    rw [List.cons_append, placed, placed, ih, List.flatMap_cons, width_append, Nat.add_assoc, List.cons_append]

theorem isSome_find?_placed (offset : Nat) (first : List Lexeme) {last : Lexeme}
    (h : last.kind.isTrivia = false) :
    ((placed offset (first ++ [last])).find? (·.isSignificant)).isSome = true := by
  rw [placed_append, List.find?_append, Option.isSome_or, placed]
  simp [isSignificant_placed, h]

/-- The class of a unit whose reading has come so far and goes on with tokens. -/
def Progress.unit? (p : Progress) (ts : List Token) : Option UnitClass :=
  (p.begun.map (·.1)).or ((ts.find? (·.isSignificant)).map UnitClass.ofToken)

/-- A unit of this class ends with a lexeme that these tokens follow, if no bracket is open behind it. -/
def Closes (unit : Option UnitClass) (last : Lexeme) (others : List Token) : Prop :=
  last.text = [';'] ∨ last.text = ['\x7d'] ∧ ∃ c, unit = some c ∧ c ≠ .simple ∧
    ∀ t, others.find? (·.isSignificant) = some t → c.continuesWith t = false

theorem completenessFrom_closes (total : Nat) {p : Progress} {t : Token} {others : List Token}
    (hkind : t.kind = .punctuation) (hend : t.terminated = true)
    (hread : readLexeme p.stack t.toLexeme = some [])
    (hcloses : Closes (p.unit? (t :: others)) t.toLexeme others) :
    completenessFrom total p (t :: others) = .complete t.stop := by
  have hsig : t.isSignificant = true := by rw [Token.isSignificant, hkind]; rfl
  have hmeans : ¬t.kind.isTrivia = true := by simpa [Token.isSignificant] using hsig
  have hpunct : ¬t.kind ≠ .punctuation := not_not.2 hkind
  obtain htext | ⟨htext, c, hunit, hsimple, hnext⟩ := hcloses
  · have hopen : ¬t.isAny ["(", "[", "\x7b"] = true := by simp [Token.isAny, Token.is, htext]
    have hclose : ¬t.isAny [")", "]", "\x7d"] = true := by simp [Token.isAny, Token.is, htext]
    rw [readLexeme_other hopen hclose, Option.some.injEq] at hread
    have hlast : (t.is ";" && p.stack.isEmpty) = true := by simp [Token.is, htext, hread]
    simp only [completenessFrom, hend, Bool.not_true, Bool.false_eq_true, if_false, hmeans, if_neg hpunct,
      if_neg hopen, if_neg hclose, if_pos hlast]
  · have hopen : ¬t.isAny ["(", "[", "\x7b"] = true := by simp [Token.isAny, Token.is, htext]
    have hclose : t.isAny [")", "]", "\x7d"] = true := by simp [Token.isAny, Token.is, htext]
    rw [readLexeme_closing hkind hclose] at hread
    split at hread
    · rename_i hanswer
      rw [Option.some.injEq] at hread
      have hclass : (p.begun.map (·.1)).getD (UnitClass.ofToken t) = c := by
        rw [Progress.unit?, List.find?_cons_of_pos hsig] at hunit
        cases hbegun : p.begun <;> simp_all
      have hlast : (t.is "\x7d" && p.stack.tail.isEmpty && decide (c ≠ .simple) &&
          !(others.find? (·.isSignificant)).any c.continuesWith) = true := by
        cases hothers : others.find? (·.isSignificant) with
        | none => simp [Token.is, htext, hread, hsimple]
        | some u => simp [Token.is, htext, hread, hsimple, hnext u hothers]
      simp only [completenessFrom, hend, Bool.not_true, Bool.false_eq_true, if_false, hmeans, if_neg hpunct,
        if_neg hopen, if_pos hclose, if_neg (not_not.2 hanswer), hclass, if_pos hlast]
    · cases hread

theorem terminated_of_completenessFrom {total n : Nat} {p : Progress} {t : Token} {rest : List Token}
    (h : completenessFrom total p (t :: rest) = .complete n) : t.terminated = true := by
  by_contra hopen
  rw [completenessFrom, if_pos (by simpa using hopen)] at h
  cases h

/-- What is appended to a unit does not matter if the unit ends before it. -/
theorem completenessFrom_append {total : Nat} (offset : Nat) {p : Progress} {q : Position}
    {first : List Lexeme} {last : Lexeme} (hkind : last.kind = .punctuation) (hne : last.text ≠ [])
    (hread : Mark.readAll p.stack (marks q (first ++ [last])) = some [])
    (hcomplete : completenessFrom total p (placed offset (first ++ [last])) =
      .complete (offset + width ((first ++ [last]).flatMap (·.text)))) :
    (∀ l ∈ first ++ [last], l.terminated = true) ∧ ∀ total others,
      Closes (p.unit? (placed offset (first ++ [last]))) last others →
      completenessFrom total p (placed offset (first ++ [last]) ++ others) =
        .complete (offset + width ((first ++ [last]).flatMap (·.text))) := by
  induction first generalizing offset p q with
  | nil =>
    have hend : last.terminated = true := terminated_of_completenessFrom hcomplete
    rw [List.nil_append, readAll_marks_cons] at hread
    obtain ⟨stack, hlexeme, hnil⟩ := Option.bind_eq_some_iff.1 hread
    cases hnil
    refine ⟨by simpa using hend, fun total others hcloses => ?_⟩
    have hunit : p.unit? (placed offset ([] ++ [last])) =
        p.unit? (⟨last, offset, offset + width last.text⟩ :: others) := by
      have hsig : (⟨last, offset, offset + width last.text⟩ : Token).isSignificant = true := by
        rw [isSignificant_placed, hkind]
        rfl
      rw [Progress.unit?, Progress.unit?, List.nil_append, placed, List.find?_cons_of_pos hsig,
        List.find?_cons_of_pos hsig]
    rw [hunit] at hcloses
    have hlast := completenessFrom_closes total (t := ⟨last, offset, offset + width last.text⟩) hkind hend
      hlexeme hcloses
    simpa [placed] using hlast
  | cons l first ih =>
    have hend : l.terminated = true := terminated_of_completenessFrom hcomplete
    rw [List.cons_append, readAll_marks_cons] at hread
    obtain ⟨stack, hlexeme, hread⟩ := Option.bind_eq_some_iff.1 hread
    have hwidth : offset + width ((l :: first ++ [last]).flatMap (·.text)) =
        offset + width l.text + width ((first ++ [last]).flatMap (·.text)) := by
      rw [List.cons_append, List.flatMap_cons, width_append, Nat.add_assoc]
    rw [hwidth, List.cons_append, placed] at hcomplete ⊢
    by_cases htrivia : l.kind.isTrivia = true
    · have hstack : p.stack = stack := by
        rw [readLexeme, mark?_of_isTrivia htrivia] at hlexeme
        exact Option.some.inj hlexeme
      rw [completenessFrom_trivia _ _ _ hend htrivia] at hcomplete
      obtain ⟨hothers, hcloses⟩ := ih _ (hstack ▸ hread) hcomplete
      refine ⟨List.forall_mem_cons.2 ⟨hend, hothers⟩, fun total others hlast => ?_⟩
      rw [List.cons_append, completenessFrom_trivia _ _ _ hend htrivia]
      refine hcloses total others ?_
      rwa [Progress.unit?, List.find?_cons_of_neg (by simp [isSignificant_placed, htrivia])] at hlast
    · have hsig : (⟨l, offset, offset + width l.text⟩ : Token).isSignificant = true := by
        simp [isSignificant_placed, htrivia]
      rcases completenessFrom_read (placed (offset + width l.text) (first ++ [last])) hend hsig hlexeme with
        ⟨hearly, -⟩ | hgoes
      · -- the unit does not end before its last lexeme
        have hpos : 0 < width ((first ++ [last]).flatMap (·.text)) := by
          refine width_pos ?_
          simp [hne]
        rw [hearly, Completeness.complete.injEq] at hcomplete
        simp only at hcomplete
        omega
      · rw [hgoes total _ rfl] at hcomplete
        obtain ⟨hothers, hcloses⟩ := ih _ hread hcomplete
        refine ⟨List.forall_mem_cons.2 ⟨hend, hothers⟩, fun total others hlast => ?_⟩
        -- the last lexeme is significant, so that what is appended is not the next one
        have hnext : (placed (offset + width l.text) (first ++ [last]) ++ others).find? (·.isSignificant) =
            (placed (offset + width l.text) (first ++ [last])).find? (·.isSignificant) := by
          rw [List.find?_append]
          exact Option.or_of_isSome (isSome_find?_placed _ first (by rw [hkind]; rfl))
        rw [List.cons_append, hgoes total _ hnext]
        refine hcloses total others ?_
        rw [Progress.unit?, List.find?_cons_of_pos hsig] at hlast
        cases hbegun : p.begun <;> simpa [Progress.unit?, hbegun] using hlast

end Notebook.Scan

import Notebook.Proofs.Syntax.Recognisers

/-!
# Tokens before a cut

A token or a comment that ends before a cut of the text is the same if something else follows the cut
(`Leaf.exchange`, `triviaLength?_eq_some`): less than before (`exchange_shorter`), or blanks where a semicolon
was (`exchange_blanks`).  What a token is has one case for each kind (`Leaf`).  A word or a number must be ended
by what follows it, not by the cut alone.
-/

namespace Notebook.Syntax
open Notebook.Text

/-! ## What may be exchanged -/

/-- What stands behind a text may be exchanged: no literal, no comment and no mark comes up by it. -/
structure Exchange (z z' : List Char) : Prop where
  stops : Stops z
  stops' : Stops z'
  stringBody : ∀ {w : List Char}, stringBody? (w ++ z) = none → stringBody? (w ++ z') = none
  starts : ∀ {w : List Char} {s : String}, s.toList.all (fun c => !isBlank c) = true →
    startsWith (w ++ z') s = true → startsWith (w ++ z) s = true
  line : z.takeWhile (· ≠ '\n') = [] → z'.takeWhile (· ≠ '\n') = []

/-- What starts the shorter text starts the longer one. -/
theorem startsWith_of_starts {cs ds : List Char} {s : String} (hcs : cs <+: ds)
    (h : startsWith cs s = true) : startsWith ds s = true := by
  unfold startsWith at *
  rw [List.isPrefixOf_iff_prefix] at *
  exact h.trans hcs

section Exchange

variable {z z' : List Char}

/-- What follows may be cut short. -/
theorem exchange_shorter (hcut : z' <+: z) (hz : Stops z) (hz' : Stops z') : Exchange z z' where
  stops := hz
  stops' := hz'
  stringBody {w} h := by
    cases hm : stringBody? (w ++ z') with
    | none => rfl
    | some m =>
      have hfront : (w ++ z').take m <+: w ++ z :=
        (List.take_prefix _ _).trans ((List.prefix_append_right_inj w).2 hcut)
      rw [looksNoFurther_stringBody? hm hfront] at h
      cases h
  starts _ h := startsWith_of_starts ((List.prefix_append_right_inj _).2 hcut) h
  line h := by
    obtain ⟨behind, rfl⟩ := hcut
    rw [List.takeWhile_append] at h
    split at h
    · rw [(List.append_eq_nil_iff.1 h).1]
      rfl
    · exact h

theorem isBlank_of_closesQuoted {c : Char} (h : closesQuoted c = true) : isBlank c = false := by
  simp only [closesQuoted, Bool.or_eq_true, decide_eq_true_eq] at h
  rcases h with (rfl | rfl) | rfl <;> decide

/-- What starts a text with blanks behind it starts the text, or has a blank. -/
theorem prefix_of_prefix_append_blanks {s w : List Char} (hblanks : ∀ c ∈ z, isBlank c = true)
    (hs : s.all (fun c => !isBlank c) = true) (h : s <+: w ++ z) : s <+: w := by
  rcases Nat.le_total s.length w.length with hle | hle
  · exact List.prefix_of_prefix_length_le h (List.prefix_append w z) hle
  · obtain ⟨u, rfl⟩ := List.prefix_of_prefix_length_le (List.prefix_append w z) h hle
    cases u with
    | nil => rw [List.append_nil]
    | cons c u =>
      obtain ⟨rest, rfl⟩ := (List.prefix_append_right_inj w).1 h
      have hblank := hblanks c (by simp)
      simp [hblank] at hs

/-- Blanks may stand where a semicolon was. -/
theorem exchange_blanks (hblanks : ∀ c ∈ z, isBlank c = true) : Exchange [';'] z where
  stops := stops_cons (by decide)
  stops' := fun c hc => endsToken_of_isBlank (hblanks c (List.mem_of_head? hc))
  stringBody {w} h := by
    cases hm : stringBody? (w ++ z) with
    | none => rfl
    | some m =>
      obtain ⟨c, hc, hcloses⟩ := endsQuoted_stringBody? hm
      -- the quote at the end is no blank
      have hblank : c ∉ z := fun hmem => by
        have hno := isBlank_of_closesQuoted hcloses
        rw [hblanks c hmem] at hno
        cases hno
      have hfront : (w ++ z).take m <+: w ++ [';'] := by
        rw [List.take_append] at hc ⊢
        cases htake : z.take (m - w.length) with
        | nil =>
          rw [List.append_nil]
          exact (List.take_prefix m w).trans (List.prefix_append w _)
        | cons d ds =>
          rw [htake, List.getLast?_append_of_ne_nil _ (List.cons_ne_nil d ds), ← htake] at hc
          exact absurd (List.take_subset _ _ (List.mem_of_getLast? hc)) hblank
      rw [looksNoFurther_stringBody? hm hfront] at h
      cases h
  starts {w s} hs h := by
    unfold startsWith at *
    rw [List.isPrefixOf_iff_prefix] at *
    exact (prefix_of_prefix_append_blanks hblanks hs h).trans (List.prefix_append w _)
  line h := by cases h

end Exchange

/-! ## Tokens -/

/-- What stands behind an apostrophe and a word, and makes no token of them: another apostrophe, or a hash sign
behind a word that is not written with one. -/
def spoilsQuote (next : Option Char) (cs : List Char) : Bool :=
  next = some '\x27' || (next = some '#' && !startsWith cs "r#")

/-- The tokens that a text may start with, by how many characters they have. -/
inductive Leaf (cs : List Char) : Nat → (Span → TokenTree) → Prop
  | literal {n : Nat} (hliteral : literalLength? cs = some n) : Leaf cs n (.literal (cs.take n))
  | quote {n : Nat} (hliteral : literalLength? cs = none) (hpunct : startsPunct cs = true)
      (hquote : cs.head? = some '\x27') (hword : wordLength? cs.tail = some n)
      (hends : spoilsQuote (cs.tail.drop n).head? cs.tail = false) : Leaf cs 1 (.punct '\x27' true)
  | sign {c : Char} (hliteral : literalLength? cs = none) (hpunct : startsPunct cs = true)
      (hhead : cs.head? = some c) (hquote : c ≠ '\x27') : Leaf cs 1 (.punct c (startsPunct cs.tail))
  | mark (hliteral : literalLength? cs = none) (hpunct : startsPunct cs = false)
      (hmark : startsWith cs errorMark = true) : Leaf cs errorMark.length (.literal errorMark.toList)
  | word {n : Nat} (hliteral : literalLength? cs = none) (hpunct : startsPunct cs = false)
      (hmark : startsWith cs errorMark = false) (hmarks : literalMarks.any (startsWith cs) = false)
      (hword : wordLength? cs = some n) : Leaf cs n (.word (String.ofList (cs.take n)))

theorem leaf?_eq_some_iff {cs : List Char} {n : Nat} {token : Span → TokenTree} :
    leaf? cs = some (n, token) ↔ Leaf cs n token := by
  constructor
  · intro h
    unfold leaf? at h
    cases hliteral : literalLength? cs with
    | some m =>
      rw [hliteral] at h
      cases h
      exact .literal hliteral
    | none =>
      rw [hliteral] at h
      dsimp only at h
      split at h
      · rename_i hpunct
        split at h
        · rename_i hquote
          cases hword : wordLength? cs.tail with
          | none =>
            rw [hword] at h
            cases h
          | some m =>
            rw [hword] at h
            dsimp only at h
            split at h
            · cases h
            · rename_i hends
              cases h
              exact .quote hliteral hpunct hquote hword (Bool.eq_false_iff.2 hends)
        · rename_i hquote
          obtain ⟨c, hc, heq⟩ := Option.map_eq_some_iff.1 h
          cases heq
          exact .sign hliteral hpunct hc fun heq => hquote (heq ▸ hc)
      · rename_i hpunct
        have hpunct := Bool.eq_false_iff.2 hpunct
        split at h
        · rename_i hmark
          cases h
          exact .mark hliteral hpunct hmark
        · rename_i hmark
          split at h
          · cases h
          · rename_i hmarks
            obtain ⟨m, hword, heq⟩ := Option.map_eq_some_iff.1 h
            cases heq
            exact .word hliteral hpunct (Bool.eq_false_iff.2 hmark) (Bool.eq_false_iff.2 hmarks) hword
  · intro h
    unfold leaf?
    cases h with
    | literal hliteral => rw [hliteral]
    | quote hliteral hpunct hquote hword hends =>
      unfold spoilsQuote at hends
      rw [hliteral]
      dsimp only
      rw [if_pos hpunct, if_pos hquote, hword]
      dsimp only
      rw [hends, if_neg Bool.false_ne_true]
    | sign hliteral hpunct hhead hquote =>
      rw [hliteral]
      dsimp only
      rw [if_pos hpunct, if_neg (by simpa [hhead] using hquote), hhead]
      rfl
    | mark hliteral hpunct hmark =>
      rw [hliteral]
      dsimp only
      rw [hpunct, if_neg Bool.false_ne_true, if_pos hmark]
    | word hliteral hpunct hmark hmarks hword =>
      rw [hliteral]
      dsimp only
      rw [hpunct, if_neg Bool.false_ne_true, hmark, if_neg Bool.false_ne_true, hmarks, if_neg Bool.false_ne_true,
        hword]
      rfl

theorem wordLength?_slash (cs : List Char) : wordLength? ('/' :: cs) = none := by
  simp [wordLength?, startsWith, identifierLength?, show isIdentifierStart '/' = false by decide]

/-! ## Tokens before a character that ends them -/

section Cut

variable {w z z' : List Char} (hx : Exchange z z')

theorem startsWith_of_ne {s : String} {a c : Char} (cs : List Char) (hs : s.toList.head? = some a)
    (hc : c ≠ a) : startsWith (c :: cs) s = false := by
  unfold startsWith
  cases hcs : s.toList with
  | nil =>
    rw [hcs] at hs
    cases hs
  | cons b bs =>
    rw [hcs] at hs
    cases hs
    show (a == c && bs.isPrefixOf cs) = false
    rw [beq_false_of_ne (Ne.symm hc), Bool.false_and]

theorem startsPunct_of_ne {c : Char} (cs : List Char) (hc : c ≠ '/') :
    startsPunct (c :: cs) = punctuation.contains c := by
  unfold startsPunct
  rw [startsWith_of_ne (a := '/') cs (by decide) hc, startsWith_of_ne (a := '/') cs (by decide) hc]
  rfl

theorem startsWith_append {s : String} (hs : s.toList.length ≤ w.length) :
    startsWith (w ++ z) s = startsWith w s := by
  unfold startsWith
  rw [Bool.eq_iff_iff, List.isPrefixOf_iff_prefix, List.isPrefixOf_iff_prefix]
  exact ⟨fun h => List.prefix_of_prefix_length_le h (List.prefix_append w z) hs,
    fun h => h.trans (List.prefix_append w z)⟩

/-- What is no quoted literal is a number, and ends where numbers end. -/
theorem literalLength?_of_unquoted (hz : Stops z) (h : stringBody? (w ++ z) = none) :
    literalLength? (w ++ z) = (floatLength? w <|> integerLength? w) := by
  unfold literalLength?
  rw [stringLength?_eq, h, floatLength?_append_stops hz, integerLength?_append_stops hz]
  rfl

theorem literalLength?_of_quoted {cs : List Char} {m : Nat} (h : stringBody? cs = some m) :
    literalLength? cs = some (withSuffix cs m) := by
  unfold literalLength?
  rw [stringLength?_eq, h]
  rfl

include hx

theorem Exchange.startsWith_eq_false {s : String} (hs : s.toList.all (fun c => !isBlank c) = true)
    (h : startsWith (w ++ z) s = false) : startsWith (w ++ z') s = false :=
  Bool.eq_false_iff.2 fun h' => by
    rw [hx.starts hs h'] at h
    cases h

theorem literalLength?_eq_none (h : literalLength? (w ++ z) = none) : literalLength? (w ++ z') = none := by
  cases hbody : stringBody? (w ++ z) with
  | some m =>
    rw [literalLength?_of_quoted hbody] at h
    cases h
  | none =>
    rw [literalLength?_of_unquoted hx.stops hbody] at h
    rw [literalLength?_of_unquoted hx.stops' (hx.stringBody hbody), h]

theorem literalLength?_eq_some {n : Nat} (h : literalLength? (w ++ z) = some n) (hn : n ≤ w.length) :
    literalLength? (w ++ z') = some n := by
  cases hbody : stringBody? (w ++ z) with
  | none =>
    rw [literalLength?_of_unquoted hx.stops hbody] at h
    rw [literalLength?_of_unquoted hx.stops' (hx.stringBody hbody), h]
  | some m =>
    rw [literalLength?_of_quoted hbody, Option.some.injEq] at h
    have hm : m ≤ w.length := by
      rw [← h] at hn
      exact Nat.le_trans (Nat.le_add_right m _) hn
    have hfront : (w ++ z).take m <+: w ++ z' := by
      rw [List.take_append_of_le_length hm]
      exact (List.take_prefix m w).trans (List.prefix_append w z')
    rw [literalLength?_of_quoted (looksNoFurther_stringBody? hbody hfront), ← h,
      withSuffix_append_stops hx.stops w hm, withSuffix_append_stops hx.stops' w hm]

/-- Punctuation stays what it is; a slash that starts no comment starts none in the other text. -/
theorem startsPunct_of_startsPunct (hw : w ≠ []) (h : startsPunct (w ++ z) = true) :
    startsPunct (w ++ z') = true := by
  unfold startsPunct at *
  simp only [Bool.and_eq_true, Bool.not_eq_true'] at h ⊢
  obtain ⟨⟨hline, hblock⟩, hhead⟩ := h
  refine ⟨⟨hx.startsWith_eq_false (by decide) hline, hx.startsWith_eq_false (by decide) hblock⟩, ?_⟩
  rwa [List.head?_append_of_ne_nil _ hw] at hhead ⊢

/-- The word behind an apostrophe stays the same, and nothing comes up behind it that makes no token of them. -/
theorem wordLength?_exchange {n : Nat} (hword : wordLength? (w ++ z) = some n)
    (hends : spoilsQuote ((w ++ z).drop n).head? (w ++ z) = false) :
    wordLength? (w ++ z') = some n ∧ spoilsQuote ((w ++ z').drop n).head? (w ++ z') = false := by
  have hquote : endsToken '\x27' = false := by decide
  have hhash : endsToken '#' = false := by decide
  have hraw : "r#".toList.all (fun c => !endsToken c) = true := by decide
  rw [wordLength?_append_stops hx.stops] at hword
  rw [wordLength?_append_stops hx.stops']
  have hle := le_length_of_wordLength? hword
  simp only [spoilsQuote, List.drop_append_of_le_length hle, head?_eq_append_stops hx.stops _ hquote,
    head?_eq_append_stops hx.stops' _ hquote, head?_eq_append_stops hx.stops _ hhash,
    head?_eq_append_stops hx.stops' _ hhash, startsWith_append_stops hx.stops _ hraw,
    startsWith_append_stops hx.stops' _ hraw] at hends ⊢
  exact ⟨hword, hends⟩

/-- A token that ends before a character at which tokens end is the same when something else follows it. -/
theorem Leaf.exchange {n : Nat} {token : Span → TokenTree} (h : Leaf (w ++ z) n token) (hn : n ≤ w.length)
    (hw : w ≠ []) (hjoint : n = 1 → startsPunct (w.tail ++ z) = startsPunct (w.tail ++ z')) :
    Leaf (w ++ z') n token := by
  obtain ⟨c, w, rfl⟩ := List.exists_cons_of_ne_nil hw
  -- only a slash could lose what makes it no punctuation, and no other token starts with one
  have hother (hpunct : startsPunct (c :: w ++ z) = false) (hc : c ≠ '/') : startsPunct (c :: w ++ z') = false := by
    rw [List.cons_append, startsPunct_of_ne _ hc] at hpunct ⊢
    exact hpunct
  have htake : (c :: w ++ z).take n = (c :: w ++ z').take n := by
    rw [List.take_append_of_le_length hn, List.take_append_of_le_length hn]
  cases h with
  | literal h =>
    rw [htake]
    exact .literal (literalLength?_eq_some hx h hn)
  | quote hliteral hpunct hquote hword hends =>
    obtain ⟨hword', hends'⟩ := wordLength?_exchange hx hword hends
    exact .quote (literalLength?_eq_none hx hliteral) (startsPunct_of_startsPunct hx hw hpunct) hquote hword' hends'
  | sign hliteral hpunct hhead hquote =>
    have hnext : startsPunct (w ++ z) = startsPunct (w ++ z') := hjoint rfl
    show Leaf (c :: w ++ z') 1 (.punct _ (startsPunct (w ++ z)))
    rw [hnext]
    exact .sign (literalLength?_eq_none hx hliteral) (startsPunct_of_startsPunct hx hw hpunct) hhead hquote
  | mark hliteral hpunct hmark =>
    have hmark' : startsWith (c :: w ++ z') errorMark = true := by
      rw [startsWith_append hn] at hmark ⊢
      exact hmark
    have hc : c ≠ '/' := by
      rintro rfl
      rw [List.cons_append, startsWith_of_ne (a := '(') _ (by decide) (by decide)] at hmark
      cases hmark
    exact .mark (literalLength?_eq_none hx hliteral) (hother hpunct hc) hmark'
  | word hliteral hpunct hmark hmarks hword =>
    rw [literalMarks_append_stops hx.stops, ← literalMarks_append_stops hx.stops'] at hmarks
    rw [wordLength?_append_stops hx.stops] at hword
    have hc : c ≠ '/' := by
      rintro rfl
      rw [wordLength?_slash] at hword
      cases hword
    rw [htake]
    exact .word (literalLength?_eq_none hx hliteral) (hother hpunct hc)
      (hx.startsWith_eq_false (w := c :: w) (by decide) hmark) hmarks
      ((wordLength?_append_stops hx.stops' _).trans hword)

end Cut

/-! ## Blanks and comments before a token ends -/

theorem triviaLength?_of_ne {c : Char} (cs : List Char) (hc : c ≠ '/') :
    triviaLength? (c :: cs) = if isTokenBlank c then some 1 else none := by
  have hno {s : String} (hs : s.toList.head? = some '/') : startsWith (c :: cs) s = false :=
    startsWith_of_ne cs hs hc
  unfold triviaLength?
  rw [hno (s := "//") (by decide), hno (s := "/**/") (by decide), hno (s := "/*") (by decide)]
  rfl

/-- A text that starts with the longer of two marks starts with the shorter. -/
theorem startsWith_of_longer {s t : String} {cs : List Char} (hst : s.toList <+: t.toList)
    (h : startsWith cs t = true) : startsWith cs s = true := by
  unfold startsWith at *
  rw [List.isPrefixOf_iff_prefix] at *
  exact hst.trans h

theorem triviaLength?_of_startsPunct {cs : List Char} (h : startsPunct cs = true) :
    triviaLength? cs = none := by
  unfold startsPunct at h
  simp only [Bool.and_eq_true, Bool.not_eq_true'] at h
  obtain ⟨⟨hline, hblock⟩, hhead⟩ := h
  have hempty : startsWith cs "/**/" = false := by
    refine Bool.eq_false_iff.2 fun h => ?_
    rw [startsWith_of_longer (s := "/*") (by decide) h] at hblock
    cases hblock
  have hblank : cs.head?.any isTokenBlank = false := by
    cases cs with
    | nil => rfl
    | cons c cs =>
      have hall : punctuation.all (fun c => !isTokenBlank c) = true := by decide
      simpa using List.all_eq_true.1 hall c (List.contains_iff_mem.1 hhead)
  unfold triviaLength?
  rw [hline, hblock, hempty, hblank]
  rfl

/-- A line ends before its line feed, with or without a carriage return before that. -/
theorem lineLengthWithReturn_eq (cs : List Char) :
    lineLengthWithReturn cs = (cs.takeWhile (· ≠ '\n')).length := by
  unfold lineLengthWithReturn
  dsimp only
  fun_induction lineLength cs with
  | case1 => rfl
  | case2 => rfl
  | case3 cs hpair => rfl
  | case4 c cs hpair hfeed ih =>
    rw [List.drop_succ_cons, List.takeWhile_cons_of_pos (by simpa using hfeed), List.length_cons, ← ih]
    split <;> rfl

section Cut

variable {w z z' : List Char}

/-- A line that ends within the text ends there whatever follows. -/
theorem takeWhile_append_eq {n : Nat} (hx : Exchange z z')
    (h : ((w ++ z).takeWhile (· ≠ '\n')).length = n) (hn : n ≤ w.length) :
    ((w ++ z').takeWhile (· ≠ '\n')).length = n := by
  rw [List.takeWhile_append] at h ⊢
  split at h
  · rename_i hall
    rw [if_pos hall]
    rw [List.length_append] at h ⊢
    have hz : z.takeWhile (· ≠ '\n') = [] := List.length_eq_zero_iff.1 (by omega)
    rw [hx.line hz]
    rw [hz] at h
    exact h
  · rename_i hall
    rw [if_neg hall]
    exact h

theorem length_le_of_startsWith {s : String} {p : Char → Bool} {cs : List Char}
    (hs : s.toList.all p = true) (h : startsWith cs s = true) :
    s.toList.length ≤ (cs.takeWhile p).length := by
  obtain ⟨behind, rfl⟩ := List.isPrefixOf_iff_prefix.1 h
  rw [List.takeWhile_append_of_pos (List.all_eq_true.1 hs), List.length_append]
  exact Nat.le_add_right ..

theorem looksNoFurther_blockCommentLength? : LooksNoFurther blockCommentLength? := by
  intro cs n h ds hds
  unfold blockCommentLength? at h
  split at h
  · rename_i hstart
    obtain ⟨m, hm, rfl⟩ := Option.map_eq_some_iff.1 h
    obtain ⟨rest, rfl⟩ := List.isPrefixOf_iff_prefix.1 hstart
    obtain ⟨es, rfl, hes⟩ := eq_cons_of_cons_prefix hds
    obtain ⟨fs, rfl, hfs⟩ := eq_cons_of_cons_prefix hes
    have hagain : nestedCommentLength? 1 fs = some m := looksNoFurther_nestedCommentLength? 1 hm hfs
    show (nestedCommentLength? 1 fs).map (· + 2) = some (m + 2)
    rw [hagain]
    rfl
  · cases h

theorem four_le_of_blockCommentLength? {cs : List Char} {n : Nat} (h : blockCommentLength? cs = some n) :
    4 ≤ n := by
  unfold blockCommentLength? at h
  split at h
  · obtain ⟨m, hm, rfl⟩ := Option.map_eq_some_iff.1 h
    have := lt_of_nestedCommentLength? hm
    omega
  · cases h

/-- Where the text is long enough for all marks of comments, what is behind it does not matter to them. -/
theorem triviaLength?_of_four_le {n : Nat} (hx : Exchange z z') (h : triviaLength? (w ++ z) = some n)
    (hfour : 4 ≤ w.length) (hn : n ≤ w.length) (hw : ¬(w ++ z).head?.any isTokenBlank = true) :
    triviaLength? (w ++ z') = some n := by
  have htest {s : String} (hs : s.toList.length ≤ 4) : startsWith (w ++ z') s = startsWith (w ++ z) s := by
    rw [startsWith_append (Nat.le_trans hs hfour), startsWith_append (Nat.le_trans hs hfour)]
  unfold triviaLength? at h ⊢
  rw [htest (s := "//") (by decide), htest (s := "///") (by decide), htest (s := "////") (by decide),
    htest (s := "//!") (by decide), htest (s := "/**/") (by decide), htest (s := "/*") (by decide),
    htest (s := "/**") (by decide), htest (s := "/***") (by decide), htest (s := "/*!") (by decide)]
  split at h
  · rename_i hline
    rw [if_pos hline]
    rw [Option.some.injEq, lineLengthWithReturn_eq] at h ⊢
    exact takeWhile_append_eq hx h hn
  rename_i hline
  rw [if_neg hline]
  split at h
  · rename_i hempty
    rw [if_pos hempty]
    exact h
  rename_i hempty
  rw [if_neg hempty]
  split at h
  · rename_i hblock
    rw [if_pos hblock]
    refine looksNoFurther_blockCommentLength? h ?_
    rw [List.take_append_of_le_length hn]
    exact (List.take_prefix _ _).trans (List.prefix_append _ _)
  · cases h

/-- Only a comment to the end of a line is so short that its marks may reach behind the text. -/
theorem triviaLength?_of_lt_four {n : Nat} (hx : Exchange z z') (h : triviaLength? (w ++ z) = some n)
    (hfour : w.length < 4) (hn : n ≤ w.length) (hw : ¬(w ++ z).head?.any isTokenBlank = true) :
    triviaLength? (w ++ z') = some n := by
  unfold triviaLength? at h ⊢
  split at h
  · rename_i hline
    simp only [Bool.and_eq_true, Bool.or_eq_true, Bool.not_eq_true'] at hline
    obtain ⟨⟨hslashes, hplain⟩, hinner⟩ := hline
    rw [Option.some.injEq, lineLengthWithReturn_eq] at h
    have htwo := length_le_of_startsWith (p := (· ≠ '\n')) (by decide) hslashes
    rw [h] at htwo
    have hplain : startsWith (w ++ z) "///" = false := by
      refine hplain.resolve_right fun hslashes => ?_
      have hlong := length_le_of_startsWith (p := (· ≠ '\n')) (by decide) hslashes
      rw [h] at hlong
      exact Nat.not_le.2 hfour (Nat.le_trans hlong hn)
    have hslashes' : startsWith (w ++ z') "//" = true := by
      rw [startsWith_append (Nat.le_trans htwo hn)] at hslashes ⊢
      exact hslashes
    rw [hslashes', hx.startsWith_eq_false (by decide) hplain, hx.startsWith_eq_false (by decide) hinner]
    rw [if_pos (by simp), Option.some.injEq, lineLengthWithReturn_eq]
    exact takeWhile_append_eq hx h hn
  · split at h
    · cases h
      omega
    · split at h
      · have := four_le_of_blockCommentLength? h
        omega
      · cases h

/-- A blank or comment that ends within the text is the same whatever follows. -/
theorem triviaLength?_eq_some {n : Nat} (hx : Exchange z z') (h : triviaLength? (w ++ z) = some n)
    (hw : w ≠ []) (hn : n ≤ w.length) : triviaLength? (w ++ z') = some n := by
  obtain ⟨c, w, rfl⟩ := List.exists_cons_of_ne_nil hw
  by_cases hc : c = '/'
  · have hslash : ¬(c :: w ++ z).head?.any isTokenBlank = true := by
      subst hc
      have : isTokenBlank '/' = false := by decide
      simp [this]
    rcases Nat.lt_or_ge (c :: w).length 4 with hfour | hfour
    · exact triviaLength?_of_lt_four hx h hfour hn hslash
    · exact triviaLength?_of_four_le hx h hfour hn hslash
  · rw [List.cons_append, triviaLength?_of_ne _ hc] at h ⊢
    exact h

theorem startsWith_of_take {s : String} {cs ds : List Char} {n : Nat} (h : cs.take n = ds.take n)
    (hs : s.toList.length ≤ n) : startsWith cs s = startsWith ds s := by
  have htake (cs : List Char) : startsWith cs s = startsWith (cs.take n) s := by
    unfold startsWith
    rw [Bool.eq_iff_iff, List.isPrefixOf_iff_prefix, List.isPrefixOf_iff_prefix]
    refine ⟨fun h => ?_, fun h => h.trans (List.take_prefix n cs)⟩
    have hle := List.prefix_take_iff.2 ⟨h, hs⟩
    exact hle
  rw [htake cs, h, ← htake]

/-- A line that ends within the text ends there whatever follows.  A carriage return at its end belongs
to it unless a line feed follows. -/
theorem lineLength_append_eq (h : lineLengthWithReturn (w ++ z) ≤ w.length)
    (hhead : lineLengthWithReturn (w ++ z) < w.length ∨ z.head? = z'.head?) :
    lineLength (w ++ z') = lineLength (w ++ z) := by
  rw [lineLengthWithReturn_eq] at h hhead
  induction w with
  | nil =>
    have hhead := hhead.resolve_left (Nat.not_lt_zero _)
    cases z with
    | nil => rw [List.head?_eq_none_iff.1 hhead.symm]
    | cons c z =>
      cases z' with
      | nil => cases hhead
      | cons c' z' =>
        cases hhead
        by_cases hc : c = '\n'
        · subst hc
          rfl
        · simp [hc] at h
  | cons c w ih =>
    by_cases hc : c = '\n'
    · subst hc
      rfl
    have hrest : ((c :: w ++ z).takeWhile (· ≠ '\n')).length = ((w ++ z).takeWhile (· ≠ '\n')).length + 1 := by
      rw [List.cons_append, List.takeWhile_cons_of_pos (by simpa using hc), List.length_cons]
    rw [hrest, List.length_cons] at h hhead
    have hagain := ih (by omega) (hhead.imp_left (by omega))
    -- a line feed behind this character stands in both texts or in none
    have hnext : (w ++ z).head? = (w ++ z').head? := by
      cases w with
      | nil => exact hhead.resolve_left (by simp)
      | cons d w => rfl
    have hstep (cs : List Char) :
        lineLength (c :: cs) = if c = '\r' ∧ cs.head? = some '\n' then 0 else lineLength cs + 1 := by
      by_cases hpair : c = '\r' ∧ cs.head? = some '\n'
      · rw [if_pos hpair]
        obtain ⟨rfl, hfeed⟩ := hpair
        cases cs with
        | nil => cases hfeed
        | cons d cs =>
          cases hfeed
          rfl
      · rw [if_neg hpair, lineLength, if_neg hc]
        rintro cs' rfl rfl
        exact hpair ⟨rfl, rfl⟩
    rw [List.cons_append, List.cons_append, hstep, hstep, hnext, hagain]

theorem lineLengthWithReturn_append_eq (hx : Exchange z z')
    (h : lineLengthWithReturn (w ++ z) ≤ w.length) :
    lineLengthWithReturn (w ++ z') = lineLengthWithReturn (w ++ z) := by
  rw [lineLengthWithReturn_eq (_ ++ z')]
  exact takeWhile_append_eq hx (lineLengthWithReturn_eq _).symm h

theorem take_lineLength_append_eq (h : lineLengthWithReturn (w ++ z) ≤ w.length)
    (hhead : lineLengthWithReturn (w ++ z) < w.length ∨ z.head? = z'.head?) :
    (w ++ z').take (lineLength (w ++ z')) = (w ++ z).take (lineLength (w ++ z)) := by
  have hle : lineLength (w ++ z) ≤ w.length := by
    refine Nat.le_trans ?_ h
    unfold lineLengthWithReturn
    dsimp only
    split <;> omega
  rw [lineLength_append_eq h hhead, List.take_append_of_le_length hle, List.take_append_of_le_length hle]

theorem three_le_of_docComment? {cs : List Char} {d : DocComment} (h : docComment? cs = some d) :
    3 ≤ d.length := by
  unfold docComment? at h
  dsimp only at h
  obtain ⟨hfound, -⟩ := Option.filter_eq_some_iff.1 h
  have hblock {inner : Bool}
      (h : ((blockCommentLength? cs).map fun n => DocComment.mk n ((cs.drop 3).take (n - 5)) inner) = some d) :
      3 ≤ d.length := by
    obtain ⟨n, hn, rfl⟩ := Option.map_eq_some_iff.1 h
    exact Nat.le_of_succ_le (four_le_of_blockCommentLength? hn)
  split at hfound
  · cases hfound
    exact Nat.le_add_right 3 _
  split at hfound
  · exact hblock hfound
  split at hfound
  · split at hfound
    · cases hfound
    · cases hfound
      exact Nat.le_add_right 3 _
  split at hfound
  · exact hblock hfound
  · cases hfound

theorem take_four_append (hn : 3 ≤ w.length) (hhead : 3 < w.length ∨ z.head? = z'.head?) :
    (w ++ z').take 4 = (w ++ z).take 4 := by
  by_cases hfour : 3 < w.length
  · rw [List.take_append_of_le_length hfour, List.take_append_of_le_length hfour]
  · have hhead := hhead.resolve_left hfour
    have hone (z : List Char) : z.take (4 - w.length) = z.head?.toList := by
      have : 4 - w.length = 1 := by omega
      rw [this]
      cases z <;> rfl
    rw [List.take_append, List.take_append, hone, hone, hhead]

/-- A comment that documents something is the same when something else follows it. -/
theorem docComment?_eq_some {d : DocComment} (hx : Exchange z z') (h : docComment? (w ++ z) = some d)
    (hn : d.length ≤ w.length) (hhead : d.length < w.length ∨ z.head? = z'.head?) :
    docComment? (w ++ z') = some d := by
  have hthree := three_le_of_docComment? h
  have hw : 3 ≤ w.length := Nat.le_trans hthree hn
  have htest {s : String} (hs : s.toList.length ≤ 4) : startsWith (w ++ z') s = startsWith (w ++ z) s :=
    startsWith_of_take (take_four_append hw (hhead.imp_left (Nat.lt_of_le_of_lt hthree))) hs
  have hdrop (z : List Char) : (w ++ z).drop 3 = w.drop 3 ++ z := List.drop_append_of_le_length hw
  have hlength : (w.drop 3).length = w.length - 3 := List.length_drop
  have hline (inner : Bool) {d : DocComment}
      (h : some (DocComment.mk (3 + lineLengthWithReturn (w.drop 3 ++ z))
        ((w.drop 3 ++ z).take (lineLength (w.drop 3 ++ z))) inner) = some d)
      (hn : d.length ≤ w.length) (hhead : d.length < w.length ∨ z.head? = z'.head?) :
      some (DocComment.mk (3 + lineLengthWithReturn (w.drop 3 ++ z'))
        ((w.drop 3 ++ z').take (lineLength (w.drop 3 ++ z'))) inner) = some d := by
    cases h
    simp only at hn hhead
    have hle : lineLengthWithReturn (w.drop 3 ++ z) ≤ (w.drop 3).length := by omega
    rw [lineLengthWithReturn_append_eq hx hle, take_lineLength_append_eq hle (hhead.imp_left (by omega))]
  have hblock (inner : Bool) {d : DocComment}
      (h : ((blockCommentLength? (w ++ z)).map fun n =>
        DocComment.mk n ((w.drop 3 ++ z).take (n - 5)) inner) = some d) (hn : d.length ≤ w.length) :
      ((blockCommentLength? (w ++ z')).map fun n =>
        DocComment.mk n ((w.drop 3 ++ z').take (n - 5)) inner) = some d := by
    obtain ⟨n, hlen, rfl⟩ := Option.map_eq_some_iff.1 h
    simp only at hn
    have hfront : (w ++ z).take n <+: w ++ z' := by
      rw [List.take_append_of_le_length hn]
      exact (List.take_prefix n w).trans (List.prefix_append w z')
    have hbound : n - 5 ≤ (w.drop 3).length := by omega
    rw [looksNoFurther_blockCommentLength? hlen hfront, Option.map_some,
      List.take_append_of_le_length hbound, List.take_append_of_le_length hbound]
  unfold docComment? at h ⊢
  dsimp only at h ⊢
  rw [hdrop] at h ⊢
  rw [htest (s := "//!") (by decide), htest (s := "/*!") (by decide), htest (s := "///") (by decide),
    htest (s := "////") (by decide), htest (s := "/**") (by decide), htest (s := "/***") (by decide)]
  obtain ⟨hfound, hpaired⟩ := Option.filter_eq_some_iff.1 h
  refine Option.filter_eq_some_iff.2 ⟨?_, hpaired⟩
  clear h
  split at hfound
  · rename_i h
    rw [if_pos h]
    exact hline true hfound hn hhead
  rename_i h1
  rw [if_neg h1]
  split at hfound
  · rename_i h
    rw [if_pos h]
    exact hblock true hfound hn
  rename_i h2
  rw [if_neg h2]
  split at hfound
  · rename_i h3
    rw [if_pos h3]
    split at hfound
    · cases hfound
    · rename_i h4
      rw [if_neg h4]
      exact hline false hfound hn hhead
  rename_i h3
  rw [if_neg h3]
  split at hfound
  · rename_i h5
    rw [if_pos h5]
    exact hblock false hfound hn
  · cases hfound

end Cut

end Notebook.Syntax

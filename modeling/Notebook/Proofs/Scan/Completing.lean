import Notebook.Prompt
import Notebook.Report
import Notebook.Proofs.Scan.Tiling

/-!
# Unfinished texts can be completed

An unfinished text becomes complete when what is open at its end is closed: first the string, the character
or the comment, then the brackets, innermost first; a semicolon then ends the unit (`AllEnd.exists_complete`).

One kind of text is beyond that.  An apostrophe that starts neither a character nor a lifetime counts as a
character that lacks its end, and once two more characters follow it nothing can end it
(`incomplete_append_of_isBroken`).
-/

namespace Notebook.Scan
open Notebook.Text

/-- An apostrophe that starts neither a character nor a lifetime is the first lexeme that lacks its end, and
two more characters follow it. -/
def IsBroken (cs : List Char) : Prop :=
  ∃ first others, lexemes cs = first ++ ⟨.character, ['\x27'], false⟩ :: others ∧
    (∀ l ∈ first, l.terminated = true) ∧ 2 ≤ (others.flatMap (·.text)).length

/-- Characters that neither end a line nor make a command of it. -/
def IsPlain (cs : List Char) : Prop := ∀ c ∈ cs, c ≠ '\n' ∧ c ≠ ':'

theorem isPlain_nil : IsPlain [] := List.forall_mem_nil _

/-! ## Lexemes that get their ends -/

/-- What closes block comments. -/
def commentEnds : Nat → List Char
  | 0 => []
  | depth + 1 => '*' :: '/' :: commentEnds depth

theorem blockCommentLength_commentEnds (depth : Nat) :
    blockCommentLength (depth + 1) (commentEnds (depth + 1)) = ((commentEnds (depth + 1)).length, true) := by
  induction depth with
  | zero => rfl
  | succ depth ih =>
    rw [commentEnds, blockCommentLength, if_neg (by omega), Nat.add_sub_cancel, ih]
    rfl

theorem isPlain_commentEnds (depth : Nat) : IsPlain (commentEnds depth) := by
  induction depth with
  | zero => exact isPlain_nil
  | succ depth ih => exact List.forall_mem_cons.2 ⟨by decide, List.forall_mem_cons.2 ⟨by decide, ih⟩⟩

/-- A blank comes first, so that the ends are read as such whatever stands before them. -/
theorem exists_blockCommentLength_append {depth : Nat} {cs : List Char} (hdepth : 1 ≤ depth)
    (h : (blockCommentLength depth cs).2 = false) :
    ∃ ends, IsPlain ends ∧
      blockCommentLength depth (cs ++ ' ' :: ends) = ((cs ++ ' ' :: ends).length, true) := by
  fun_induction blockCommentLength depth cs with
  | case1 depth =>
    obtain ⟨depth, rfl⟩ := Nat.exists_eq_add_of_le' hdepth
    refine ⟨commentEnds (depth + 1), isPlain_commentEnds _, ?_⟩
    have hends : blockCommentLength (depth + 1) (' ' :: commentEnds (depth + 1)) =
        ((blockCommentLength (depth + 1) (commentEnds (depth + 1))).1 + 1,
          (blockCommentLength (depth + 1) (commentEnds (depth + 1))).2) := by
      rw [blockCommentLength] <;> simp
    rw [List.nil_append, hends, blockCommentLength_commentEnds]
    rfl
  | case2 depth cs n closed heq ih =>
    obtain ⟨ends, hplain, hends⟩ := ih (by omega) (by rw [heq]; exact h)
    exact ⟨ends, hplain, by simp [blockCommentLength, hends]⟩
  | case3 depth cs hle => cases h
  | case4 depth cs hle n closed heq ih =>
    obtain ⟨ends, hplain, hends⟩ := ih (by omega) (by rw [heq]; exact h)
    exact ⟨ends, hplain, by simp [blockCommentLength, hle, hends]⟩
  | case5 depth c cs hopen hclose n closed heq ih =>
    obtain ⟨ends, hplain, hends⟩ := ih hdepth (by rw [heq]; exact h)
    refine ⟨ends, hplain, ?_⟩
    rw [List.cons_append, blockCommentLength, hends]
    · rfl
    · intro rest hc hrest
      cases cs with
      | nil => cases hrest
      | cons d cs => exact hopen cs hc (by rw [(List.cons.inj hrest).1])
    · intro rest hc hrest
      cases cs with
      | nil => cases hrest
      | cons d cs => exact hclose cs hc (by rw [(List.cons.inj hrest).1])

theorem rawStringLength_append_end {hashes : Nat} {cs : List Char} (h : (rawStringLength hashes cs).2 = false) :
    rawStringLength hashes (cs ++ '"' :: List.replicate hashes '#') =
      ((cs ++ '"' :: List.replicate hashes '#').length, true) := by
  fun_induction rawStringLength hashes cs with
  | case1 => simp [rawStringLength]
  | case2 c cs hend => cases h
  | case3 c cs hend n closed heq ih =>
    rw [List.cons_append, rawStringLength, if_neg, ih (by rw [heq]; exact h)]
    · rfl
    · -- the quote that is appended stands among the hashes if there have been too few of them
      intro hearly
      simp only [Bool.and_eq_true, decide_eq_true_eq, List.all_eq_true] at hearly hend
      obtain ⟨⟨hquote, hall⟩, -⟩ := hearly
      rcases Nat.lt_or_ge cs.length hashes with hlt | hle
      · have hmem : '"' ∈ (cs ++ '"' :: List.replicate hashes '#').take hashes := by
          rw [List.take_append, List.take_of_length_le hlt.le]
          obtain ⟨k, hk⟩ := Nat.exists_eq_add_of_lt hlt
          rw [hk, Nat.add_assoc, Nat.add_sub_cancel_left, List.take_succ_cons]
          simp
        exact absurd (hall _ hmem) (by decide)
      · rw [List.take_append_of_le_length hle] at hall
        exact hend ⟨⟨hquote, hall⟩, hle⟩

/-- A letter comes first, so that a backslash at the end does not escape the quote. -/
theorem stringLength_append_end {cs : List Char} (h : (stringLength cs).2 = false) :
    stringLength (cs ++ ['n', '"']) = ((cs ++ ['n', '"']).length, true) := by
  fun_induction stringLength cs with
  | case1 => rfl
  | case2 c cs n closed heq ih => simp [stringLength, ih (by rw [heq]; exact h)]
  | case3 cs => cases h
  | case4 c cs hescape hquote n closed heq ih =>
    cases cs with
    | nil =>
      by_cases hc : c = '\\'
      · rw [hc]
        rfl
      · rw [List.cons_append, stringLength, if_neg hquote]
        · rfl
        · exact fun _ _ h => absurd h hc
    | cons d cs =>
      rw [List.cons_append, stringLength, if_neg hquote, ih (by rw [heq]; exact h)]
      · rfl
      · intro e rest hc hrest
        exact hescape d cs hc rfl

theorem apostropheLength_append_end {cs : List Char} (h : (apostropheLength cs).2 = false) :
    apostropheLength (cs ++ ['\x27']) = ((cs ++ ['\x27']).length, true) := by
  fun_induction apostropheLength cs with
  | case1 => rfl
  | case2 cs => cases h
  | case3 c cs hquote n closed heq ih => simp [apostropheLength, hquote, ih (by rw [heq]; exact h)]

/-- The lexeme has its end where the text ends, and ends there whatever comes next. -/
structure Extent.EndsAt (e : Extent) (rest : List Char) : Prop where
  terminated : e.terminated = true
  more : e.more = rest.length
  kind : e.kind ≠ .lineComment

theorem exists_apostropheExtent_append {rest : List Char} (h : (apostropheExtent rest).terminated = false)
    (halone : apostropheExtent rest = ⟨.character, 0, false⟩ → rest.length ≤ 1) :
    ∃ ends, IsPlain ends ∧ (apostropheExtent (rest ++ ends)).EndsAt (rest ++ ends) := by
  fun_cases apostropheExtent rest with
  | case1 cs n closed heq =>
    have hopen : (apostropheLength cs).2 = false := by simpa [apostropheExtent, heq] using h
    refine ⟨['\x27'], by simp [IsPlain], ?_⟩
    rw [List.cons_append, apostropheExtent, apostropheLength_append_end hopen]
    exact ⟨rfl, rfl, by simp⟩
  | case2 c cs hescape =>
    rw [apostropheExtent] at h
    · cases h
    · exact hescape
  | case3 c cs hescape hclosed hword =>
    rw [apostropheExtent, if_pos hword] at h
    · cases h
    · exact hescape
    · exact hclosed
  | case4 c cs hescape hclosed hword =>
    have hextent : apostropheExtent (c :: cs) = ⟨.character, 0, false⟩ := by
      rw [apostropheExtent, if_neg hword]
      · exact hescape
      · exact hclosed
    obtain rfl : cs = [] := List.length_eq_zero_iff.1 (Nat.le_zero.1 (Nat.le_of_succ_le_succ (halone hextent)))
    refine ⟨['\x27'], by simp [IsPlain], ?_⟩
    rw [List.singleton_append, apostropheExtent]
    · exact ⟨rfl, rfl, by simp⟩
    · exact hescape
  | case5 =>
    refine ⟨['a', '\x27'], by simp [IsPlain], ?_⟩
    rw [List.nil_append, apostropheExtent]
    · exact ⟨rfl, rfl, by simp⟩
    · decide

theorem blockCommentLength_of_open {depth : Nat} {cs : List Char} (h : (blockCommentLength depth cs).2 = false) :
    (blockCommentLength depth cs).1 = cs.length := by
  fun_induction blockCommentLength depth cs with
  | case1 => rfl
  | case2 depth cs n closed heq ih =>
    rw [heq] at ih
    simp [show n = cs.length from ih h]
  | case3 => cases h
  | case4 depth cs hle n closed heq ih =>
    rw [heq] at ih
    simp [show n = cs.length from ih h]
  | case5 depth c cs hopen hclose n closed heq ih =>
    rw [heq] at ih
    simp [show n = cs.length from ih h]

theorem rawStringLength_of_open {hashes : Nat} {cs : List Char} (h : (rawStringLength hashes cs).2 = false) :
    (rawStringLength hashes cs).1 = cs.length := by
  fun_induction rawStringLength hashes cs with
  | case1 => rfl
  | case2 => cases h
  | case3 c cs hend n closed heq ih =>
    rw [heq] at ih
    simp [show n = cs.length from ih h]

theorem stringLength_of_open {cs : List Char} (h : (stringLength cs).2 = false) :
    (stringLength cs).1 = cs.length := by
  fun_induction stringLength cs with
  | case1 => rfl
  | case2 c cs n closed heq ih =>
    rw [heq] at ih
    simp [show n = cs.length from ih h]
  | case3 => cases h
  | case4 c cs hescape hquote n closed heq ih =>
    rw [heq] at ih
    simp [show n = cs.length from ih h]

theorem apostropheLength_of_open {cs : List Char} (h : (apostropheLength cs).2 = false) :
    (apostropheLength cs).1 = cs.length := by
  fun_induction apostropheLength cs with
  | case1 => rfl
  | case2 => cases h
  | case3 c cs hquote n closed heq ih =>
    rw [heq] at ih
    simp [show n = cs.length from ih h]

theorem apostropheExtent_of_open {cs : List Char} (h : (apostropheExtent cs).terminated = false) :
    (apostropheExtent cs).more = cs.length ∨ apostropheExtent cs = ⟨.character, 0, false⟩ := by
  unfold apostropheExtent at h ⊢
  split at h
  · exact .inl (congrArg (· + 1) (apostropheLength_of_open h))
  · cases h
  · split at h
    · cases h
    · rename_i hword
      exact .inr (if_neg hword)
  · exact .inr rfl

/-- The lexemes that lack their ends: each is open with what starts it, and closed by an end of its own. -/
inductive Opens : Char → List Char → Prop
  | comment {cs : List Char} (h : (blockCommentLength 1 cs).2 = false) : Opens '/' ('*' :: cs)
  | raw {rest : List Char} (h : rawStringAhead rest = true)
      (hopen : (rawStringLength (countWhile (· = '#') rest) (rest.drop (countWhile (· = '#') rest + 1))).2 = false) :
      Opens 'r' rest
  | string {cs : List Char} (h : (stringLength cs).2 = false) : Opens '"' cs
  | bytes {cs : List Char} (h : (stringLength cs).2 = false) : Opens 'b' ('"' :: cs)
  | apostrophe {cs : List Char} (h : (apostropheExtent cs).terminated = false) : Opens '\x27' cs

theorem opens_of_extent {c : Char} {rest : List Char} (h : (extent c rest).terminated = false) : Opens c rest := by
  fun_cases extent c rest with
  | case1 hblank => simp only [extent, if_pos hblank, Bool.true_eq_false] at h
  | case2 hblank hline => simp only [extent, if_neg hblank, if_pos hline, Bool.true_eq_false] at h
  | case3 hblank hline hblock =>
    simp only [extent, if_neg hblank, if_neg hline, if_pos hblock] at h
    simp only [Bool.and_eq_true, decide_eq_true_eq, beq_iff_eq] at hblock
    obtain ⟨rfl, hnext⟩ := hblock
    obtain ⟨cs, rfl⟩ := List.head?_eq_some_iff.1 hnext
    exact .comment h
  | case4 hblank hline hblock hraw =>
    simp only [extent, if_neg hblank, if_neg hline, if_neg hblock, if_pos hraw] at h
    simp only [Bool.and_eq_true, decide_eq_true_eq] at hraw
    obtain ⟨rfl, hahead⟩ := hraw
    exact .raw hahead h
  | case5 hblank hline hblock hraw hquote =>
    simp only [extent, if_neg hblank, if_neg hline, if_neg hblock, if_neg hraw, if_pos hquote] at h
    obtain rfl := hquote
    exact .string h
  | case6 hblank hline hblock hraw hquote hbytes =>
    simp only [extent, if_neg hblank, if_neg hline, if_neg hblock, if_neg hraw, if_neg hquote, if_pos hbytes] at h
    simp only [Bool.and_eq_true, decide_eq_true_eq, beq_iff_eq] at hbytes
    obtain ⟨rfl, hnext⟩ := hbytes
    obtain ⟨cs, rfl⟩ := List.head?_eq_some_iff.1 hnext
    exact .bytes h
  | case7 hblank hline hblock hraw hquote hbytes hapostrophe =>
    simp only [extent, if_neg hblank, if_neg hline, if_neg hblock, if_neg hraw, if_neg hquote, if_neg hbytes,
      if_pos hapostrophe] at h
    obtain rfl := hapostrophe
    exact .apostrophe h
  | case8 hblank hline hblock hraw hquote hbytes hapostrophe hdigit =>
    simp only [extent, if_neg hblank, if_neg hline, if_neg hblock, if_neg hraw, if_neg hquote, if_neg hbytes,
      if_neg hapostrophe, if_pos hdigit, Bool.true_eq_false] at h
  | case9 hblank hline hblock hraw hquote hbytes hapostrophe hdigit hword =>
    simp only [extent, if_neg hblank, if_neg hline, if_neg hblock, if_neg hraw, if_neg hquote, if_neg hbytes,
      if_neg hapostrophe, if_neg hdigit, if_pos hword, Bool.true_eq_false] at h
  | case10 hblank hline hblock hraw hquote hbytes hapostrophe hdigit hword =>
    simp only [extent, if_neg hblank, if_neg hline, if_neg hblock, if_neg hraw, if_neg hquote, if_neg hbytes,
      if_neg hapostrophe, if_neg hdigit, if_neg hword, Bool.true_eq_false] at h

/-! ### What the opening characters open -/

theorem extent_comment (cs : List Char) :
    extent '/' ('*' :: cs) = ⟨.blockComment, (blockCommentLength 1 cs).1 + 1, (blockCommentLength 1 cs).2⟩ := by
  simp [extent, show isBlank '/' = false by decide]

theorem extent_raw {rest : List Char} (h : rawStringAhead rest = true) :
    extent 'r' rest = ⟨.string, countWhile (· = '#') rest + 1 +
      (rawStringLength (countWhile (· = '#') rest) (rest.drop (countWhile (· = '#') rest + 1))).1,
      (rawStringLength (countWhile (· = '#') rest) (rest.drop (countWhile (· = '#') rest + 1))).2⟩ := by
  simp [extent, h, show isBlank 'r' = false by decide]

theorem extent_string (cs : List Char) : extent '"' cs = ⟨.string, (stringLength cs).1, (stringLength cs).2⟩ := by
  simp [extent, show isBlank '"' = false by decide]

theorem extent_bytes (cs : List Char) :
    extent 'b' ('"' :: cs) = ⟨.string, (stringLength cs).1 + 1, (stringLength cs).2⟩ := by
  simp [extent, show isBlank 'b' = false by decide]

theorem extent_apostrophe (cs : List Char) : extent '\x27' cs = apostropheExtent cs := by
  simp [extent, show isBlank '\x27' = false by decide]

namespace Opens
variable {c : Char} {rest : List Char}

theorem ne (h : Opens c rest) : c ≠ '.' ∧ c ≠ '#' := by
  cases h <;> decide

/-- A lexeme that lacks its end goes on to the end of the text, unless it is an apostrophe alone. -/
theorem more_eq (h : Opens c rest) :
    (extent c rest).more = rest.length ∨ c = '\x27' ∧ extent c rest = ⟨.character, 0, false⟩ := by
  cases h with
  | comment h =>
    rw [extent_comment]
    exact .inl (congrArg (· + 1) (blockCommentLength_of_open h))
  | raw h hopen =>
    have hquote := countWhile_lt_of_rawStringAhead h
    rw [extent_raw h, rawStringLength_of_open hopen, List.length_drop]
    exact .inl (Nat.add_sub_of_le hquote)
  | string h =>
    rw [extent_string]
    exact .inl (stringLength_of_open h)
  | bytes h =>
    rw [extent_bytes]
    exact .inl (congrArg (· + 1) (stringLength_of_open h))
  | apostrophe h =>
    rw [extent_apostrophe]
    exact (apostropheExtent_of_open h).imp_right fun heq => ⟨rfl, heq⟩

theorem exists_append (h : Opens c rest) (halone : extent c rest = ⟨.character, 0, false⟩ → rest.length ≤ 1) :
    ∃ ends, IsPlain ends ∧ (extent c (rest ++ ends)).EndsAt (rest ++ ends) := by
  cases h with
  | comment h =>
    obtain ⟨ends, hplain, hends⟩ := exists_blockCommentLength_append (Nat.le_refl 1) h
    refine ⟨' ' :: ends, List.forall_mem_cons.2 ⟨by decide, hplain⟩, ?_⟩
    rw [List.cons_append, extent_comment, hends]
    exact ⟨rfl, rfl, by simp⟩
  | raw h hopen =>
    set hashes := countWhile (· = '#') rest with hhashes
    have hquote : hashes < rest.length := countWhile_lt_of_rawStringAhead h
    refine ⟨'"' :: List.replicate hashes '#', ?_, ?_⟩
    · refine List.forall_mem_cons.2 ⟨by decide, fun x hx => ?_⟩
      rw [List.eq_of_mem_replicate hx]
      decide
    · have hmem : ∃ y ∈ rest, y ≠ '#' := by
        refine ⟨'"', ?_, by decide⟩
        rw [rawStringAhead, beq_iff_eq] at h
        exact (List.dropWhile_suffix _).subset (List.mem_of_head? h)
      have hahead : rawStringAhead (rest ++ '"' :: List.replicate hashes '#') = true :=
        (rawStringAhead_append (.inl hmem)).trans h
      have hcount := countWhile_append (p := (· = '#')) hquote ('"' :: List.replicate hashes '#')
      rw [extent_raw hahead, hcount, ← hhashes, List.drop_append_of_le_length hquote,
        rawStringLength_append_end hopen]
      refine ⟨rfl, ?_, by simp⟩
      simp only [List.length_append, List.length_drop]
      omega
  | string h =>
    refine ⟨['n', '"'], by simp [IsPlain], ?_⟩
    rw [extent_string, stringLength_append_end h]
    exact ⟨rfl, rfl, by simp⟩
  | bytes h =>
    refine ⟨['n', '"'], by simp [IsPlain], ?_⟩
    rw [List.cons_append, extent_bytes, stringLength_append_end h]
    exact ⟨rfl, rfl, by simp⟩
  | apostrophe h =>
    simp only [extent_apostrophe] at halone ⊢
    exact exists_apostropheExtent_append h halone

end Opens

/-! ## Texts whose lexemes have their ends -/

/-- All lexemes have their ends, and the last one is no comment that goes on to the end of its line. -/
structure AllEnd (cs : List Char) : Prop where
  terminated : ∀ l ∈ lexemes cs, l.terminated = true
  last : ∀ l, (lexemes cs).getLast? = some l → l.kind ≠ .lineComment

theorem extent_lineComment (cs : List Char) :
    extent '/' ('/' :: cs) = ⟨.lineComment, countWhile (· ≠ '\n') ('/' :: cs), true⟩ := by
  simp [extent, show isBlank '/' = false by decide]

theorem of_kind_lineComment {c : Char} {rest : List Char} (h : (extent c rest).kind = .lineComment) :
    c = '/' ∧ ∃ cs, rest = '/' :: cs := by
  rcases of_isTrivia_extent (by rw [h]; rfl) with hblank | ⟨rfl, hnext | hnext⟩
  · rw [extent, if_pos hblank] at h
    cases h
  · exact ⟨rfl, List.head?_eq_some_iff.1 hnext⟩
  · obtain ⟨cs, rfl⟩ := List.head?_eq_some_iff.1 hnext
    rw [extent_comment] at h
    cases h

theorem lexemes_of_endsAt {c : Char} {rest : List Char} (h : (extent c rest).EndsAt rest) :
    lexemes (c :: rest) = [⟨(extent c rest).kind, c :: rest, true⟩] := by
  rw [lexemes, h.more, h.terminated, List.take_length, List.drop_length, lexemes]

/-- If a lexeme lacks its end there is a first one that does. -/
theorem exists_open {cs : List Char} (h : ¬∀ l ∈ lexemes cs, l.terminated = true) :
    ∃ first c rest, lexemes cs = first ++ lexemes (c :: rest) ∧ (∀ l ∈ first, l.terminated = true) ∧
      (extent c rest).terminated = false := by
  fun_induction lexemes cs with
  | case1 => exact absurd (List.forall_mem_nil _) h
  | case2 c rest e ih =>
    cases hend : e.terminated with
    | false =>
      refine ⟨[], c, rest, ?_, List.forall_mem_nil _, hend⟩
      rw [List.nil_append, lexemes, hend]
    | true =>
      rw [hend, List.forall_mem_cons] at h
      obtain ⟨first, d, others, heq, hfirst, hopen⟩ := ih fun hall => h ⟨rfl, hall⟩
      exact ⟨_ :: first, d, others, by rw [heq, List.cons_append], List.forall_mem_cons.2 ⟨rfl, hfirst⟩, hopen⟩

theorem lexemes_apostrophe {rest : List Char} (h : extent '\x27' rest = ⟨.character, 0, false⟩) :
    lexemes ('\x27' :: rest) = ⟨.character, ['\x27'], false⟩ :: lexemes rest := by
  rw [lexemes, h, List.take_zero, List.drop_zero]

section Endings
variable {cs rest : List Char} {first : List Lexeme} {c : Char}

theorem isBroken_of_apostrophe (hcs : lexemes cs = first ++ lexemes (c :: rest))
    (hfirst : ∀ l ∈ first, l.terminated = true) (hc : c = '\x27')
    (hextent : extent c rest = ⟨.character, 0, false⟩) (hlength : 2 ≤ rest.length) : IsBroken cs := by
  subst hc
  rw [lexemes_apostrophe hextent] at hcs
  exact ⟨first, lexemes rest, hcs, hfirst, by rwa [flatMap_text_lexemes]⟩

/-- What is open at the end of a text can be given its end. -/
theorem exists_allEnd_append (h : ¬IsBroken cs)
    (hcomment : ∀ l, (lexemes cs).getLast? = some l → l.kind ≠ .lineComment) :
    ∃ ends, IsPlain ends ∧ AllEnd (cs ++ ends) := by
  by_cases hall : ∀ l ∈ lexemes cs, l.terminated = true
  · exact ⟨[], isPlain_nil, by rw [List.append_nil]; exact ⟨hall, hcomment⟩⟩
  · obtain ⟨first, c, rest, hcs, hfirst, hopen⟩ := exists_open hall
    have hopens : Opens c rest := opens_of_extent hopen
    have halone (hextent : extent c rest = ⟨.character, 0, false⟩) : rest.length ≤ 1 := by
      rcases hopens.more_eq with hmore | ⟨hc, -⟩
      · rw [hextent] at hmore
        exact hmore ▸ Nat.zero_le 1
      · by_contra hlength
        exact h (isBroken_of_apostrophe hcs hfirst hc hextent (by omega))
    obtain ⟨ends, hplain, hends⟩ := hopens.exists_append halone
    have hc : c ∈ (lexemes (c :: rest)).flatMap (·.text) := by
      rw [flatMap_text_lexemes]
      exact List.mem_cons_self
    have hlexemes := lexemes_append_of_mem hcs hfirst hc hopens.ne.1 hopens.ne.2 ends
    rw [flatMap_text_lexemes, List.cons_append, lexemes_of_endsAt hends] at hlexemes
    refine ⟨ends, hplain, fun l hl => ?_, fun l hl => ?_⟩
    · rw [hlexemes, List.mem_append, List.mem_singleton] at hl
      rcases hl with hl | rfl
      · exact hfirst l hl
      · rfl
    · rw [hlexemes, List.getLast?_concat, Option.some.injEq] at hl
      rw [← hl]
      exact hends.kind

/-- A comment that ends a text is the last of its lexemes that have ends. -/
theorem terminated_of_lineComment (h : ¬IsBroken cs) {l : Lexeme} (hlast : (lexemes cs).getLast? = some l)
    (hl : l.kind = .lineComment) : ∀ l ∈ lexemes cs, l.terminated = true := by
  by_contra hall
  obtain ⟨first, c, rest, hcs, hfirst, hopen⟩ := exists_open hall
  rw [hcs, lexemes, List.getLast?_append_cons] at hlast
  rcases (opens_of_extent hopen).more_eq with hmore | ⟨hc, hextent⟩
  · -- what lacks its end would be the comment
    rw [hmore, List.drop_length, lexemes, List.getLast?_singleton, Option.some.injEq] at hlast
    subst hlast
    obtain ⟨rfl, cs, rfl⟩ := of_kind_lineComment hl
    rw [extent_lineComment] at hopen
    cases hopen
  · -- one character is too little for a comment
    rw [hextent, List.drop_zero] at hlast
    rcases rest with _ | ⟨d, _ | ⟨d', rest⟩⟩
    · rw [lexemes, List.getLast?_singleton, Option.some.injEq] at hlast
      rw [← hlast] at hl
      cases hl
    · rw [lexemes, List.drop_nil, lexemes, List.getLast?_cons_cons, List.getLast?_singleton,
        Option.some.injEq] at hlast
      rw [← hlast] at hl
      obtain ⟨-, cs, hcs⟩ := of_kind_lineComment hl
      cases hcs
    · exact h (isBroken_of_apostrophe hcs hfirst hc hextent (Nat.le_add_left _ _))

/-- The end of its line ends a comment. -/
theorem allEnd_append_newline (h : ¬IsBroken cs) {l : Lexeme} (hlast : (lexemes cs).getLast? = some l)
    (hl : l.kind = .lineComment) : AllEnd (cs ++ ['\n']) := by
  have hall := terminated_of_lineComment h hlast hl
  obtain ⟨first, hcs⟩ := List.getLast?_eq_some_iff.1 hlast
  have halone : lexemes l.text = [l] := by simpa using lexemes_of_append hcs
  cases htext : l.text with
  | nil => exact absurd htext (text_ne_nil_of_mem (hcs ▸ by simp : l ∈ lexemes cs))
  | cons c rest =>
    rw [htext, lexemes, List.cons.injEq] at halone
    obtain ⟨hhead, hrest⟩ := halone
    rw [← hhead] at hl
    obtain ⟨rfl, ds, rfl⟩ := of_kind_lineComment hl
    -- nothing of the text is left behind the comment
    have hnil : ('/' :: ds).drop (countWhile (· ≠ '\n') ('/' :: ds)) = [] := by
      rw [extent_lineComment] at hrest
      rw [← flatMap_text_lexemes (List.drop _ _), hrest]
      rfl
    have hmore : countWhile (· ≠ '\n') ('/' :: ds) = ('/' :: ds).length :=
      Nat.le_antisymm (countWhile_le _ _) (List.drop_eq_nil_iff.1 hnil)
    have hlonger : (extent '/' ('/' :: ds ++ ['\n'])) = ⟨.lineComment, ('/' :: ds).length, true⟩ := by
      rw [List.cons_append, extent_lineComment, ← List.cons_append, countWhile_append_cons (by simp), hmore]
    have hnewline : lexemes ['\n'] = [⟨.blank, ['\n'], true⟩] := by decide +kernel
    have hlexemes : lexemes (cs ++ ['\n']) =
        first ++ [⟨.lineComment, '/' :: '/' :: ds, true⟩, ⟨.blank, ['\n'], true⟩] := by
      rw [lexemes_append_of_mem (y := '/') hcs (fun l hl => hall l (hcs ▸ List.mem_append_left _ hl))
        (by simp [htext]) (by decide) (by decide), List.flatMap_singleton, htext, List.cons_append, lexemes, hlonger]
      rw [List.take_left, List.drop_left, hnewline]
    refine ⟨fun l' hl' => ?_, fun l' hl' => ?_⟩
    · rw [hlexemes, List.mem_append] at hl'
      rcases hl' with hl' | hl'
      · exact hall l' (hcs ▸ List.mem_append_left _ hl')
      · simp only [List.mem_cons, List.not_mem_nil, or_false] at hl'
        rcases hl' with rfl | rfl <;> rfl
    · rw [hlexemes, List.getLast?_append_cons, List.getLast?_cons_cons, List.getLast?_singleton,
        Option.some.injEq] at hl'
      simp [← hl']

end Endings

/-- Behind lexemes that have their ends, what starts apart is cut as if it stood alone. -/
theorem lexemes_append_of_allEnd {cs back : List Char} (h : AllEnd cs) (hback : StartsApart back) :
    lexemes (cs ++ back) = lexemes cs ++ lexemes back := by
  obtain ⟨hend, hlast⟩ := h
  fun_induction lexemes cs with
  | case1 => rfl
  | case2 c rest e ih =>
    rw [List.forall_mem_cons] at hend
    have hstop : Stops e rest back := by
      by_cases hkind : e.kind = .lineComment
      · -- the comment is not the last lexeme, so that its line has an end
        obtain ⟨rfl, cs, rfl⟩ := of_kind_lineComment hkind
        have hmore : e.more = countWhile (· ≠ '\n') ('/' :: cs) := by simp only [e, extent_lineComment]
        have hne : ('/' :: cs).drop e.more ≠ [] := by
          intro hnil
          rw [hnil, lexemes, List.getLast?_singleton] at hlast
          exact hlast _ rfl hkind
        rw [hmore, drop_countWhile] at hne
        refine .inl ⟨'\n', ?_, by decide, by decide⟩
        rw [hmore, drop_countWhile]
        have hhead := List.head_dropWhile_not (· ≠ '\n') hne
        rw [decide_eq_false_iff_not, not_not] at hhead
        have hmem := List.head_mem hne
        rwa [hhead] at hmem
      · exact .inr ⟨hkind, hback⟩
    have hextent : extent c (rest ++ back) = e := extent_append hend.1 hstop
    have hle : e.more ≤ rest.length := extent_more_le c rest
    rw [List.cons_append, lexemes, hextent, List.take_append_of_le_length hle, List.drop_append_of_le_length hle,
      ih hend.2, List.cons_append]
    intro l hl
    exact hlast l (by rw [List.getLast?_cons, hl]; rfl)

/-! ## Brackets -/

/-- The bracket that closes a bracket. -/
def closingOf (bracket : Char) : Char :=
  if bracket = '(' then ')' else if bracket = '[' then ']' else '\x7d'

/-- What ends a unit in which brackets are open, innermost first. -/
def closers (stack : List Char) : List Char := stack.map closingOf ++ [';']

theorem separates_closingOf (bracket : Char) : Separates (closingOf bracket) := by
  unfold closingOf
  split
  · constructor <;> decide +kernel
  · split
    · constructor <;> decide +kernel
    · exact separates_brace

theorem startsApart_closers (stack back : List Char) : StartsApart (closers stack ++ back) := by
  cases stack with
  | nil => exact ⟨_, _, rfl, separates_semicolon⟩
  | cons bracket stack => exact ⟨_, _, rfl, separates_closingOf bracket⟩

theorem isPlain_closers (stack : List Char) : IsPlain (closers stack) := by
  intro c hc
  have hmem : c = ';' ∨ c = ')' ∨ c = ']' ∨ c = '\x7d' := by
    rcases List.mem_append.1 hc with hc | hc
    · obtain ⟨bracket, -, rfl⟩ := List.mem_map.1 hc
      unfold closingOf
      split
      · simp
      · split <;> simp
    · exact .inl (List.mem_singleton.1 hc)
  rcases hmem with rfl | rfl | rfl | rfl <;> decide

theorem Separates.lexemes_cons {x : Char} (hx : Separates x) (back : List Char) :
    lexemes (x :: back) = ⟨.punctuation, [x], true⟩ :: lexemes back := by
  rw [lexemes, hx.extent_eq, List.take_zero, List.drop_zero]

/-- A token that has its end ends the reading, or takes it to a place that does not depend on what follows;
a closing bracket closes one. -/
theorem completenessFrom_step (p : Progress) {t : Token} (hend : t.terminated = true) :
    ∃ p' : Progress, (t.kind = .punctuation → t.isAny [")", "]", "\x7d"] = true → p'.stack = p.stack.tail) ∧
      ∀ total rest, completenessFrom total p (t :: rest) = completenessFrom total p' rest ∨
        ∃ n, completenessFrom total p (t :: rest) = .complete n := by
  by_cases htrivia : t.kind.isTrivia = true
  · refine ⟨p, fun hkind => ?_, fun total rest => .inl (completenessFrom_trivia total p rest hend htrivia)⟩
    rw [hkind] at htrivia
    cases htrivia
  simp only [completenessFrom, hend, Bool.not_true, Bool.false_eq_true, if_false, if_neg htrivia]
  generalize hunit : (p.begun.map (·.1)).getD (UnitClass.ofToken t) = unit
  by_cases hpunct : t.kind = .punctuation
  · simp only [hpunct, ne_eq, not_true_eq_false, if_false]
    by_cases hopen : t.isAny ["(", "[", "\x7b"] = true
    · refine ⟨⟨t.text ++ p.stack, some (unit, t)⟩, fun _ hclose => ?_, fun total rest => .inl (if_pos hopen)⟩
      simp only [Token.isAny, Token.is, List.any_cons, List.any_nil, Bool.or_false, Bool.or_eq_true,
        beq_iff_eq] at hopen hclose
      rcases hopen with h | h | h <;> rw [h] at hclose <;> simp at hclose
    · simp only [if_neg hopen]
      by_cases hclose : t.isAny [")", "]", "\x7d"] = true
      · refine ⟨⟨p.stack.tail, some (unit, t)⟩, fun _ _ => rfl, fun total rest => ?_⟩
        rw [if_pos hclose]
        split
        · exact .inr ⟨_, rfl⟩
        · split
          · exact .inr ⟨_, rfl⟩
          · exact .inl rfl
      · refine ⟨⟨p.stack, some (unit, t)⟩, fun _ h => absurd h hclose, fun total rest => ?_⟩
        rw [if_neg hclose]
        split
        · exact .inr ⟨_, rfl⟩
        · exact .inl rfl
  · exact ⟨{ p with begun := some (unit, t) }, fun h => absurd h hpunct, fun total rest => .inl (if_pos hpunct)⟩

/-- The brackets that are open get closed, and the semicolon ends the unit if it has not ended before. -/
theorem complete_closers (total offset : Nat) (p : Progress) (back : List Char) :
    ∃ n, completenessFrom total p (placed offset (lexemes (closers p.stack ++ back))) = .complete n := by
  obtain ⟨stack, begun⟩ := p
  induction stack generalizing begun offset with
  | nil =>
    have hlexemes : lexemes (closers [] ++ back) = ⟨.punctuation, [';'], true⟩ :: lexemes back :=
      separates_semicolon.lexemes_cons back
    rw [hlexemes, placed]
    exact ⟨_, by simp [completenessFrom, Kind.isTrivia, Token.isAny, Token.is]; rfl⟩
  | cons bracket stack ih =>
    have hlexemes : lexemes (closers (bracket :: stack) ++ back) =
        ⟨.punctuation, [closingOf bracket], true⟩ :: lexemes (closers stack ++ back) :=
      (separates_closingOf bracket).lexemes_cons _
    rw [hlexemes, placed]
    obtain ⟨⟨stack', begun'⟩, hstack, hstep⟩ := completenessFrom_step ⟨bracket :: stack, begun⟩
      (t := ⟨⟨.punctuation, [closingOf bracket], true⟩, offset, offset + width [closingOf bracket]⟩) rfl
    obtain rfl : stack' = stack := by
      refine hstack rfl ?_
      unfold closingOf
      split
      · rfl
      · split <;> rfl
    rcases hstep total (placed (offset + width [closingOf bracket]) (lexemes (closers stack' ++ back))) with
      hgoes | hends
    · rw [hgoes]
      exact ih _ _
    · exact hends

theorem exists_complete_closers (p : Progress) {ts : List Token} (hend : ∀ t ∈ ts, t.terminated = true) :
    ∃ stack, ∀ total offset back, ∃ n,
      completenessFrom total p (ts ++ placed offset (lexemes (closers stack ++ back))) = .complete n := by
  induction ts generalizing p with
  | nil => exact ⟨p.stack, fun total offset back => complete_closers total offset p back⟩
  | cons t ts ih =>
    rw [List.forall_mem_cons] at hend
    obtain ⟨p', -, hstep⟩ := completenessFrom_step p hend.1
    obtain ⟨stack, hstack⟩ := ih p' hend.2
    refine ⟨stack, fun total offset back => ?_⟩
    rcases hstep total (ts ++ placed offset (lexemes (closers stack ++ back))) with hgoes | hends
    · rw [List.cons_append, hgoes]
      exact hstack total offset back
    · exact hends

/-- Where all lexemes have their ends, closing brackets and a semicolon make the text complete. -/
theorem AllEnd.exists_complete {cs : List Char} (h : AllEnd cs) :
    ∃ stack, ∀ back, ∃ n, completeness (cs ++ (closers stack ++ back)) = .complete n := by
  have hend : ∀ t ∈ placed 0 (lexemes cs), t.terminated = true := by
    intro t ht
    obtain ⟨first, others, hls, -⟩ := mem_placed_iff.1 ht
    exact h.terminated _ (hls ▸ List.mem_append_right _ List.mem_cons_self)
  obtain ⟨stack, hstack⟩ := exists_complete_closers {} hend
  refine ⟨stack, fun back => ?_⟩
  rw [completeness, tokens, lexemes_append_of_allEnd h (startsApart_closers stack back), placed_append]
  exact hstack _ _ back

/-! ## Texts that nothing can complete -/

theorem apostropheExtent_alone {a b : Char} {cs : List Char}
    (h : apostropheExtent (a :: b :: cs) = ⟨.character, 0, false⟩) (cs' : List Char) :
    apostropheExtent (a :: b :: cs') = ⟨.character, 0, false⟩ := by
  have hescape : a ≠ '\\' := by
    rintro rfl
    rw [apostropheExtent] at h
    cases congrArg Extent.more h
  have hclosed : b ≠ '\x27' := by
    rintro rfl
    rw [apostropheExtent] at h
    · cases congrArg Extent.terminated h
    · exact hescape
  have hopen (rest : List Char) (hrest : b :: cs = '\x27' :: rest) : False := hclosed (List.cons.inj hrest).1
  have hword : ¬isWordChar a = true := by
    intro hword
    rw [apostropheExtent, if_pos hword] at h
    · cases congrArg Extent.kind h
    · exact hescape
    · exact hopen
  rw [apostropheExtent, if_neg hword]
  · exact hescape
  · exact fun rest hrest => hclosed (List.cons.inj hrest).1

/-- What follows a token that lacks its end does not matter. -/
theorem incomplete_of_open {t : Token} (hopen : t.terminated = false) (hsig : t.isSignificant = true)
    {total : Nat} {p : Progress} {ts rest : List Token}
    (h : completenessFrom total p (ts ++ t :: rest) = .incomplete) (total' : Nat) (rest' : List Token) :
    completenessFrom total' p (ts ++ t :: rest') = .incomplete := by
  induction ts generalizing p with
  | nil => rw [List.nil_append, completenessFrom, if_pos (by simp [hopen])]
  | cons u ts ih =>
    by_cases hu : u.terminated = true
    · by_cases htrivia : u.kind.isTrivia = true
      · rw [List.cons_append, completenessFrom_trivia _ _ _ hu htrivia] at h ⊢
        exact ih h
      · have hnext : (ts ++ t :: rest').find? (·.isSignificant) = (ts ++ t :: rest).find? (·.isSignificant) := by
          rw [List.find?_append, List.find?_append, List.find?_cons_of_pos hsig, List.find?_cons_of_pos hsig]
        rcases completenessFrom_significant p (ts ++ t :: rest) hu (by simpa [Token.isSignificant] using htrivia)
          with hrefused | hended | ⟨p', -, hgoes⟩
        · rw [List.cons_append, hrefused total] at h
          cases h
        · rw [List.cons_append, (hended total).1] at h
          cases h
        · rw [List.cons_append, hgoes total _ rfl] at h
          rw [List.cons_append, hgoes total' _ hnext]
          exact ih h
    · rw [List.cons_append, completenessFrom, if_pos (by simpa using hu)]

/-- An apostrophe that two more characters keep from being a character or a lifetime stays one. -/
theorem lexemes_append_of_apostrophe {rest : List Char} {others : List Lexeme}
    (h : lexemes ('\x27' :: rest) = ⟨.character, ['\x27'], false⟩ :: others) (hlength : 2 ≤ rest.length)
    (v : List Char) : lexemes ('\x27' :: (rest ++ v)) = ⟨.character, ['\x27'], false⟩ :: lexemes (rest ++ v) := by
  rcases rest with _ | ⟨a, _ | ⟨b, cs⟩⟩
  · cases hlength
  · simp at hlength
  · apply lexemes_apostrophe
    rw [lexemes, List.cons.injEq, Lexeme.mk.injEq, List.cons.injEq, List.take_eq_nil_iff] at h
    obtain ⟨⟨hkind, ⟨-, hmore | hnil⟩, hopen⟩, -⟩ := h
    · have hextent : extent '\x27' (a :: b :: cs) = ⟨.character, 0, false⟩ := by
        rw [← hkind, ← hmore, ← hopen]
      rw [extent_apostrophe] at hextent ⊢
      exact apostropheExtent_alone hextent (cs ++ v)
    · cases hnil

theorem incomplete_append_of_isBroken {cs : List Char} (h : completeness cs = .incomplete) (hbroken : IsBroken cs)
    (v : List Char) : completeness (cs ++ v) = .incomplete := by
  obtain ⟨first, others, hcs, hfirst, hlength⟩ := hbroken
  have hothers := lexemes_of_append hcs
  rw [List.flatMap_cons] at hothers
  have hlonger : lexemes (cs ++ v) =
      first ++ ⟨.character, ['\x27'], false⟩ :: lexemes (others.flatMap (·.text) ++ v) := by
    rw [lexemes_append_of_mem (y := '\x27') hcs hfirst (by simp) (by decide) (by decide), List.flatMap_cons]
    exact congrArg (first ++ ·) (lexemes_append_of_apostrophe hothers hlength v)
  rw [completeness, tokens, hcs, placed_append, placed] at h
  rw [completeness, tokens, hlonger, placed_append, placed]
  exact incomplete_of_open rfl rfl h _ _

/-! ## Lines that complete a text -/

theorem mem_trim {c : Char} {cs : List Char} (hc : c ∈ cs) (hblank : isBlank c = false) : c ∈ trim cs := by
  have hdrop {ds : List Char} (hd : c ∈ ds) : c ∈ ds.dropWhile isBlank := by
    rw [← ds.takeWhile_append_dropWhile (p := isBlank), List.mem_append] at hd
    refine hd.resolve_left fun htake => ?_
    rw [List.all_eq_true.1 List.all_takeWhile c htake] at hblank
    cases hblank
  unfold trim trimEnd trimStart
  rw [List.mem_reverse]
  exact hdrop (List.mem_reverse.2 (hdrop hc))

theorem mem_of_mem_trim {c : Char} {cs : List Char} (hc : c ∈ trim cs) : c ∈ cs := by
  unfold trim trimEnd trimStart at hc
  have hstart := (List.dropWhile_suffix _).subset (List.mem_reverse.1 hc)
  exact (List.dropWhile_suffix _).subset (List.mem_reverse.1 hstart)

/-- A line without a colon is code, unless it is blank. -/
theorem ofLine_of_isPlain {line : List Char} (h : IsPlain line) (hsemicolon : ';' ∈ line) :
    Input.ofLine line = .source line := by
  have hmem : ';' ∈ trim line := mem_trim hsemicolon (by decide)
  unfold Input.ofLine
  split
  · rename_i hnil
    rw [hnil] at hmem
    exact absurd hmem List.not_mem_nil
  · rename_i command hcommand
    have hcolon : ':' ∈ line := mem_of_mem_trim (hcommand ▸ List.mem_cons_self)
    exact absurd rfl (h ':' hcolon).2
  · rfl

/-- No comment that goes on to the end of its line goes on beyond it. -/
theorem newline_not_mem_text {cs : List Char} {l : Lexeme} (hl : l ∈ lexemes cs) (hkind : l.kind = .lineComment) :
    '\n' ∉ l.text := by
  fun_induction lexemes cs with
  | case1 => exact absurd hl List.not_mem_nil
  | case2 c rest e ih =>
    rcases List.mem_cons.1 hl with rfl | hl
    · obtain ⟨rfl, cs, rfl⟩ := of_kind_lineComment hkind
      have hmore : e.more = countWhile (· ≠ '\n') ('/' :: cs) := by simp only [e, extent_lineComment]
      rw [hmore, take_countWhile]
      intro hmem
      rcases List.mem_cons.1 hmem with hslash | hmem
      · cases hslash
      · simpa using List.all_eq_true.1 List.all_takeWhile _ hmem
    · exact ih hl

theorem kind_ne_lineComment {cs : List Char} (h : cs.getLast? = some '\n') {l : Lexeme}
    (hlast : (lexemes cs).getLast? = some l) : l.kind ≠ .lineComment := by
  intro hkind
  have hl : l ∈ lexemes cs := List.mem_of_getLast? hlast
  obtain ⟨first, hcs⟩ := List.getLast?_eq_some_iff.1 hlast
  have htext : cs = first.flatMap (·.text) ++ l.text := by
    rw [← flatMap_text_lexemes cs, hcs, List.flatMap_append, List.flatMap_singleton]
  rw [htext, List.getLast?_append_of_ne_nil _ (text_ne_nil_of_mem hl)] at h
  exact newline_not_mem_text hl hkind (List.mem_of_getLast? h)

/-- An unfinished text can be completed, and one whose last line has ended by one more line, unless an
apostrophe that is none of a character nor of a lifetime stands in the way; and then it never is. -/
theorem incomplete_can_be_completed {cs : List Char} (h : completeness cs = .incomplete) :
    (IsBroken cs → ∀ v, completeness (cs ++ v) = .incomplete) ∧
    (¬IsBroken cs → ∃ v n, completeness (cs ++ v) = .complete n) ∧
    (¬IsBroken cs → cs.getLast? = some '\n' → ∃ line n, Input.ofLine line = .source line ∧ '\n' ∉ line ∧
      completeness (cs ++ textLine line) = .complete n) := by
  -- what is open gets its end, and then brackets are closed and a semicolon follows
  have hclose (hbroken : ¬IsBroken cs)
      (hlast : ∀ l, (lexemes cs).getLast? = some l → l.kind ≠ .lineComment) :
      ∃ v, IsPlain v ∧ ';' ∈ v ∧ ∀ back, ∃ n, completeness (cs ++ (v ++ back)) = .complete n := by
    obtain ⟨ends, hplain, hends⟩ := exists_allEnd_append hbroken hlast
    obtain ⟨stack, hstack⟩ := hends.exists_complete
    refine ⟨ends ++ closers stack, List.forall_mem_append.2 ⟨hplain, isPlain_closers stack⟩, ?_, fun back => ?_⟩
    · simp [closers]
    · have := hstack back
      rwa [List.append_assoc, ← List.append_assoc ends] at this
  refine ⟨fun hbroken => incomplete_append_of_isBroken h hbroken, fun hbroken => ?_, fun hbroken hnewline => ?_⟩
  · by_cases hlast : ∀ l, (lexemes cs).getLast? = some l → l.kind ≠ .lineComment
    · obtain ⟨v, -, -, hcomplete⟩ := hclose hbroken hlast
      obtain ⟨n, hn⟩ := hcomplete []
      exact ⟨v ++ [], n, hn⟩
    · push Not at hlast
      obtain ⟨l, hlast, hcomment⟩ := hlast
      obtain ⟨stack, hstack⟩ := (allEnd_append_newline hbroken hlast hcomment).exists_complete
      obtain ⟨n, hn⟩ := hstack []
      exact ⟨_, n, by rwa [List.append_assoc] at hn⟩
  · obtain ⟨v, hplain, hsemicolon, hcomplete⟩ := hclose hbroken fun l hl => kind_ne_lineComment hnewline hl
    obtain ⟨n, hn⟩ := hcomplete ['\n']
    exact ⟨v, n, ofLine_of_isPlain hplain hsemicolon, fun hmem => (hplain _ hmem).1 rfl, hn⟩

/-- A string in an open bracket. -/
theorem incomplete_can_be_completed_call :
    completeness "f(\"a\n".toList = .incomplete ∧ ¬IsBroken "f(\"a\n".toList ∧
      ∃ line n, Input.ofLine line = .source line ∧ '\n' ∉ line ∧
        completeness ("f(\"a\n".toList ++ textLine line) = .complete n := by
  have hincomplete : completeness "f(\"a\n".toList = .incomplete := by decide +kernel
  have hbroken : ¬IsBroken "f(\"a\n".toList := by
    rintro ⟨first, others, hcs, -⟩
    have hmem : ⟨.character, ['\x27'], false⟩ ∈ lexemes "f(\"a\n".toList :=
      hcs ▸ List.mem_append_right _ List.mem_cons_self
    exact absurd hmem (by decide +kernel)
  exact ⟨hincomplete, hbroken, (incomplete_can_be_completed hincomplete).2.2 hbroken (by decide +kernel)⟩

/-- An apostrophe before brackets. -/
theorem apostrophe_is_never_completed :
    completeness "\x27()".toList = .incomplete ∧
      ∀ v, completeness ("\x27()".toList ++ v) = .incomplete := by
  have hincomplete : completeness "\x27()".toList = .incomplete := by decide +kernel
  have hbroken : IsBroken "\x27()".toList := by
    refine ⟨[], [⟨.punctuation, ['('], true⟩, ⟨.punctuation, [')'], true⟩], ?_, List.forall_mem_nil _, by decide⟩
    decide +kernel
  exact ⟨hincomplete, incomplete_append_of_isBroken hincomplete hbroken⟩

end Notebook.Scan

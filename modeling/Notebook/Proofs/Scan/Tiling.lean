import Mathlib.Data.List.Chain
import Notebook.Proofs.Scan.Joined
import Notebook.Proofs.Segment.Partition

/-!
# Tokens tile the text

No lexeme runs beyond the end of the text (`extent_more_le`), and each has a character at the least.  So the
tokens cover a text from its first byte to its last, one behind the other, and what is highlighted leaves out
nothing but blanks (`tokens_tile`).
-/

namespace Notebook.Scan
open Notebook.Text

/-! ## No lexeme runs beyond the text -/

theorem countWhile_le (p : Char → Bool) (cs : List Char) : countWhile p cs ≤ cs.length :=
  (List.takeWhile_prefix p).length_le

theorem blockCommentLength_le (depth : Nat) (cs : List Char) : (blockCommentLength depth cs).1 ≤ cs.length := by
  fun_induction blockCommentLength depth cs with
  | case1 => exact Nat.le_refl _
  | case2 depth cs n closed heq ih =>
    rw [heq] at ih
    exact Nat.add_le_add_right ih 2
  | case3 depth cs => exact Nat.le_add_left _ _
  | case4 depth cs hdepth n closed heq ih =>
    rw [heq] at ih
    exact Nat.add_le_add_right ih 2
  | case5 depth c cs hopen hclose n closed heq ih =>
    rw [heq] at ih
    exact Nat.add_le_add_right ih 1

theorem rawStringLength_le (hashes : Nat) (cs : List Char) : (rawStringLength hashes cs).1 ≤ cs.length := by
  fun_induction rawStringLength hashes cs with
  | case1 => exact Nat.le_refl _
  | case2 c cs hend =>
    simp only [Bool.and_eq_true, decide_eq_true_eq] at hend
    exact Nat.add_le_add_right hend.2 1
  | case3 c cs hend n closed heq ih =>
    rw [heq] at ih
    exact Nat.add_le_add_right ih 1

theorem stringLength_le (cs : List Char) : (stringLength cs).1 ≤ cs.length := by
  fun_induction stringLength cs with
  | case1 => exact Nat.le_refl _
  | case2 c cs n closed heq ih =>
    rw [heq] at ih
    exact Nat.add_le_add_right ih 2
  | case3 cs => exact Nat.le_add_left _ _
  | case4 c cs hescape hquote n closed heq ih =>
    rw [heq] at ih
    exact Nat.add_le_add_right ih 1

theorem apostropheLength_le (cs : List Char) : (apostropheLength cs).1 ≤ cs.length := by
  fun_induction apostropheLength cs with
  | case1 => exact Nat.le_refl _
  | case2 cs => exact Nat.le_add_left _ _
  | case3 c cs hquote n closed heq ih =>
    rw [heq] at ih
    exact Nat.add_le_add_right ih 1

theorem numberLength_le (cs : List Char) : numberLength cs ≤ cs.length := by
  fun_induction numberLength cs with
  | case1 => exact Nat.le_refl _
  | case2 c cs hword ih => exact Nat.add_le_add_right ih 1
  | case3 c cs hword hpoint ih => exact Nat.add_le_add_right ih 1
  | case4 c cs hword hpoint => exact Nat.zero_le _

theorem apostropheExtent_more_le (cs : List Char) : (apostropheExtent cs).more ≤ cs.length := by
  fun_cases apostropheExtent cs with
  | case1 cs n closed heq =>
    have hle := apostropheLength_le cs
    rw [heq] at hle
    exact Nat.add_le_add_right hle 1
  | case2 c cs hescape => exact Nat.le_add_left _ _
  | case3 c cs hescape hclosed hword => exact countWhile_le _ _
  | case4 c cs hescape hclosed hword => exact Nat.zero_le _
  | case5 => exact Nat.zero_le _

theorem extent_more_le (c : Char) (rest : List Char) : (extent c rest).more ≤ rest.length := by
  -- what two characters open goes on behind the second one, which is there
  have htail (x : Char) (hx : rest.head? = some x) (n : Nat) (hn : n ≤ rest.tail.length) :
      n + 1 ≤ rest.length := by
    obtain ⟨cs, rfl⟩ := List.head?_eq_some_iff.1 hx
    exact Nat.add_le_add_right hn 1
  fun_cases extent c rest with
  | case1 hblank => exact countWhile_le _ _
  | case2 hblank hline => exact countWhile_le _ _
  | case3 hblank hline hblock n closed heq =>
    simp only [Bool.and_eq_true, decide_eq_true_eq, beq_iff_eq] at hblock
    have hle := blockCommentLength_le 1 rest.tail
    rw [heq] at hle
    exact htail _ hblock.2 n hle
  | case4 hblank hline hblock hraw hashes n closed heq =>
    simp only [Bool.and_eq_true] at hraw
    have hquote : hashes < rest.length := countWhile_lt_of_rawStringAhead hraw.2
    have hle := rawStringLength_le hashes (rest.drop (hashes + 1))
    rw [heq, List.length_drop] at hle
    exact Nat.add_le_of_le_sub' hquote hle
  | case5 hblank hline hblock hraw hquote n closed heq =>
    have hle := stringLength_le rest
    rwa [heq] at hle
  | case6 hblank hline hblock hraw hquote hbytes n closed heq =>
    simp only [Bool.and_eq_true, decide_eq_true_eq, beq_iff_eq] at hbytes
    have hle := stringLength_le rest.tail
    rw [heq] at hle
    exact htail _ hbytes.2 n hle
  | case7 => exact apostropheExtent_more_le rest
  | case8 => exact numberLength_le rest
  | case9 => exact countWhile_le _ _
  | case10 => exact Nat.zero_le _

/-- The cut in a form that fails where a lexeme would run beyond the end of the text. -/
def lexemes? : List Char → Option (List Lexeme)
  | [] => some []
  | c :: rest =>
    let e := extent c rest
    if e.more ≤ rest.length then
      (lexemes? (rest.drop e.more)).map (⟨e.kind, c :: rest.take e.more, e.terminated⟩ :: ·)
    else none
termination_by cs => cs.length
decreasing_by simp only [List.length_drop, List.length_cons]; omega

theorem lexemes?_eq (cs : List Char) : lexemes? cs = some (lexemes cs) := by
  fun_induction lexemes cs with
  | case1 => rw [lexemes?]
  | case2 c rest e ih => rw [lexemes?, if_pos (extent_more_le c rest), ih, Option.map_some]

/-! ## Where the tokens stand -/

theorem mem_placed_iff {offset : Nat} {ls : List Lexeme} {t : Token} :
    t ∈ placed offset ls ↔ ∃ first others, ls = first ++ t.toLexeme :: others ∧
      t.start = offset + width (first.flatMap (·.text)) ∧ t.stop = t.start + width t.text := by
  constructor
  · intro h
    induction ls generalizing offset with
    | nil => exact absurd h List.not_mem_nil
    | cons l ls ih =>
      rw [placed, List.mem_cons] at h
      rcases h with rfl | h
      · exact ⟨[], ls, rfl, rfl, rfl⟩
      · obtain ⟨first, others, rfl, hstart, hstop⟩ := ih h
        refine ⟨l :: first, others, rfl, ?_, hstop⟩
        rw [hstart, List.flatMap_cons, width_append, Nat.add_assoc]
  · rintro ⟨first, others, rfl, hstart, hstop⟩
    rw [placed_append, placed, ← hstart, ← hstop]
    exact List.mem_append_right _ List.mem_cons_self

/-- A token is a stretch of the text between two characters. -/
theorem exists_of_mem_tokens {cs : List Char} {t : Token} (h : t ∈ tokens cs) :
    t.toLexeme ∈ lexemes cs ∧ ∃ front back, cs = front ++ (t.text ++ back) ∧ t.start = width front ∧
      t.stop = width front + width t.text := by
  obtain ⟨first, others, hls, hstart, hstop⟩ := mem_placed_iff.1 h
  rw [Nat.zero_add] at hstart
  refine ⟨hls ▸ List.mem_append_right _ List.mem_cons_self, first.flatMap (·.text), others.flatMap (·.text), ?_,
    hstart, by rw [hstop, hstart]⟩
  rw [← List.flatMap_cons, ← List.flatMap_append, ← hls, flatMap_text_lexemes]

/-- Every character is part of a token. -/
theorem exists_mem_placed (offset : Nat) {ls : List Lexeme} {front back : List Char} {c : Char}
    (h : ls.flatMap (·.text) = front ++ c :: back) :
    ∃ t ∈ placed offset ls, c ∈ t.text ∧ t.start ≤ offset + width front ∧
      offset + width front + c.utf8Size ≤ t.stop := by
  induction ls generalizing offset front with
  | nil => simp at h
  | cons l ls ih =>
    rw [List.flatMap_cons, List.append_eq_append_iff] at h
    rw [placed]
    rcases h with ⟨front, rfl, h⟩ | ⟨inside, hl, h⟩
    · obtain ⟨t, ht, hc, hstart, hstop⟩ := ih (offset + width l.text) h
      rw [width_append]
      exact ⟨t, List.mem_cons_of_mem _ ht, hc, by omega, by omega⟩
    · cases inside with
      | nil =>
        -- the lexeme ends just before the character
        have hrest : ls.flatMap (·.text) = [] ++ c :: back := h.symm
        obtain ⟨t, ht, hc, hstart, hstop⟩ := ih (offset + width l.text) hrest
        rw [List.append_nil] at hl
        rw [← hl]
        exact ⟨t, List.mem_cons_of_mem _ ht, hc, hstart, hstop⟩
      | cons d inside =>
        obtain ⟨rfl, -⟩ := List.cons.inj h
        refine ⟨_, List.mem_cons_self, ?_, Nat.le_add_right _ _, ?_⟩
        · rw [hl]
          exact List.mem_append_right _ List.mem_cons_self
        · simp only [hl, width_append, width]
          omega

theorem isChain_placed (offset : Nat) (ls : List Lexeme) :
    (placed offset ls).IsChain fun t u => t.stop = u.start := by
  induction ls generalizing offset with
  | nil => exact .nil
  | cons l ls ih =>
    cases ls with
    | nil => exact .singleton _
    | cons l' ls => exact .cons_cons rfl (ih _)

theorem pairwise_placed (offset : Nat) (ls : List Lexeme) :
    (placed offset ls).Pairwise fun t u => t.stop ≤ u.start := by
  induction ls generalizing offset with
  | nil => exact .nil
  | cons l ls ih =>
    refine List.pairwise_cons.2 ⟨fun t ht => ?_, ih _⟩
    obtain ⟨first, -, -, hstart, -⟩ := mem_placed_iff.1 ht
    exact hstart ▸ Nat.le_add_right _ _

theorem isBlank_of_kind_extent {c : Char} {rest : List Char} (h : (extent c rest).kind = .blank) :
    isBlank c = true := by
  rcases of_isTrivia_extent (by rw [h]; rfl) with hblank | ⟨rfl, hnext | hnext⟩
  · exact hblank
  · simp [extent, hnext, show isBlank '/' = false by decide] at h
  · simp [extent, hnext, show isBlank '/' = false by decide] at h

/-- A blank lexeme has nothing but blanks. -/
theorem isBlank_of_mem_text {cs : List Char} {l : Lexeme} (hl : l ∈ lexemes cs) (hkind : l.kind = .blank) :
    ∀ c ∈ l.text, isBlank c = true := by
  fun_induction lexemes cs with
  | case1 => exact absurd hl List.not_mem_nil
  | case2 c rest e ih =>
    rcases List.mem_cons.1 hl with rfl | hl
    · have hblank : isBlank c = true := isBlank_of_kind_extent hkind
      have hmore : e.more = countWhile isBlank rest := by simp only [e, extent, if_pos hblank]
      rw [hmore, take_countWhile, List.forall_mem_cons]
      exact ⟨hblank, List.all_eq_true.1 List.all_takeWhile⟩
    · exact ih hl

/-! ## Tiles -/

/-- The tokens lie one behind the other, from the start of a text to its end. -/
structure Tiles (cs : List Char) (ts : List Token) : Prop where
  empty : ts = [] → cs = []
  first : ∀ t, ts.head? = some t → t.start = 0
  consecutive : ts.IsChain fun t u => t.stop = u.start
  last : ∀ t, ts.getLast? = some t → t.stop = width cs
  nonempty : ∀ t ∈ ts, t.start < t.stop
  boundary : ∀ t ∈ ts, isBoundary cs t.start = true ∧ isBoundary cs t.stop = true
  text : ∀ t ∈ ts, slice cs t.start t.stop = t.text

/-- The stretches lie apart and in order in a text, and leave out nothing but blanks. -/
structure Covers (cs : List Char) (spans : List HighlightSpan) : Prop where
  ordered : spans.Pairwise fun s u => s.stop ≤ u.start
  nonempty : ∀ s ∈ spans, s.start < s.stop
  boundary : ∀ s ∈ spans, isBoundary cs s.start = true ∧ isBoundary cs s.stop = true
  blank : ∀ front c back, cs = front ++ c :: back →
    (∀ s ∈ spans, ¬(s.start ≤ width front ∧ width front + c.utf8Size ≤ s.stop)) → isBlank c = true

theorem tiles_tokens (cs : List Char) : Tiles cs (tokens cs) where
  empty h := by
    cases cs with
    | nil => rfl
    | cons c rest => simp [tokens, lexemes, placed] at h
  first t ht := by
    cases hls : lexemes cs with
    | nil => simp [tokens, hls, placed] at ht
    | cons l ls =>
      rw [tokens, hls, placed, List.head?_cons, Option.some.injEq] at ht
      rw [← ht]
  consecutive := isChain_placed 0 (lexemes cs)
  last t ht := by
    have hstop : t.stop = 0 + width ((lexemes cs).flatMap (·.text)) := getLast?_placed (by rw [← tokens, ht]; rfl)
    rwa [Nat.zero_add, flatMap_text_lexemes] at hstop
  nonempty t ht := by
    obtain ⟨hl, front, back, -, hstart, hstop⟩ := exists_of_mem_tokens ht
    have := width_pos (text_ne_nil_of_mem hl)
    omega
  boundary t ht := by
    obtain ⟨-, front, back, rfl, hstart, hstop⟩ := exists_of_mem_tokens ht
    rw [hstart, hstop, ← width_append]
    refine ⟨isBoundary_append _ _, ?_⟩
    rw [← List.append_assoc]
    exact isBoundary_append _ _
  text t ht := by
    obtain ⟨-, front, back, rfl, hstart, hstop⟩ := exists_of_mem_tokens ht
    rw [hstart, hstop, slice_append]

theorem mem_highlight_iff {cs : List Char} {s : HighlightSpan} :
    s ∈ highlight cs ↔ ∃ t ∈ tokens cs, t.kind.highlight? = some s.kind ∧ s.start = t.start ∧ s.stop = t.stop := by
  simp only [highlight, List.mem_filterMap, Option.map_eq_some_iff]
  constructor
  · rintro ⟨t, ht, k, hk, rfl⟩
    exact ⟨t, ht, hk, rfl, rfl⟩
  · rintro ⟨t, ht, hk, hstart, hstop⟩
    exact ⟨t, ht, s.kind, hk, by rw [← hstart, ← hstop]⟩

theorem kind_eq_blank_of_highlight? {k : Kind} (h : k.highlight? = none) : k = .blank := by
  cases k <;> first | rfl | cases h

theorem covers_highlight (cs : List Char) : Covers cs (highlight cs) where
  ordered := by
    rw [highlight, List.pairwise_filterMap]
    refine (pairwise_placed 0 (lexemes cs)).imp fun htu s hs u hu => ?_
    obtain ⟨-, -, rfl⟩ := Option.map_eq_some_iff.1 hs
    obtain ⟨-, -, rfl⟩ := Option.map_eq_some_iff.1 hu
    exact htu
  nonempty s hs := by
    obtain ⟨t, ht, -, hstart, hstop⟩ := mem_highlight_iff.1 hs
    rw [hstart, hstop]
    exact (tiles_tokens cs).nonempty t ht
  boundary s hs := by
    obtain ⟨t, ht, -, hstart, hstop⟩ := mem_highlight_iff.1 hs
    rw [hstart, hstop]
    exact (tiles_tokens cs).boundary t ht
  blank front c back h hout := by
    obtain ⟨t, ht, hc, hstart, hstop⟩ := exists_mem_placed 0 ((flatMap_text_lexemes cs).trans h)
    rw [Nat.zero_add] at hstart hstop
    cases hkind : t.kind.highlight? with
    | some k =>
      exact absurd ⟨hstart, hstop⟩ (hout ⟨t.start, t.stop, k⟩ (mem_highlight_iff.2 ⟨t, ht, hkind, rfl, rfl⟩))
    | none =>
      have hl := (exists_of_mem_tokens ht).1
      exact isBlank_of_mem_text hl (kind_eq_blank_of_highlight? hkind) c hc

/-- The cut never runs beyond the end of a text.  Its tokens tile the text, and what is highlighted of them
covers the text but for blanks. -/
theorem tokens_tile (cs : List Char) :
    lexemes? cs = some (lexemes cs) ∧ Tiles cs (tokens cs) ∧ Covers cs (highlight cs) :=
  ⟨lexemes?_eq cs, tiles_tokens cs, covers_highlight cs⟩

end Notebook.Scan

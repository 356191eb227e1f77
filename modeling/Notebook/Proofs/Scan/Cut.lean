import Mathlib.Data.List.Basic
import Notebook.Scan.Lexeme

/-!
# Cutting a text between two lexemes

The cut of a text into lexemes looks ahead, but never past the end of what it takes.  A text that
ends where one of its lexemes ends is therefore cut as it was cut with more text behind it
(`lexemes_flatMap_text`).
-/

namespace Notebook.Scan
open Notebook.Text

/-! ## Lengths that a shorter text keeps -/

theorem eq_cons_of_take_eq_cons {α : Type} {k : Nat} {as bs : List α} {a : α}
    (h : as.take k = a :: bs) : ∃ cs, as = a :: cs := by
  cases as with
  | nil => simp at h
  | cons b cs =>
    cases k with
    | zero => simp at h
    | succ k =>
      rw [List.take_succ_cons, List.cons.injEq] at h
      exact ⟨cs, by rw [h.1]⟩

theorem countWhile_take {p : Char → Bool} {cs : List Char} {k : Nat} (h : countWhile p cs ≤ k) :
    countWhile p (cs.take k) = countWhile p cs := by
  unfold countWhile at *
  induction cs generalizing k with
  | nil => simp
  | cons c cs ih =>
    -- a character that counts is within the cut, and one that does not ends the count in both
    by_cases hc : p c = true
    · simp only [List.takeWhile_cons, hc, if_true, List.length_cons] at h ⊢
      obtain ⟨k, rfl⟩ : ∃ j, k = j + 1 := ⟨k - 1, by omega⟩
      simp only [List.take_succ_cons, List.takeWhile_cons, hc, if_true, List.length_cons]
      rw [ih (by omega)]
    · cases k <;> simp [hc]

theorem blockCommentLength_take {depth : Nat} {cs : List Char} {k : Nat}
    (h : (blockCommentLength depth cs).1 ≤ k) :
    blockCommentLength depth (cs.take k) = blockCommentLength depth cs := by
  fun_induction blockCommentLength depth cs generalizing k with
  | case1 => simp [blockCommentLength]
  | case2 depth cs n closed heq ih =>
    obtain ⟨k, rfl⟩ : ∃ j, k = j + 2 := ⟨k - 2, by omega⟩
    have hcut := ih (k := k) (by rw [heq]; omega)
    simp [blockCommentLength, hcut, heq]
  | case3 depth cs hdepth =>
    obtain ⟨k, rfl⟩ : ∃ j, k = j + 2 := ⟨k - 2, by omega⟩
    simp [blockCommentLength, hdepth]
  | case4 depth cs hdepth n closed heq ih =>
    obtain ⟨k, rfl⟩ : ∃ j, k = j + 2 := ⟨k - 2, by omega⟩
    have hcut := ih (k := k) (by rw [heq]; omega)
    simp [blockCommentLength, hdepth, hcut, heq]
  | case5 depth c cs hopen hclose n closed heq ih =>
    obtain ⟨k, rfl⟩ : ∃ j, k = j + 1 := ⟨k - 1, by omega⟩
    have hcut := ih (k := k) (by rw [heq]; omega)
    rw [List.take_succ_cons, blockCommentLength, hcut, heq]
    · -- what opens or closes a comment in the cut text does so in the whole one
      intro rest hc hrest
      obtain ⟨rest', hcs⟩ := eq_cons_of_take_eq_cons hrest
      exact hopen rest' hc hcs
    · intro rest hc hrest
      obtain ⟨rest', hcs⟩ := eq_cons_of_take_eq_cons hrest
      exact hclose rest' hc hcs

theorem stringLength_take {cs : List Char} {k : Nat} (h : (stringLength cs).1 ≤ k) :
    stringLength (cs.take k) = stringLength cs := by
  fun_induction stringLength cs generalizing k with
  | case1 => simp [stringLength]
  | case2 c cs n closed heq ih =>
    obtain ⟨k, rfl⟩ : ∃ j, k = j + 2 := ⟨k - 2, by omega⟩
    have hcut := ih (k := k) (by rw [heq]; omega)
    simp [stringLength, hcut, heq]
  | case3 cs _ =>
    obtain ⟨k, rfl⟩ : ∃ j, k = j + 1 := ⟨k - 1, by omega⟩
    simp [stringLength]
  | case4 c cs hescape hquote n closed heq ih =>
    obtain ⟨k, rfl⟩ : ∃ j, k = j + 1 := ⟨k - 1, by omega⟩
    have hcut := ih (k := k) (by rw [heq]; omega)
    rw [List.take_succ_cons, stringLength, if_neg hquote, hcut, heq]
    intro d rest hc hrest
    obtain ⟨rest', hcs⟩ := eq_cons_of_take_eq_cons hrest
    exact hescape d rest' hc hcs

theorem apostropheLength_take {cs : List Char} {k : Nat} (h : (apostropheLength cs).1 ≤ k) :
    apostropheLength (cs.take k) = apostropheLength cs := by
  fun_induction apostropheLength cs generalizing k with
  | case1 => simp [apostropheLength]
  | case2 cs =>
    obtain ⟨k, rfl⟩ : ∃ j, k = j + 1 := ⟨k - 1, by omega⟩
    simp [apostropheLength]
  | case3 c cs hquote n closed heq ih =>
    obtain ⟨k, rfl⟩ : ∃ j, k = j + 1 := ⟨k - 1, by omega⟩
    have hcut := ih (k := k) (by rw [heq]; omega)
    simp [apostropheLength, hquote, hcut, heq]

theorem rawStringLength_take {hashes : Nat} {cs : List Char} {k : Nat}
    (h : (rawStringLength hashes cs).1 ≤ k) :
    rawStringLength hashes (cs.take k) = rawStringLength hashes cs := by
  fun_induction rawStringLength hashes cs generalizing k with
  | case1 => simp [rawStringLength]
  | case2 c cs hend =>
    obtain ⟨k, rfl⟩ : ∃ j, k = j + 1 := ⟨k - 1, by omega⟩
    have hle : hashes ≤ k := by simpa using h
    have htake : (cs.take k).take hashes = cs.take hashes := by
      rw [List.take_take, Nat.min_eq_left hle]
    have hlen : hashes ≤ (cs.take k).length ↔ hashes ≤ cs.length := by
      rw [List.length_take]; omega
    rw [List.take_succ_cons, rawStringLength, htake]
    simp only [hlen]
    rw [if_pos hend]
  | case3 c cs hend n closed heq ih =>
    obtain ⟨k, rfl⟩ : ∃ j, k = j + 1 := ⟨k - 1, by omega⟩
    have hcut := ih (k := k) (by rw [heq]; omega)
    rw [List.take_succ_cons, rawStringLength, hcut, heq, if_neg]
    -- a quote that ends the string in the cut text has all its hashes in the whole one
    intro hcutEnd
    apply hend
    simp only [Bool.and_eq_true, decide_eq_true_eq, List.length_take] at hcutEnd ⊢
    obtain ⟨⟨hc, hall⟩, hle⟩ := hcutEnd
    rw [List.take_take, Nat.min_eq_left (by omega)] at hall
    exact ⟨⟨hc, hall⟩, by omega⟩

theorem isWordChar_of_isDigit {c : Char} (h : c.isDigit = true) : isWordChar c = true := by
  have hascii : isAscii c = true := by
    simp only [Char.isDigit, Bool.and_eq_true, decide_eq_true_eq, UInt32.le_iff_toNat_le] at h
    have hle : c.toNat ≤ 57 := h.2
    simp only [isAscii, decide_eq_true_eq]
    omega
  simp [isWordChar, isAlphanumeric, isNumeric, hascii, h]

theorem numberLength_take {cs : List Char} {k : Nat} (h : numberLength cs ≤ k) :
    numberLength (cs.take k) = numberLength cs := by
  fun_induction numberLength cs generalizing k with
  | case1 => simp [numberLength]
  | case2 c cs hword ih =>
    obtain ⟨k, rfl⟩ : ∃ j, k = j + 1 := ⟨k - 1, by omega⟩
    simp [numberLength, hword, ih (k := k) (by omega)]
  | case3 c cs hword hpoint ih =>
    obtain ⟨k, rfl⟩ : ∃ j, k = j + 1 := ⟨k - 1, by omega⟩
    obtain ⟨d, rest, rfl, hdigit⟩ : ∃ d rest, cs = d :: rest ∧ d.isDigit = true := by
      cases cs <;> simp_all
    -- the digit behind the point belongs to the number, so the cut leaves it there
    have hpos : 0 < numberLength (d :: rest) := by
      simp [numberLength, isWordChar_of_isDigit hdigit]
    obtain ⟨k, rfl⟩ : ∃ j, k = j + 1 := ⟨k - 1, by omega⟩
    have hcut := ih (k := k + 1) (by omega)
    rw [List.take_succ_cons] at hcut ⊢
    rw [List.take_succ_cons, numberLength, if_neg hword, hcut, if_pos (by simpa using hpoint)]
  | case4 c cs hword hpoint =>
    cases k with
    | zero => simp [numberLength]
    | succ k =>
      rw [List.take_succ_cons, numberLength, if_neg hword, if_neg]
      cases cs <;> cases k <;> simp_all

theorem rawStringAhead_take {cs : List Char} {k : Nat}
    (h : rawStringAhead cs = true → countWhile (· = '#') cs < k) :
    rawStringAhead (cs.take k) = rawStringAhead cs := by
  unfold rawStringAhead countWhile at *
  induction cs generalizing k with
  | nil => simp
  | cons c cs ih =>
    by_cases hc : c = '#'
    · cases k with
      | zero =>
        have hno : rawStringAhead (c :: cs) ≠ true := fun hyes => by simpa using h hyes
        simpa [rawStringAhead, hc] using hno
      | succ k =>
        simp only [List.take_succ_cons, hc, decide_true, List.dropWhile_cons_of_pos]
        apply ih
        intro hyes
        have := h (by simpa [hc] using hyes)
        simpa [hc] using this
    · cases k with
      | zero =>
        have hno : ((c :: cs).dropWhile (· = '#')).head? ≠ some '"' := fun hyes => by
          simpa using h (by simpa using hyes)
        simpa [hc] using hno
      | succ k => simp [hc]

/-! ## The extent of a lexeme -/

theorem apostropheExtent_take {cs : List Char} {k : Nat} (h : (apostropheExtent cs).more ≤ k) :
    apostropheExtent (cs.take k) = apostropheExtent cs := by
  fun_cases apostropheExtent cs with
  | case1 cs n closed heq =>
    simp only [apostropheExtent, heq] at h
    obtain ⟨k, rfl⟩ : ∃ j, k = j + 1 := ⟨k - 1, by omega⟩
    have hcut := apostropheLength_take (k := k) (by rw [heq]; omega)
    simp [apostropheExtent, hcut, heq]
  | case2 c cs hescape =>
    have h : 2 ≤ k := by simpa [apostropheExtent] using h
    obtain ⟨k, rfl⟩ : ∃ j, k = j + 2 := ⟨k - 2, by omega⟩
    simp [apostropheExtent]
  | case3 c cs hescape hclosed hword =>
    rw [apostropheExtent, if_pos hword] at h
    · obtain ⟨k, rfl⟩ : ∃ j, k = j + 1 := by
        refine ⟨k - 1, ?_⟩
        simp only [countWhile, List.takeWhile_cons, hword, if_true, List.length_cons] at h
        omega
      rw [List.take_succ_cons, apostropheExtent, if_pos hword, ← List.take_succ_cons,
        countWhile_take h]
      · exact hescape
      · intro rest hrest
        obtain ⟨rest', hcs⟩ := eq_cons_of_take_eq_cons hrest
        exact hclosed rest' hcs
    · exact hescape
    · exact hclosed
  | case4 c cs hescape hclosed hword =>
    cases k with
    | zero => simp [apostropheExtent]
    | succ k =>
      rw [List.take_succ_cons, apostropheExtent, if_neg hword]
      · exact hescape
      · intro rest hrest
        obtain ⟨rest', hcs⟩ := eq_cons_of_take_eq_cons hrest
        exact hclosed rest' hcs
  | case5 => simp [apostropheExtent]

/-- How a lexeme starts decides how far it goes: text that is cut off behind it does not matter. -/
theorem extent_take {c : Char} {rest : List Char} {k : Nat} (h : (extent c rest).more ≤ k) :
    extent c (rest.take k) = extent c rest := by
  -- a character that stands next in the cut text stands next in the whole one
  have lift : ∀ a x, (decide (c = a) && (rest.take k).head? == some x) = true →
      (decide (c = a) && rest.head? == some x) = true := by
    intro a x hcut
    cases rest <;> cases k <;> simp_all
  have liftRaw : ¬(decide (c = 'r') && rawStringAhead rest) = true →
      ¬(decide (c = 'r') && rawStringAhead (rest.take k)) = true := by
    intro hraw hcut
    by_cases hc : c = 'r'
    · have hno : ¬rawStringAhead rest = true := by simpa [hc] using hraw
      rw [rawStringAhead_take (fun hyes => absurd hyes hno)] at hcut
      exact hraw hcut
    · simp [hc] at hcut
  -- and what stands next is not cut off where the lexeme takes it
  have keep : ∀ {a x}, (decide (c = a) && rest.head? == some x) = true → 0 < k →
      (decide (c = a) && (rest.take k).head? == some x) = true ∧
        (rest.take k).tail = rest.tail.take (k - 1) := by
    intro a x hnext hk
    cases rest <;> cases k <;> simp_all
  -- the cases are the kinds of lexemes in the order in which they are tried: each is ruled out in the cut
  -- text as it is in the whole one
  fun_cases extent c rest with
  | case1 hblank =>
    simp only [extent, hblank, if_true] at h ⊢
    rw [countWhile_take h]
  | case2 hblank hline =>
    simp only [extent, if_neg hblank, if_pos hline] at h
    have hk : 0 < k := by
      cases rest <;> simp_all [countWhile]
      omega
    simp only [extent, if_neg hblank, if_pos (keep hline hk).1, countWhile_take h]
  | case3 hblank hline hblock n closed heq =>
    simp only [extent, if_neg hblank, if_neg hline, if_pos hblock, heq] at h
    obtain ⟨hnext, htail⟩ := keep hblock (by omega)
    have hcut : blockCommentLength 1 (rest.tail.take (k - 1)) = (n, closed) := by
      rw [blockCommentLength_take (by rw [heq]; omega), heq]
    simp only [extent, if_neg hblank, if_neg (mt (lift _ _) hline), if_pos hnext, htail, hcut]
  | case4 hblank hline hblock hraw hashes n closed heq =>
    simp only [extent, if_neg hblank, if_neg hline, if_neg hblock, if_pos hraw, heq,
      hashes] at h
    have hahead := rawStringAhead_take (k := k) (fun _ => by omega : rawStringAhead rest = true → _)
    have hcount : countWhile (· = '#') (rest.take k) = hashes := countWhile_take (by omega)
    have hcut : rawStringLength hashes ((rest.take k).drop (hashes + 1)) = (n, closed) := by
      rw [List.drop_take, rawStringLength_take (by rw [heq]; omega), heq]
    simp only [extent, if_neg hblank, if_neg (mt (lift _ _) hline), if_neg (mt (lift _ _) hblock),
      hahead, if_pos hraw, hcount, hcut]
  | case5 hblank hline hblock hraw hquote n closed heq =>
    simp only [extent, if_neg hblank, if_neg hline, if_neg hblock, if_neg hraw, if_pos hquote,
      heq] at h
    have hcut : stringLength (rest.take k) = (n, closed) := by
      rw [stringLength_take (by rw [heq]; omega), heq]
    simp only [extent, if_neg hblank, if_neg (mt (lift _ _) hline), if_neg (mt (lift _ _) hblock),
      if_neg (liftRaw hraw), if_pos hquote, hcut]
  | case6 hblank hline hblock hraw hquote hbytes n closed heq =>
    simp only [extent, if_neg hblank, if_neg hline, if_neg hblock, if_neg hraw, if_neg hquote,
      if_pos hbytes, heq] at h
    obtain ⟨hnext, htail⟩ := keep hbytes (by omega)
    have hcut : stringLength (rest.tail.take (k - 1)) = (n, closed) := by
      rw [stringLength_take (by rw [heq]; omega), heq]
    simp only [extent, if_neg hblank, if_neg (mt (lift _ _) hline), if_neg (mt (lift _ _) hblock),
      if_neg (liftRaw hraw), if_neg hquote, if_pos hnext, htail, hcut]
  | case7 hblank hline hblock hraw hquote hbytes hapostrophe =>
    simp only [extent, if_neg hblank, if_neg hline, if_neg hblock, if_neg hraw, if_neg hquote,
      if_neg hbytes, if_pos hapostrophe] at h
    simp only [extent, if_neg hblank, if_neg (mt (lift _ _) hline), if_neg (mt (lift _ _) hblock),
      if_neg (liftRaw hraw), if_neg hquote, if_neg (mt (lift _ _) hbytes), if_pos hapostrophe,
      apostropheExtent_take h]
  | case8 hblank hline hblock hraw hquote hbytes hapostrophe hdigit =>
    simp only [extent, if_neg hblank, if_neg hline, if_neg hblock, if_neg hraw, if_neg hquote,
      if_neg hbytes, if_neg hapostrophe, if_pos hdigit] at h
    simp only [extent, if_neg hblank, if_neg (mt (lift _ _) hline), if_neg (mt (lift _ _) hblock),
      if_neg (liftRaw hraw), if_neg hquote, if_neg (mt (lift _ _) hbytes), if_neg hapostrophe,
      if_pos hdigit, numberLength_take h]
  | case9 hblank hline hblock hraw hquote hbytes hapostrophe hdigit hword n =>
    simp only [extent, if_neg hblank, if_neg hline, if_neg hblock, if_neg hraw, if_neg hquote,
      if_neg hbytes, if_neg hapostrophe, if_neg hdigit, if_pos hword] at h
    simp only [extent, if_neg hblank, if_neg (mt (lift _ _) hline), if_neg (mt (lift _ _) hblock),
      if_neg (liftRaw hraw), if_neg hquote, if_neg (mt (lift _ _) hbytes), if_neg hapostrophe,
      if_neg hdigit, if_pos hword, countWhile_take h, List.take_take, Nat.min_eq_left h, n]
  | case10 hblank hline hblock hraw hquote hbytes hapostrophe hdigit hword =>
    simp only [extent, if_neg hblank, if_neg (mt (lift _ _) hline), if_neg (mt (lift _ _) hblock),
      if_neg (liftRaw hraw), if_neg hquote, if_neg (mt (lift _ _) hbytes), if_neg hapostrophe,
      if_neg hdigit, if_neg hword]

/-! ## The lexemes of a text that ends between two lexemes -/

/-- The texts of the first lexemes of a text are cut into just these lexemes. -/
theorem lexemes_flatMap_text {cs : List Char} {first others : List Lexeme}
    (h : lexemes cs = first ++ others) : lexemes (first.flatMap (·.text)) = first := by
  induction first generalizing cs with
  | nil => simp [lexemes]
  | cons l first ih =>
    cases cs with
    | nil => simp [lexemes] at h
    | cons c rest =>
      rw [lexemes, List.cons_append, List.cons.injEq] at h
      obtain ⟨rfl, hrest⟩ := h
      set k := (extent c rest).more with hk
      set behind := first.flatMap (·.text) with hbehind
      have hdrop : rest.drop k = behind ++ others.flatMap (·.text) := by
        rw [hbehind, ← List.flatMap_append, ← hrest, flatMap_text_lexemes]
      -- what is left of the text is a cut of it
      have hcut : rest.take k ++ behind = rest.take (k + behind.length) := by
        rw [List.take_add, hdrop, List.take_left]
      have hextent : extent c (rest.take (k + behind.length)) = extent c rest :=
        extent_take (by omega)
      have hfirst := ih hrest
      rw [List.flatMap_cons, List.cons_append, hcut, lexemes, hextent, ← hk, List.take_take,
        Nat.min_eq_left (by omega), List.drop_take, Nat.add_sub_cancel_left, hdrop, List.take_left,
        hfirst]

end Notebook.Scan

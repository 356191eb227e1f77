import Mathlib.Data.List.Infix
import Notebook.Syntax.Lexer

/-!
# How far recognisers look

A recogniser of quoted text looks for an end and at nothing behind it (`LooksNoFurther`); the end is a quote,
perhaps with hash signs (`EndsQuoted`).  One of a word or a number goes on as long as it can, and never over a
character at which a token ends (`Stops`).
-/

namespace Notebook.Syntax
open Notebook.Text

/-! ## Characters at which a token ends -/

/-- Code points of blanks, of the semicolon, of the slash and of the closing brace. -/
def tokenEnds : List Nat := [
  0x9, 0xa, 0xb, 0xc, 0xd, 0x20, 0x2f, 0x3b, 0x7d, 0x85, 0xa0, 0x1680, 0x2000, 0x2001, 0x2002, 0x2003,
  0x2004, 0x2005, 0x2006, 0x2007, 0x2008, 0x2009, 0x200a, 0x200e, 0x200f, 0x2028, 0x2029, 0x202f,
  0x205f, 0x3000]

/-- Every word and every number ends before such a character. -/
def endsToken (c : Char) : Bool := tokenEnds.contains c.toNat

theorem endsToken_of_isBlank {c : Char} (h : isBlank c = true) : endsToken c = true := by
  have hranges : c.toNat = 0x20 ∨ 0x9 ≤ c.toNat ∧ c.toNat ≤ 0xd ∨ c.toNat = 0x85 ∨ c.toNat = 0xa0 ∨
      c.toNat = 0x1680 ∨ 0x2000 ≤ c.toNat ∧ c.toNat ≤ 0x200a ∨ c.toNat = 0x2028 ∨ c.toNat = 0x2029 ∨
      c.toNat = 0x202f ∨ c.toNat = 0x205f ∨ c.toNat = 0x3000 := by
    simp only [isBlank, inRanges, List.any_cons, List.any_nil, Bool.or_eq_true, Bool.and_eq_true,
      decide_eq_true_eq, Bool.or_false] at h
    rcases h with (rfl | h) | h
    · exact .inl rfl
    · exact .inr (.inl h)
    · omega
  simp only [endsToken, tokenEnds, List.contains_iff_mem, List.mem_cons, List.not_mem_nil, or_false]
  omega

/-- Characters with which a word or a number may go on. -/
def goesOn (c : Char) : Bool :=
  isIdentifierStart c || isIdentifierContinue c || c.isDigit || isHexDigit c ||
    ['_', '.', '+', '-', 'e', 'E'].contains c

theorem goesOn_of_endsToken {c : Char} (h : endsToken c = true) : goesOn c = false := by
  have hall : tokenEnds.all (fun n => !goesOn (Char.ofNat n)) = true := by decide +kernel
  have hmem : c.toNat ∈ tokenEnds := List.contains_iff_mem.1 h
  have hc := List.all_eq_true.1 hall _ hmem
  rwa [Char.ofNat_toNat, Bool.not_eq_true'] at hc

theorem eq_false_of_endsToken {p : Char → Bool} (hp : ∀ c, p c = true → goesOn c = true) {c : Char}
    (h : endsToken c = true) : p c = false :=
  Bool.eq_false_iff.2 fun hc => Bool.false_ne_true ((goesOn_of_endsToken h).symm.trans (hp c hc))

/-- Nothing is left, or a character comes at which a token ends. -/
def Stops (z : List Char) : Prop := ∀ c, z.head? = some c → endsToken c = true

theorem stops_nil : Stops [] := fun _ h => absurd h (Option.some_ne_none _ ∘ Eq.symm)

theorem stops_cons {c : Char} {cs : List Char} (h : endsToken c = true) : Stops (c :: cs) := by
  intro d hd
  cases hd
  exact h

theorem Stops.head {c : Char} {cs : List Char} (h : Stops (c :: cs)) : endsToken c = true := h c rfl

/-! ## Recognisers that go on as long as they can -/

section Longest

theorem le_length_of_identifierLength? {cs : List Char} {n : Nat} (h : identifierLength? cs = some n) :
    n ≤ cs.length := by
  unfold identifierLength? at h
  split at h
  · cases h
  · rename_i c cs
    split at h
    · have := (cs.takeWhile_prefix isIdentifierContinue).length_le
      cases h
      rw [List.length_cons]
      omega
    · cases h

theorem le_length_of_wordLength? {cs : List Char} {n : Nat} (h : wordLength? cs = some n) :
    n ≤ cs.length := by
  unfold wordLength? at h
  split at h
  · rename_i hraw
    have htwo : 2 ≤ cs.length := (List.isPrefixOf_iff_prefix.1 hraw).length_le
    split at h
    · cases h
    · rename_i m hm
      have hle := le_length_of_identifierLength? hm
      rw [List.length_drop] at hle
      split at h
      · cases h
      · cases h
        omega
  · exact le_length_of_identifierLength? h

theorem le_length_of_exponentLength? {signed digits : Bool} {cs : List Char} {n : Nat}
    (h : exponentLength? signed digits cs = some n) : n ≤ cs.length := by
  fun_induction exponentLength? signed digits cs generalizing n <;> grind [Option.map_eq_some_iff]

theorem le_length_of_decimalLength? {dotted : Bool} {cs : List Char} {n : Nat}
    (h : decimalLength? dotted cs = some n) : n ≤ cs.length := by
  fun_induction decimalLength? dotted cs generalizing n <;>
    grind [Option.map_eq_some_iff, → le_length_of_exponentLength?]

theorem le_length_of_digitsLength? {base : Nat} {empty : Bool} {cs : List Char} {n : Nat}
    (h : digitsLength? base empty cs = some n) : n ≤ cs.length := by
  fun_induction digitsLength? base empty cs generalizing n <;> grind [Option.map_eq_some_iff]

theorem withSuffix_le_length {cs : List Char} {n : Nat} (h : n ≤ cs.length) :
    withSuffix cs n ≤ cs.length := by
  unfold withSuffix
  cases hn : identifierLength? (cs.drop n) with
  | none => exact h
  | some m =>
    have hle := le_length_of_identifierLength? hn
    rw [List.length_drop] at hle
    show n + m ≤ cs.length
    omega

variable {z : List Char} (hz : Stops z) (w : List Char)

include hz

theorem takeWhile_append_stops {p : Char → Bool} (hp : ∀ c, p c = true → goesOn c = true) :
    (w ++ z).takeWhile p = w.takeWhile p := by
  induction w with
  | nil =>
    cases z with
    | nil => rfl
    | cons c z =>
      simp [eq_false_of_endsToken hp hz.head]
  | cons c w ih =>
    by_cases hc : p c = true
    · simp [hc, ih]
    · simp [hc]

/-- A text that holds no character at which a token ends stands at the start or does not. -/
theorem startsWith_append_stops {s : String} (hs : s.toList.all (fun c => !endsToken c) = true) :
    startsWith (w ++ z) s = startsWith w s := by
  unfold startsWith
  generalize s.toList = s at hs
  induction s generalizing w with
  | nil => simp
  | cons a s ih =>
    simp only [List.all_cons, Bool.and_eq_true, Bool.not_eq_true'] at hs
    cases w with
    | cons c w => simp only [List.cons_append, List.isPrefixOf_cons_cons, ih w hs.2]
    | nil =>
      cases z with
      | nil => rfl
      | cons c z =>
        have hne : a ≠ c := by
          rintro rfl
          rw [hz.head] at hs
          cases hs.1
        show (a == c && s.isPrefixOf z) = false
        rw [beq_false_of_ne hne, Bool.false_and]

theorem head?_any_append_stops {p : Char → Bool} (hp : ∀ c, p c = true → goesOn c = true) :
    (w ++ z).head?.any p = w.head?.any p := by
  cases w with
  | cons c w => rfl
  | nil =>
    cases z with
    | nil => rfl
    | cons c z => exact eq_false_of_endsToken hp hz.head

theorem head?_eq_append_stops {a : Char} (ha : endsToken a = false) :
    (w ++ z).head? = some a ↔ w.head? = some a := by
  cases w with
  | cons c w => rfl
  | nil =>
    refine ⟨fun h => ?_, fun h => absurd h (Option.some_ne_none a ∘ Eq.symm)⟩
    rw [hz a h] at ha
    cases ha

theorem identifierLength?_append_stops : identifierLength? (w ++ z) = identifierLength? w := by
  cases w with
  | cons c w =>
    show (if isIdentifierStart c then some (1 + ((w ++ z).takeWhile isIdentifierContinue).length) else none) = _
    rw [takeWhile_append_stops hz w fun c hc => by simp [goesOn, hc]]
    rfl
  | nil =>
    cases z with
    | nil => rfl
    | cons c z =>
      have hc : isIdentifierStart c = false := eq_false_of_endsToken (fun c hc => by simp [goesOn, hc]) hz.head
      simp [identifierLength?, hc]

theorem wordLength?_append_stops : wordLength? (w ++ z) = wordLength? w := by
  unfold wordLength?
  rw [startsWith_append_stops hz w (by decide), identifierLength?_append_stops hz]
  split
  · rename_i hraw
    -- the mark of a raw word stands in the first part
    obtain ⟨w, rfl⟩ : ∃ v, w = 'r' :: '#' :: v := by
      obtain ⟨v, hv⟩ := List.isPrefixOf_iff_prefix.1 hraw
      exact ⟨v, hv.symm⟩
    simp only [List.cons_append, List.drop_succ_cons, List.drop_zero]
    rw [identifierLength?_append_stops hz]
    cases hn : identifierLength? w with
    | none => rfl
    | some n =>
      have hle : n ≤ w.length := le_length_of_identifierLength? hn
      simp only [List.take_append_of_le_length hle]
  · rfl

theorem literalMarks_append_stops :
    literalMarks.any (startsWith (w ++ z)) = literalMarks.any (startsWith w) := by
  have hall : ∀ s ∈ literalMarks, s.toList.all (fun c => !endsToken c) = true := by decide
  rw [Bool.eq_iff_iff, List.any_eq_true, List.any_eq_true]
  refine exists_congr fun s => and_congr_right fun hs => ?_
  rw [startsWith_append_stops hz w (hall s hs)]

theorem exponentLength?_append_stops (signed digits : Bool) :
    exponentLength? signed digits (w ++ z) = exponentLength? signed digits w := by
  induction w generalizing signed digits with
  | cons c w ih => simp only [List.cons_append, exponentLength?, ih]
  | nil =>
    cases z with
    | nil => rfl
    | cons c z =>
      have hc := goesOn_of_endsToken hz.head
      simp only [goesOn, Bool.or_eq_false_iff, List.contains_eq_mem, decide_eq_false_iff_not, List.mem_cons,
        not_or] at hc
      obtain ⟨⟨⟨-, hdigit⟩, -⟩, hline, -, hplus, hminus, -⟩ := hc
      simp [exponentLength?, hplus, hminus, hdigit, hline]

theorem decimalLength?_append_stops (dotted : Bool) :
    decimalLength? dotted (w ++ z) = decimalLength? dotted w := by
  have hnext (v : List Char) := head?_any_append_stops hz v (p := fun d => d = '.' || isIdentifierStart d)
    fun c hc => by
      rcases Bool.or_eq_true_iff.1 hc with hc | hc
      · simp [goesOn, of_decide_eq_true hc]
      · simp [goesOn, hc]
  induction w generalizing dotted with
  | cons c w ih => simp only [List.cons_append, decimalLength?, ih, hnext, exponentLength?_append_stops hz]
  | nil =>
    cases z with
    | nil => rfl
    | cons c z =>
      have hc := goesOn_of_endsToken hz.head
      simp only [goesOn, Bool.or_eq_false_iff, List.contains_eq_mem, decide_eq_false_iff_not, List.mem_cons,
        not_or] at hc
      obtain ⟨⟨⟨-, hdigit⟩, -⟩, hline, hpoint, -, -, hsmall, hlarge, -⟩ := hc
      simp [decimalLength?, hdigit, hline, hpoint, hsmall, hlarge]

theorem digitsLength?_append_stops (base : Nat) (empty : Bool) :
    digitsLength? base empty (w ++ z) = digitsLength? base empty w := by
  induction w generalizing empty with
  | cons c w ih => simp only [List.cons_append, digitsLength?, ih]
  | nil =>
    cases z with
    | nil => rfl
    | cons c z =>
      have hc := goesOn_of_endsToken hz.head
      simp only [goesOn, Bool.or_eq_false_iff, List.contains_eq_mem, decide_eq_false_iff_not, List.mem_cons,
        not_or] at hc
      obtain ⟨⟨⟨-, hdigit⟩, hhex⟩, hline, -⟩ := hc
      simp [digitsLength?, hdigit, hhex, hline]

theorem withSuffix_append_stops {n : Nat} (h : n ≤ w.length) : withSuffix (w ++ z) n = withSuffix w n := by
  unfold withSuffix
  rw [List.drop_append_of_le_length h, identifierLength?_append_stops hz]

theorem withSuffix?_append_stops {n : Nat} (h : n ≤ w.length) : withSuffix? (w ++ z) n = withSuffix? w n := by
  unfold withSuffix?
  dsimp only
  rw [withSuffix_append_stops hz w h, List.drop_append_of_le_length (withSuffix_le_length h),
    head?_any_append_stops hz _ fun c hc => by simp [goesOn, hc]]

theorem floatLength?_append_stops : floatLength? (w ++ z) = floatLength? w := by
  unfold floatLength?
  rw [head?_any_append_stops hz w fun c hc => by simp [goesOn, hc], decimalLength?_append_stops hz]
  cases hn : decimalLength? false w with
  | none => rfl
  | some n => simp only [Option.bind_some, withSuffix?_append_stops hz w (le_length_of_decimalLength? hn)]

theorem integerLength?_append_stops : integerLength? (w ++ z) = integerLength? w := by
  -- a mark of the base stands in the first part, and the digits behind it go on there
  have hmarked (base : Nat) (h : 2 ≤ w.length) :
      ((digitsLength? base true ((w ++ z).drop 2)).map (· + 2)).bind (withSuffix? (w ++ z)) =
        ((digitsLength? base true (w.drop 2)).map (· + 2)).bind (withSuffix? w) := by
    rw [List.drop_append_of_le_length h, digitsLength?_append_stops hz]
    cases hn : digitsLength? base true (w.drop 2) with
    | none => rfl
    | some n =>
      have hle := le_length_of_digitsLength? hn
      rw [List.length_drop] at hle
      simp only [Option.map_some, Option.bind_some]
      rw [withSuffix?_append_stops hz w (by omega)]
  have htwo {s : String} (hs : 2 = s.toList.length) (h : startsWith w s = true) : 2 ≤ w.length := by
    rw [hs]
    exact (List.isPrefixOf_iff_prefix.1 h).length_le
  unfold integerLength?
  dsimp only
  rw [startsWith_append_stops hz w (by decide), startsWith_append_stops hz w (by decide),
    startsWith_append_stops hz w (by decide)]
  split
  · rename_i h
    exact hmarked 16 (htwo (by decide) h)
  split
  · rename_i h
    exact hmarked 8 (htwo (by decide) h)
  split
  · rename_i h
    exact hmarked 2 (htwo (by decide) h)
  rw [digitsLength?_append_stops hz]
  cases hn : digitsLength? 10 true w with
  | none => rfl
  | some n => simp only [Option.bind_some, withSuffix?_append_stops hz w (le_length_of_digitsLength? hn)]

end Longest

/-! ## Recognisers that look for an end -/

/-- What is recognised is all that is looked at: it is recognised wherever it stands at the start. -/
def LooksNoFurther (f : List Char → Option Nat) : Prop :=
  ∀ ⦃cs : List Char⦄ ⦃n : Nat⦄, f cs = some n → ∀ ⦃ds : List Char⦄, cs.take n <+: ds → f ds = some n

theorem eq_cons_of_cons_prefix {c : Char} {cs ds : List Char} (h : c :: cs <+: ds) :
    ∃ es, ds = c :: es ∧ cs <+: es := by
  obtain ⟨behind, rfl⟩ := h
  exact ⟨cs ++ behind, rfl, List.prefix_append cs behind⟩

theorem codePointDigits?_eq {value digits n v : Nat} {cs ds : List Char}
    (h : codePointDigits? value digits cs = some (n, v)) (hds : cs.take n <+: ds) :
    codePointDigits? value digits ds = some (n, v) := by
  fun_induction codePointDigits? value digits cs generalizing n v ds with
  | case1 => cases h
  | case2 => cases h
  | case3 value digits c cs hhex hsix ih =>
    obtain ⟨⟨m, u⟩, hm, heq⟩ := Option.map_eq_some_iff.1 h
    cases heq
    obtain ⟨es, rfl, hes⟩ := eq_cons_of_cons_prefix hds
    simp [codePointDigits?, hhex, hsix, ih hm hes]
  | case4 value digits c cs hhex hline ih =>
    obtain ⟨⟨m, u⟩, hm, heq⟩ := Option.map_eq_some_iff.1 h
    cases heq
    obtain ⟨es, rfl, hes⟩ := eq_cons_of_cons_prefix hds
    rw [codePointDigits?, if_neg hhex, if_pos hline, ih hm hes]
    rfl
  | case5 value digits c cs hhex hline hend =>
    cases h
    obtain ⟨es, rfl, -⟩ := eq_cons_of_cons_prefix hds
    rw [codePointDigits?, if_neg hhex, if_neg hline, if_pos hend]
  | case6 => cases h

theorem codePoint?_eq {n v : Nat} {cs ds : List Char} (h : codePoint? cs = some (n, v))
    (hds : cs.take n <+: ds) : codePoint? ds = some (n, v) := by
  unfold codePoint? at h
  split at h
  · obtain ⟨⟨m, u⟩, hm, heq⟩ := Option.map_eq_some_iff.1 h
    cases heq
    obtain ⟨es, rfl, hes⟩ := eq_cons_of_cons_prefix hds
    simp [codePoint?, codePointDigits?_eq hm hes]
  · cases h

/-- The blanks after a line break end before a character that is seen. -/
theorem continuationLength?_eq {n : Nat} {cs ds : List Char} (h : continuationLength? cs = some n)
    (hds : cs.take (n + 1) <+: ds) : continuationLength? ds = some n := by
  fun_induction continuationLength? cs generalizing n ds with
  | case1 => cases h
  | case2 cs ih =>
    obtain ⟨m, hm, rfl⟩ := Option.map_eq_some_iff.1 h
    obtain ⟨es, rfl, hes⟩ := eq_cons_of_cons_prefix hds
    obtain ⟨fs, rfl, hfs⟩ := eq_cons_of_cons_prefix hes
    simp [continuationLength?, ih hm hfs]
  | case3 => cases h
  | case4 c cs hpair hreturn hblank ih =>
    obtain ⟨m, hm, rfl⟩ := Option.map_eq_some_iff.1 h
    obtain ⟨es, rfl, hes⟩ := eq_cons_of_cons_prefix hds
    rw [continuationLength?, if_neg hreturn, if_pos hblank, ih hm hes]
    · rfl
    · exact fun _ hc _ => hreturn hc
  | case5 c cs hpair hreturn hblank =>
    cases h
    obtain ⟨es, rfl, -⟩ := eq_cons_of_cons_prefix hds
    rw [continuationLength?, if_neg hreturn, if_neg hblank]
    exact fun _ hc _ => hreturn hc

/-- An escape is known by itself and by what follows it at once. -/
theorem escapeLength?_eq {q : Quotation} {n : Nat} {cs ds : List Char} (h : escapeLength? q cs = some n)
    (hds : cs.take (n + 1) <+: ds) : escapeLength? q ds = some n := by
  have hescape := h
  unfold escapeLength? at h
  split at h
  · -- a code in two digits, whatever digits the quotation allows
    have hn : n = 3 := by
      cases q <;> (dsimp only at h; split at h <;> cases h; rfl)
    subst hn
    obtain ⟨es, rfl, hes⟩ := eq_cons_of_cons_prefix hds
    obtain ⟨fs, rfl, hfs⟩ := eq_cons_of_cons_prefix hes
    obtain ⟨gs, rfl, -⟩ := eq_cons_of_cons_prefix hfs
    exact hescape
  · split at h
    · cases h
    rename_i cs hbytes
    split at h
    · rename_i m v hcode
      split at h
      · cases h
      rename_i hzero
      cases h
      obtain ⟨es, rfl, hes⟩ := eq_cons_of_cons_prefix hds
      have hds : codePoint? es = some (m, v) :=
        codePoint?_eq hcode ((List.take_prefix_take_left (Nat.le_succ m)).trans hes)
      simp [escapeLength?, hbytes, hds, hzero]
    · cases h
  · split at h
    · cases h
    rename_i hc
    cases h
    obtain ⟨es, rfl, -⟩ := eq_cons_of_cons_prefix hds
    simp [escapeLength?, hc]
  · obtain ⟨m, hm, rfl⟩ := Option.map_eq_some_iff.1 h
    obtain ⟨es, rfl, hes⟩ := eq_cons_of_cons_prefix hds
    obtain ⟨fs, rfl, hfs⟩ := eq_cons_of_cons_prefix hes
    simp [escapeLength?, continuationLength?_eq hm hfs]
  · rename_i c cs hx hu hzero hpair
    split at h
    · rename_i hsimple
      cases h
      obtain ⟨es, rfl, -⟩ := eq_cons_of_cons_prefix hds
      have hmem : c = 'n' ∨ c = 'r' ∨ c = 't' ∨ c = '\\' ∨ c = '\x27' ∨ c = '"' := by
        simpa using hsimple
      rcases hmem with rfl | rfl | rfl | rfl | rfl | rfl <;> simp [escapeLength?]
    · split at h
      · rename_i hbreak
        subst hbreak
        obtain ⟨m, hm, rfl⟩ := Option.map_eq_some_iff.1 h
        obtain ⟨es, rfl, hes⟩ := eq_cons_of_cons_prefix hds
        simp [escapeLength?, continuationLength?_eq hm hes]
      · cases h
  · cases h

/-- An element of quoted text is known by itself and by what follows it at once. -/
theorem elementMore?_eq {q : Quotation} {c : Char} {n : Nat} {cs ds : List Char}
    (h : elementMore? q c cs = some n) (hds : cs.take (n + 1) <+: ds) : elementMore? q c ds = some n := by
  unfold elementMore? at h ⊢
  split at h
  · rename_i hc
    rw [if_pos hc, escapeLength?_eq h hds]
  · rename_i hc
    rw [if_neg hc]
    split at h
    · rename_i hreturn
      rw [if_pos hreturn]
      split at h
      · rename_i hhead
        cases h
        -- the line feed is seen
        obtain ⟨rest, rfl⟩ := List.head?_eq_some_iff.1 hhead
        obtain ⟨es, rfl, -⟩ := eq_cons_of_cons_prefix hds
        rfl
      · cases h
    · rename_i hreturn
      rw [if_neg hreturn]
      exact h

theorem looksNoFurther_quotedLength? (q : Quotation) : LooksNoFurther (quotedLength? q) := by
  intro cs n h ds hds
  fun_induction quotedLength? q cs generalizing n ds with
  | case1 => cases h
  | case2 cs =>
    cases h
    obtain ⟨es, rfl, -⟩ := eq_cons_of_cons_prefix hds
    simp [quotedLength?]
  | case3 => cases h
  | case4 c rest hquote m hmore ih =>
    obtain ⟨k, hk, rfl⟩ := Option.map_eq_some_iff.1 h
    obtain ⟨es, rfl, hes⟩ := eq_cons_of_cons_prefix hds
    -- at least the closing quote follows the element
    have hpos : 0 < k := by
      rw [quotedLength?.eq_def] at hk
      grind [Option.map_eq_some_iff]
    have helement : elementMore? q c es = some m := by
      refine elementMore?_eq hmore (List.IsPrefix.trans ?_ hes)
      exact List.take_prefix_take_left (by omega)
    have hbehind : (rest.drop m).take k <+: es.drop m := by
      have hdrop := List.IsPrefix.drop hes m
      rwa [List.drop_take, Nat.add_sub_cancel] at hdrop
    rw [quotedLength?, if_neg hquote, helement]
    simp only [ih hk hbehind, Option.map_some]

theorem lt_of_rawLength? {q : Quotation} {hashes n : Nat} {cs : List Char}
    (h : rawLength? q hashes cs = some n) : hashes < n := by
  fun_induction rawLength? q hashes cs generalizing n <;> grind [Option.map_eq_some_iff]

theorem le_length_of_rawLength? {q : Quotation} {hashes n : Nat} {cs : List Char}
    (h : rawLength? q hashes cs = some n) : n ≤ cs.length := by
  fun_induction rawLength? q hashes cs generalizing n with
  | case1 => cases h
  | case2 cs ih =>
    obtain ⟨m, hm, rfl⟩ := Option.map_eq_some_iff.1 h
    have := ih hm
    simp only [List.length_cons]
    omega
  | case3 c cs hpair hend =>
    cases h
    simp only [Bool.and_eq_true, List.isPrefixOf_iff_prefix] at hend
    have := hend.2.length_le
    rw [List.length_replicate] at this
    simp only [List.length_cons]
    omega
  | case4 => cases h
  | case5 c cs hpair hend hadmits ih =>
    obtain ⟨m, hm, rfl⟩ := Option.map_eq_some_iff.1 h
    have := ih hm
    simp only [List.length_cons]
    omega

theorem looksNoFurther_rawLength? (q : Quotation) (hashes : Nat) :
    LooksNoFurther (rawLength? q hashes) := by
  intro cs n h ds hds
  fun_induction rawLength? q hashes cs generalizing n ds with
  | case1 => cases h
  | case2 cs ih =>
    obtain ⟨m, hm, rfl⟩ := Option.map_eq_some_iff.1 h
    obtain ⟨es, rfl, hes⟩ := eq_cons_of_cons_prefix hds
    obtain ⟨fs, rfl, hfs⟩ := eq_cons_of_cons_prefix hes
    simp [rawLength?, ih hm hfs]
  | case3 c cs hpair hend =>
    cases h
    obtain ⟨es, rfl, hes⟩ := eq_cons_of_cons_prefix hds
    simp only [Bool.and_eq_true, decide_eq_true_eq] at hend
    obtain ⟨rfl, hhashes⟩ := hend
    have hes : (List.replicate hashes '#').isPrefixOf es = true := by
      rw [List.isPrefixOf_iff_prefix] at hhashes ⊢
      obtain ⟨rest, rfl⟩ := hhashes
      rwa [List.take_left' List.length_replicate] at hes
    simp [rawLength?, hes]
  | case4 => cases h
  | case5 c cs hpair hend hadmits ih =>
    obtain ⟨m, hm, rfl⟩ := Option.map_eq_some_iff.1 h
    obtain ⟨es, rfl, hes⟩ := eq_cons_of_cons_prefix hds
    have hreturn : c ≠ '\r' := by
      rintro rfl
      simp at hadmits
    rw [rawLength?, if_neg, if_neg hadmits, ih hm hes]
    · rfl
    · -- the hash signs after the quote that ends the text are seen, so those after an earlier one are
      intro hearly
      apply hend
      simp only [Bool.and_eq_true, decide_eq_true_eq, List.isPrefixOf_iff_prefix] at hearly ⊢
      refine ⟨hearly.1, ?_⟩
      have hlong : (List.replicate hashes '#').length ≤ (cs.take m).length := by
        have hlt := lt_of_rawLength? hm
        have hle := le_length_of_rawLength? hm
        rw [List.length_replicate, List.length_take]
        omega
      exact (List.prefix_of_prefix_length_le hearly.2 hes hlong).trans (List.take_prefix m cs)
    · exact fun _ hc _ => hreturn hc

theorem looksNoFurther_rawFrom? (q : Quotation) : LooksNoFurther (rawFrom? q) := by
  intro cs n h ds hds
  unfold rawFrom? at h
  dsimp only at h
  split at h
  · rename_i inside hinside
    split at h
    · cases h
    rename_i hfew
    obtain ⟨m, hm, rfl⟩ := Option.map_eq_some_iff.1 h
    -- hash signs, a quote, and what stands inside
    set hashes := cs.takeWhile (· = '#') with hhashes
    have hall : ∀ c ∈ hashes, decide (c = '#') = true := fun c hc =>
      List.all_eq_true.1 List.all_takeWhile c hc
    have hcs : cs = hashes ++ '"' :: inside := by
      rw [← hinside]
      exact List.prefix_append_drop (cs.takeWhile_prefix _)
    have hfront : cs.take (m + hashes.length + 1) = hashes ++ '"' :: inside.take m := by
      rw [hcs, List.take_append, List.take_of_length_le (by omega)]
      have hrest : m + hashes.length + 1 - hashes.length = m + 1 := by omega
      rw [hrest, List.take_succ_cons]
    obtain ⟨behind, rfl⟩ := hds
    have hagain : rawLength? q hashes.length (inside.take m ++ behind) = some m :=
      looksNoFurther_rawLength? q _ hm (List.prefix_append _ _)
    rw [hfront, List.append_assoc, List.cons_append]
    unfold rawFrom?
    dsimp only
    rw [List.takeWhile_append_of_pos hall, List.takeWhile_cons_of_neg (by decide), List.append_nil,
      List.drop_left]
    simp only [hfew, if_false, hagain, Option.map_some]
  · cases h

theorem looksNoFurther_characterLength? (q : Quotation) : LooksNoFurther (characterLength? q) := by
  intro cs n h ds hds
  unfold characterLength? at h
  split at h
  · rename_i cs
    split at h
    · cases h
    · cases h
    split at h
    · rename_i m hm
      split at h
      · rename_i hquote
        cases h
        obtain ⟨es, rfl, hes⟩ := eq_cons_of_cons_prefix hds
        obtain ⟨rest, hrest⟩ := List.head?_eq_some_iff.1 hquote
        have hdrop := List.IsPrefix.drop hes m
        rw [List.drop_take, Nat.add_sub_cancel_left, hrest, List.take_succ_cons, List.take_zero] at hdrop
        obtain ⟨fs, hfs, -⟩ := eq_cons_of_cons_prefix hdrop
        have hhead : es.head? = cs.head? := by
          cases cs with
          | nil => rw [List.drop_nil] at hrest; cases hrest
          | cons c cs =>
            obtain ⟨gs, rfl, -⟩ := eq_cons_of_cons_prefix hes
            rfl
        unfold characterLength?
        -- the character behind the backslash is the same, so again it ends no line
        simp only [hhead, escapeLength?_eq hm hes, hfs, List.head?_cons, if_true]
      · cases h
    · cases h
  · rename_i c rest hc
    split at h
    · rename_i hadmits
      cases h
      obtain ⟨es, rfl, hes⟩ := eq_cons_of_cons_prefix hds
      obtain ⟨fs, rfl, -⟩ := eq_cons_of_cons_prefix hes
      rw [characterLength?, if_pos hadmits]
      exact hc
    · cases h
  · cases h

theorem lt_of_nestedCommentLength? {depth n : Nat} {cs : List Char}
    (h : nestedCommentLength? depth cs = some n) : 2 ≤ n := by
  fun_induction nestedCommentLength? depth cs generalizing n <;> grind [Option.map_eq_some_iff]

theorem looksNoFurther_nestedCommentLength? (depth : Nat) :
    LooksNoFurther (nestedCommentLength? depth) := by
  intro cs n h ds hds
  fun_induction nestedCommentLength? depth cs generalizing n ds with
  | case1 => cases h
  | case2 depth cs ih =>
    obtain ⟨m, hm, rfl⟩ := Option.map_eq_some_iff.1 h
    obtain ⟨es, rfl, hes⟩ := eq_cons_of_cons_prefix hds
    obtain ⟨fs, rfl, hfs⟩ := eq_cons_of_cons_prefix hes
    simp [nestedCommentLength?, ih hm hfs]
  | case3 depth cs hdepth =>
    cases h
    obtain ⟨es, rfl, hes⟩ := eq_cons_of_cons_prefix hds
    obtain ⟨fs, rfl, -⟩ := eq_cons_of_cons_prefix hes
    simp [nestedCommentLength?, hdepth]
  | case4 depth cs hdepth ih =>
    obtain ⟨m, hm, rfl⟩ := Option.map_eq_some_iff.1 h
    obtain ⟨es, rfl, hes⟩ := eq_cons_of_cons_prefix hds
    obtain ⟨fs, rfl, hfs⟩ := eq_cons_of_cons_prefix hes
    simp [nestedCommentLength?, hdepth, ih hm hfs]
  | case5 depth c cs hopen hclose ih =>
    obtain ⟨m, hm, rfl⟩ := Option.map_eq_some_iff.1 h
    obtain ⟨es, rfl, hes⟩ := eq_cons_of_cons_prefix hds
    -- the next character is seen too, so no mark begins here
    obtain ⟨m, rfl⟩ := Nat.exists_eq_add_of_le (lt_of_nestedCommentLength? hm)
    cases cs with
    | nil => cases hm
    | cons d cs =>
      have hnext := ih hm hes
      rw [Nat.add_comm, List.take_succ_cons] at hes
      obtain ⟨fs, rfl, -⟩ := eq_cons_of_cons_prefix hes
      rw [nestedCommentLength?, hnext]
      · rfl
      · intro rest hc hrest
        cases hrest
        exact hopen cs hc rfl
      · intro rest hc hrest
        cases hrest
        exact hclose cs hc rfl

/-- A quoted or raw literal without its suffix. -/
def stringBody? : List Char → Option Nat
  | '"' :: r => (quotedLength? .text r).map (· + 1)
  | 'r' :: r => (rawFrom? .text r).map (· + 1)
  | 'b' :: '"' :: r => (quotedLength? .bytes r).map (· + 2)
  | 'b' :: 'r' :: r => (rawFrom? .bytes r).map (· + 2)
  | 'c' :: '"' :: r => (quotedLength? .cText r).map (· + 2)
  | 'c' :: 'r' :: r => (rawFrom? .cText r).map (· + 2)
  | 'b' :: '\x27' :: r => (characterLength? .bytes r).map (· + 2)
  | '\x27' :: r => (characterLength? .text r).map (· + 1)
  | _ => none

theorem stringLength?_eq (cs : List Char) : stringLength? cs = (stringBody? cs).map (withSuffix cs) := rfl

theorem looksNoFurther_stringBody? : LooksNoFurther stringBody? := by
  have hone {f : List Char → Option Nat} (hf : LooksNoFurther f) {c : Char} {r ds : List Char} {n : Nat}
      (h : (f r).map (· + 1) = some n) (hds : (c :: r).take n <+: ds) :
      ∃ es, ds = c :: es ∧ (f es).map (· + 1) = some n := by
    obtain ⟨m, hm, rfl⟩ := Option.map_eq_some_iff.1 h
    obtain ⟨es, rfl, hes⟩ := eq_cons_of_cons_prefix hds
    exact ⟨es, rfl, by rw [hf hm hes]; rfl⟩
  have htwo {f : List Char → Option Nat} (hf : LooksNoFurther f) {c d : Char} {r ds : List Char} {n : Nat}
      (h : (f r).map (· + 2) = some n) (hds : (c :: d :: r).take n <+: ds) :
      ∃ es, ds = c :: d :: es ∧ (f es).map (· + 2) = some n := by
    obtain ⟨m, hm, rfl⟩ := Option.map_eq_some_iff.1 h
    obtain ⟨es, rfl, hes⟩ := eq_cons_of_cons_prefix hds
    obtain ⟨fs, rfl, hfs⟩ := eq_cons_of_cons_prefix hes
    exact ⟨fs, rfl, by rw [hf hm hfs]; rfl⟩
  intro cs n h ds hds
  -- the cases are the ways in which a literal is marked
  unfold stringBody? at h
  split at h
  · obtain ⟨es, rfl, hes⟩ := hone (looksNoFurther_quotedLength? .text) h hds
    exact hes
  · obtain ⟨es, rfl, hes⟩ := hone (looksNoFurther_rawFrom? .text) h hds
    exact hes
  · obtain ⟨es, rfl, hes⟩ := htwo (looksNoFurther_quotedLength? .bytes) h hds
    exact hes
  · obtain ⟨es, rfl, hes⟩ := htwo (looksNoFurther_rawFrom? .bytes) h hds
    exact hes
  · obtain ⟨es, rfl, hes⟩ := htwo (looksNoFurther_quotedLength? .cText) h hds
    exact hes
  · obtain ⟨es, rfl, hes⟩ := htwo (looksNoFurther_rawFrom? .cText) h hds
    exact hes
  · obtain ⟨es, rfl, hes⟩ := htwo (looksNoFurther_characterLength? .bytes) h hds
    exact hes
  · obtain ⟨es, rfl, hes⟩ := hone (looksNoFurther_characterLength? .text) h hds
    exact hes
  · cases h

/-! ## How quoted text ends -/

/-- A quote, or a hash sign behind the quote of raw text. -/
def closesQuoted (c : Char) : Bool := c = '"' || c = '\x27' || c = '#'

/-- What is recognised ends with a quote or a hash sign. -/
def EndsQuoted (f : List Char → Option Nat) : Prop :=
  ∀ ⦃cs n⦄, f cs = some n → ∃ c, (cs.take n).getLast? = some c ∧ closesQuoted c = true

theorem getLast?_take_cons {c d : Char} {cs : List Char} {n : Nat} (h : (cs.take n).getLast? = some d) :
    ((c :: cs).take (n + 1)).getLast? = some d := by
  rw [List.take_succ_cons, List.getLast?_cons, h]
  rfl

theorem getLast?_take_drop {d : Char} {cs : List Char} {m n : Nat} (h : ((cs.drop m).take n).getLast? = some d) :
    (cs.take (n + m)).getLast? = some d := by
  rw [Nat.add_comm, List.take_add, List.getLast?_append, h]
  rfl

theorem endsQuoted_quotedLength? (q : Quotation) : EndsQuoted (quotedLength? q) := by
  intro cs n h
  fun_induction quotedLength? q cs generalizing n with
  | case1 => cases h
  | case2 cs =>
    cases h
    exact ⟨'"', rfl, by decide⟩
  | case3 => cases h
  | case4 c rest hquote m hmore ih =>
    obtain ⟨k, hk, rfl⟩ := Option.map_eq_some_iff.1 h
    obtain ⟨d, hd, hcloses⟩ := ih hk
    exact ⟨d, getLast?_take_cons (getLast?_take_drop hd), hcloses⟩

theorem endsQuoted_rawLength? (q : Quotation) (hashes : Nat) : EndsQuoted (rawLength? q hashes) := by
  intro cs n h
  fun_induction rawLength? q hashes cs generalizing n with
  | case1 => cases h
  | case2 cs ih =>
    obtain ⟨m, hm, rfl⟩ := Option.map_eq_some_iff.1 h
    obtain ⟨d, hd, hcloses⟩ := ih hm
    exact ⟨d, getLast?_take_cons (getLast?_take_cons hd), hcloses⟩
  | case3 c cs hpair hend =>
    cases h
    simp only [Bool.and_eq_true, decide_eq_true_eq, List.isPrefixOf_iff_prefix] at hend
    obtain ⟨rfl, rest, rfl⟩ := hend
    rw [List.take_succ_cons, List.take_left' List.length_replicate, List.getLast?_cons]
    refine ⟨_, rfl, ?_⟩
    cases hashes with
    | zero => rfl
    | succ n => rw [List.getLast?_replicate]; rfl
  | case4 => cases h
  | case5 c cs hpair hend hadmits ih =>
    obtain ⟨m, hm, rfl⟩ := Option.map_eq_some_iff.1 h
    obtain ⟨d, hd, hcloses⟩ := ih hm
    exact ⟨d, getLast?_take_cons hd, hcloses⟩

theorem endsQuoted_rawFrom? (q : Quotation) : EndsQuoted (rawFrom? q) := by
  intro cs n h
  unfold rawFrom? at h
  dsimp only at h
  split at h
  · rename_i inside hinside
    split at h
    · cases h
    obtain ⟨m, hm, rfl⟩ := Option.map_eq_some_iff.1 h
    obtain ⟨d, hd, hcloses⟩ := endsQuoted_rawLength? q _ hm
    refine ⟨d, ?_, hcloses⟩
    have hquote := getLast?_take_cons (c := '"') hd
    rw [← hinside] at hquote
    have hall := getLast?_take_drop hquote
    rwa [Nat.add_right_comm] at hall
  · cases h

theorem endsQuoted_characterLength? (q : Quotation) : EndsQuoted (characterLength? q) := by
  intro cs n h
  unfold characterLength? at h
  split at h
  · rename_i cs
    split at h
    · cases h
    · cases h
    split at h
    · rename_i m hm
      split at h
      · rename_i hquote
        cases h
        obtain ⟨rest, hrest⟩ := List.head?_eq_some_iff.1 hquote
        have hlast : ((cs.drop m).take 1).getLast? = some '\x27' := by rw [hrest]; rfl
        have hall := getLast?_take_cons (c := '\\') (getLast?_take_drop hlast)
        rw [Nat.add_comm 1 m] at hall
        exact ⟨_, hall, by decide⟩
      · cases h
    · cases h
  · split at h
    · cases h
      exact ⟨'\x27', rfl, by decide⟩
    · cases h
  · cases h

theorem endsQuoted_stringBody? : EndsQuoted stringBody? := by
  have hone {f : List Char → Option Nat} (hf : EndsQuoted f) {c : Char} {r : List Char} {n : Nat}
      (h : (f r).map (· + 1) = some n) : ∃ d, ((c :: r).take n).getLast? = some d ∧ closesQuoted d = true := by
    obtain ⟨m, hm, rfl⟩ := Option.map_eq_some_iff.1 h
    obtain ⟨d, hd, hcloses⟩ := hf hm
    exact ⟨d, getLast?_take_cons hd, hcloses⟩
  have htwo {f : List Char → Option Nat} (hf : EndsQuoted f) {b c : Char} {r : List Char} {n : Nat}
      (h : (f r).map (· + 2) = some n) :
      ∃ d, ((b :: c :: r).take n).getLast? = some d ∧ closesQuoted d = true := by
    obtain ⟨m, hm, rfl⟩ := Option.map_eq_some_iff.1 h
    obtain ⟨d, hd, hcloses⟩ := hf hm
    exact ⟨d, getLast?_take_cons (getLast?_take_cons hd), hcloses⟩
  intro cs n h
  -- the cases are the ways in which a literal is marked
  unfold stringBody? at h
  split at h
  · exact hone (endsQuoted_quotedLength? .text) h
  · exact hone (endsQuoted_rawFrom? .text) h
  · exact htwo (endsQuoted_quotedLength? .bytes) h
  · exact htwo (endsQuoted_rawFrom? .bytes) h
  · exact htwo (endsQuoted_quotedLength? .cText) h
  · exact htwo (endsQuoted_rawFrom? .cText) h
  · exact htwo (endsQuoted_characterLength? .bytes) h
  · exact hone (endsQuoted_characterLength? .text) h
  · cases h

end Notebook.Syntax

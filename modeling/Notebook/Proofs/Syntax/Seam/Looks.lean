import Notebook.Syntax.Grammar

/-!
# Looking at tokens that end in braces

Readers look no further than three tokens ahead, and none of them looks behind a group in braces.  So what is
seen in tokens that end in one does not depend on what follows them.
-/

namespace Notebook.Syntax
open Notebook.Text

/-! ## Tokens that end in braces -/

/-- The last token is a group in braces. -/
def Shut (u : List TokenTree) : Prop := ∃ before body s, u = before ++ [.group .brace body s]

section Shut

variable {t : TokenTree} {u v : List TokenTree}

theorem Shut.ne_nil (h : Shut u) : u ≠ [] := by
  obtain ⟨before, body, s, rfl⟩ := h
  exact List.append_ne_nil_of_right_ne_nil _ (List.cons_ne_nil _ _)

theorem Shut.of_append (h : Shut (u ++ v)) (hv : v ≠ []) : Shut v := by
  obtain ⟨before, body, s, h⟩ := h
  obtain ⟨w, t, rfl⟩ := List.eq_nil_or_concat v |>.resolve_left hv
  rw [List.concat_eq_append, ← List.append_assoc] at h
  obtain ⟨-, h⟩ := List.append_inj' h rfl
  exact ⟨w, body, s, by rw [List.concat_eq_append, h]⟩

theorem Shut.append (h : Shut v) (u : List TokenTree) : Shut (u ++ v) := by
  obtain ⟨before, body, s, rfl⟩ := h
  exact ⟨u ++ before, body, s, (List.append_assoc ..).symm⟩

/-- The first token is the last one, or not. -/
theorem Shut.of_cons (h : Shut (t :: u)) : (∃ body s, t = .group .brace body s ∧ u = []) ∨ Shut u := by
  by_cases hu : u = []
  · subst hu
    obtain ⟨before, body, s, h⟩ := h
    have h : [] ++ [t] = before ++ [.group .brace body s] := h
    exact .inl ⟨body, s, (List.append_singleton_inj.1 h).2, rfl⟩
  · exact .inr (h.of_append (u := [t]) hu)

theorem Shut.tail (h : Shut (t :: u)) (hbrace : isGroup .brace (t :: u) = false) : Shut u := by
  obtain ⟨body, s, rfl, -⟩ | hu := h.of_cons
  · cases hbrace
  · exact hu

end Shut

/-! ## Looking ahead -/

/-- What is seen in tokens that end in braces does not depend on what follows them. -/
def Sharp (q : List TokenTree → Bool) : Prop := ∀ u back, Shut u → q (u ++ back) = q u

section Sharp

variable {q r : List TokenTree → Bool}

theorem sharp_of_head {q : List TokenTree → Bool} (h : ∀ t u, q (t :: u) = q [t]) : Sharp q := by
  intro u back hu
  cases u with
  | nil => exact absurd rfl hu.ne_nil
  | cons t u => rw [List.cons_append, h, ← h t u]

@[grind .]
theorem sharp_isWord (w : String) : Sharp (isWord w) := sharp_of_head fun t _ => by cases t <;> rfl

@[grind .]
theorem sharp_isIdent : Sharp isIdent := sharp_of_head fun t _ => by cases t <;> rfl

@[grind .]
theorem sharp_isAnyWord : Sharp isAnyWord := sharp_of_head fun t _ => by cases t <;> rfl

@[grind .]
theorem sharp_isGroup (d : Delimiter) : Sharp (isGroup d) := sharp_of_head fun t _ => by cases t <;> rfl

@[grind .]
theorem sharp_isTextLiteral : Sharp isTextLiteral := sharp_of_head fun t _ => by cases t <;> rfl

/-- A group in braces is not seen, so there are two tokens to look at. -/
theorem sharp_of_two {q : List TokenTree → Bool} (hgroup : ∀ body s u, q (.group .brace body s :: u) = false)
    (h : ∀ t t' u, q (t :: t' :: u) = q [t, t']) : Sharp q := by
  intro u back hu
  obtain _ | ⟨t, u⟩ := u
  · exact absurd rfl hu.ne_nil
  obtain ⟨body, s, rfl, rfl⟩ | hu := hu.of_cons
  · rw [List.cons_append, hgroup, hgroup]
  · obtain _ | ⟨t', u⟩ := u
    · exact absurd rfl hu.ne_nil
    · rw [List.cons_append, List.cons_append, h, ← h t t' u]

@[grind .]
theorem sharp_isLifetime : Sharp isLifetime := by
  refine sharp_of_two (fun _ _ _ => rfl) fun t t' u => ?_
  unfold isLifetime
  split
  · rename_i heq
    cases heq
    rfl
  · rename_i hother
    split
    · rename_i heq
      cases heq
      exact absurd rfl (hother _ _ _ _)
    · rfl

@[grind .]
theorem sharp_isLiteral : Sharp isLiteral := by
  refine sharp_of_two (fun _ _ _ => rfl) fun t t' u => ?_
  cases t with
  | literal | word | group => rfl
  | punct c joint s =>
    by_cases hc : c = '-'
    · subst hc
      cases t' <;> rfl
    · have hother (v : List TokenTree) : isLiteral (.punct c joint s :: v) = false := by
        unfold isLiteral
        split <;> simp_all
      rw [hother, hother]

theorem isPunctChars_append {u : List TokenTree} (hu : Shut u) (cs : List Char) (back : List TokenTree) :
    isPunctChars cs (u ++ back) = isPunctChars cs u := by
  induction cs generalizing u with
  | nil => rfl
  | cons c cs ih =>
    obtain _ | ⟨t, u⟩ := u
    · exact absurd rfl hu.ne_nil
    obtain ⟨body, s, rfl, rfl⟩ | htail := hu.of_cons
    · rfl
    · cases t with
      | punct d joint s => simp only [List.cons_append, isPunctChars, ih htail]
      | word | literal | group => rfl

@[grind .]
theorem sharp_isPunct (s : String) : Sharp (isPunct s) := fun _ back hu => isPunctChars_append hu s.toList back

theorem skipOne_cons_cons (t t' : TokenTree) (u : List TokenTree) :
    skipOne (t :: t' :: u) = if isLifetime [t, t'] then u else t' :: u := by
  unfold skipOne isLifetime
  split
  · rename_i heq
    cases heq
    rfl
  · rename_i hother heq
    cases heq
    split
    · rename_i heq
      cases heq
      exact (hother _ _ _ _ rfl rfl).elim
    · rfl
  · rename_i heq
    cases heq

/-- What follows the first token can be seen if that is no group in braces. -/
theorem Shut.skipOne {u : List TokenTree} (hu : Shut u) (hbrace : isGroup .brace u = false) :
    Shut (skipOne u) ∧ ∀ back, Syntax.skipOne (u ++ back) = Syntax.skipOne u ++ back := by
  obtain _ | ⟨t, u⟩ := u
  · exact absurd rfl hu.ne_nil
  have htail : Shut u := hu.tail hbrace
  obtain _ | ⟨t', u⟩ := u
  · exact absurd rfl htail.ne_nil
  simp only [List.cons_append, skipOne_cons_cons]
  by_cases hlifetime : isLifetime [t, t'] = true
  · -- the name behind an apostrophe is no group either
    have hname : isGroup .brace (t' :: u) = false := by
      unfold isLifetime at hlifetime
      split at hlifetime
      · rename_i heq
        cases heq
        rfl
      · cases hlifetime
    simp only [hlifetime, if_true]
    exact ⟨htail.tail hname, fun _ => trivial⟩
  · simp only [hlifetime, Bool.false_eq_true, if_false]
    exact ⟨htail, fun _ => rfl⟩

/-- What is seen behind the first token. -/
def second (q : List TokenTree → Bool) (u : List TokenTree) : Bool := !u.isEmpty && q (skipOne u)

/-- What is seen behind the first two tokens. -/
def third (q : List TokenTree → Bool) (u : List TokenTree) : Bool :=
  !u.isEmpty && !(skipOne u).isEmpty && q (skipOne (skipOne u))

theorem isEmpty_append {u : List TokenTree} (hu : Shut u) (back : List TokenTree) :
    (u ++ back).isEmpty = u.isEmpty := by
  rw [Bool.eq_iff_iff, List.isEmpty_iff, List.isEmpty_iff, List.append_eq_nil_iff]
  exact ⟨fun h => h.1, fun h => absurd h hu.ne_nil⟩

theorem second_append {u : List TokenTree} (hr : Sharp r) (hu : Shut u) (hbrace : isGroup .brace u = false)
    (back : List TokenTree) : second r (u ++ back) = second r u := by
  obtain ⟨hsecond, hskip⟩ := hu.skipOne hbrace
  unfold second
  rw [isEmpty_append hu, hskip, hr _ back hsecond]

theorem third_append {u : List TokenTree} (hr : Sharp r) (hu : Shut u) (hbrace : isGroup .brace u = false)
    (hbrace' : isGroup .brace (skipOne u) = false) (back : List TokenTree) : third r (u ++ back) = third r u := by
  obtain ⟨hsecond, hskip⟩ := hu.skipOne hbrace
  obtain ⟨hthird, hskip'⟩ := hsecond.skipOne hbrace'
  unfold third
  rw [isEmpty_append hu, hskip, isEmpty_append hsecond, hskip', hr _ back hthird]

/-- Punctuation is no group, and neither is what follows the first character of it. -/
theorem isGroup_of_isPunct {s : String} {u : List TokenTree} (hs : s.toList ≠ []) (h : isPunct s u = true) :
    isGroup .brace u = false := by
  unfold isPunct at h
  obtain ⟨c, cs, hcs⟩ := List.exists_cons_of_ne_nil hs
  rw [hcs] at h
  cases u with
  | nil => rfl
  | cons t u =>
    cases t with
    | punct | word | literal => rfl
    | group => cases h

theorem isGroup_skipOne_of_colons {u : List TokenTree} (h : isPunct "::" u = true) :
    isGroup .brace (skipOne u) = false := by
  change isPunctChars [':', ':'] u = true at h
  rcases u with _ | ⟨t, u⟩
  · cases h
  cases t with
  | word | literal | group => cases h
  | punct d joint s =>
    simp only [isPunctChars, Bool.and_eq_true, Bool.or_eq_true, decide_eq_true_eq] at h
    obtain ⟨⟨rfl, -⟩, hempty | ⟨-, h⟩⟩ := h
    · cases hempty
    rcases u with _ | ⟨t', u⟩
    · cases h
    cases t' with
    | word | literal | group => cases h
    | punct => rfl

end Sharp

/-! ### One look at a time -/

section Append

variable {u : List TokenTree} (hu : Shut u) (back : List TokenTree)

include hu

@[simp]
theorem isWord_append (w : String) : isWord w (u ++ back) = isWord w u := sharp_isWord w u back hu

@[simp]
theorem isIdent_append : isIdent (u ++ back) = isIdent u := sharp_isIdent u back hu

@[simp]
theorem isAnyWord_append : isAnyWord (u ++ back) = isAnyWord u := sharp_isAnyWord u back hu

@[simp]
theorem isGroup_append (d : Delimiter) : isGroup d (u ++ back) = isGroup d u := sharp_isGroup d u back hu

@[simp]
theorem isTextLiteral_append : isTextLiteral (u ++ back) = isTextLiteral u := sharp_isTextLiteral u back hu

@[simp]
theorem isLifetime_append : isLifetime (u ++ back) = isLifetime u := sharp_isLifetime u back hu

@[simp]
theorem isLiteral_append : isLiteral (u ++ back) = isLiteral u := sharp_isLiteral u back hu

@[simp]
theorem isPunct_append (s : String) : isPunct s (u ++ back) = isPunct s u := sharp_isPunct s u back hu

@[simp]
theorem isPathWord_append : isPathWord (u ++ back) = isPathWord u := by
  simp [isPathWord, hu]

@[simp]
theorem isMacroStart_append : isMacroStart (u ++ back) = isMacroStart u := by
  simp [isMacroStart, hu]

@[simp]
theorem operator?_append : operator? (u ++ back) = operator? u := by
  simp [operator?, hu]

@[simp]
theorem isAssignment_append : isAssignment (u ++ back) = isAssignment u := by
  simp [isAssignment, hu]

@[simp]
theorem precedenceAhead_append : precedenceAhead (u ++ back) = precedenceAhead u := by
  simp [precedenceAhead, hu]

@[simp]
theorem canBegin_append : canBegin (u ++ back) = canBegin u := by
  simp [canBegin, hu]

end Append

/-! ### Nothing but a group -/

section Brace

variable {u : List TokenTree} (h : isGroup .brace u = true)

include h

theorem exists_group_of_isGroup : ∃ body s v, u = .group .brace body s :: v := by
  unfold isGroup at h
  split at h
  · rename_i e body s v
    exact ⟨body, s, v, by rw [← of_decide_eq_true h]⟩
  · cases h

@[simp]
theorem isWord_of_brace (w : String) : isWord w u = false := by
  obtain ⟨body, s, v, rfl⟩ := exists_group_of_isGroup h
  rfl

@[simp]
theorem isIdent_of_brace : isIdent u = false := by
  obtain ⟨body, s, v, rfl⟩ := exists_group_of_isGroup h
  rfl

@[simp]
theorem isLifetime_of_brace : isLifetime u = false := by
  obtain ⟨body, s, v, rfl⟩ := exists_group_of_isGroup h
  rfl

@[simp]
theorem isLiteral_of_brace : isLiteral u = false := by
  obtain ⟨body, s, v, rfl⟩ := exists_group_of_isGroup h
  rfl

@[simp]
theorem isPunct_of_brace {s : String} (hs : s ≠ "") : isPunct s u = false := by
  obtain ⟨body, t, v, rfl⟩ := exists_group_of_isGroup h
  obtain ⟨c, cs, hcs⟩ := List.exists_cons_of_ne_nil (mt String.toList_eq_nil_iff.1 hs)
  rw [isPunct, hcs]
  rfl

@[simp]
theorem isPathWord_of_brace : isPathWord u = false := by
  simp [isPathWord, h]

end Brace

end Notebook.Syntax

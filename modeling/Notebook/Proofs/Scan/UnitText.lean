import Mathlib.Data.List.Basic
import Notebook.Scan.Completeness
import Notebook.Proofs.Scan.Cut

/-!
# Units are complete in themselves

Reading on behind the end of a unit is never needed to find that end, except for what may go on
with a closing brace.  So the text of a unit, read alone, is found to be one unit that takes up all
of it (`completeness_eq_complete`).
-/

namespace Notebook.Scan
open Notebook.Text

/-! ## Tokens of a text that ends between two lexemes -/

theorem exists_lexemes_of_placed {offset : Nat} {ls : List Lexeme} {first others : List Token}
    (h : placed offset ls = first ++ others) :
    ∃ ls₁ ls₂, ls = ls₁ ++ ls₂ ∧ first = placed offset ls₁ ∧ (others = [] → ls₂ = []) := by
  induction first generalizing offset ls with
  | nil =>
    refine ⟨[], ls, rfl, rfl, ?_⟩
    rintro rfl
    cases ls with
    | nil => rfl
    | cons l ls => simp [placed] at h
  | cons t first ih =>
    cases ls with
    | nil => simp [placed] at h
    | cons l ls =>
      rw [placed, List.cons_append, List.cons.injEq] at h
      obtain ⟨ls₁, ls₂, rfl, rfl, hnil⟩ := ih h.2
      exact ⟨l :: ls₁, ls₂, rfl, by rw [placed, h.1], hnil⟩

theorem getLast?_placed {offset stop : Nat} {ls : List Lexeme}
    (h : (placed offset ls).getLast?.map (·.stop) = some stop) :
    stop = offset + width (ls.flatMap (·.text)) := by
  induction ls generalizing offset with
  | nil => simp [placed] at h
  | cons l ls ih =>
    cases ls with
    | nil => simpa [placed] using h.symm
    | cons l' ls =>
      rw [placed, placed, List.getLast?_cons_cons, ← placed] at h
      have hall : (l :: l' :: ls).flatMap (·.text) = l.text ++ (l' :: ls).flatMap (·.text) :=
        List.flatMap_cons
      rw [ih h, hall, width_append, Nat.add_assoc]

/-! ## Where the reading of a unit ends -/

/-- What a significant token does: it refuses the text, it ends the unit, or the reading goes on.  Of
what follows it, only the next significant token can matter. -/
theorem completenessFrom_significant (p : Progress) {t : Token} (rest : List Token)
    (hend : t.terminated = true) (hsig : t.isSignificant = true) :
    (∀ total, completenessFrom total p (t :: rest) = .complete total) ∨
    (∀ total, completenessFrom total p (t :: rest) = .complete t.stop ∧
      completenessFrom total p [t] = .complete t.stop) ∨
    ∃ p' : Progress, p'.begun.map (·.2) = some t ∧ ∀ total rest',
      rest'.find? (·.isSignificant) = rest.find? (·.isSignificant) →
        completenessFrom total p (t :: rest') = completenessFrom total p' rest' := by
  have hmeans : ¬t.kind.isTrivia = true := by simpa [Token.isSignificant] using hsig
  set unit := (p.begun.map (·.1)).getD (UnitClass.ofToken t) with hunit
  by_cases hpunct : t.kind ≠ .punctuation
  · refine .inr (.inr ⟨{ p with begun := some (unit, t) }, rfl, fun total rest' _ => ?_⟩)
    simp only [completenessFrom, hend, Bool.not_true, Bool.false_eq_true, if_false, hmeans,
      if_pos hpunct, hunit]
  by_cases hopen : t.isAny ["(", "[", "\x7b"] = true
  · refine .inr (.inr ⟨⟨t.text ++ p.stack, some (unit, t)⟩, rfl, fun total rest' _ => ?_⟩)
    simp only [completenessFrom, hend, Bool.not_true, Bool.false_eq_true, if_false, hmeans,
      if_neg hpunct, if_pos hopen, hunit]
  by_cases hclose : t.isAny [")", "]", "\x7d"] = true
  · by_cases hanswer : p.stack.head? ≠ some (openingOf t)
    · refine .inl fun total => ?_
      simp only [completenessFrom, hend, Bool.not_true, Bool.false_eq_true, if_false, hmeans,
        if_neg hpunct, if_neg hopen, if_pos hclose, if_pos hanswer]
    by_cases hlast : (t.is "\x7d" && p.stack.tail.isEmpty && decide (unit ≠ .simple) &&
        !(rest.find? (·.isSignificant)).any unit.continuesWith) = true
    · refine .inr (.inl fun total => ?_)
      have halone : (t.is "\x7d" && p.stack.tail.isEmpty && decide (unit ≠ .simple)) = true := by
        simp only [Bool.and_eq_true] at hlast ⊢
        exact hlast.1
      simp only [completenessFrom, hend, Bool.not_true, Bool.false_eq_true, if_false, hmeans,
        if_neg hpunct, if_neg hopen, if_pos hclose, if_neg hanswer, ← hunit, if_pos hlast,
        List.find?_nil, Option.any_none, Bool.not_false, Bool.and_true, if_pos halone, and_self]
    · refine .inr (.inr ⟨⟨p.stack.tail, some (unit, t)⟩, rfl, fun total rest' hnext => ?_⟩)
      simp only [completenessFrom, hend, Bool.not_true, Bool.false_eq_true, if_false, hmeans,
        if_neg hpunct, if_neg hopen, if_pos hclose, if_neg hanswer, ← hunit, hnext, if_neg hlast]
  by_cases hsemi : (t.is ";" && p.stack.isEmpty) = true
  · refine .inr (.inl fun total => ?_)
    simp only [completenessFrom, hend, Bool.not_true, Bool.false_eq_true, if_false, hmeans,
      if_neg hpunct, if_neg hopen, if_neg hclose, if_pos hsemi, and_self]
  · refine .inr (.inr ⟨⟨p.stack, some (unit, t)⟩, rfl, fun total rest' _ => ?_⟩)
    simp only [completenessFrom, hend, Bool.not_true, Bool.false_eq_true, if_false, hmeans,
      if_neg hpunct, if_neg hopen, if_neg hclose, if_neg hsemi, hunit]

/-- Where no token is left, the unit ends with its last token. -/
theorem stop_of_completenessFrom_nil {total n : Nat} {p : Progress}
    (h : completenessFrom total p [] = .complete n) :
    (p.begun.map (·.2)).map (·.stop) = some n := by
  rw [completenessFrom] at h
  cases hb : p.begun with
  | none => simp [hb] at h
  | some b =>
    simp only [hb] at h
    split at h
    · cases h
    · simpa using h

/-- The tokens that decide that a text holds a unit.  They are the first ones, they decide it alone,
and unless they are all tokens they end where the unit ends. -/
theorem completenessFrom_cut {total n : Nat} {p : Progress} {ts : List Token}
    (h : completenessFrom total p ts = .complete n) :
    ∃ first others, ts = first ++ others ∧ completenessFrom n p first = .complete n ∧
      first.find? (·.isSignificant) = ts.find? (·.isSignificant) ∧
      (others = [] ∧ n = total ∨
        (first.getLast?.or (p.begun.map (·.2))).map (·.stop) = some n) := by
  induction ts generalizing p with
  | nil =>
    refine ⟨[], [], rfl, by rw [completenessFrom] at h ⊢; exact h, rfl, .inr ?_⟩
    exact stop_of_completenessFrom_nil h
  | cons t rest ih =>
    by_cases hend : t.terminated = true
    case neg => simp [completenessFrom, hend] at h
    by_cases hsig : t.isSignificant = true
    case neg =>
      have htrivia : t.kind.isTrivia = true := by simpa [Token.isSignificant] using hsig
      have hskip : ∀ total ts, completenessFrom total p (t :: ts) = completenessFrom total p ts := by
        intro total ts
        simp [completenessFrom, hend, htrivia]
      rw [hskip] at h
      obtain ⟨first, others, rfl, hfirst, hnext, hstop⟩ := ih h
      cases first with
      | nil =>
        -- what is left carries no meaning, and the unit ended before it
        refine ⟨[], t :: others, rfl, hfirst, ?_, .inr (stop_of_completenessFrom_nil hfirst)⟩
        rw [List.find?_cons_of_neg hsig]
        exact hnext
      | cons u first =>
        refine ⟨t :: u :: first, others, rfl, by rw [hskip]; exact hfirst, ?_, ?_⟩
        · rw [List.find?_cons_of_neg hsig, hnext, List.find?_cons_of_neg hsig]
        · rcases hstop with hstop | hstop
          · exact .inl hstop
          · exact .inr (by rw [List.getLast?_cons_cons, hstop])
    -- the token refuses the text, ends the unit, or hands on to what follows it
    rcases completenessFrom_significant p rest hend hsig with hrefused | hended | ⟨p', hp', hgoes⟩
    · rw [hrefused, Completeness.complete.injEq] at h
      exact ⟨t :: rest, [], by simp, by rw [hrefused], rfl, .inl ⟨rfl, h.symm⟩⟩
    · rw [(hended total).1, Completeness.complete.injEq] at h
      refine ⟨[t], rest, rfl, by rw [(hended n).2, h], ?_, .inr (by simp [h])⟩
      rw [List.find?_cons_of_pos hsig, List.find?_cons_of_pos hsig]
    · rw [hgoes total rest rfl] at h
      obtain ⟨first, others, rfl, hfirst, hnext, hstop⟩ := ih h
      refine ⟨t :: first, others, rfl, by rw [hgoes n first hnext]; exact hfirst, ?_, ?_⟩
      · rw [List.find?_cons_of_pos hsig, List.find?_cons_of_pos hsig]
      · rcases hstop with hstop | hstop
        · exact .inl hstop
        · right
          rw [hp'] at hstop
          rw [List.getLast?_cons, ← hstop]
          cases first.getLast? <;> rfl

/-! ## The text of a unit -/

theorem takeBytes_width_append (front back : List Char) :
    takeBytes (front ++ back) (width front) = front := by
  induction front with
  | nil =>
    cases back with
    | nil => rfl
    | cons c back => simp [takeBytes, width, Nat.not_le.mpr c.utf8Size_pos]
  | cons c front ih =>
    simp only [List.cons_append, takeBytes, width, Nat.le_add_right, if_true,
      Nat.add_sub_cancel_left, ih]

/-- A unit takes up the text of the first lexemes, at least one of them, and this text read alone is
one unit that takes up all of it. -/
theorem completeness_eq_complete {cs : List Char} {n : Nat} (h : completeness cs = .complete n) :
    ∃ front back, cs = front ++ back ∧ front ≠ [] ∧ n = width front ∧
      completeness front = .complete n := by
  obtain ⟨first, others, hcut, hfirst, -, hstop⟩ := completenessFrom_cut h
  obtain ⟨ls₁, ls₂, hls, rfl, hnil⟩ := exists_lexemes_of_placed hcut
  have hcs : cs = ls₁.flatMap (·.text) ++ ls₂.flatMap (·.text) := by
    rw [← List.flatMap_append, ← hls, flatMap_text_lexemes]
  -- the unit ends where its last token ends, or it takes up all of the text
  have hn : n = width (ls₁.flatMap (·.text)) := by
    rcases hstop with ⟨hothers, rfl⟩ | hstop
    · rw [hcs, hnil hothers, List.flatMap_nil, List.append_nil]
    · rw [Option.map_none, Option.or_none] at hstop
      rw [getLast?_placed hstop, Nat.zero_add]
  refine ⟨ls₁.flatMap (·.text), ls₂.flatMap (·.text), hcs, ?_, hn, ?_⟩
  · cases ls₁ with
    | nil => simp [placed, completenessFrom] at hfirst
    | cons l ls₁ =>
      cases cs with
      | nil => simp [lexemes] at hls
      | cons c rest =>
        rw [lexemes, List.cons_append, List.cons.injEq] at hls
        simp [← hls.1]
  · rw [completeness, tokens, lexemes_flatMap_text hls, ← hn]
    exact hfirst

end Notebook.Scan

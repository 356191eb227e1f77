import Notebook.Proofs.Scan.Joined
import Notebook.Proofs.Segment.Partition

/-!
# Units put together

What is cut out of a text as a unit is one for itself, so the length that the scanner answers always cuts
the text properly (`unit_is_complete`).  The other way round, texts that are units for themselves, with
blanks or nothing between them, are the units of the joined text (`split_composed`).  For this a text must
end in a semicolon, or in the closing brace of an item or a block with which the next text does not go on.
-/

namespace Notebook
open Notebook.Text Notebook.Scan

/-! ## A unit is complete in itself -/

theorem takeBytes_of_complete {cs : List Char} {n : Nat} (h : completeness cs = .complete n) :
    0 < n ∧ n ≤ width cs ∧ isBoundary cs n = true ∧ completeness (takeBytes cs n) = .complete n := by
  obtain ⟨front, back, rfl, hne, rfl, hfront⟩ := completeness_eq_complete h
  have hboundary := isBoundary_append front back
  rw [takeBytes_width_append]
  exact ⟨width_pos hne, le_width_of_isBoundary hboundary, hboundary, hfront⟩

theorem Segment.completeness_of_next_incomplete {source : List Char} {start : Nat} {rest : Segment}
    (h : next completeness source start = .incomplete rest) : completeness rest.text = .incomplete := by
  unfold next at h
  simp only at h
  split at h
  · cases h
  split at h
  · cases h
  · rename_i hincomplete
    cases h
    exact hincomplete
  · rename_i length hcomplete
    -- no length is refused
    obtain ⟨hpos, -, hboundary, -⟩ := takeBytes_of_complete hcomplete
    rw [if_pos (by simp [isUnitLength, hpos, hboundary])] at h
    cases h

theorem exists_next_of_mem_units {analyze : List Char → Completeness} {source : List Char} {start : Nat}
    {u : Segment} (h : u ∈ (splitFrom analyze source start).units) :
    ∃ start, Segment.next analyze source start = .unit u := by
  fun_induction splitFrom analyze source start with
  | case1 start hdone => cases h
  | case2 start rest hincomplete => cases h
  | case3 start v hunit rest ih =>
    rcases List.mem_cons.1 h with rfl | h
    · exact ⟨start, hunit⟩
    · exact ih h

/-- The length of a unit cuts the text between two characters and takes something, and what it takes is
the same unit for itself. So a text is held back only where the scanner wants more, and a unit that is
split again is left as it is. -/
theorem unit_is_complete :
    (∀ cs n, completeness cs = .complete n →
      0 < n ∧ n ≤ width cs ∧ isBoundary cs n = true ∧ completeness (takeBytes cs n) = .complete n) ∧
    (∀ source start rest, Segment.next completeness source start = .incomplete rest →
      completeness rest.text = .incomplete) ∧
    ∀ source, ∀ u ∈ (split completeness source).units, split completeness u.text = ⟨[⟨0, u.text⟩], none⟩ := by
  refine ⟨fun cs n => takeBytes_of_complete,
    fun source start rest => Segment.completeness_of_next_incomplete, fun source u hu => ?_⟩
  obtain ⟨start, hunit⟩ := exists_next_of_mem_units hu
  exact split_text_of_next hunit

/-- A unit with a text behind it that is held back. -/
theorem unit_is_complete_let :
    completeness "let x = 1; let".toList = .complete 10 ∧
      completeness (takeBytes "let x = 1; let".toList 10) = .complete 10 ∧
      Segment.next completeness "let x = 1; let".toList 10 = .incomplete ⟨11, "let".toList⟩ ∧
      completeness "let".toList = .incomplete ∧
      (split completeness "let x = 1; let".toList).units = [⟨0, "let x = 1;".toList⟩] ∧
      split completeness "let x = 1;".toList = ⟨[⟨0, "let x = 1;".toList⟩], none⟩ := by
  have hcomplete : completeness "let x = 1; let".toList = .complete 10 := by decide +kernel
  have hrest : Segment.next completeness "let x = 1; let".toList 10 = .incomplete ⟨11, "let".toList⟩ := by
    decide +kernel
  have hunits : (split completeness "let x = 1; let".toList).units = [⟨0, "let x = 1;".toList⟩] := by
    decide +kernel
  obtain ⟨hcut, hheld, hagain⟩ := unit_is_complete
  exact ⟨hcomplete, (hcut _ 10 hcomplete).2.2.2, hrest, hheld _ _ _ hrest, hunits,
    hagain _ ⟨0, "let x = 1;".toList⟩ (by rw [hunits]; exact List.mem_singleton_self _)⟩

/-! ## Closed texts -/

/-- The first lexeme of a text that carries meaning. -/
def firstMeaning? (cs : List Char) : Option Lexeme := (lexemes cs).find? (!·.kind.isTrivia)

/-- The class of the unit that a text starts with. -/
def unitClass? (cs : List Char) : Option UnitClass := ({} : Progress).unit? (tokens cs)

/-- The last lexeme of a text is this character. -/
def EndsWith (cs : List Char) (x : Char) : Prop := (lexemes cs).getLast? = some ⟨.punctuation, [x], true⟩

/-- A text that is a unit and ends where no bracket is open, in a semicolon or, if the unit is an item or a
block, in a closing brace. -/
structure IsClosed (cs : List Char) : Prop where
  starts : ∃ c rest, cs = c :: rest ∧ isBlank c = false
  matched : Mark.readAll [] (marks Position.origin (lexemes cs)) = some []
  complete : completeness cs = .complete (width cs)
  ends : EndsWith cs ';' ∨ EndsWith cs '\x7d' ∧ ∃ c, unitClass? cs = some c ∧ c ≠ .simple

/-- The one text does not go on with the other: if it ends in a brace, neither an `else` nor a semicolon
comes next, nor a point behind a block. -/
def MayPrecede (cs ds : List Char) : Prop :=
  EndsWith cs '\x7d' → ∀ l, firstMeaning? ds = some l → l.text ≠ "else".toList ∧ l.text ≠ [';'] ∧
    (unitClass? cs = some .block → l.text ≠ ['.'])

theorem find?_placed (offset : Nat) (ls : List Lexeme) :
    ((placed offset ls).find? (·.isSignificant)).map (·.toLexeme) = ls.find? (!·.kind.isTrivia) := by
  induction ls generalizing offset with
  | nil => rfl
  | cons l ls ih =>
    rw [placed]
    by_cases htrivia : l.kind.isTrivia = true
    · rw [List.find?_cons_of_neg (by simp [isSignificant_placed, htrivia]),
        List.find?_cons_of_neg (by simp [htrivia]), ih]
    · rw [List.find?_cons_of_pos (by simp [isSignificant_placed, htrivia]),
        List.find?_cons_of_pos (by simp [htrivia])]
      rfl

theorem continuesWith_eq_false {c : UnitClass} {t : Token} (helse : t.text ≠ "else".toList)
    (hsemicolon : t.text ≠ [';']) (hpoint : c = .block → t.text ≠ ['.']) : c.continuesWith t = false := by
  have htexts : t.is "else" = false ∧ t.is ";" = false ∧ (c = .block → t.is "." = false) := by
    simpa [Token.is] using And.intro helse ⟨hsemicolon, hpoint⟩
  obtain ⟨helse, hsemicolon, hpoint⟩ := htexts
  unfold UnitClass.continuesWith
  by_cases hc : c = .block
  · simp [helse, hsemicolon, hpoint hc]
  · simp [helse, hsemicolon, hc]

namespace IsClosed

variable {u : List Char}

theorem exists_last (hu : IsClosed u) :
    ∃ first x, lexemes u = first ++ [⟨.punctuation, [x], true⟩] ∧ Separates x := by
  rcases hu.ends with hlast | ⟨hlast, -⟩
  · obtain ⟨first, hfirst⟩ := List.getLast?_eq_some_iff.1 hlast
    exact ⟨first, ';', hfirst, separates_semicolon⟩
  · obtain ⟨first, hfirst⟩ := List.getLast?_eq_some_iff.1 hlast
    exact ⟨first, '\x7d', hfirst, separates_brace⟩

/-- What is appended to a closed text matters for neither its lexemes nor, if it may follow, its end. -/
theorem append (hu : IsClosed u) (back : List Char) :
    lexemes (u ++ back) = lexemes u ++ lexemes back ∧
      ((EndsWith u '\x7d' → ∀ c t, unitClass? u = some c →
          (placed (width u) (lexemes back)).find? (·.isSignificant) = some t → c.continuesWith t = false) →
        completeness (u ++ back) = .complete (width u)) := by
  obtain ⟨first, x, hfirst, hx⟩ := hu.exists_last
  have htext := flatMap_text_lexemes u
  have hmatched := hu.matched
  have hcomplete := hu.complete
  rw [hfirst] at htext hmatched
  rw [completeness, tokens, hfirst] at hcomplete
  obtain ⟨hend, hcloses⟩ := completenessFrom_append 0 rfl (List.cons_ne_nil _ _) hmatched
    (by rw [hcomplete, htext, Nat.zero_add])
  have hlexemes : lexemes (u ++ back) = lexemes u ++ lexemes back :=
    lexemes_append hx hfirst (fun l hl => hend l (List.mem_append_left _ hl)) back
  refine ⟨hlexemes, fun hfollows => ?_⟩
  have hlast : Closes (unitClass? u) ⟨.punctuation, [x], true⟩ (placed (width u) (lexemes back)) := by
    have hends := hu.ends
    rcases hends with hsemicolon | ⟨hbrace, c, hc, hsimple⟩
    · rw [EndsWith, hfirst, List.getLast?_concat] at hsemicolon
      cases hsemicolon
      exact .inl rfl
    · refine .inr ⟨?_, c, hc, hsimple, fun t => hfollows hbrace c t hc⟩
      rw [EndsWith, hfirst, List.getLast?_concat] at hbrace
      cases hbrace
      rfl
  have hall := hcloses (width (u ++ back)) (placed (width u) (lexemes back))
    (by rw [← hfirst]; exact hlast)
  rw [completeness, tokens, hlexemes, hfirst, placed_append, htext, Nat.zero_add, hall, htext, Nat.zero_add]

theorem trimStart_append (hu : IsClosed u) (back : List Char) : trimStart (u ++ back) = u ++ back := by
  obtain ⟨c, rest, rfl, hc⟩ := hu.starts
  simp [trimStart, hc]

theorem firstMeaning?_append (hu : IsClosed u) (back : List Char) : firstMeaning? (u ++ back) = firstMeaning? u := by
  obtain ⟨first, x, hfirst, -⟩ := hu.exists_last
  have hsome : ((lexemes u).find? (!·.kind.isTrivia)).isSome = true := by
    rw [hfirst, List.find?_append, Option.isSome_or, Bool.or_eq_true]
    exact .inr rfl
  rw [firstMeaning?, (hu.append back).1, List.find?_append]
  exact Option.or_of_isSome hsome

/-- The scanner finds a closed text where another text follows that may. -/
theorem completeness_append (hu : IsClosed u) {back : List Char} (hback : MayPrecede u back) :
    completeness (u ++ back) = .complete (width u) := by
  refine (hu.append back).2 fun hbrace c t hc ht => ?_
  have hfirst : firstMeaning? back = some t.toLexeme := by
    rw [firstMeaning?, ← find?_placed (width u), ht]
    rfl
  obtain ⟨helse, hsemicolon, hpoint⟩ := hback hbrace t.toLexeme hfirst
  exact continuesWith_eq_false helse hsemicolon fun hblock => hpoint (hblock ▸ hc)

end IsClosed

/-! ## Closed texts in a row -/

theorem trimStart_blanks {gap : List Char} (hgap : gap.all isBlank = true) (back : List Char) :
    trimStart (gap ++ back) = trimStart back :=
  List.dropWhile_append_of_pos (List.all_eq_true.1 hgap)

theorem firstMeaning?_trimStart (cs : List Char) : firstMeaning? (trimStart cs) = firstMeaning? cs := by
  obtain ⟨before, hbefore, -, htrivia⟩ := exists_lexemes_trimStart cs
  have hnone : before.find? (!·.kind.isTrivia) = none := by
    rw [List.find?_eq_none]
    intro l hl
    simp [htrivia l hl]
  rw [firstMeaning?, firstMeaning?, hbefore, List.find?_append, hnone, Option.none_or]

/-- Texts in a row, each of them behind a gap, and a gap behind the last one. -/
def composed : List (List Char × List Char) → List Char → List Char
  | [], gap => gap
  | (gap, text) :: parts, last => gap ++ (text ++ composed parts last)

/-- The segments that the texts are, where the first gap starts at an offset. -/
def segmentsAt (offset : Nat) : List (List Char × List Char) → List Segment
  | [] => []
  | (gap, text) :: parts => ⟨offset + width gap, text⟩ :: segmentsAt (offset + width gap + width text) parts

namespace Segment

theorem next_closed {u gap back : List Char} (hu : IsClosed u) (hgap : gap.all isBlank = true)
    (hback : MayPrecede u back) (front : List Char) :
    next completeness (front ++ (gap ++ (u ++ back))) (width front) = .unit ⟨width front + width gap, u⟩ := by
  obtain ⟨c, rest, hstart, -⟩ := hu.starts
  have hne : u ≠ [] := hstart ▸ List.cons_ne_nil c rest
  have hempty : (u ++ back).isEmpty = false := by simp [hne]
  have hlength : isUnitLength (u ++ back) (width u) = true := by
    simp [isUnitLength, width_pos hne, isBoundary_append]
  have hgapWidth : width (gap ++ (u ++ back)) - width (u ++ back) = width gap := by
    rw [width_append, Nat.add_sub_cancel]
  simp only [next, dropBytes_append, trimStart_blanks hgap, hu.trimStart_append, floorOffset_append, hgapWidth,
    hempty, Bool.false_eq_true, if_false, hu.completeness_append hback, hlength, if_true, takeBytes_width_append]

theorem next_blanks {gap : List Char} (hgap : gap.all isBlank = true) (front : List Char) :
    next completeness (front ++ gap) (width front) = .done := by
  have htrim : trimStart gap = [] := by
    rw [← List.append_nil gap, trimStart_blanks hgap]
    rfl
  simp [next, dropBytes_append, htrim]

end Segment

/-- What may precede the next closed text may precede all that is left. -/
theorem mayPrecede_composed {u : List Char} {parts : List (List Char × List Char)} {last : List Char}
    (hchain : (u :: parts.map (·.2)).IsChain MayPrecede) (hclosed : ∀ part ∈ parts, IsClosed part.2)
    (hgaps : ∀ part ∈ parts, part.1.all isBlank = true) (hlast : last.all isBlank = true) :
    MayPrecede u (composed parts last) := by
  intro hbrace l hl
  rw [← firstMeaning?_trimStart] at hl
  cases parts with
  | nil =>
    have htrim : trimStart (composed [] last) = [] := by
      rw [composed, ← List.append_nil last, trimStart_blanks hlast]
      rfl
    rw [htrim] at hl
    simp [firstMeaning?, lexemes] at hl
  | cons part parts =>
    obtain ⟨gap, v⟩ := part
    have hv : IsClosed v := hclosed _ List.mem_cons_self
    have hgap : gap.all isBlank = true := hgaps _ List.mem_cons_self
    rw [composed, trimStart_blanks hgap, hv.trimStart_append, hv.firstMeaning?_append] at hl
    rw [List.map_cons, List.isChain_cons_cons] at hchain
    exact hchain.1 hbrace l hl

theorem splitFrom_composed {parts : List (List Char × List Char)} {last : List Char}
    (hchain : (parts.map (·.2)).IsChain MayPrecede) (hclosed : ∀ part ∈ parts, IsClosed part.2)
    (hgaps : ∀ part ∈ parts, part.1.all isBlank = true) (hlast : last.all isBlank = true) (front : List Char) :
    splitFrom completeness (front ++ composed parts last) (width front) = ⟨segmentsAt (width front) parts, none⟩ := by
  induction parts generalizing front with
  | nil => exact splitFrom_done (Segment.next_blanks hlast front)
  | cons part parts ih =>
    obtain ⟨gap, u⟩ := part
    have hothers : ∀ part ∈ parts, IsClosed part.2 := fun part hpart => hclosed part (.tail _ hpart)
    have hgaps' : ∀ part ∈ parts, part.1.all isBlank = true := fun part hpart => hgaps part (.tail _ hpart)
    have hback := mayPrecede_composed hchain hothers hgaps' hlast
    have hunit := Segment.next_closed (hclosed _ List.mem_cons_self) (hgaps _ List.mem_cons_self) hback front
    -- what is behind the unit is left
    have hrest := ih hchain.of_cons hothers hgaps' (front ++ gap ++ u)
    have hwidth : width (front ++ gap ++ u) = width front + width gap + width u := by
      rw [width_append, width_append]
    rw [hwidth, List.append_assoc, List.append_assoc] at hrest
    rw [composed, splitFrom_unit hunit, Segment.stop, hrest, segmentsAt]

/-- Closed texts with blanks or nothing between them are the units of the joined text, if none goes on with
the next one; and a closed text that ends in a semicolon is a unit whatever is appended to it. -/
theorem split_composed :
    (∀ (parts : List (List Char × List Char)) (last : List Char),
      (∀ part ∈ parts, IsClosed part.2 ∧ part.1.all isBlank = true) → last.all isBlank = true →
      (parts.map (·.2)).IsChain MayPrecede →
      split completeness (composed parts last) = ⟨segmentsAt 0 parts, none⟩) ∧
    ∀ u, IsClosed u → EndsWith u ';' → ∀ v, completeness (u ++ v) = .complete (width u) := by
  refine ⟨fun parts last hparts hlast hchain => ?_, fun u hu hsemicolon v => ?_⟩
  · exact splitFrom_composed hchain (fun part hpart => (hparts part hpart).1)
      (fun part hpart => (hparts part hpart).2) hlast []
  · refine hu.completeness_append fun hbrace => ?_
    rw [EndsWith, hsemicolon] at hbrace
    cases hbrace

/-- A function and a statement, and a gap only behind them. -/
theorem split_composed_function :
    IsClosed "fn f() \x7b\x7d".toList ∧ IsClosed "f();".toList ∧
      MayPrecede "fn f() \x7b\x7d".toList "f();".toList ∧
      split completeness "fn f() \x7b\x7df(); ".toList =
        ⟨[⟨0, "fn f() \x7b\x7d".toList⟩, ⟨9, "f();".toList⟩], none⟩ ∧
      completeness "f();\x27".toList = .complete 4 := by
  have hfunction : IsClosed "fn f() \x7b\x7d".toList := by
    refine ⟨⟨'f', "n f() \x7b\x7d".toList, rfl, by decide +kernel⟩, by decide +kernel, by decide +kernel,
      .inr ⟨?_, .item, by decide +kernel, by decide⟩⟩
    unfold EndsWith
    decide +kernel
  have hsemicolon : EndsWith "f();".toList ';' := by
    unfold EndsWith
    decide +kernel
  have hcall : IsClosed "f();".toList :=
    ⟨⟨'f', "();".toList, rfl, by decide +kernel⟩, by decide +kernel, by decide +kernel, .inl hsemicolon⟩
  have hfollows : MayPrecede "fn f() \x7b\x7d".toList "f();".toList := by
    intro _ l hl
    have hname : firstMeaning? "f();".toList = some ⟨.word, ['f'], true⟩ := by decide +kernel
    rw [hname] at hl
    cases hl
    exact ⟨by decide, by decide, fun _ => by decide⟩
  refine ⟨hfunction, hcall, hfollows, ?_, split_composed.2 _ hcall hsemicolon ['\x27']⟩
  exact split_composed.1 [([], "fn f() \x7b\x7d".toList), ([], "f();".toList)] [' ']
    (by simpa using And.intro hfunction hcall) (by decide +kernel) (by simpa using hfollows)

end Notebook

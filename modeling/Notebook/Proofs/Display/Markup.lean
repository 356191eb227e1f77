import Mathlib.Tactic.SplitIfs
import Notebook.Display

/-!
# Values cannot inject markup

Only lists are shown as markup. Their elements stand in a table or a list whose own markup is fixed, and hold
none themselves: what stands between the tags of an element is its text, with entities for the characters that
markup is made of (`elements_hold_no_markup`).

The elements of a list of numbers are put in as they are. Their texts have nothing in them that would be
written in another way (`isUnmarked_of_mem_floatText`).
-/

namespace Notebook
open Notebook.Guest Notebook.Decimal

/-! ## Entities -/

/-- A character that is written by name. -/
structure Entity where
  name : List Char
  char : Char
  deriving DecidableEq, Repr

/-- How the character is written. -/
def Entity.written (e : Entity) : List Char := '&' :: (e.name ++ [';'])

/-- The characters that are not written as themselves. -/
def entities : List Entity := [
  ⟨"amp".toList, '&'⟩, ⟨"lt".toList, '<'⟩, ⟨"gt".toList, '>'⟩, ⟨"quot".toList, '"'⟩, ⟨"#39".toList, '\x27'⟩]

/-- Characters that are written as themselves. -/
def IsUnmarked (c : Char) : Prop := ∀ e ∈ entities, c ≠ e.char

instance (c : Char) : Decidable (IsUnmarked c) := inferInstanceAs (Decidable (∀ e ∈ entities, c ≠ e.char))

/-- A text with characters in the place of entities, behind the first characters, which are passed over. -/
def unescapeAfter : Nat → List Char → List Char
  | _, [] => []
  | n + 1, _ :: cs => unescapeAfter n cs
  | 0, c :: cs =>
    match entities.find? (·.written.isPrefixOf (c :: cs)) with
    | some e => e.char :: unescapeAfter (e.written.length - 1) cs
    | none => c :: unescapeAfter 0 cs

/-- A text with characters in the place of entities. -/
def unescapeHtml (cs : List Char) : List Char := unescapeAfter 0 cs

theorem unescapeHtml_written {e : Entity} (he : e ∈ entities) (cs : List Char) :
    unescapeHtml (e.written ++ cs) = e.char :: unescapeHtml cs := by
  simp only [entities, List.mem_cons, List.not_mem_nil, or_false] at he
  rcases he with rfl | rfl | rfl | rfl | rfl <;> rfl

theorem unescapeHtml_cons {c : Char} (hc : c ≠ '&') (cs : List Char) :
    unescapeHtml (c :: cs) = c :: unescapeHtml cs := by
  have hnone : entities.find? (·.written.isPrefixOf (c :: cs)) = none := by
    rw [List.find?_eq_none]
    intro e _ hstart
    rw [List.isPrefixOf_iff_prefix, Entity.written, List.cons_prefix_cons] at hstart
    exact hc hstart.1.symm
  rw [unescapeHtml, unescapeAfter, hnone]
  rfl

/-! ## Texts in markup -/

theorem escapeChar_eq (c : Char) :
    (∃ e ∈ entities, e.char = c ∧ escapeChar c = e.written) ∨ (IsUnmarked c ∧ escapeChar c = [c]) := by
  unfold escapeChar
  split_ifs with hamp hlt hgt hquot hapostrophe
  · exact .inl ⟨⟨"amp".toList, '&'⟩, by decide, hamp.symm, rfl⟩
  · exact .inl ⟨⟨"lt".toList, '<'⟩, by decide, hlt.symm, rfl⟩
  · exact .inl ⟨⟨"gt".toList, '>'⟩, by decide, hgt.symm, rfl⟩
  · exact .inl ⟨⟨"quot".toList, '"'⟩, by decide, hquot.symm, rfl⟩
  · exact .inl ⟨⟨"#39".toList, '\x27'⟩, by decide, hapostrophe.symm, rfl⟩
  · refine .inr ⟨?_, rfl⟩
    simp only [IsUnmarked, entities, List.forall_mem_cons]
    exact ⟨hamp, hlt, hgt, hquot, hapostrophe, List.forall_mem_nil _⟩

theorem escapeHtml_cons (c : Char) (cs : List Char) : escapeHtml (c :: cs) = escapeChar c ++ escapeHtml cs := by
  rw [escapeHtml, List.flatMap_cons, escapeHtml]

theorem escapeHtml_append (as bs : List Char) : escapeHtml (as ++ bs) = escapeHtml as ++ escapeHtml bs := by
  rw [escapeHtml, List.flatMap_append, escapeHtml, escapeHtml]

theorem escapeHtml_of_isUnmarked {cs : List Char} (h : ∀ c ∈ cs, IsUnmarked c) : escapeHtml cs = cs := by
  induction cs with
  | nil => rfl
  | cons c cs ih =>
    rw [List.forall_mem_cons] at h
    have hchar : escapeChar c = [c] := by
      rcases escapeChar_eq c with ⟨e, he, hec, -⟩ | ⟨-, hwritten⟩
      · exact absurd hec.symm (h.1 e he)
      · exact hwritten
    rw [escapeHtml_cons, hchar, ih h.2]
    rfl

/-- An entity holds the character that entities start with, and none of the others that are written as
entities. -/
theorem isUnmarked_or_of_mem_written {e : Entity} (he : e ∈ entities) {c : Char} (hc : c ∈ e.written) :
    IsUnmarked c ∨ c = '&' := by
  have hall : ∀ e ∈ entities, (e.written.all fun c => IsUnmarked c ∨ c = '&') = true := by decide
  exact of_decide_eq_true (List.all_eq_true.1 (hall e he) c hc)

/-- Of the characters that are written as entities only the one that starts them is in a text in markup. -/
theorem notMem_escapeHtml {c : Char} (hc : ¬ IsUnmarked c) (hne : c ≠ '&') (cs : List Char) :
    c ∉ escapeHtml cs := by
  intro h
  obtain ⟨d, -, hc'⟩ := List.mem_flatMap.1 h
  rcases escapeChar_eq d with ⟨e, he, -, hwritten⟩ | ⟨hd, hwritten⟩
  · rw [hwritten] at hc'
    exact (isUnmarked_or_of_mem_written he hc').elim hc hne
  · rw [hwritten, List.mem_singleton] at hc'
    exact hc (hc' ▸ hd)

theorem suffix_of_suffix_append {c : Char} {front back cs : List Char} (hc : c ∉ front)
    (h : c :: back <:+ front ++ cs) : c :: back <:+ cs := by
  induction front with
  | nil => exact h
  | cons d front ih =>
    rw [List.mem_cons, not_or] at hc
    rcases List.suffix_cons_iff.1 h with heq | hsuffix
    · exact absurd (List.cons.inj heq).1 hc.1
    · exact ih hc.2 hsuffix

theorem ampersand_notMem_name : ∀ e ∈ entities, '&' ∉ e.name ++ [';'] := by decide

/-- Wherever the character that entities start with stands in a text in markup, an entity starts. -/
theorem exists_written_prefix {back cs : List Char} (h : '&' :: back <:+ escapeHtml cs) :
    ∃ e ∈ entities, e.written <+: '&' :: back := by
  induction cs with
  | nil => exact absurd (List.suffix_nil.1 h) (List.cons_ne_nil _ _)
  | cons c cs ih =>
    rw [escapeHtml_cons] at h
    rcases escapeChar_eq c with ⟨e, he, -, hwritten⟩ | ⟨hunmarked, hwritten⟩
    · rw [hwritten, Entity.written, List.cons_append] at h
      rcases List.suffix_cons_iff.1 h with heq | hsuffix
      · refine ⟨e, he, ?_⟩
        rw [heq, Entity.written, ← List.cons_append]
        exact List.prefix_append _ _
      · exact ih (suffix_of_suffix_append (ampersand_notMem_name e he) hsuffix)
    · rw [hwritten] at h
      apply ih
      apply suffix_of_suffix_append _ h
      rw [List.mem_singleton]
      exact fun heq => hunmarked ⟨"amp".toList, '&'⟩ (by decide) heq.symm

/-- Entities are told apart wherever they stand: reading a text in markup gives the text. -/
theorem unescapeHtml_escapeHtml (cs : List Char) : unescapeHtml (escapeHtml cs) = cs := by
  induction cs with
  | nil => rfl
  | cons c cs ih =>
    rw [escapeHtml_cons]
    rcases escapeChar_eq c with ⟨e, he, hchar, hwritten⟩ | ⟨hunmarked, hwritten⟩
    · rw [hwritten, unescapeHtml_written he, ih, hchar]
    · have hne : c ≠ '&' := hunmarked ⟨"amp".toList, '&'⟩ (by decide)
      rw [hwritten, List.singleton_append, unescapeHtml_cons hne, ih]

/-! ## Numbers -/

/-- A digit is none of the characters that markup is made of. -/
theorem isUnmarked_of_isDigit {c : Char} (h : c.isDigit = true) : IsUnmarked c := by
  intro e he heq
  have hdigit : ∀ e ∈ entities, e.char.isDigit = false := by decide
  rw [heq, hdigit e he] at h
  cases h

theorem isUnmarked_of_mem_natText {n : Nat} {c : Char} (h : c ∈ natText n) : IsUnmarked c :=
  isUnmarked_of_isDigit (Nat.isDigit_of_mem_toDigits (by decide) (by decide) h)

theorem isUnmarked_of_mem_intText {n : Int} {c : Char} (h : c ∈ intText n) : IsUnmarked c := by
  unfold intText at h
  split at h
  · rcases List.mem_cons.1 h with rfl | hmem
    · decide
    · exact isUnmarked_of_mem_natText hmem
  · exact isUnmarked_of_mem_natText h

theorem isUnmarked_of_mem_replicate {n : Nat} {c : Char} (h : c ∈ List.replicate n '0') : IsUnmarked c := by
  rw [List.eq_of_mem_replicate h]
  decide

theorem isUnmarked_of_mem_positional {d : Digits} {c : Char} (h : c ∈ d.positional) : IsUnmarked c := by
  unfold Digits.positional at h
  split at h
  · rcases List.mem_append.1 h with hdigits | hzeros
    · exact isUnmarked_of_mem_natText hdigits
    · exact isUnmarked_of_mem_replicate hzeros
  · -- on either side of the point stand digits, or zeros before them
    have hdigits {places : Nat} (hc : c ∈ List.replicate places '0' ++ natText d.digits) : IsUnmarked c := by
      rcases List.mem_append.1 hc with hzeros | hmem
      · exact isUnmarked_of_mem_replicate hzeros
      · exact isUnmarked_of_mem_natText hmem
    rcases List.mem_append.1 h with hwhole | hfraction
    · exact hdigits (List.mem_of_mem_take hwhole)
    · rcases List.mem_cons.1 hfraction with rfl | hfraction
      · decide
      · exact hdigits (List.mem_of_mem_drop hfraction)

theorem isUnmarked_of_mem_floatText {x : Float} {c : Char} (h : c ∈ floatText x) : IsUnmarked c := by
  have hsign {negative : Bool} (hc : c ∈ if negative then ['-'] else []) : IsUnmarked c := by
    cases negative with
    | false => exact absurd hc List.not_mem_nil
    | true =>
      rw [List.mem_singleton.1 hc]
      decide
  have hwords : (("NaN".toList ++ "inf".toList ++ ".0".toList).all fun c => IsUnmarked c) = true := by decide
  have hword (c : Char) (hc : c ∈ "NaN".toList ++ "inf".toList ++ ".0".toList) : IsUnmarked c :=
    of_decide_eq_true (List.all_eq_true.1 hwords c hc)
  unfold floatText at h
  dsimp only at h
  split at h
  · exact hword c (List.mem_append_left _ (List.mem_append_left _ h))
  · rcases List.mem_append.1 h with hc | hc
    · exact hsign hc
    · exact hword c (List.mem_append_left _ (List.mem_append_right _ hc))
  · split at h
    · rcases List.mem_append.1 h with hc | hc
      · rcases List.mem_append.1 hc with hc | hc
        · exact hsign hc
        · exact isUnmarked_of_mem_natText hc
      · exact hword c (List.mem_append_right _ hc)
    · rcases List.mem_append.1 h with hc | hc
      · exact hsign hc
      · exact isUnmarked_of_mem_positional hc

/-- A number is written in markup as it is shown. -/
theorem escapeHtml_plainText_of_isNumeric {v : Value} (h : v.isNumeric = true) :
    escapeHtml v.plainText = v.text := by
  cases v with
  | int n =>
    show escapeHtml (intText n.toInt) = intText n.toInt
    exact escapeHtml_of_isUnmarked fun c hc => isUnmarked_of_mem_intText hc
  | float x =>
    show escapeHtml (floatText x) = floatText x
    exact escapeHtml_of_isUnmarked fun c hc => isUnmarked_of_mem_floatText hc
  | _ => cases h

/-! ## Templates -/

/-- Markup with a place for each of any number of parts: what stands before and behind the part of a number,
and what stands around all of them. -/
structure Template where
  opening : List Char
  before : Nat → List Char
  behind : List Char
  closing : List Char

namespace Template

/-- A table with two columns: the number of the part, and the part. -/
def table : Template where
  opening := "<table><tr><th>#</th><th>value</th></tr>".toList
  before := fun n => "<tr><td>".toList ++ natText n ++ "</td><td>".toList
  behind := "</td></tr>".toList
  closing := "</table>".toList

/-- A list with the parts as its items. -/
def list : Template := ⟨"<ul>".toList, fun _ => "<li>".toList, "</li>".toList, "</ul>".toList⟩

/-- The template that a list is shown in: numbers stand in a table, unless there are none. -/
def ofElements (items : List Value) : Template :=
  if !items.isEmpty && items.all (·.isNumeric) then table else list

section Fill

variable (t : Template)

/-- Parts in their places, the first of them with a number. -/
def places : Nat → List (List Char) → List Char
  | _, [] => []
  | n, part :: parts => t.before n ++ part ++ t.behind ++ places (n + 1) parts

/-- A template with parts in its places. -/
def fill (parts : List (List Char)) : List Char := t.opening ++ t.places 0 parts ++ t.closing

/-- Markup that tells where a part ends, and whether there is a next one. -/
structure Separates : Prop where
  behind : t.behind.head? = some '<'
  closing : ∀ n, ¬ t.before n <+: t.closing

end Fill

theorem separates_table : table.Separates := by
  refine ⟨rfl, fun n hstart => ?_⟩
  -- the one is the start of a tag, the other the end of one
  obtain ⟨more, hmore⟩ := hstart
  exact absurd (congrArg (·[1]?) hmore) (by decide : some 't' ≠ some '/')

theorem separates_list : list.Separates := by
  refine ⟨rfl, fun n => ?_⟩
  show ¬ "<li>".toList <+: "</ul>".toList
  decide

theorem separates_ofElements (items : List Value) : (ofElements items).Separates := by
  unfold ofElements
  split
  · exact separates_table
  · exact separates_list

theorem append_cons_inj {c : Char} {as bs us vs : List Char} (has : c ∉ as) (hbs : c ∉ bs)
    (h : as ++ c :: us = bs ++ c :: vs) : as = bs ∧ us = vs := by
  induction as generalizing bs with
  | nil =>
    cases bs with
    | nil => exact ⟨rfl, (List.cons.inj h).2⟩
    | cons b bs => exact absurd (List.cons.inj h).1 (List.ne_of_not_mem_cons hbs)
  | cons a as ih =>
    cases bs with
    | nil => exact absurd (List.cons.inj h).1.symm (List.ne_of_not_mem_cons has)
    | cons b bs =>
      obtain ⟨rfl, htail⟩ := List.cons.inj h
      obtain ⟨rfl, rfl⟩ := ih (List.not_mem_of_not_mem_cons has) (List.not_mem_of_not_mem_cons hbs) htail
      exact ⟨rfl, rfl⟩

/-- A filled template tells what it is filled with, if no part has a tag in it. -/
theorem Separates.fill_inj {t : Template} (ht : t.Separates) {parts others : List (List Char)}
    (hparts : ∀ part ∈ parts, '<' ∉ part) (hothers : ∀ other ∈ others, '<' ∉ other)
    (h : t.fill parts = t.fill others) : parts = others := by
  obtain ⟨tag, htag⟩ := List.head?_eq_some_iff.1 ht.behind
  unfold fill at h
  rw [List.append_assoc, List.append_assoc, List.append_cancel_left_eq] at h
  generalize 0 = n at h
  induction parts generalizing n others with
  | nil =>
    cases others with
    | nil => rfl
    | cons other others =>
      refine absurd ?_ (ht.closing n)
      simp only [places, List.nil_append, List.append_assoc] at h
      exact ⟨_, h.symm⟩
  | cons part parts ih =>
    cases others with
    | nil =>
      refine absurd ?_ (ht.closing n)
      simp only [places, List.nil_append, List.append_assoc] at h
      exact ⟨_, h⟩
    | cons other others =>
      rw [List.forall_mem_cons] at hparts hothers
      simp only [places, List.append_assoc, List.append_cancel_left_eq, htag, List.cons_append] at h
      obtain ⟨rfl, hrest⟩ := append_cons_inj hparts.1 hothers.1 h
      rw [ih hparts.2 hothers.2 (n + 1) (List.append_cancel_left hrest)]

end Template

/-! ## Lists in markup -/

/-- What stands in the place of an element. -/
def Guest.Value.part (v : Value) : List Char := escapeHtml v.plainText

theorem flatMap_tableRow {items : List Value} (h : ∀ v ∈ items, v.isNumeric = true) (n : Nat) :
    (items.zipIdx n).flatMap tableRow = Template.table.places n (items.map Value.part) := by
  induction items generalizing n with
  | nil => rfl
  | cons v items ih =>
    rw [List.forall_mem_cons] at h
    have hpart : v.part = v.text := escapeHtml_plainText_of_isNumeric h.1
    rw [List.zipIdx_cons, List.flatMap_cons, ih h.2, List.map_cons, Template.places, hpart]
    rfl

theorem flatMap_listItem (items : List Value) (n : Nat) :
    items.flatMap listItem = Template.list.places n (items.map Value.part) := by
  induction items generalizing n with
  | nil => rfl
  | cons v items ih =>
    rw [List.flatMap_cons, ih (n + 1), List.map_cons, Template.places]
    rfl

theorem render_list (items : List Value) :
    RendererTable.standard.render (.list items) =
      .html ((Template.ofElements items).fill (items.map Value.part)) := by
  by_cases h : (!items.isEmpty && items.all (·.isNumeric)) = true
  · have htable : numericTable (.list items) = Template.table.fill (items.map Value.part) := by
      rw [Bool.and_eq_true, List.all_eq_true] at h
      unfold numericTable Template.fill
      dsimp only [elements]
      rw [flatMap_tableRow h.2 0]
      rfl
    rw [Template.ofElements, if_pos h, ← htable]
    simp only [RendererTable.render, RendererTable.standard, List.find?, h]
  · have hlist : htmlList (.list items) = Template.list.fill (items.map Value.part) := by
      unfold htmlList Template.fill
      dsimp only [elements]
      rw [flatMap_listItem items 0]
      rfl
    rw [Template.ofElements, if_neg h, ← hlist]
    rw [Bool.not_eq_true] at h
    simp only [RendererTable.render, RendererTable.standard, List.find?, h]

/-- Nothing but lists is shown as markup. -/
theorem exists_eq_list_of_isHtml {v : Value} (h : (RendererTable.standard.render v).isHtml = true) :
    ∃ items, v = .list items := by
  cases v with
  | list items => exact ⟨items, rfl⟩
  | _ => cases h

/-- A value that is shown as markup is a list, in a template with one part for each element, in order. The
parts hold no markup, so there is one way to read them out of the template, and each reads as the text of its
element. A text in markup has none of the characters that markup is made of but at the start of an entity,
reads as the text, and is put together as the text is. -/
theorem elements_hold_no_markup :
    (∀ v : Value, (RendererTable.standard.render v).isHtml = true →
      ∃ items parts, v = .list items ∧
        (RendererTable.standard.render v).data = (Template.ofElements items).fill parts ∧
        parts.map unescapeHtml = items.map Value.plainText ∧
        (∀ part ∈ parts, '<' ∉ part ∧ '>' ∉ part) ∧
        ∀ others, (∀ other ∈ others, '<' ∉ other) →
          (RendererTable.standard.render v).data = (Template.ofElements items).fill others → others = parts) ∧
    (∀ cs, (∀ c ∈ escapeHtml cs, c ≠ '<' ∧ c ≠ '>' ∧ c ≠ '"' ∧ c ≠ '\x27') ∧
      (∀ back, '&' :: back <:+ escapeHtml cs → ∃ e ∈ entities, e.written <+: '&' :: back) ∧
      unescapeHtml (escapeHtml cs) = cs) ∧
    ∀ as bs, escapeHtml (as ++ bs) = escapeHtml as ++ escapeHtml bs := by
  refine ⟨fun v hv => ?_, fun cs => ⟨fun c hc => ?_, ?_, unescapeHtml_escapeHtml cs⟩, escapeHtml_append⟩
  · obtain ⟨items, rfl⟩ := exists_eq_list_of_isHtml hv
    have hdata : (RendererTable.standard.render (.list items)).data =
        (Template.ofElements items).fill (items.map Value.part) := by
      rw [render_list, DisplayOutput.html]
    have hfree : ∀ part ∈ items.map Value.part, '<' ∉ part ∧ '>' ∉ part := by
      intro part hpart
      obtain ⟨v, -, rfl⟩ := List.mem_map.1 hpart
      exact ⟨notMem_escapeHtml (by decide) (by decide) _, notMem_escapeHtml (by decide) (by decide) _⟩
    refine ⟨items, items.map Value.part, rfl, hdata, ?_, hfree, fun others hothers hfill => ?_⟩
    · rw [List.map_map]
      exact List.map_congr_left fun v _ => unescapeHtml_escapeHtml v.plainText
    · rw [hdata] at hfill
      have hsame := (Template.separates_ofElements items).fill_inj (fun part hpart => (hfree part hpart).1)
        hothers hfill
      exact hsame.symm
  · have hne {d : Char} (hd : ¬ IsUnmarked d) (hamp : d ≠ '&') : c ≠ d :=
      fun heq => notMem_escapeHtml hd hamp cs (heq ▸ hc)
    exact ⟨hne (by decide) (by decide), hne (by decide) (by decide), hne (by decide) (by decide),
      hne (by decide) (by decide)⟩
  · exact fun back hback => exists_written_prefix hback

example : (RendererTable.standard.render (.list [.str "<b>&amp;", .host ⟨"Map<K>", 7, []⟩])).data =
    "<ul><li>&lt;b&gt;&amp;amp;</li><li>&lt;Map&lt;K&gt;&gt;</li></ul>".toList := by decide +kernel

/-- A list of a number, a string with a tag in it, a list of a string, and an object of the host. -/
def mixedList : Value :=
  .list [.int 3, .str "<b>&amp;", .list [.str "a'b"], .host ⟨"Map<K>", 7, []⟩]

/-- All that would be markup is shown as text. -/
theorem mixedList_holds_no_markup :
    (RendererTable.standard.render mixedList).isHtml = true ∧
      ∃ items parts, mixedList = .list items ∧
        (RendererTable.standard.render mixedList).data = (Template.ofElements items).fill parts ∧
        parts.map unescapeHtml = items.map Value.plainText ∧
        (∀ part ∈ parts, '<' ∉ part ∧ '>' ∉ part) ∧
        ∀ others, (∀ other ∈ others, '<' ∉ other) →
          (RendererTable.standard.render mixedList).data = (Template.ofElements items).fill others →
            others = parts :=
  have hhtml : (RendererTable.standard.render mixedList).isHtml = true := by decide
  ⟨hhtml, elements_hold_no_markup.1 mixedList hhtml⟩

end Notebook

import Notebook.Proofs.Scan.Marks
import Notebook.Proofs.Segment.Partition
import Notebook.Proofs.Syntax.Apart

/-!
# Segmentation and the parser

Units are found by a light scan, and statements by the parser.
-/

namespace Notebook
open Notebook.Text Notebook.Scan Notebook.Syntax
open TokenTree (marksAll)

/-- The lexer and the scanner read a text alike that stands at a place: what the scanner finds has an end,
and both see the same brackets and semicolons, and the same end of the last token. -/
structure ReadAlike (p : Position) (cs : List Char) (trees : List TokenTree) : Prop where
  lexed : lexFrom p [] [] cs = .ok trees
  terminated : ∀ l ∈ lexemes cs, l.terminated = true
  marks : marksAll trees = Scan.marks p (lexemes cs)
  last : trees.getLast?.map (·.span.stop) = lastStop? p (lexemes cs)
  noDoc : ∀ t, trees.getLast? = some t → t.isDoc = false

namespace ReadAlike

variable {p : Position} {cs : List Char} {trees : List TokenTree}

theorem runs (h : ReadAlike p cs trees) : LexState.Runs trees ⟨p, [], []⟩ cs := LexState.runs_of_lex h.lexed

/-- All brackets are closed. -/
theorem readAll (h : ReadAlike p cs trees) : Mark.readAll [] (Scan.marks p (lexemes cs)) = some [] := by
  rw [← h.marks, readAll_marksAll]

/-- Where nothing carries meaning there are no trees. -/
theorem trees_eq_nil (h : ReadAlike p cs trees) (hnone : ∀ l ∈ lexemes cs, l.kind.isTrivia = true) :
    trees = [] := by
  have hlast := h.last
  rw [lastStop?_of_isTrivia hnone, Option.map_eq_none_iff, List.getLast?_eq_none_iff] at hlast
  exact hlast

end ReadAlike

/-- Whether scanner and lexer read a text alike that stands at a place. -/
def readsAlike (p : Position) (cs : List Char) : Bool :=
  match lexFrom p [] [] cs with
  | .error _ => false
  | .ok trees =>
    (lexemes cs).all (·.terminated) && marksAll trees = Scan.marks p (lexemes cs) &&
      trees.getLast?.map (·.span.stop) = lastStop? p (lexemes cs) && !trees.getLast?.any (·.isDoc)

theorem readsAlike_iff {p : Position} {cs : List Char} :
    readsAlike p cs = true ↔ ∃ trees, ReadAlike p cs trees := by
  unfold readsAlike
  cases hlexed : lexFrom p [] [] cs with
  | error e =>
    simp only [Bool.false_eq_true, false_iff]
    rintro ⟨trees, h⟩
    rw [h.lexed] at hlexed
    cases hlexed
  | ok trees =>
    simp only [Bool.and_eq_true, List.all_eq_true, decide_eq_true_eq, Bool.not_eq_true',
      Option.any_eq_false]
    constructor
    · rintro ⟨⟨⟨hterminated, hmarks⟩, hlast⟩, hdoc⟩
      exact ⟨trees, hlexed, hterminated, hmarks, hlast, fun t ht => by simpa using hdoc t ht⟩
    · rintro ⟨trees', h⟩
      obtain rfl : trees = trees' := by
        rw [h.lexed] at hlexed
        exact (Except.ok.inj hlexed).symm
      exact ⟨⟨⟨h.terminated, h.marks⟩, h.last⟩, fun t ht => by simpa using h.noDoc t ht⟩

/-- A character that is an escaped apostrophe has no end for the scanner. -/
example : readsAlike Position.origin "'\\''".toList = false := by decide +kernel

/-! ## Blanks before a unit -/

theorem ReadAlike.trimmed {p : Position} {cs : List Char} {trees : List TokenTree}
    (h : ReadAlike p cs trees) :
    ReadAlike (p.after (cs.takeWhile isBlank)) (trimStart cs) trees := by
  obtain ⟨before, hlexemes, htext, htrivia⟩ := exists_lexemes_trimStart cs
  refine ⟨?_, fun l hl => h.terminated l (hlexemes ▸ List.mem_append_right before hl), ?_, ?_, h.noDoc⟩
  · rw [← lexFrom_blanks _ _ fun c hc => List.all_eq_true.1 List.all_takeWhile c hc, ← h.lexed, trimStart,
      List.takeWhile_append_dropWhile]
  · rw [h.marks, hlexemes, marks_append, marks_of_isTrivia htrivia, htext]
    rfl
  · rw [h.last, hlexemes, lastStop?_append, lastStop?_of_isTrivia htrivia, htext, Option.or_none]

/-! ## One unit -/

theorem stops_of_isTrivia {cs : List Char} (h : ∀ l ∈ lexemes cs, l.kind.isTrivia = true) :
    Stops cs ∧ startsPunct cs = false := by
  cases cs with
  | nil => exact ⟨stops_nil, by decide⟩
  | cons c rest =>
    rw [lexemes] at h
    rcases of_isTrivia_extent (h _ List.mem_cons_self) with hblank | ⟨rfl, hnext⟩
    · refine ⟨stops_cons (endsToken_of_isBlank hblank), Bool.eq_false_iff.2 fun hpunct => ?_⟩
      have hslash : c ≠ '/' := by
        rintro rfl
        exact absurd hblank (by decide)
      have hnone := triviaLength?_of_startsPunct hpunct
      rw [triviaLength?_of_ne _ hslash, isTokenBlank, hblank] at hnone
      cases hnone
    · refine ⟨stops_cons (by decide), ?_⟩
      cases rest with
      | nil => simp at hnext
      | cons d rest =>
        rcases hnext with hnext | hnext <;> cases hnext <;> rfl

/-- What a unit takes of a text, and how it is lexed: alone as with the rest of the text behind it. -/
structure UnitOf (p : Position) (trees : List TokenTree) (unit rest : List Char)
    (alone others : List TokenTree) : Prop where
  lexed : lexFrom p [] [] unit = .ok alone
  rest : ReadAlike (p.after unit) rest others
  settled : trees.map TokenTree.settle = (alone ++ others).map TokenTree.settle
  parts : unit.getLast? = some ';' ∨ others = [] → Syntax.parts trees = Syntax.parts alone ++ Syntax.parts others
  braces : unit.getLast? = some '\x7d' → others = [] ∨
    ∃ body start, alone.getLast? = some (.group .brace body ⟨start, p.after unit⟩)

theorem parts_append_of_semicolon {first others : List TokenTree} {joint : Bool} {s : Span}
    (h : first.getLast? = some (.punct ';' joint s)) :
    Syntax.parts (first ++ others) = Syntax.parts first ++ Syntax.parts others := by
  obtain ⟨front, rfl⟩ := List.getLast?_eq_some_iff.1 h
  rw [List.append_assoc, List.singleton_append, parts_append, parts_append front joint s [], Syntax.parts,
    List.append_nil]

/-- Trees that differ in what their semicolons tell end in the same group. -/
theorem getLast?_of_settle {alone found : List TokenTree} {d : Delimiter} {body : List TokenTree} {s : Span}
    (h : alone.map TokenTree.settle = found.map TokenTree.settle) (hlast : found.getLast? = some (.group d body s)) :
    alone.getLast? = some (.group d body s) := by
  have hsettled := congrArg List.getLast? h
  rw [List.getLast?_map, List.getLast?_map, hlast] at hsettled
  obtain ⟨t, ht, hgroup⟩ := Option.map_eq_some_iff.1 hsettled
  cases t with
  | group => exact ht.trans (congrArg some hgroup)
  | word | literal => cases hgroup
  | punct c joint sp =>
    unfold TokenTree.settle at hgroup
    split at hgroup <;> cases hgroup

namespace ReadAlike

variable {p : Position} {cs : List Char} {trees : List TokenTree} {before others : List Lexeme}

theorem key_lt_of_runs {q : Position} {t : TokenTree} (h : LexState.Runs trees ⟨q, [], []⟩ cs)
    (ht : trees.getLast? = some t) : q.key < t.span.stop.key := by
  rcases h.exists_last with ⟨-, hnil⟩ | ⟨u, hu, hlt⟩
  · rw [hnil] at ht
    cases ht
  · rw [ht, Option.some.injEq] at hu
    exact hu ▸ hlt

/-- What stands behind the lexemes of a unit is read alike if its trees and its marks come apart there. -/
theorem of_append {first behind : List TokenTree} (h : ReadAlike p cs (first ++ behind))
    (hcut : lexemes cs = before ++ others)
    (hruns : LexState.Runs behind ⟨p.after (before.flatMap (·.text)), [], []⟩ (others.flatMap (·.text)))
    (hmarks : marksAll behind = Scan.marks (p.after (before.flatMap (·.text))) others)
    (hlast : lastStop? p before = some (p.after (before.flatMap (·.text))))
    (hfirst : ∀ t, first.getLast? = some t → t.span.stop.key ≤ (p.after (before.flatMap (·.text))).key) :
    ReadAlike (p.after (before.flatMap (·.text))) (others.flatMap (·.text)) behind := by
  set q := p.after (before.flatMap (·.text))
  have hrest : lexemes (others.flatMap (·.text)) = others := lexemes_of_append hcut
  refine ⟨hruns.lex, ?_, hrest.symm ▸ hmarks, ?_, fun t ht => h.noDoc t ?_⟩
  · rw [hrest]
    exact fun l hl => h.terminated l (by rw [hcut]; exact List.mem_append_right _ hl)
  · -- the last token stands behind the unit for the lexer if it does so for the scanner
    have hall := h.last
    rw [hcut, lastStop?_append, hlast, List.getLast?_append] at hall
    rw [hrest]
    cases hbehind : behind.getLast? with
    | some t =>
      have hlt := key_lt_of_runs hruns hbehind
      rw [hbehind, Option.some_or, Option.map_some] at hall
      cases hothers : lastStop? q others with
      | some r =>
        rw [hothers, Option.some_or] at hall
        exact hall
      | none =>
        rw [hothers, Option.none_or, Option.some.injEq] at hall
        rw [hall] at hlt
        exact absurd hlt (lt_irrefl _)
    | none =>
      rw [hbehind, Option.none_or] at hall
      cases hothers : lastStop? q others with
      | none => rfl
      | some r =>
        have hne : ∀ l ∈ others, l.text ≠ [] := fun l hl =>
          text_ne_nil_of_mem (hcut ▸ List.mem_append_right _ hl : l ∈ lexemes cs)
        have hlt := key_lt_of_lastStop? hne hothers
        rw [hothers, Option.some_or] at hall
        obtain ⟨t, ht, hstop⟩ := Option.map_eq_some_iff.1 hall
        exact absurd (hfirst t ht) (not_le_of_gt (hstop ▸ hlt))
  · rw [List.getLast?_append, ht]
    rfl

/-- A unit of the scanner is lexed as a part of the text. -/
theorem exists_unitOf {first : List Lexeme} {last : Lexeme} (h : ReadAlike p cs trees)
    (hcut : lexemes cs = (first ++ [last]) ++ others) (hunit : EndsUnit [] p first last others) :
    ∃ alone behind, UnitOf p trees ((first ++ [last]).flatMap (·.text)) (others.flatMap (·.text)) alone
      behind := by
  have htext : (first ++ [last]).flatMap (·.text) = first.flatMap (·.text) ++ last.text := by simp
  have hcs : cs = first.flatMap (·.text) ++ last.text ++ others.flatMap (·.text) := by
    rw [← htext, ← List.flatMap_append, ← hcut, flatMap_text_lexemes]
  have hlast := lastStop?_concat first p hunit.significant
  have hruns := h.runs
  rcases hunit.ends with hends | hothers
  · obtain ⟨x, hx, hmark, hlasttext⟩ := exists_mark_of_endsUnit hends
    have hmarks : marksAll trees = Scan.marks p (first ++ [last]) ++
        Scan.marks (p.after ((first ++ [last]).flatMap (·.text))) others := by
      rw [h.marks, hcut, marks_append]
    have hfound : (Scan.marks p (first ++ [last])).getLast? =
        some ⟨p.after (first.flatMap (·.text)), x⟩ := by
      rw [marks_append, Scan.marks, hmark]
      simp [Scan.marks]
    rw [hcs, hlasttext, List.append_assoc, List.singleton_append] at hruns
    rw [htext, hlasttext] at hmarks
    obtain ⟨found, alone, behind, rfl, halone, hbehind, -, hmarks, hsettle, hstop, hsemicolon, hbrace⟩ :=
      hruns.apart_of_mark hx hmarks hfound hunit.read
        (fun m hm => by rw [← hlasttext, ← htext]; exact (key_of_mem_marks hm).2)
        (fun m hm => (key_of_mem_marks hm).1)
    have hrest := h.of_append hcut (by rw [htext, hlasttext]; exact hbehind) (by rw [htext, hlasttext, hmarks])
      hlast (by rw [htext, hlasttext]; exact hstop)
    refine ⟨alone, behind, ?_, hrest, ?_, fun hwhere => ?_, fun hwhere => ?_⟩
    · rw [htext, hlasttext]
      exact halone.lex
    · rw [List.map_append, List.map_append, hsettle]
    · have halone : Syntax.parts alone = Syntax.parts found := by
        rw [← parts_settle, hsettle, parts_settle]
      rw [halone]
      rcases hwhere with hwhere | rfl
      · rw [htext, hlasttext, List.getLast?_append] at hwhere
        obtain ⟨joint, sp, hsp⟩ := hsemicolon (Option.some.inj hwhere)
        exact parts_append_of_semicolon hsp
      · rw [Syntax.parts.eq_1, List.append_nil, List.append_nil]
    · rw [htext, hlasttext, List.getLast?_append] at hwhere
      obtain ⟨body, start, hgroup⟩ := hbrace (Option.some.inj hwhere)
      rw [htext, hlasttext]
      exact .inr ⟨body, start, getLast?_of_settle hsettle hgroup⟩
  · have hlastOf := h.last
    rw [hcut, lastStop?_append, lastStop?_of_isTrivia hothers, Option.none_or, hlast] at hlastOf
    obtain ⟨t, ht, hstop⟩ := Option.map_eq_some_iff.1 hlastOf
    have htrivia : ∀ l ∈ lexemes (others.flatMap (·.text)), l.kind.isTrivia = true := by
      rwa [lexemes_of_append hcut]
    obtain ⟨hstops, hpunct⟩ := stops_of_isTrivia htrivia
    rw [hcs, ← htext] at hruns
    obtain ⟨halone, hbehind⟩ := hruns.apart_of_last hstops hpunct ht hstop (h.noDoc t ht)
    have hall : ReadAlike p cs (trees ++ []) := by rwa [List.append_nil]
    have hrest := hall.of_append hcut hbehind (by rw [marks_of_isTrivia hothers, marksAll_nil]) hlast
      fun u hu => by
        rw [ht, Option.some.injEq] at hu
        rw [← hu, hstop]
    refine ⟨trees, [], halone.lex, hrest, by rw [List.append_nil], fun _ => ?_, fun _ => .inl rfl⟩
    rw [Syntax.parts.eq_1, List.append_nil]

end ReadAlike

end Notebook

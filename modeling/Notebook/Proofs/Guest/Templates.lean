import Mathlib.Data.List.Chain
import Notebook.Guest.Template
import Notebook.Proofs.Syntax.Imports
import Notebook.Proofs.Text.Blanks

/-!
# Templates are read as they are written

A template is written from its pieces: literal text with every brace doubled, and places between single braces
(`template`).  Reading it gives the pieces back, with neighbouring literal texts as one and without empty ones
(`template_is_read_back`).  A brace of the text is never taken for a place, wherever it stands.
-/

namespace Notebook.Guest
open Notebook.Text Notebook.Syntax

/-! ## Writing -/

/-- Literal text as it stands in a template: every brace is written twice. -/
def escaped (text : List Char) : List Char :=
  text.flatMap fun c => if c = '\x7b' ∨ c = '\x7d' then [c, c] else [c]

/-- What stands between the braces of a place behind the name: a value is shown, or it is printed. -/
def format (shown : Bool) : List Char := if shown then [':', '?'] else []

/-- A piece as it is written. -/
def TemplatePiece.written : TemplatePiece → List Char
  | .literal text => escaped text
  | .next shown => '\x7b' :: format shown ++ ['\x7d']
  | .named name shown => '\x7b' :: (name ++ format shown) ++ ['\x7d']

/-- The template that pieces make up. -/
def template (ps : List TemplatePiece) : List Char := ps.flatMap TemplatePiece.written

/-- Literal text in front of pieces; it goes together with literal text that they begin with. -/
def literalBefore (text : List Char) : List TemplatePiece → List TemplatePiece
  | .literal more :: ps => .literal (text ++ more) :: ps
  | ps => if text = [] then ps else .literal text :: ps

/-- The pieces with neighbouring literal texts as one and without empty ones. -/
def merged : List TemplatePiece → List TemplatePiece
  | [] => []
  | .literal text :: ps => literalBefore text (merged ps)
  | p :: ps => p :: merged ps

def TemplatePiece.isLiteral : TemplatePiece → Bool
  | .literal _ => true
  | .next _ | .named .. => false

/-- No literal text is empty, and no two of them are neighbours. -/
structure IsMerged (ps : List TemplatePiece) : Prop where
  nonempty : .literal [] ∉ ps
  apart : ps.IsChain fun p q => ¬ (p.isLiteral = true ∧ q.isLiteral = true)

/-- A name that a template can hold: an identifier, which may be marked as a raw one. -/
def IsName (name : List Char) : Prop := IsIdentifier name ∨ ∃ w, IsIdentifier w ∧ name = 'r' :: '#' :: w

/-! ## Pieces that are merged -/

theorem literalBefore_of_literal (text more : List Char) (ps : List TemplatePiece) :
    literalBefore text (.literal more :: ps) = .literal (text ++ more) :: ps := rfl

theorem literalBefore_of_place (text : List Char) {ps : List TemplatePiece}
    (h : ∀ more rest, ps ≠ .literal more :: rest) :
    literalBefore text ps = if text = [] then ps else .literal text :: ps := by
  cases ps with
  | nil => rfl
  | cons p ps =>
    cases p with
    | literal more => exact absurd rfl (h more ps)
    | next shown => rfl
    | named name shown => rfl

/-- Either pieces begin with literal text, or they do not. -/
theorem cases_literal (ps : List TemplatePiece) :
    (∃ more rest, ps = .literal more :: rest) ∨ ∀ more rest, ps ≠ .literal more :: rest := by
  by_cases h : ∃ more rest, ps = .literal more :: rest
  · exact .inl h
  · exact .inr fun more rest hps => h ⟨more, rest, hps⟩

@[simp] theorem literalBefore_nil (ps : List TemplatePiece) : literalBefore [] ps = ps := by
  rcases cases_literal ps with ⟨more, rest, rfl⟩ | hps
  · rfl
  · rw [literalBefore_of_place [] hps, if_pos rfl]

theorem literalBefore_literalBefore (text more : List Char) (ps : List TemplatePiece) :
    literalBefore text (literalBefore more ps) = literalBefore (text ++ more) ps := by
  rcases cases_literal ps with ⟨last, rest, rfl⟩ | hps
  · rw [literalBefore_of_literal, literalBefore_of_literal, literalBefore_of_literal, List.append_assoc]
  · rw [literalBefore_of_place more hps]
    split_ifs with hmore
    · rw [hmore, List.append_nil]
    · have hne : text ++ more ≠ [] := List.append_ne_nil_of_right_ne_nil text hmore
      rw [literalBefore_of_literal, literalBefore_of_place _ hps, if_neg hne]

theorem escaped_append (text more : List Char) : escaped (text ++ more) = escaped text ++ escaped more :=
  List.flatMap_append

theorem template_literalBefore (text : List Char) (ps : List TemplatePiece) :
    template (literalBefore text ps) = escaped text ++ template ps := by
  rcases cases_literal ps with ⟨more, rest, rfl⟩ | hps
  · show escaped (text ++ more) ++ template rest = escaped text ++ (escaped more ++ template rest)
    rw [escaped_append, List.append_assoc]
  · rw [literalBefore_of_place text hps]
    split_ifs with htext
    · rw [htext]
      rfl
    · rfl

/-- Merging pieces does not change what they are written as. -/
theorem template_merged (ps : List TemplatePiece) : template (merged ps) = template ps := by
  induction ps with
  | nil => rfl
  | cons p ps ih =>
    cases p with
    | literal text =>
      show template (literalBefore text (merged ps)) = escaped text ++ template ps
      rw [template_literalBefore, ih]
    | next shown => exact congrArg (TemplatePiece.written (.next shown) ++ ·) ih
    | named name shown => exact congrArg (TemplatePiece.written (.named name shown) ++ ·) ih

theorem IsMerged.cons_place {ps : List TemplatePiece} (h : IsMerged ps) {p : TemplatePiece}
    (hp : p.isLiteral = false) : IsMerged (p :: ps) := by
  refine ⟨?_, h.apart.cons fun q _ hboth => ?_⟩
  · rintro (- | ⟨-, hmem⟩)
    · cases hp
    · exact h.nonempty hmem
  · rw [hp] at hboth
    exact Bool.false_ne_true hboth.1

theorem IsMerged.literalBefore {ps : List TemplatePiece} (h : IsMerged ps) (text : List Char) :
    IsMerged (literalBefore text ps) := by
  rcases cases_literal ps with ⟨more, rest, rfl⟩ | hps
  · -- the literal text at the front only grows
    rw [literalBefore_of_literal]
    refine ⟨?_, ?_⟩
    · rw [List.mem_cons, not_or]
      refine ⟨fun hnil => h.nonempty ?_, fun hmem => h.nonempty (List.mem_cons_of_mem _ hmem)⟩
      have hmore : more = [] := (List.append_eq_nil_iff.1 (TemplatePiece.literal.inj hnil).symm).2
      rw [hmore]
      exact List.mem_cons_self
    · have hapart := h.apart
      cases rest with
      | nil => exact .singleton _
      | cons q rest =>
        obtain ⟨hq, hrest⟩ := List.isChain_cons_cons.1 hapart
        exact List.isChain_cons_cons.2 ⟨hq, hrest⟩
  · rw [literalBefore_of_place text hps]
    split_ifs with htext
    · exact h
    · refine ⟨?_, h.apart.cons fun q hq hboth => ?_⟩
      · rw [List.mem_cons, not_or]
        exact ⟨fun hnil => htext (TemplatePiece.literal.inj hnil).symm, h.nonempty⟩
      · -- a literal text behind it would be the first of the pieces
        obtain ⟨rest, rfl⟩ := List.head?_eq_some_iff.1 hq
        cases q with
        | literal more => exact hps more rest rfl
        | next shown => exact Bool.false_ne_true hboth.2
        | named name shown => exact Bool.false_ne_true hboth.2

theorem isMerged_merged (ps : List TemplatePiece) : IsMerged (merged ps) := by
  induction ps with
  | nil => exact ⟨List.not_mem_nil, .nil⟩
  | cons p ps ih =>
    cases p with
    | literal text => exact ih.literalBefore text
    | next shown => exact ih.cons_place rfl
    | named name shown => exact ih.cons_place rfl

/-! ## Names -/

/-- A text without blanks, colons and braces. -/
def Signless (cs : List Char) : Prop := ∀ c ∈ cs, isBlank c = false ∧ c ≠ ':' ∧ c ≠ '\x7b' ∧ c ≠ '\x7d'

theorem signless_of_goesOn {cs : List Char} (h : ∀ c ∈ cs, goesOn c = true) : Signless cs := by
  intro c hc
  have hne (d : Char) (hd : goesOn d = false) : c ≠ d := by
    rintro rfl
    exact Bool.false_ne_true (hd.symm.trans (h c hc))
  refine ⟨?_, hne ':' (by decide +kernel), hne '\x7b' (by decide +kernel), hne '\x7d' (by decide +kernel)⟩
  -- words end before a blank
  apply Bool.eq_false_iff.2
  intro hblank
  exact Bool.false_ne_true ((goesOn_of_endsToken (endsToken_of_isBlank hblank)).symm.trans (h c hc))

theorem IsName.signless {name : List Char} (h : IsName name) : Signless name := by
  rcases h with hname | ⟨w, hw, rfl⟩
  · exact signless_of_goesOn hname.goesOn
  · intro c hc
    rcases List.mem_cons.1 hc with rfl | hc
    · decide
    · rcases List.mem_cons.1 hc with rfl | hc
      · decide
      · exact signless_of_goesOn hw.goesOn c hc

theorem IsName.ne_nil {name : List Char} (h : IsName name) : name ≠ [] := by
  rintro rfl
  rcases h with hname | ⟨w, -, hw⟩
  · cases hname
  · cases hw

theorem Signless.trim {cs : List Char} (h : Signless cs) : trim cs = cs := by
  have hstart : trimStart cs = cs := by
    cases cs with
    | nil => rfl
    | cons c cs => exact List.dropWhile_cons_of_neg (by simp [(h c List.mem_cons_self).1])
  have hends : trimEnd cs = cs := by
    apply List.rdropWhile_eq_self_iff.2
    intro hne
    simp [(h _ (List.getLast_mem hne)).1]
  rw [Text.trim, hstart, hends]

/-- What stands between the braces of a place is a name, if any, and its format. -/
theorem ofSpec_append {name : List Char} (h : Signless name) (shown : Bool) :
    TemplatePiece.ofSpec (name ++ format shown) =
      .ok (if name.isEmpty then .next shown else .named name shown) := by
  have hname : ∀ c ∈ name, decide (c ≠ ':') = true := fun c hc => decide_eq_true (h c hc).2.1
  have htake : (name ++ format shown).takeWhile (· ≠ ':') = name := by
    rw [List.takeWhile_append_of_pos hname]
    cases shown <;> exact List.append_nil name
  have hdrop : ((name ++ format shown).dropWhile (· ≠ ':')).drop 1 = (format shown).drop 1 := by
    rw [List.dropWhile_append_of_pos hname]
    cases shown <;> rfl
  unfold TemplatePiece.ofSpec
  rw [htake, hdrop, h.trim]
  cases shown <;> rfl

/-! ## Reading -/

variable (literal : List Char)

theorem parse_openBraces (cs : List Char) :
    parseTemplateFrom literal ('\x7b' :: '\x7b' :: cs) = parseTemplateFrom ('\x7b' :: literal) cs := by
  rw [parseTemplateFrom]

theorem parse_closeBraces (cs : List Char) :
    parseTemplateFrom literal ('\x7d' :: '\x7d' :: cs) = parseTemplateFrom ('\x7d' :: literal) cs := by
  rw [parseTemplateFrom]

theorem parse_char {c : Char} (hopen : c ≠ '\x7b') (hclose : c ≠ '\x7d') (cs : List Char) :
    parseTemplateFrom literal (c :: cs) = parseTemplateFrom (c :: literal) cs := by
  rw [parseTemplateFrom, if_neg hopen, if_neg hclose]
  · rintro _ rfl
    exact absurd rfl hopen
  · rintro _ rfl
    exact absurd rfl hclose

/-- A place is read up to its closing brace, and the literal text before it is complete. -/
theorem parse_place {spec : List Char} (hspec : ∀ c ∈ spec, c ≠ '\x7b' ∧ c ≠ '\x7d') {p : TemplatePiece}
    (hp : TemplatePiece.ofSpec spec = .ok p) (cs : List Char) :
    parseTemplateFrom literal ('\x7b' :: spec ++ ['\x7d'] ++ cs) =
      (parseTemplateFrom [] cs).map fun ps => TemplatePiece.ofLiteral literal.reverse ++ p :: ps := by
  have hne : ∀ c ∈ spec, decide (c ≠ '\x7d') = true := fun c hc => decide_eq_true (hspec c hc).2
  have htake : (spec ++ '\x7d' :: cs).takeWhile (· ≠ '\x7d') = spec := by
    rw [List.takeWhile_append_of_pos hne, List.takeWhile_cons_of_neg (by decide), List.append_nil]
  have hdrop : (spec ++ '\x7d' :: cs).dropWhile (· ≠ '\x7d') = '\x7d' :: cs := by
    rw [List.dropWhile_append_of_pos hne, List.dropWhile_cons_of_neg (by decide)]
  have hwritten : '\x7b' :: spec ++ ['\x7d'] ++ cs = '\x7b' :: (spec ++ '\x7d' :: cs) := by simp
  rw [hwritten, parseTemplateFrom, if_pos rfl]
  · split
    · rename_i h
      rw [hdrop] at h
      cases h
    · rename_i rest h
      rw [hdrop] at h
      obtain ⟨-, rfl⟩ := List.cons.inj h
      rw [htake]
      dsimp only
      rw [hp]
      cases parseTemplateFrom [] cs <;> rfl
  · -- no second opening brace follows the first
    intro more _ heq
    cases spec with
    | nil => cases heq
    | cons c spec => exact (hspec c List.mem_cons_self).1 (List.cons.inj heq).1
  · intro more hbrace
    exact absurd hbrace (by decide)

/-- Escaped text is read as the text, whatever comes behind it. -/
theorem parse_escaped (text cs : List Char) :
    parseTemplateFrom literal (escaped text ++ cs) = parseTemplateFrom (text.reverse ++ literal) cs := by
  induction text generalizing literal with
  | nil => rfl
  | cons c text ih =>
    have hcons : escaped (c :: text) = (if c = '\x7b' ∨ c = '\x7d' then [c, c] else [c]) ++ escaped text := rfl
    have hreverse : (c :: text).reverse ++ literal = text.reverse ++ c :: literal := by simp
    rw [hcons, List.append_assoc, hreverse, ← ih]
    split_ifs with hbrace
    · rcases hbrace with rfl | rfl
      · exact parse_openBraces literal _
      · exact parse_closeBraces literal _
    · rw [not_or] at hbrace
      exact parse_char literal hbrace.1 hbrace.2 _

/-- A format holds no brace. -/
theorem unbraced_format (shown : Bool) : ∀ c ∈ format shown, c ≠ '\x7b' ∧ c ≠ '\x7d' := by
  intro c hc
  cases shown with
  | false => exact absurd hc List.not_mem_nil
  | true =>
    obtain rfl | hc := List.mem_cons.1 hc
    · decide
    · obtain rfl := List.mem_singleton.1 hc
      decide

theorem parse_next (shown : Bool) (cs : List Char) :
    parseTemplateFrom literal (TemplatePiece.written (.next shown) ++ cs) =
      (parseTemplateFrom [] cs).map fun ps => TemplatePiece.ofLiteral literal.reverse ++ .next shown :: ps := by
  exact parse_place literal (unbraced_format shown)
    (ofSpec_append (fun c hc => absurd hc List.not_mem_nil) shown) cs

theorem parse_named {name : List Char} (h : IsName name) (shown : Bool) (cs : List Char) :
    parseTemplateFrom literal (TemplatePiece.written (.named name shown) ++ cs) =
      (parseTemplateFrom [] cs).map fun ps =>
        TemplatePiece.ofLiteral literal.reverse ++ .named name shown :: ps := by
  have hspec := ofSpec_append h.signless shown
  rw [if_neg (by simpa using h.ne_nil)] at hspec
  refine parse_place literal (fun c hc => ?_) hspec cs
  rcases List.mem_append.1 hc with hname | hformat
  · exact (h.signless c hname).2.2
  · exact unbraced_format shown c hformat

/-- Pieces are read back behind literal text that has been read. -/
theorem parse_template {ps : List TemplatePiece} (h : ∀ name shown, .named name shown ∈ ps → IsName name) :
    parseTemplateFrom literal (template ps) = .ok (literalBefore literal.reverse (merged ps)) := by
  induction ps generalizing literal with
  | nil =>
    show parseTemplateFrom literal [] = _
    rw [parseTemplateFrom]
    cases literal.reverse <;> rfl
  | cons p ps ih =>
    have hrest : ∀ name shown, .named name shown ∈ ps → IsName name :=
      fun name shown hmem => h name shown (List.mem_cons_of_mem _ hmem)
    -- behind a place, the literal text begins anew
    have hplace (q : TemplatePiece) (hq : q.isLiteral = false) :
        ((parseTemplateFrom [] (template ps)).map fun ps => TemplatePiece.ofLiteral literal.reverse ++ q :: ps) =
          .ok (literalBefore literal.reverse (q :: merged ps)) := by
      have hfirst : ∀ more rest, q :: merged ps ≠ .literal more :: rest := by
        rintro more rest heq
        obtain ⟨rfl, -⟩ := List.cons.inj heq
        cases hq
      rw [ih [] hrest, List.reverse_nil, literalBefore_nil, literalBefore_of_place _ hfirst]
      cases literal.reverse <;> rfl
    cases p with
    | literal text =>
      show parseTemplateFrom literal (escaped text ++ template ps) =
        .ok (literalBefore literal.reverse (literalBefore text (merged ps)))
      rw [parse_escaped, ih _ hrest, literalBefore_literalBefore, List.reverse_append, List.reverse_reverse]
    | next shown => exact (parse_next literal shown (template ps)).trans (hplace _ rfl)
    | named name shown =>
      have hname := h name shown List.mem_cons_self
      exact (parse_named literal hname shown (template ps)).trans (hplace _ rfl)

/-- A template that is written from pieces is read as these pieces, with neighbouring literal texts as one and
without empty ones; these make up the same template. -/
theorem template_is_read_back {ps : List TemplatePiece}
    (h : ∀ name shown, .named name shown ∈ ps → IsName name) :
    parseTemplate (template ps) = .ok (merged ps) ∧ IsMerged (merged ps) ∧ template (merged ps) = template ps := by
  refine ⟨?_, isMerged_merged ps, template_merged ps⟩
  rw [parseTemplate, parse_template [] h, List.reverse_nil, literalBefore_nil]

/-- Braces on both sides of places, a name between two of them, and literal texts that are neighbours. -/
theorem bracedPlaces_are_read_back :
    let ps : List TemplatePiece :=
      [.literal ['\x7b'], .next false, .literal ['\x7d'], .literal [], .literal ['\x7b', ':'],
        .named ['x', '1'] true, .literal ['\x7d', '\x7b'], .next true]
    (∀ name shown, .named name shown ∈ ps → IsName name) ∧
      parseTemplate (template ps) = .ok
        [.literal ['\x7b'], .next false, .literal ['\x7d', '\x7b', ':'], .named ['x', '1'] true,
          .literal ['\x7d', '\x7b'], .next true] := by
  intro ps
  have hnames : ∀ name shown, .named name shown ∈ ps → IsName name := by
    intro name shown hmem
    have hx : name = ['x', '1'] ∧ shown = true := by simpa [ps] using hmem
    rw [hx.1]
    exact .inl (by decide +kernel)
  exact ⟨hnames, (template_is_read_back hnames).1⟩

end Notebook.Guest

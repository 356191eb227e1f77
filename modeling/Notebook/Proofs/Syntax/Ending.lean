import Notebook.Proofs.Syntax.Laying
import Notebook.Proofs.Syntax.Taking
import Notebook.Syntax.Grammar

/-!
# What a statement ends with

An item, a binding, and an expression that may stand without a semicolon end with a group in braces or a
semicolon.
-/

namespace Notebook.Syntax
open Notebook.Text

/-- The last one of some tokens may end a statement. -/
def Ends (u : List TokenTree) : Prop := ∃ t, u.getLast? = some t ∧ t.mayEnd = true

theorem Ends.ne_nil {u : List TokenTree} (h : Ends u) : u ≠ [] := by
  rintro rfl
  obtain ⟨t, ht, -⟩ := h
  cases ht

theorem Ends.behind {v : List TokenTree} (h : Ends v) (u : List TokenTree) : Ends (u ++ v) := by
  obtain ⟨t, ht, hend⟩ := h
  exact ⟨t, by rw [List.getLast?_append, ht]; rfl, hend⟩

theorem ends_singleton {t : TokenTree} (h : t.mayEnd = true) : Ends [t] := ⟨t, rfl, h⟩

/-! ## Readers -/

/-- What the reader takes may end a statement. -/
def Parse.Closing {α : Type} (p : Parse α) : Prop := p.Takes fun _ u => Ends u

/-- What the reader takes may end a statement if it takes anything. -/
def Parse.Trailing {α : Type} (p : Parse α) : Prop := p.Takes fun _ u => u = [] ∨ Ends u

section Readers

variable {α β σ : Type}

@[grind .]
theorem Parse.Closing.after {p : Parse α} {f : α → Parse β} (hf : ∀ a, (f a).Closing) : (p >>= f).Closing :=
  (Parse.Takes.any p).bind fun a u _ => (hf a).mono fun _ _ hv => hv.behind u

theorem Parse.Closing.ite {c : Prop} [Decidable c] {p q : Parse α} (hp : p.Closing) (hq : q.Closing) :
    (if c then p else q).Closing := Parse.Takes.ite hp hq

@[grind .]
theorem closing_then {p : Parse α} {f : α → Parse β} (hp : p.Closing) (hf : ∀ a, (f a).Trailing) :
    (p >>= f).Closing := by
  refine hp.bind fun a u hu => (hf a).mono fun _ v hv => ?_
  rcases hv with rfl | hv
  · rwa [List.append_nil]
  · exact hv.behind u

@[grind .]
theorem closing_failWith (problem : Bool → Problem) : (failWith problem : Parse α).Closing := .failWith _

@[grind .]
theorem closing_expected (things : List String) : (expected things : Parse α).Closing := .failWith _

@[grind .]
theorem closing_expected_bind (things : List String) (f : α → Parse β) :
    ((expected things : Parse α) >>= f).Closing := .failWith_bind _ f

@[grind .]
theorem closing_wrong (what : String) : (wrong what : Parse α).Closing := .failWith _

@[grind .]
theorem closing_braces (p : Parse α) : (group .brace p).Closing := by
  refine (takes_group .brace (.any p)).mono fun a u h => ?_
  obtain ⟨v, w, s, rfl, -⟩ := h
  exact ends_singleton rfl

/-- What is read behind a group in braces, and what is read behind another one. -/
theorem closing_anyGroup_bind {f : Delimiter × List TokenTree × Span → Parse α}
    (hbraces : ∀ body s, (f (.brace, body, s)).Trailing)
    (hother : ∀ d body s, d ≠ .brace → (f (d, body, s)).Closing) : (anyGroup >>= f).Closing := by
  refine takes_anyGroup.bind fun read u hu => ?_
  obtain ⟨d, body, s⟩ := read
  by_cases hd : d = .brace
  · subst hd
    obtain ⟨span, rfl⟩ := hu
    -- the group itself is the end if nothing is read behind it
    refine (hbraces body s).mono fun _ v hv => ?_
    rcases hv with rfl | hv
    · exact ends_singleton rfl
    · exact hv.behind _
  · exact (hother d body s hd).mono fun _ v hv => hv.behind u

@[grind .]
theorem closing_discard {p : Parse α} (hp : p.Closing) : (discard p).Closing :=
  hp.discard.mono fun _ _ hu => hu.choose_spec

theorem Parse.Closing.trailing {p : Parse α} (hp : p.Closing) : p.Trailing := hp.mono fun _ _ hu => .inr hu

@[grind .]
theorem trailing_pure (a : α) : (pure a : Parse α).Trailing := .pure (.inl rfl)

theorem Parse.Still.trailing {p : Parse α} (hp : p.Still) : p.Trailing := hp.mono fun _ _ hu => .inl hu

@[grind .]
theorem trailing_spanFrom (start : Span) : (spanFrom start).Trailing := (still_spanFrom start).trailing

@[grind .]
theorem trailing_input : input.Trailing := still_input.trailing

@[grind .]
theorem trailing_bind {p : Parse α} {f : α → Parse β} (hp : p.Trailing) (hf : ∀ a, (f a).Trailing) :
    (p >>= f).Trailing := by
  refine hp.bind fun a u hu => (hf a).mono fun _ v hv => ?_
  rcases hv with rfl | hv
  · rwa [List.append_nil]
  · exact .inr (hv.behind u)

@[grind .]
theorem trailing_discard {p : Parse α} (hp : p.Trailing) : (discard p).Trailing :=
  hp.discard.mono fun _ _ hu => hu.choose_spec

@[grind .]
theorem closing_withSpan {p : Parse α} (hp : p.Closing) : (withSpan p).Closing := by
  unfold withSpan
  grind

/-! ### Semicolons -/

theorem takes_sign? {s : String} {c : Char} (hs : s.toList = [c]) :
    (punct? s).Takes fun found u => if found then ∃ joint t, u = [.punct c joint t] else u = [] := by
  refine .look fun now after found used hrun hrest => ?_
  rw [isPunct, hs] at hrun
  split at hrun
  · rename_i hpunct
    cases hrun
    rw [used_eq_take (n := 1) hrest, if_pos rfl]
    obtain ⟨rest, scope, printed, last, braced, leftover⟩ := now
    cases rest with
    | nil => cases hpunct
    | cons t rest =>
      cases t with
      | punct d joint t =>
        obtain ⟨rfl, -⟩ : d = c ∧ d ≠ '\x27' := by simpa [isPunctChars] using hpunct
        exact ⟨joint, t, rfl⟩
      | word => cases hpunct
      | literal => cases hpunct
      | group => cases hpunct
  · cases hrun
    rw [List.self_eq_append_left.1 hrest]
    rfl

theorem takes_semicolon? :
    (punct? ";").Takes fun found u => if found then ∃ joint s, u = [.punct ';' joint s] else u = [] :=
  takes_sign? rfl

theorem takes_sign {s : String} {c : Char} (hs : s.toList = [c]) :
    (punct s).Takes fun _ u => ∃ joint t, u = [.punct c joint t] := by
  refine (takes_sign? hs).bind fun found u hu => ?_
  split
  · rename_i hfound
    rw [hfound] at hu
    exact .pure (by rwa [List.append_nil])
  · exact .failWith _

/-- What is read behind a semicolon, and what is read without it. -/
theorem closing_semicolon?_bind {f : Bool → Parse α} (hfound : (f true).Trailing) (hno : (f false).Closing) :
    (punct? ";" >>= f).Closing := by
  refine takes_semicolon?.bind fun found u hu => ?_
  cases found with
  | true =>
    obtain ⟨joint, s, rfl⟩ := hu
    refine hfound.mono fun _ v hv => ?_
    rcases hv with rfl | hv
    · exact ends_singleton rfl
    · exact hv.behind _
  | false => exact hno.mono fun _ v hv => hv.behind u

@[grind .]
theorem trailing_semicolon? : (punct? ";").Trailing := by
  refine takes_semicolon?.mono fun found u hu => ?_
  cases found with
  | true =>
    obtain ⟨joint, s, rfl⟩ := hu
    exact .inr (ends_singleton rfl)
  | false => exact .inl hu

@[grind .]
theorem closing_semicolon : (punct ";").Closing :=
  closing_semicolon?_bind (trailing_pure ()) (closing_failWith fun _ => .expected [quotedThing ";"] false)

end Readers

/-! ## Items -/

section Rules

variable {g : Grammar}

@[grind .]
theorem closing_functionBody (g : Grammar) : (functionBody g).Closing := by
  unfold functionBody
  grind

@[grind .]
theorem closing_blockWith (g : Grammar) (inner : Bool) : (blockWith g inner).Closing := by
  unfold blockWith
  grind

@[grind .]
theorem closing_members (g : Grammar) (member : Parse Unit) : (members g member).Closing := closing_braces _

@[grind .]
theorem closing_typeItem (g : Grammar) (before after : Bool) : (typeItem g before after).Closing := by
  have hend (conditions : Bool) : Parse.Closing (do
      if ← punct? "=" then discard (g.type true)
      if after && !conditions then discard (whereClause g)
      punct ";") := by
    refine .after fun _ => .ite (.after fun _ => ?_) ?_
    all_goals exact .ite (.after fun _ => closing_semicolon) closing_semicolon
  refine .after fun _ => .after fun _ => .after fun _ => .after fun _ => .ite (.after fun _ => ?_) ?_
  all_goals exact .ite (.after fun _ => hend _) (.after fun _ => hend _)

@[grind .]
theorem closing_importItem (g : Grammar) : (importItem g).Closing := by
  unfold importItem
  grind

@[grind .]
theorem closing_constantItem (g : Grammar) : (constantItem g).Closing := by
  have hend {f : Bool → Parse Item} (hf : ∀ conditions, (f conditions).Trailing) : Parse.Closing (do
      let conditions ← whereClause g
      punct ";"
      f conditions) :=
    .after fun conditions => closing_then closing_semicolon fun _ => hf conditions
  refine .after fun _ => .after fun _ => .after fun _ => .ite (.after fun name => ?_) (.after fun name => ?_)
  all_goals
    refine .after fun parameters => .after fun _ => .after fun _ => .after fun type => .after fun _ => ?_
    refine .ite (.after fun value => hend fun _ => ?_) (.after fun value => hend fun _ => ?_)
    all_goals split <;> exact trailing_pure _

@[grind .]
theorem closing_enumDecl (g : Grammar) : (enumDecl g).Closing := by
  unfold enumDecl
  grind

@[grind .]
theorem closing_traitRest (g : Grammar) : (traitRest g).Closing := by
  unfold traitRest
  grind

@[grind .]
theorem closing_traitItem (g : Grammar) (aliasAllowed : Bool) : (traitItem g aliasAllowed).Closing := by
  unfold traitItem
  grind

@[grind .]
theorem closing_implItem (g : Grammar) : (implItem g).Closing := by
  have hend : Parse.Closing (do
      discard (g.type true)
      if ← word? "for" then discard (g.type true)
      discard (whereClause g)
      members g (implMember g)) := by
    grind
  have hbound : Parse.Closing (do
      let rest := (← input).rest
      if isPunct "!" rest && !isGroup .brace (skipOne rest) then punct "!"
      discard (g.type true)
      if ← word? "for" then discard (g.type true)
      discard (whereClause g)
      members g (implMember g)) := .after fun _ => .ite (.after fun _ => hend) hend
  refine .after fun _ => .after fun _ => .after fun _ => .after fun _ => .ite (.after fun _ => ?_) ?_
  all_goals exact .after fun _ => .ite (.after fun _ => .after fun _ => hbound) hbound

@[grind .]
theorem closing_foreignItem (g : Grammar) : (foreignItem g).Closing := by
  unfold foreignItem
  grind

@[grind .]
theorem closing_externItem (g : Grammar) : (externItem g).Closing := by
  unfold externItem
  grind

@[grind .]
theorem closing_macroDecl : macroDecl.Closing := by
  have hbraces (things : List String) : Parse.Closing (do
      if ← peek (isGroup .brace) then discard anyGroup else expected things) := by
    refine .peek fun now after a used hrun hrest => ?_
    split at hrun
    · rename_i hbrace
      obtain ⟨read, middle, hread, hrun⟩ := Parse.run_bind hrun
      cases hrun
      obtain ⟨s, rfl⟩ := takes_anyGroup _ _ _ used hread hrest
      rw [hrest] at hbrace
      exact ends_singleton (decide_eq_true (of_decide_eq_true hbrace).symm)
    · exact absurd hrun (not_run_failWith _)
  exact .after fun _ => .after fun _ => .after fun _ => .ite (.after fun _ => hbraces _) (hbraces _)

@[grind .]
theorem closing_structDecl (g : Grammar) (docs : List (List Char)) : (structDecl g docs).Closing := by
  refine .after fun _ => .after fun name => .after fun generics => .after fun conditions => .after fun now => ?_
  have hend (fields : List Field) : Parse.Trailing (do
      let fields ← pure fields
      return (⟨documentation docs, name.name, generics, fields⟩ : StructDecl)) := trailing_pure _
  have hcounted : Parse.Closing (do
      let fields ← countedFields g
      let conditions ← whereClause g
      unless ← punct? ";" do expected (if conditions then ["`;`"] else ["`where`", "`;`"])
      let fields ← pure fields
      return (⟨documentation docs, name.name, generics, fields⟩ : StructDecl)) :=
    .after fun fields => .after fun _ => closing_semicolon?_bind (hend fields) (closing_expected_bind _ _)
  have hnamed : Parse.Closing (do
      let fields ← namedFields g
      return (⟨documentation docs, name.name, generics, fields⟩ : StructDecl)) :=
    closing_then (closing_braces _) fun _ => trailing_pure _
  -- whether a semicolon comes next is looked at first
  refine closing_semicolon?_bind ?_ ?_
  · exact .ite hcounted.trailing (.ite hnamed.trailing (hend []))
  · exact .ite hcounted (.ite hnamed (closing_expected_bind _ _))

@[grind .]
theorem closing_staticItem (g : Grammar) (typed : Bool) : (staticItem g typed).Closing := by
  have hend : Parse.Closing (do
      if typed then
        if ← punct? "=" then discard (g.expr true)
      else
        punct "="
        discard (g.expr true)
      punct ";") := by
    refine .ite (.after fun _ => .ite (.after fun _ => ?_) ?_) (.after fun _ => .after fun _ => ?_)
    all_goals exact closing_semicolon
  have hplain (untyped : Bool) : Parse.Closing (do
      if untyped then
        discard (g.expr true)
        punct ";"
      else
        punct ":"
        discard (g.type true)
        let ended ← if typed then pure false else punct? ";"
        unless ended do
          if typed then
            if ← punct? "=" then discard (g.expr true)
          else
            punct "="
            discard (g.expr true)
          punct ";") := by
    refine .ite (.after fun _ => closing_semicolon) (.after fun _ => .after fun _ => ?_)
    exact .ite (Parse.Takes.pure_bind hend) (closing_semicolon?_bind (trailing_pure _) hend)
  refine .after fun _ => .after fun _ => .after fun _ => ?_
  exact .ite (.after fun _ => hplain _) (.after fun _ => hplain _)

@[grind .]
theorem closing_macroItem : macroItem.Closing := by
  have hend : Parse.Closing (do
      let read ← anyGroup
      unless read.1 = .brace do punct ";") :=
    closing_anyGroup_bind (fun _ _ => trailing_pure ()) fun d _ _ hd => by
      dsimp only
      rw [if_neg hd]
      exact closing_semicolon
  refine .after fun _ => .after fun _ => .after fun _ => .ite (.after fun _ => hend) ?_
  exact .after fun _ => .ite (.after fun _ => hend) hend

@[grind .]
theorem closing_moduleItem (g : Grammar) : (moduleItem g).Closing := by
  have hend : Parse.Closing (do
      if ← punct? ";" then return ()
      else if ← peek (isGroup .brace) then members g g.item
      else expected ["`;`", "curly braces"]) := by
    refine closing_semicolon?_bind (trailing_pure _) (.after fun _ => .ite (closing_members g _) ?_)
    exact closing_expected _
  exact .after fun _ => .after fun _ => .after fun _ => .ite (.after fun _ => hend) (.after fun _ => hend)

/-- An item ends with a group or a semicolon. -/
theorem closing_itemRest (g : Grammar) (docs : List (List Char)) : (itemRest g docs).Closing := by
  refine .after fun visible => .after fun now => .after fun _ => ?_
  have hother {p : Parse Unit} (hp : p.Closing) : Parse.Closing (do p; return Item.other) :=
    closing_then hp fun _ => trailing_pure _
  refine .ite ?_ (.ite (hother (by grind)) (.ite (closing_importItem g) (.ite (hother (by grind)) ?_)))
  · refine .after fun header => closing_semicolon?_bind (trailing_pure _) ?_
    exact closing_then (closing_functionBody g) fun _ => trailing_pure _
  refine .ite (closing_constantItem g) (.ite ?_ ?_)
  · -- what starts with the word `unsafe` and is no function
    refine .ite (hother (by grind)) (.ite (hother (by grind)) (.ite (hother (by grind)) ?_))
    exact .ite (hother (by grind)) (.after fun _ => closing_expected _)
  refine .ite (hother (by grind)) (.ite (hother (by grind)) (.ite ?_ (.ite (hother (by grind)) ?_)))
  · exact closing_then (closing_structDecl g docs) fun _ => trailing_pure _
  refine .ite (hother ?_) (.ite (hother (by grind)) (.ite (hother (by grind)) (.ite (hother (by grind)) ?_)))
  · exact .after fun _ => .after fun _ => .after fun _ => .after fun _ => closing_discard (closing_braces _)
  exact .ite (hother (by grind)) (.ite (hother (by grind)) (closing_expected _))

/-! ## Expressions -/

/-- If the expression may stand as a statement without a semicolon, what it has been read from may end one. -/
def Finished (e : Expr) (u : List TokenTree) : Prop := e.endsStatement = true → Ends u

/-- If the second expression may stand as a statement without a semicolon, nothing has been read behind the
first one, which may stand so too. -/
def Kept (first e : Expr) (u : List TokenTree) : Prop :=
  e.endsStatement = true → u = [] ∧ first.endsStatement = true

theorem kept_refl (e : Expr) : Kept e e [] := fun he => ⟨rfl, he⟩

theorem kept_of_false {first e : Expr} (h : e.endsStatement = false) (u : List TokenTree) : Kept first e u :=
  fun he => absurd (h.symm.trans he) Bool.false_ne_true

theorem Kept.trans {first e e' : Expr} {u v : List TokenTree} (h : Kept first e u) (h' : Kept e e' v) :
    Kept first e' (u ++ v) := by
  intro he
  obtain ⟨rfl, he⟩ := h' he
  obtain ⟨rfl, he⟩ := h he
  exact ⟨rfl, he⟩

theorem Kept.finished {first e : Expr} {u v : List TokenTree} (h : Kept first e v) (hfirst : Finished first u) :
    Finished e (u ++ v) := by
  intro he
  obtain ⟨rfl, he⟩ := h he
  rw [List.append_nil]
  exact hfirst he

theorem endsStatement_withStart (start : Position) (e : Expr) :
    (e.withStart start).endsStatement = e.endsStatement := by
  cases e with
  | invocation call s => cases call; rfl
  | _ => rfl

theorem endsStatement_of_extendLeft {start : Position} {e : Expr}
    (h : (e.extendLeft start).endsStatement = true) : e.endsStatement = true := by
  unfold Expr.extendLeft at h
  split at h
  · cases h
  · cases h
  · cases h
  · cases h
  · rwa [endsStatement_withStart] at h

/-- What reads an expression takes tokens that may end a statement, if the expression may be one. -/
def Parse.Finishing (p : Parse Expr) : Prop := p.Takes Finished

namespace Parse.Finishing

variable {α : Type} {p q : Parse Expr}

@[grind .]
theorem after {p : Parse α} {f : α → Parse Expr} (hf : ∀ a, (f a).Finishing) : (p >>= f).Finishing :=
  (Parse.Takes.any p).bind fun _ u _ => (hf _).mono fun _ _ he h => (he h).behind u

theorem ite {c : Prop} [Decidable c] (hp : p.Finishing) (hq : q.Finishing) : (if c then p else q).Finishing :=
  Parse.Takes.ite hp hq

@[grind .]
theorem of_false {e : Expr} (he : e.endsStatement = false) : (Pure.pure e : Parse Expr).Finishing :=
  Parse.Takes.pure fun h => absurd (he.symm.trans h) Bool.false_ne_true

@[grind .]
theorem of_closing (hp : p.Closing) : p.Finishing := hp.mono fun _ _ hu _ => hu

end Parse.Finishing

/-- The rules of a grammar read expressions so. -/
structure Grammar.Finishing (g : Grammar) : Prop where
  expr : ∀ allowStruct, (g.expr allowStruct).Finishing
  operand : ∀ allowStruct, (g.operand allowStruct).Finishing
  climb : ∀ allowStruct first p, (g.climb allowStruct first p).Takes (Kept first)

/-! ### Blocks -/

theorem closing_ifExpr (g : Grammar) : (ifExpr g).Closing := by
  have hblock : (block g).Closing := closing_blockWith g false
  let Φ (next : List (Span × Expr × Block) ⊕ (List (Span × Expr × Block) × Option Block)) (v : List TokenTree) :=
    next.isRight = true → Ends v
  have hafter {α : Type} {p : Parse α} {f : α → Parse (_ ⊕ _)} (hf : ∀ a, (f a).Takes Φ) : (p >>= f).Takes Φ :=
    (Parse.Takes.any p).bind fun _ u _ => (hf _).mono fun _ _ hv h => (hv h).behind u
  refine .after fun _ => closing_then ?_ fun _ => trailing_bind trailing_input fun _ => trailing_pure _
  refine .iterate (J := fun _ _ => True) trivial fun clauses u _ => Parse.Takes.mono (Φ := Φ) ?_ ?_
  · refine hafter fun start => hafter fun _ => hafter fun condition => ?_
    -- the last branch ends with its block
    refine hblock.bind fun yes v hv =>
      .ifWord (fun s => .skip still_input fun now => .ite ?_ (.ite ?_ (.failWith _))) ?_
    · exact .pure fun hnone => by cases hnone
    · refine hblock.bind fun no w hw => .pure fun _ => ?_
      rw [List.append_nil]
      exact (hw.behind [.word "else" s]).behind v
    · exact .pure fun _ => by rwa [List.append_nil]
  · intro next v hv
    cases next with
    | inl _ => trivial
    | inr _ => exact (hv rfl).behind u

theorem closing_whileExpr (g : Grammar) (start : Span) : (whileExpr g start).Closing := by
  have hend : Parse.Closing (do
      word "while"
      let condition ← g.expr false
      let body ← blockWith g true
      return Expr.whileLoop condition body (← spanFrom start)) := by grind
  exact .after fun _ => .after fun _ => .ite (.after fun _ => hend) hend

theorem closing_forExpr (g : Grammar) (start : Span) : (forExpr g start).Closing := by
  have hend : Parse.Closing (do
      word "for"
      let p ← patterns g
      word "in"
      let items ← g.expr false
      let body ← blockWith g true
      return Expr.forLoop p.pattern items body (← spanFrom start)) := by grind
  exact .after fun _ => .after fun _ => .ite (.after fun _ => hend) hend

theorem closing_loopExpr (g : Grammar) (start : Span) : (loopExpr g start).Closing := by
  unfold loopExpr
  grind

theorem closing_blockExpr (g : Grammar) (start : Span) : (blockExpr g start).Closing := by
  unfold blockExpr
  grind

theorem closing_labeled (g : Grammar) : (labeled g).Closing := by
  unfold labeled
  grind [closing_whileExpr, closing_forExpr, closing_loopExpr, closing_blockExpr]

theorem closing_matchExpr (g : Grammar) : (matchExpr g).Closing := by
  unfold matchExpr
  grind

theorem closing_markedBlock (g : Grammar) (words : List String) (inner ends : Bool) :
    (markedBlock g words inner ends).Closing := by
  unfold markedBlock
  grind

/-- What a macro call has been read from may end a statement if the call is in braces. -/
theorem finished_macroCall (g : Grammar) (name : Option Ident) (pathSpan : Span) :
    (macroCall g name pathSpan).Takes fun call u => ∀ s, Finished (.invocation call s) u := by
  refine (Parse.Takes.any (punct "!")).bind fun _ u _ => takes_anyGroup.bind fun read v hv => ?_
  obtain ⟨span, rfl⟩ := hv
  refine .skip (still_spanFrom _) fun _ => .pure fun s hbraced => ?_
  have hbraced : decide (read.1 = .brace) = true := hbraced
  rw [List.append_nil]
  exact (ends_singleton (t := .group read.1 read.2.1 span) hbraced).behind u

/-! ### Operands -/

theorem finishing_pathExpr (g : Grammar) (allowStruct : Bool) : (pathExpr g allowStruct).Finishing := by
  refine .after fun read => ?_
  obtain ⟨p, span⟩ := read
  refine .after fun _ => .after fun _ => .ite ?_ (.after fun _ => .ite ?_ ?_)
  · refine (finished_macroCall g p.plain span).bind fun call u hcall => .skip (still_spanFrom _) fun s => .pure ?_
    rw [List.append_nil]
    exact hcall s
  · exact .after fun _ => .after fun _ => .of_false rfl
  · split <;> exact .of_false rfl

theorem finishing_parenExpr (g : Grammar) : (parenExpr g).Finishing := by
  refine .after fun read => ?_
  obtain ⟨inside, span⟩ := read
  cases inside <;> exact .of_false rfl

theorem finishing_arrayExpr (g : Grammar) : (arrayExpr g).Finishing := by
  refine .after fun read => ?_
  obtain ⟨items, span⟩ := read
  cases items <;> exact .of_false rfl

theorem finishing_breakExpr (g : Grammar) (allowStruct : Bool) : (breakExpr g allowStruct).Finishing := by
  have hend (start : Span) (value : Option Expr) :
      (do return .breakLoop value.isSome (← spanFrom start) : Parse Expr).Finishing :=
    .after fun _ => .of_false rfl
  refine .after fun start => .after fun _ => .after fun now => .ite ?_ (.after fun _ => ?_)
  · exact .after fun _ => .after fun _ => .after fun _ => Parse.Takes.fail_bind _ _
  · exact .after fun _ => .after fun _ => .ite (.after fun _ => hend start _) (hend start none)

theorem finishing_closureExpr (g : Grammar) (allowStruct : Bool) : (closureExpr g allowStruct).Finishing := by
  refine .after fun start => .after fun _ => .after fun _ => .after fun _ => .after fun _ => .after fun _ => ?_
  refine .after fun _ => .ite (.after fun _ => .after fun _ => ?_) (.after fun _ => ?_)
  all_goals exact .after fun _ => .of_false rfl

theorem finishing_letExpr (g : Grammar) (allowStruct : Bool) : (letExpr g allowStruct).Finishing := by
  refine .after fun start => .after fun _ => .after fun _ => .after fun _ => .after fun _ => .after fun _ => ?_
  exact .after fun _ => .of_false rfl

theorem finishing_builtinExpr : builtinExpr.Finishing := by
  exact .after fun start => .after fun _ => .after fun _ => .after fun _ => .after fun _ => .after fun _ =>
    .of_false rfl

theorem finishing_atom (g : Grammar) (allowStruct : Bool) : (atom g allowStruct).Finishing := by
  have hmarked (words : List String) (inner ends : Bool) : (markedBlock g words inner ends).Finishing :=
    .of_closing (closing_markedBlock g words inner ends)
  have hother (start : Span) : (do return .other false (← spanFrom start) : Parse Expr).Finishing :=
    .after fun _ => .of_false rfl
  have hblock (start : Span) : Parse.Finishing (do
      discard (blockWith g true)
      return .other true (← spanFrom start)) :=
    .of_closing (closing_then (closing_discard (closing_blockWith g true)) fun _ => by grind)
  refine .after fun start => .after fun now => .ite (.after fun _ => .after fun _ => .of_false rfl) ?_
  refine .ite (hmarked _ _ _) (.ite (hmarked _ _ _) (.after fun _ => ?_))
  refine .ite (finishing_closureExpr g allowStruct) (.ite finishing_builtinExpr ?_)
  refine .ite (finishing_pathExpr g allowStruct) (.ite (finishing_parenExpr g) ?_)
  -- jumps
  refine .ite (finishing_breakExpr g allowStruct) (.ite ?_ (.ite ?_ (.ite ?_ ?_)))
  · exact .after fun _ => .after fun _ => .after fun _ => .of_false rfl
  · exact .after fun _ => .after fun _ => .after fun _ => .of_false rfl
  · exact .after fun _ => .after fun _ => hother start
  refine .ite (finishing_arrayExpr g) (.ite (finishing_letExpr g allowStruct) ?_)
  refine .ite (.of_closing (closing_ifExpr g)) (.ite (.of_closing (closing_whileExpr g start)) ?_)
  refine .ite (.of_closing (closing_forExpr g start)) (.ite (.of_closing (closing_loopExpr g start)) ?_)
  refine .ite (.of_closing (closing_matchExpr g)) (.ite ?_ (.ite ?_ (.ite ?_ ?_)))
  · exact .after fun _ => .after fun _ => hother start
  · exact .after fun _ => hblock start
  · exact .after fun _ => hblock start
  refine .ite (.of_closing (closing_blockExpr g start)) (.ite ?_ (.ite ?_ (.ite ?_ ?_)))
  · exact .after fun _ => .after fun _ => .after fun _ => .of_false rfl
  · exact .after fun _ => hother start
  · exact .of_closing (closing_labeled g)
  · exact Parse.Takes.failWith _

/-! ### Operators -/

/-- A step of a repetition makes an expression that needs a semicolon. -/
def Parse.GoesOn (p : Parse (Expr ⊕ Expr)) : Prop :=
  p.Takes fun next _ => ∃ e, next = .inl e ∧ e.endsStatement = false

theorem Parse.GoesOn.after {α : Type} {p : Parse α} {f : α → Parse (Expr ⊕ Expr)} (hf : ∀ a, (f a).GoesOn) :
    (p >>= f).GoesOn := Parse.Takes.after hf

theorem Parse.GoesOn.pure {e : Expr} (he : e.endsStatement = false) :
    (Pure.pure (.inl e) : Parse (Expr ⊕ Expr)).GoesOn := Parse.Takes.pure ⟨e, rfl, he⟩

/-- A repetition ends with what there was before its last step. -/
def Parse.Steps (p : Parse (Expr ⊕ Expr)) (e : Expr) : Prop :=
  p.Takes fun next u => (∃ e', next = .inl e' ∧ e'.endsStatement = false) ∨ next = .inr e ∧ u = []

theorem steps_of_goesOn {p : Parse (Expr ⊕ Expr)} {e : Expr} (hp : p.GoesOn) : p.Steps e :=
  hp.mono fun _ _ h => .inl h

theorem steps_end (e : Expr) : (pure (.inr e) : Parse (Expr ⊕ Expr)).Steps e := .pure (.inr ⟨rfl, rfl⟩)

theorem kept_iterate {step : Expr → Parse (Expr ⊕ Expr)} (hstep : ∀ e, (step e).Steps e) (first : Expr) :
    (iterate first step).Takes (Kept first) := by
  refine .iterate (J := Kept first) (kept_refl first) fun e u he => (hstep e).mono fun next v hnext => ?_
  rcases hnext with ⟨e', rfl, hopen⟩ | ⟨rfl, rfl⟩
  · exact kept_of_false hopen _
  · rwa [List.append_nil]

theorem endsStatement_afterPoint (g : Grammar) (e : Expr) :
    (afterPoint g e).Takes fun e' _ => e'.endsStatement = false := by
  have hother : (do return .other false (← spanFrom e.span) : Parse Expr).Takes
      fun e' _ => e'.endsStatement = false := .after fun _ => .pure rfl
  have hcall (name : Ident) : Parse.Takes (do
      let args ← arguments g
      return Expr.method e name args (← spanFrom e.span)) fun e' _ => e'.endsStatement = false :=
    .after fun args => .after fun _ => .pure rfl
  refine .after fun number => ?_
  split
  · exact hother
  · refine .after fun _ => .ite hother (.after fun found => ?_)
    split
    · rename_i name
      refine .after fun _ => .ite ?_ (.after fun _ => .ite (hcall name) hother)
      exact .after fun _ => .after fun _ => .after fun _ => .ite (hcall name) hother
    · exact hother

theorem kept_trailers (g : Grammar) (first : Expr) : (trailers g first).Takes (Kept first) := by
  refine kept_iterate (fun e => .skip still_input fun now => ?_) first
  refine .ite (steps_of_goesOn ?_)
    (.ite (steps_of_goesOn ?_) (.ite (steps_of_goesOn ?_) (.ite (steps_of_goesOn ?_) (steps_end e))))
  · exact .after fun args => .after fun _ => .pure rfl
  · refine .after fun _ => (endsStatement_afterPoint g e).bind fun e' u he => .pure ⟨e', rfl, he⟩
  · exact .after fun position => .after fun _ => .pure rfl
  · exact .after fun _ => .after fun _ => .pure rfl

theorem kept_climbRule (g : Grammar) (allowStruct : Bool) (first : Expr) (base : Precedence) :
    (climbRule g allowStruct first base).Takes (Kept first) := by
  refine kept_iterate (fun left => .skip still_input fun now => .ite (steps_end left) ?_) first
  split
  · rename_i o ho
    have hbinary : Parse.GoesOn (do
        punct o.text
        let right ← rightSide g allowStruct o.precedence
        let span := left.span.upTo right.span
        return .inl (if o.assigns then .compound o.op left right span else .binary o.op left right span)) := by
      refine .after fun _ => .after fun right => .pure ?_
      split <;> rfl
    exact .ite (steps_end left) (.ite (.failWith_bind _ _) (steps_of_goesOn hbinary))
  · refine .ite (steps_of_goesOn ?_) (.ite (steps_of_goesOn ?_) (.ite (steps_of_goesOn ?_) (steps_end left)))
    · exact .after fun _ => .after fun right => .pure rfl
    · exact .after fun closed => .after fun last => .after fun _ => .pure rfl
    · exact .after fun _ => .after fun type => .after fun _ => .after fun _ => .pure rfl

theorem finishing_operandRule (g : Grammar) (allowStruct : Bool) : (operandRule g allowStruct).Finishing := by
  refine .after fun start => .after fun _ => .after fun now => .ite (.after fun _ => .after fun second => ?_) ?_
  · -- a reference, or a raw one
    have hinner (raw : Bool) : Parse.Finishing (do
        let inner ← g.operand allowStruct
        let span ← spanFrom start
        return if raw then .other false span else .reference inner span) := by
      refine .after fun inner => .after fun span => .of_false ?_
      split <;> rfl
    have hmutable (raw : Bool) : Parse.Finishing (do
        let mutable ← word? "mut"
        if raw && !mutable then word "const"
        let inner ← g.operand allowStruct
        let span ← spanFrom start
        return if raw then .other false span else .reference inner span) :=
      .after fun _ => .ite (.after fun _ => hinner raw) (hinner raw)
    exact .ite (.after fun _ => hmutable _) (hmutable _)
  have hunary (text : String) (op : UnaryOp) : Parse.Finishing (do
      punct text
      let inner ← g.operand allowStruct
      return .unary op inner (← spanFrom start)) :=
    .after fun _ => .after fun inner => .after fun _ => .of_false rfl
  refine .ite (hunary "*" .deref) (.ite (hunary "!" .not) (.ite (hunary "-" .neg) ?_))
  refine (finishing_atom g allowStruct).bind fun first u hfirst => (kept_trailers g first).bind fun e v he => ?_
  have hfinished := he.finished hfirst
  split
  · exact .ite (.pure (by rwa [List.append_nil])) (.fail _)
  · refine .pure fun h => ?_
    rw [endsStatement_withStart] at h
    rw [List.append_nil]
    exact hfinished h

/-- The rules of a grammar of any depth read expressions so. -/
theorem Grammar.finishing_grammar (n : Nat) : (grammar n).Finishing := by
  induction n with
  | zero =>
    have hfail {Φ : Expr → List TokenTree → Prop} :
        (failWith fun _ => .unexpected none : Parse Expr).Takes Φ := .failWith _
    exact ⟨fun _ => hfail, fun _ => hfail, fun _ _ _ => hfail⟩
  | succ n ih =>
    refine ⟨fun allowStruct => ?_, finishing_operandRule _, kept_climbRule _⟩
    exact (ih.operand allowStruct).bind fun first u hfirst =>
      (ih.climb allowStruct first .jump).mono fun _ _ he => he.finished hfirst

/-! ## Statements -/

theorem finishing_freeRule (hg : g.Finishing) : (freeRule g).Finishing := by
  refine .after fun _ => .after fun start => .after fun now => .after fun generic => ?_
  have hchoice {c : Prop} [Decidable c] {q : Parse Expr} {others : Option (Parse Expr)}
      (hq : q.Closing) (hothers : ∀ p, others = some p → p.Closing) :
      ∀ p, (if c then some q else others) = some p → p.Closing := by
    intro p hp
    split at hp
    · exact Option.some.inj hp ▸ hq
    · exact hothers p hp
  extract_lets special
  have hspecial : ∀ p, special = some p → p.Closing := by
    refine hchoice (closing_ifExpr g) (hchoice (closing_whileExpr g start) (hchoice (closing_forExpr g start) ?_))
    refine hchoice (closing_loopExpr g start)
      (hchoice (closing_matchExpr g) (hchoice (closing_markedBlock g _ _ _) ?_))
    refine hchoice (closing_markedBlock g _ _ _) (hchoice (closing_markedBlock g _ _ _) ?_)
    refine hchoice (closing_blockExpr g start) (hchoice (closing_labeled g) fun p hp => ?_)
    cases hp
  clear_value special
  cases special with
  | none => exact hg.expr true
  | some p =>
    refine (hspecial p rfl).bind fun e u hu => .skip still_input fun after => .ite ?_ (.pure fun _ => ?_)
    · refine (kept_trailers g e).bind fun e' v he' => (hg.climb true e' .jump).mono fun e'' w he'' => ?_
      exact (he'.trans he'').finished fun _ => hu
    · rwa [List.append_nil]

/-- What a statement has been read from may end one, unless it needs a semicolon. -/
def Parse.Completing (p : Parse Stmt) : Prop := p.Takes fun s u => s.wantsSemicolon = false → Ends u

theorem Parse.Closing.completing {p : Parse Stmt} (hp : p.Closing) : p.Completing := hp.mono fun _ _ hu _ => hu

theorem Parse.Completing.after {α : Type} {p : Parse α} {f : α → Parse Stmt} (hf : ∀ a, (f a).Completing) :
    (p >>= f).Completing :=
  (Parse.Takes.any p).bind fun _ u _ => (hf _).mono fun _ _ hs h => (hs h).behind u

theorem closing_letStmt (g : Grammar) (start : Span) : (letStmt g start).Closing := by
  have hend (pattern : Pattern) (value : Option Expr) (keyword : Span) : Parse.Closing (do
      punct ";"
      return Stmt.bind pattern value keyword (← spanFrom start)) :=
    closing_then closing_semicolon fun _ => by grind
  have hvalue (pattern : Pattern) (keyword : Span) : Parse.Closing (do
      let value ← if ← punct? "=" then
          let e ← g.expr true
          if !(← input).braced then
            if ← word? "else" then discard (block g)
          pure (some e)
        else pure none
      punct ";"
      return Stmt.bind pattern value keyword (← spanFrom start)) := by
    refine .after fun _ => .ite (.after fun e => .after fun now => .ite ?_ ?_) (.after fun _ => hend _ _ _)
    · exact .after fun _ => .ite (.after fun _ => .after fun _ => hend _ _ _) (.after fun _ => hend _ _ _)
    · exact .after fun _ => hend _ _ _
  refine .after fun keyword => .after fun _ => .after fun p => .after fun _ => ?_
  exact .ite (.after fun type => .after fun pattern => hvalue _ _) (.after fun pattern => hvalue _ _)

/-! ### Macro calls in braces -/

/-- What a path at the start of a statement is. -/
def afterPlainPath (rest : List TokenTree) : MacroStart :=
  if isPunct "!" rest then
    let second := skipOne rest
    let third := skipOne second
    if isIdent second || isWord "try" second then .item
    else if isGroup .brace second && !((isPunct "." third && !isPunct ".." third) || isPunct "?" third) then .braces
    else .none
  else .none

theorem run_macroStart (now : Input) : macroStart.run now = .ok
    (match (discard plainPath).run now with
      | .error _ => .none
      | .ok (_, after) => afterPlainPath after.rest, now) := by
  have hafter (after : Input) : (do
      if ← peek (isPunct "!") then
        let second := skipOne (← input).rest
        if isIdent second || isWord "try" second then return MacroStart.item
        let third := skipOne second
        if isGroup .brace second && !((isPunct "." third && !isPunct ".." third) || isPunct "?" third)
        then return .braces
      return .none : Parse MacroStart).run after = .ok (afterPlainPath after.rest, after) := by
    unfold afterPlainPath
    change (ite _ _ _ : Parse MacroStart).run after = _
    split
    · change (ite _ _ _ : Parse MacroStart).run after = _
      split
      · rename_i hitem
        simp only [hitem, if_true]
        rfl
      · rename_i hitem
        simp only [hitem]
        split <;> rfl
    · rfl
  unfold macroStart
  rw [Parse.run_bind_eq]
  unfold ahead?
  dsimp only
  rw [Parse.run_bind_eq]
  cases hpath : (discard plainPath).run now with
  | error e => rfl
  | ok r =>
    dsimp only
    rw [hafter]
    rfl

/-- Where the braces of a macro call have been seen, the call is one in braces. -/
theorem braced_of_run_macroCall {g : Grammar} {name : Option Ident} {s : Span} {now after : Input} {call : MacroCall}
    (hseen : isGroup .brace (skipOne now.rest) = true) (hrun : (macroCall g name s).run now = .ok (call, after))
    (t : Span) : (Expr.invocation call t).endsStatement = true := by
  obtain ⟨_, middle, hmark, hrun⟩ := Parse.run_bind hrun
  obtain ⟨u, hu⟩ := (punct "!").suffix hmark
  obtain ⟨joint, place, rfl⟩ := takes_sign (c := '!') rfl _ _ _ u hmark hu.symm
  obtain ⟨read, behind, hread, hrun⟩ := Parse.run_bind hrun
  obtain ⟨v, hv⟩ := anyGroup.suffix hread
  obtain ⟨place', rfl⟩ := takes_anyGroup _ _ _ v hread hv.symm
  rw [← hu, ← hv] at hseen
  cases hrun
  exact decide_eq_true (of_decide_eq_true hseen).symm

theorem isGroup_of_afterPlainPath {rest : List TokenTree} (h : afterPlainPath rest = .braces) :
    isGroup .brace (skipOne rest) = true := by
  unfold afterPlainPath at h
  dsimp only at h
  split at h
  · split at h
    · cases h
    · split at h
      · rename_i hbraces
        exact (Bool.and_eq_true_iff.1 hbraces).1
      · cases h
  · cases h

/-- A macro call of which the braces have been seen ends with them, or with a semicolon behind them. -/
theorem ends_macroStmt {g : Grammar} {start : Span} {now after : Input} {s : Stmt} {u : List TokenTree}
    (hseen : macroStart.run now = .ok (.braces, now)) (hrun : (macroStmt g start).run now = .ok (s, after))
    (hu : now.rest = u ++ after.rest) : Ends u := by
  obtain ⟨read, middle, hpath, hrun⟩ := Parse.run_bind hrun
  obtain ⟨place, _, hhere, hpath⟩ := Parse.run_bind hpath
  cases hhere
  obtain ⟨p, behind, hplain, hpath⟩ := Parse.run_bind hpath
  cases hpath
  -- the call is read behind the path that has been seen
  have hgroup : isGroup .brace (skipOne middle.rest) = true := by
    have hdiscard : (discard plainPath).run now = .ok ((), middle) := Parse.run_bind_of_ok hplain
    rw [run_macroStart, hdiscard] at hseen
    exact isGroup_of_afterPlainPath (congrArg Prod.fst (Except.ok.inj hseen))
  obtain ⟨call, behind, hcall, hrun⟩ := Parse.run_bind hrun
  have htail : Parse.Trailing (do
      let exprSpan ← spanFrom start
      discard (punct? ";")
      return Stmt.expr (.invocation call exprSpan) true (← spanFrom start)) := by grind
  obtain ⟨v, hv⟩ := plainPath.suffix hplain
  obtain ⟨w, hw⟩ := Parse.suffix _ hcall
  obtain ⟨x, hx⟩ := Parse.suffix _ hrun
  have hends : Ends w :=
    finished_macroCall _ _ _ _ _ _ w hcall hw.symm start (braced_of_run_macroCall hgroup hcall start)
  have hused : u ++ after.rest = v ++ (w ++ x) ++ after.rest := by
    rw [← hu, List.append_assoc, List.append_assoc, hx, hw, hv]
  rw [List.append_cancel_right hused]
  rcases htail _ _ _ x hrun hx.symm with rfl | hx
  · rw [List.append_nil]
    exact hends.behind v
  · exact (hx.behind w).behind v

theorem completing_exprStmt (hg : g.Finishing) (start : Span) : (exprStmt g start).Completing := by
  refine (finishing_freeRule hg).bind fun e u he => takes_semicolon?.bind fun ended v hv => ?_
  refine .skip (still_spanFrom _) fun span => .pure fun hwants => ?_
  rw [List.append_nil]
  cases ended with
  | true =>
    obtain ⟨joint, s, rfl⟩ := hv
    exact (ends_singleton rfl).behind u
  | false =>
    obtain rfl : v = [] := hv
    rw [List.append_nil]
    refine he ?_
    -- the place at which it starts does not matter
    have hmoved : (if start.start = e.span.start then e else e.extendLeft start.start).endsStatement = true →
        e.endsStatement = true := by
      split
      · exact id
      · exact endsStatement_of_extendLeft
    refine hmoved ?_
    generalize (if start.start = e.span.start then e else e.extendLeft start.start) = e' at hwants
    rw [Bool.false_or, Stmt.wantsSemicolon] at hwants
    split at hwants
    · simpa [Expr.endsStatement] using hwants
    · simpa using hwants

theorem completing_statement (hg : g.Finishing) : (statement g).Completing := by
  refine .after fun start => .after fun docs => ?_
  have hrest (kind : MacroStart) : Parse.Completing (do
      let rest := (← input).rest
      if isWord "let" rest then letStmt g start
      else if itemAhead rest || kind = .item then
        let value ← itemRest g docs
        return .item value (← spanFrom start)
      else exprStmt g start) := by
    refine .after fun now =>
      Parse.Takes.ite (closing_letStmt g start).completing (.ite ?_ (completing_exprStmt hg start))
    exact Parse.Closing.completing (closing_then (closing_itemRest g docs) fun _ => by grind)
  intro now after s u hrun hu hwants
  obtain ⟨kind, middle, hkind, hrun⟩ := Parse.run_bind hrun
  obtain rfl : middle = now := by
    rw [run_macroStart] at hkind
    exact (congrArg Prod.snd (Except.ok.inj hkind)).symm
  cases kind with
  | braces => exact ends_macroStmt hkind hrun hu
  | item => exact hrest .item _ _ _ u hrun hu hwants
  | none => exact hrest .none _ _ _ u hrun hu hwants

end Rules

end Notebook.Syntax

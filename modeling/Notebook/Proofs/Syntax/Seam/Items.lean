import Notebook.Proofs.Syntax.Seam.Operands

/-!
# Items before and at a seam

An item ends in a semicolon, or in a group in braces with nothing behind it that it could go on with.
-/

namespace Notebook.Syntax
open Notebook.Text

/-! ## Words before an item -/

section Words

@[grind .]
theorem sharp_unsafety (safe : Bool) : (unsafety safe).Sharp := by
  unfold unsafety
  grind [sharp_bind]

@[grind .]
theorem open_unsafety (safe : Bool) : (unsafety safe).Open := by
  unfold unsafety
  grind

@[grind .]
theorem sharp_signatureAhead (safe : Bool) : (signatureAhead safe).Sharp := by
  refine sharp_bind (sharp_ahead? ?_) (open_ahead? _) fun _ => sharp_pure _
  refine sharp_bind (by grind) (by grind) fun _ => sharp_bind (by grind) (by grind) fun _ => ?_
  refine sharp_bind (by grind) (by grind) fun _ => sharp_bind (by grind) (by grind) fun _ => sharp_ite ?_ (by grind)
  refine sharp_bind (by grind) (by grind) fun _ => sharp_ite ?_ (by grind)
  exact sharp_bind (by grind) (by grind) fun _ => by grind

@[grind .]
theorem open_signatureAhead (safe : Bool) : (signatureAhead safe).Open :=
  open_bind (open_ahead? _) fun _ => open_pure _

@[grind .]
theorem inside_visibility : visibility.Inside := by
  refine inside_bind (by grind) fun _ => inside_ite (inside_bind ?_ fun _ => ?_) (by grind)
  · exact (sharp_ahead? (sharp_group _ _)).inside
  · exact inside_ite (by grind) (by grind)

@[grind .]
theorem open_visibility : visibility.Open := by
  unfold visibility
  have := open_group (d := .parenthesis) (α := Unit) (by decide)
  grind

end Words

section Rules

variable {g : Grammar} {back : List TokenTree}

theorem inside_signature (hg : g.Inside) (safe : Bool) : (signature g safe).Inside := by
  have hresult : (typeExpr g true).Inside := inside_typeExpr hg true
  have hwhere := inside_whereClause hg
  have hgenerics := inside_generics hg
  have hparams : (params g).Inside := (sharp_group _ _).inside
  have hafter : (do
      word "fn"
      let name ← ident
      let generics ← generics g
      let params ← params g
      let result ← if ← punct? "->" then some <$> typeExpr g true else pure none
      discard (whereClause g)
      return ⟨[], name.name, generics, params, result⟩ : Parse FnHeader).Inside := by
    iterate 4 refine inside_bind (by grind) fun _ => ?_
    grind
  iterate 4 refine inside_bind (by grind) fun _ => ?_
  exact inside_ite (inside_bind (by grind) fun _ => inside_ite (inside_bind (by grind) fun _ => hafter) hafter) hafter

theorem local_functionBody (g : Grammar) : (functionBody g).Local back :=
  local_bind_pure (local_withSpan (sharp_group _ _).local)

theorem bites_functionBody (g : Grammar) : (functionBody g).Bites :=
  bites_then (bites_after fun _ => bites_then (eager_group _ _).bites)

theorem local_members (g : Grammar) (p : Parse Unit) : (members g p).Local back := (sharp_group _ _).local

theorem bites_members (g : Grammar) (p : Parse Unit) : (members g p).Bites := (eager_group _ _).bites

/-- A semicolon, or something is missing. -/
theorem bites_semicolon {α : Type} {things : List String} {f : Unit → Parse α} (p : Parse α) :
    Parse.Bites (do if ← punct? ";" then p else expected things >>= f) := by
  refine bites_punct? (by decide) ?_
  rw [if_neg Bool.false_ne_true]
  exact (fails_then (fails_expected things)).bites

theorem local_structDecl (hg : g.Inside) (docs : List (List Char)) : (structDecl g docs).Local back := by
  have hwhere := inside_whereClause hg
  have hgenerics := inside_generics hg
  have hnamed : (namedFields g).Local back := (sharp_group _ _).local
  have hcounted : (countedFields g).Sharp := sharp_group _ _
  have hopen : (countedFields g).Open := open_group (by decide) _
  refine local_after (by grind) (by grind) fun _ => local_after (by grind) (by grind) fun name => ?_
  refine local_after hgenerics (by grind) fun generics => ?_
  refine local_bind_of_bites hwhere (fun conditions => ?_) fun conditions => ?_
  · refine local_look (fun now back hnow => ?_) fun now => local_after (by grind) (by grind) fun found => ?_
    · simp only [onto_rest, isGroup_append hnow]
    refine local_ite ?_ (local_ite (local_bind_pure hnamed)
      (local_ite (sharp_pure _).local (local_expected_bind _ _)))
    refine local_after (by grind) hopen fun fields => ?_
    refine local_bind_of_bites hwhere (fun _ => ?_) fun _ => bites_semicolon _
    exact local_after (by grind) (by grind) fun _ => local_ite (sharp_pure _).local (local_expected_bind _ _)
  · refine bites_after fun now => bites_punct? (by decide) (bites_ite (bites_then (eager_group _ _).bites) ?_)
    refine bites_ite (bites_then (eager_group _ _).bites) ?_
    rw [if_neg Bool.false_ne_true]
    exact (fails_then (fails_expected _)).bites

theorem local_enumDecl (hg : g.Inside) : (enumDecl g).Local back := by
  have hwhere := inside_whereClause hg
  have hgenerics := inside_generics hg
  refine local_after (by grind) (by grind) fun _ => local_after (by grind) (by grind) fun _ => ?_
  refine local_after (by grind) (by grind) fun _ => local_bind_of_bites (by grind) (fun _ => ?_) fun _ => ?_
  · exact local_discard (sharp_group _ _).local
  · exact bites_then (eager_group _ _).bites

/-- A union from its keyword on. -/
theorem local_union (hg : g.Inside) : Parse.Local back (do
    word "union"
    discard ident
    discard (generics g)
    discard (whereClause g)
    discard (namedFields g)) := by
  have hwhere := inside_whereClause hg
  have hgenerics := inside_generics hg
  refine local_after (by grind) (by grind) fun _ => local_after (by grind) (by grind) fun _ => ?_
  refine local_after (by grind) (by grind) fun _ => local_bind_of_bites (by grind) (fun _ => ?_) fun _ => ?_
  · exact local_discard (sharp_group _ _).local
  · exact bites_then (eager_group _ _).bites

/-! ### What ends in a semicolon -/

theorem moves_boundsUntil {stop : Parse Bool} (rules : BoundRules) : Parse.Moves (do
    if ← stop then return .inr ()
    discard (bound g rules)
    if ← stop then return .inr ()
    punct "+"
    return .inl () : Parse (Unit ⊕ Unit)) := by
  refine moves_after fun _ => moves_ite (moves_inr _) (moves_after fun _ => moves_after fun _ => ?_)
  exact moves_ite (moves_inr _) (moves_then (eager_punct (by decide)).bites)

theorem inside_boundsUntil (hg : g.Inside) {stop : Parse Bool} (hstop : stop.Inside) (rules : BoundRules) :
    (boundsUntil g stop rules).Inside := by
  have hbound := inside_bound hg rules
  refine inside_iterate (fun _ => ?_) (fun _ => moves_boundsUntil rules) ()
  refine inside_bind hstop fun _ => inside_ite (by grind) (inside_bind (by grind) fun _ => ?_)
  exact inside_bind hstop fun _ => inside_ite (by grind) (by grind)

/-- A type alias from its equals sign on. -/
def typeItemEnd (g : Grammar) (after conditions : Bool) : Parse Unit := do
  if ← punct? "=" then discard (g.type true)
  if after && !conditions then discard (whereClause g)
  punct ";"

theorem inside_typeItemEnd (hg : g.Inside) (after conditions : Bool) : (typeItemEnd g after conditions).Inside := by
  have hwhere := inside_whereClause hg
  exact inside_bind (by grind) fun _ => inside_perhaps (by grind) (inside_perhaps (by grind) (by grind))

theorem ends_typeItemEnd (g : Grammar) (after conditions : Bool) : (typeItemEnd g after conditions).Ends :=
  .after fun _ => .perhaps (.perhaps (ends_punct (by decide)))

theorem local_typeItem (hg : g.Inside) (before after : Bool) : (typeItem g before after).Local back := by
  have hwhere := inside_whereClause hg
  have hgenerics := inside_generics hg
  have hbounds (rules : BoundRules) : (boundsUntil g (do
      return (← peek (isWord "where")) || (← peek (isPunct "=")) || (← peek (isPunct ";"))) rules).Inside :=
    inside_boundsUntil hg (by grind) rules
  have hend := inside_typeItemEnd hg after
  refine local_of_open ?_ (Parse.Ends.open ?_)
  · iterate 4 refine inside_bind (by grind) fun _ => ?_
    exact inside_perhaps (hbounds _) (inside_ite (inside_bind hwhere fun conditions => hend conditions) (hend false))
  · iterate 4 refine .after fun _ => ?_
    exact .perhaps (ends_ite (.after (ends_typeItemEnd g after)) (ends_typeItemEnd g after false))

theorem local_constantItem (hg : g.Inside) : (constantItem g).Local back := by
  have hwhere := inside_whereClause hg
  have hgenerics := inside_generics hg
  have htype := inside_typeExpr hg true
  have hsemicolon : (punct ";").Ends := ends_punct (by decide)
  refine local_of_open ?_ (Parse.Ends.open ?_)
  · -- the condition and the semicolon
    have hend (item : Bool → Parse Item) (hitem : ∀ conditions, (item conditions).Inside) : (do
        let conditions ← whereClause g
        punct ";"
        item conditions : Parse Item).Inside :=
      inside_bind hwhere fun conditions => inside_bind (by grind) fun _ => hitem conditions
    iterate 3 refine inside_bind (by grind) fun _ => ?_
    refine inside_ite (inside_bind (by grind) fun name => ?_) (inside_expected_bind _ _)
    iterate 5 refine inside_bind (by grind) fun _ => ?_
    refine inside_ite (inside_bind (by grind) fun value => ?_) (inside_bind (by grind) fun value => ?_)
    · exact hend _ (by grind)
    · exact hend _ (by grind)
  · have hend (item : Bool → Parse Item) (hitem : ∀ conditions, (item conditions).Open) : (do
        let conditions ← whereClause g
        punct ";"
        item conditions : Parse Item).Ends :=
      Parse.Ends.after fun conditions => hsemicolon.first fun _ => hitem conditions
    iterate 3 refine Parse.Ends.after fun _ => ?_
    refine ends_ite (Parse.Ends.after fun name => ?_) (fails_then (fails_expected _)).ends
    iterate 5 refine Parse.Ends.after fun _ => ?_
    exact ends_ite (.after fun value => hend _ (by grind)) (.after fun value => hend _ (by grind))

theorem local_staticItem (hg : g.Inside) : (staticItem g false).Local back := by
  have hsemicolon : (punct ";").Ends := ends_punct (by decide)
  refine local_of_open ?_ (Parse.Ends.open ?_)
  · iterate 3 refine inside_bind (by grind) fun _ => ?_
    rw [if_neg Bool.false_ne_true]
    refine inside_bind (by grind) fun untyped => inside_ite (by grind) ?_
    refine inside_bind (by grind) fun _ => inside_bind (by grind) fun _ => ?_
    rw [if_neg Bool.false_ne_true]
    refine inside_bind (by grind) fun ended => inside_ite (by grind) ?_
    rw [if_neg Bool.false_ne_true]
    grind
  · iterate 3 refine .after fun _ => ?_
    rw [if_neg Bool.false_ne_true]
    refine .after fun untyped => ends_ite (.after fun _ => hsemicolon) (.after fun _ => .after fun _ => ?_)
    rw [if_neg Bool.false_ne_true]
    refine ends_punct? (by decide) (by grind) ?_
    exact .after fun _ => .after fun _ => hsemicolon

theorem local_importItem (hg : g.Inside) : (importItem g).Local back := by
  have hsemicolon : (punct ";").Ends := ends_punct (by decide)
  refine local_of_open ?_ (Parse.Ends.open ?_)
  · iterate 2 refine inside_bind (by grind) fun _ => ?_
    refine inside_look (fun now back hnow => ?_) fun now => ?_
    · obtain ⟨t, rest, hrest⟩ := List.exists_cons_of_ne_nil hnow.ne_nil
      rw [onto_rest, hrest]
      cases t <;> rfl
    · exact inside_bind (by grind) fun read => by grind
  · iterate 2 refine .after fun _ => ?_
    exact .after fun now => .after fun read => hsemicolon.first fun _ => by grind

/-! ### What ends in members -/

theorem local_traitRest (hg : g.Inside) : (traitRest g).Local back := by
  have hwhere := inside_whereClause hg
  have hbounds (rules : BoundRules) :
      (boundsUntil g (return (← peek (isWord "where")) || (← peek (isGroup .brace))) rules).Inside :=
    inside_boundsUntil hg (by grind) rules
  have hbody : (do
      discard (whereClause g)
      members g (traitMember g) : Parse Unit).Local back :=
    local_bind_of_bites (by grind) (fun _ => local_members g _) fun _ => bites_members g _
  refine local_after (by grind) (by grind) fun _ => local_perhaps (hbounds _) ?_ hbody
  exact bites_after fun _ => bites_members g _

theorem local_traitItem (hg : g.Inside) (aliasAllowed : Bool) : (traitItem g aliasAllowed).Local back := by
  have hwhere := inside_whereClause hg
  have hgenerics := inside_generics hg
  have hbounds (rules : BoundRules) :
      (boundsUntil g (return (← peek (isWord "where")) || (← peek (isPunct ";"))) rules).Inside :=
    inside_boundsUntil hg (by grind) rules
  iterate 3 refine local_after (by grind) (by grind) fun _ => ?_
  refine local_ite (local_traitRest hg) (local_look (fun now back hnow => ?_) fun now => ?_)
  · simp only [onto_rest, isGroup_append hnow, isPunct_append hnow, isWord_append hnow]
  · refine local_ite (local_traitRest hg)
      (local_after (by grind) (by grind) fun _ => local_ite ?_ (sharp_expected _).local)
    refine local_of_open (inside_bind (hbounds _) fun _ => by grind) (Parse.Ends.open ?_)
    exact .after fun _ => .after fun _ => ends_punct (by decide)

/-- An implementation from its conditions on. -/
def implBody (g : Grammar) : Parse Unit := do
  discard (whereClause g)
  members g (implMember g)

theorem local_implBody (hg : g.Inside) : (implBody g).Local back :=
  local_bind_of_bites (inside_discard (inside_whereClause hg)) (fun _ => local_members g _) fun _ => bites_members g _

theorem bites_implBody (g : Grammar) : (implBody g).Bites := bites_after fun _ => bites_members g _

/-- An implementation from its types on. -/
def implTypes (g : Grammar) : Parse Unit := do
  discard (g.type true)
  if ← word? "for" then discard (g.type true)
  implBody g

theorem local_implTypes (hg : g.Inside) : (implTypes g).Local back := by
  refine local_bind_of_bites (by grind) (fun _ => ?_) fun _ => bites_after fun _ => bites_perhaps (bites_implBody g)
  exact local_after (by grind) (by grind) fun _ => local_perhaps (by grind) (bites_implBody g) (local_implBody hg)

/-- An implementation from an exclamation mark on, which may stand before the types. -/
def implNegated (g : Grammar) : Parse Unit := do
  let rest := (← input).rest
  if isPunct "!" rest && !isGroup .brace (skipOne rest) then punct "!"
  implTypes g

theorem local_implNegated (hg : g.Inside) : (implNegated g).Local back := by
  have htypes : (implTypes g).Local back := local_implTypes hg
  refine local_look (fun now back hnow => ?_) fun now =>
    local_ite (local_after (by grind) (by grind) fun _ => htypes) htypes
  cases hbrace : isGroup .brace now.rest with
  | true => simp [onto_rest, hnow, hbrace]
  | false =>
    obtain ⟨hsecond, hskip⟩ := hnow.skipOne hbrace
    simp only [onto_rest, isPunct_append hnow, hskip, isGroup_append hsecond]

theorem local_implItem (hg : g.Inside) : (implItem g).Local back := by
  have hgenerics := inside_generics hg
  have hnegated : (implNegated g).Local back := local_implNegated hg
  have hconst : (do
      let rest := (← input).rest
      if isWord "const" rest || (isPunct "?" rest && isWord "const" (skipOne rest)) then
        discard (punct? "?")
        word "const"
      implNegated g : Parse Unit).Local back := by
    refine local_look (fun now back hnow => ?_) fun now => local_ite ?_ hnegated
    · cases hbrace : isGroup .brace now.rest with
      | true => simp [onto_rest, hnow, hbrace]
      | false =>
        obtain ⟨hsecond, hskip⟩ := hnow.skipOne hbrace
        simp only [onto_rest, isPunct_append hnow, isWord_append hnow, hskip, isWord_append hsecond]
    · exact local_after (by grind) (by grind) fun _ => local_after (by grind) (by grind) fun _ => hnegated
  iterate 3 refine local_after (by grind) (by grind) fun _ => ?_
  refine local_after sharp_parametersAhead.inside (by grind) fun _ => ?_
  exact local_ite (local_after (by grind) (by grind) fun _ => hconst) hconst

theorem local_moduleItem (g : Grammar) : (moduleItem g).Local back := by
  have hmembers : (members g g.item).Local back := local_members g _
  have hend : (do
      if ← punct? ";" then return ()
      else if ← peek (isGroup .brace) then members g g.item
      else expected ["`;`", "curly braces"] : Parse Unit).Local back := by
    refine local_after (by grind) (by grind) fun _ => local_ite (by grind)
      (local_after (by grind) (by grind) fun _ => ?_)
    exact local_ite hmembers (sharp_expected _).local
  iterate 3 refine local_after (by grind) (by grind) fun _ => ?_
  exact local_ite (local_after (by grind) (by grind) fun _ => hend) (local_after (by grind) (by grind) fun _ => hend)

theorem local_foreignItem (g : Grammar) : (foreignItem g).Local back := by
  have hmembers : (members g (foreignMember g)).Local back := local_members g _
  iterate 3 refine local_after (by grind) (by grind) fun _ => ?_
  exact local_ite (local_after (by grind) (by grind) fun _ => hmembers) hmembers

theorem local_externItem (g : Grammar) : (externItem g).Local back := by
  refine local_look_behind (fun now hbrace => ?_) (fun now back hnow hbrace => ?_) fun now => ?_
  · obtain ⟨body, s, v, hv⟩ := exists_group_of_isGroup hbrace
    obtain ⟨rest, scope, printed, last, braced, leftover⟩ := now
    obtain rfl : rest = _ := hv
    dsimp only
    split
    · exact ⟨_, rfl⟩
    · split <;> exact ⟨_, rfl⟩
  · obtain ⟨hsecond, hskip⟩ := hnow.skipOne hbrace
    cases hbrace' : isGroup .brace (skipOne now.rest) with
    | true => simp [onto_rest, hskip, hsecond, hbrace']
    | false =>
      obtain ⟨hthird, hskip'⟩ := hsecond.skipOne hbrace'
      simp [onto_rest, hskip, hsecond, hskip', hthird]
  · have hsemicolon : (punct ";").Local back := (sharp_punct _).local
    refine local_ite ?_ (local_ite (local_foreignItem g) ?_)
    · refine local_after (by grind) (by grind) fun _ => local_after (by grind) (by grind) fun _ => ?_
      have hrenamed : (do
          if ← word? "as" then
            if ← peek isIdent then discard ident else underscore
          punct ";" : Parse Unit).Local back := by
        refine local_after (by grind) (by grind) fun _ => local_ite ?_ hsemicolon
        refine local_after (by grind) (by grind) fun _ => local_ite ?_ ?_
        · exact local_after (by grind) (by grind) fun _ => hsemicolon
        · exact local_after (by grind) (by grind) fun _ => hsemicolon
      refine local_after (by grind) (by grind) fun _ => local_ite ?_ ?_
      · exact local_after (by grind) (by grind) fun _ => hrenamed
      · exact local_after (by grind) (by grind) fun _ => hrenamed
    · refine local_after (by grind) (by grind) fun _ => local_ite ?_ (sharp_expected _).local
      exact local_after (by grind) (by grind) fun _ => (sharp_expected _).local

theorem local_macroDecl : macroDecl.Local back := by
  have hgroup : (discard anyGroup).Sharp := sharp_discard sharp_anyGroup
  have hbody (things : List String) : (do
      if ← peek (isGroup .brace) then discard anyGroup else expected things : Parse Unit).Local back :=
    local_after (by grind) (by grind) fun _ => local_ite hgroup.local (sharp_expected _).local
  iterate 3 refine local_after (by grind) (by grind) fun _ => ?_
  refine local_perhaps hgroup.inside (bites_after fun _ => bites_ite ?_ (fails_expected _).bites) (hbody _)
  exact bites_then eager_anyGroup.bites

theorem local_macroItem : macroItem.Local back := by
  have hgroup : (do
      let read ← anyGroup
      unless read.1 = .brace do punct ";" : Parse Unit).Local back := by
    refine local_bind sharp_anyGroup.local (fun read => ?_) fun read => ?_
    · exact local_ite (sharp_pure _).local (sharp_punct _).local
    · exact idle_ite (idle_pure _) (idle_of_bites (ends_punct (by decide)).bites)
  refine local_after (by grind) (by grind) fun _ => local_after (by grind) (by grind) fun _ => ?_
  refine local_after (by grind) (by grind) fun _ => local_ite (local_after (by grind) (by grind) fun _ => hgroup) ?_
  refine local_after (by grind) (by grind) fun _ => ?_
  exact local_ite (local_after (by grind) (by grind) fun _ => hgroup) hgroup

/-! ## An item -/

theorem local_itemRest (hg : g.Inside) (docs : List (List Char)) : (itemRest g docs).Local back := by
  have hother {p : Parse Unit} (hp : p.Local back) : (p >>= fun _ => pure Item.other : Parse Item).Local back :=
    local_bind_pure hp
  refine local_after (by grind) (by grind) fun visible => local_look (fun now back hnow => ?_) fun now => ?_
  · cases hbrace : isGroup .brace now.rest with
    | true => simp [onto_rest, hnow, hbrace]
    | false =>
      obtain ⟨hsecond, hskip⟩ := hnow.skipOne hbrace
      cases hbrace' : isGroup .brace (skipOne now.rest) with
      | true => simp [onto_rest, hnow, hsecond, hskip, hbrace']
      | false =>
        obtain ⟨hthird, hskip'⟩ := hsecond.skipOne hbrace'
        simp [onto_rest, hnow, hsecond, hskip, hthird, hskip']
  refine local_after (by grind) (by grind) fun _ => local_ite ?_ ?_
  · refine local_bind_of_bites (inside_signature hg false) (fun header => ?_)
      fun header => bites_punct? (by decide) ?_
    · refine local_after (by grind) (by grind) fun _ => local_ite (sharp_pure _).local ?_
      exact local_bind_pure (local_functionBody g)
    · rw [if_neg Bool.false_ne_true]
      exact bites_then (bites_functionBody g)
  refine local_ite (hother (local_externItem g)) (local_ite (local_importItem hg) ?_)
  refine local_ite (hother (local_staticItem hg)) (local_ite (local_constantItem hg) (local_ite ?_ ?_))
  · refine local_ite ?_ (local_ite (hother (local_implItem hg)) (local_ite (hother (local_foreignItem g)) ?_))
    · refine hother (local_after (by grind) (by grind) fun _ => local_after (by grind) (by grind) fun _ => ?_)
      exact local_traitItem hg false
    · exact local_ite (hother (local_moduleItem g)) (Parse.Fails.local (fails_after fun _ => fails_expected _))
  refine local_ite (hother (local_moduleItem g)) (local_ite (hother (local_typeItem hg true false)) ?_)
  refine local_ite (local_bind_pure (local_structDecl hg docs)) (local_ite (hother (local_enumDecl hg)) ?_)
  refine local_ite (hother (local_union hg)) (local_ite (hother (local_traitItem hg true)) (local_ite ?_ ?_))
  · exact hother (local_after (by grind) (by grind) fun _ => local_traitItem hg false)
  refine local_ite (hother (local_implItem hg)) (local_ite (hother local_macroDecl) ?_)
  exact local_ite (hother local_macroItem) (sharp_expected _).local

end Rules

end Notebook.Syntax

import Notebook.Proofs.Syntax.Taking

/-!
# What types and patterns take

Paths, types and patterns take no semicolon in the open, and a comma only between angle brackets or bars, so
none that is not hidden (`Grammar.neat_grammar`).
-/

namespace Notebook.Syntax
open Notebook.Text

/-! ## Commas between signs -/

/-- No semicolon stands in the open among what the reader takes. -/
def Parse.Unended {α : Type} (p : Parse α) : Prop := p.Takes fun _ u => ';' ∉ signs u

theorem Parse.Neatly.unended {α : Type} {p : Parse α} (hp : p.Neatly) : p.Unended :=
  hp.mono fun _ _ hu => hu.semicolon

theorem unended_bind {α β : Type} {p : Parse α} {f : α → Parse β} (hp : p.Unended)
    (hf : ∀ a, (f a).Unended) : (p >>= f).Unended :=
  hp.bind fun a u hu => (hf a).mono fun b v hv => by
    rw [signs_append, List.mem_append]
    exact not_or.2 ⟨hu, hv⟩

theorem unended_captured {α : Type} {p : Parse α} (hp : p.Unended) : (captured p).Unended :=
  unended_bind neat_input.unended fun _ => unended_bind (neat_reprint _).unended fun _ =>
    unended_bind hp fun _ => Parse.Neatly.unended (by grind)

theorem unended_iterate {α σ : Type} {s : σ} {step : σ → Parse (σ ⊕ α)} (hstep : ∀ s, (step s).Unended) :
    (iterate s step).Unended := by
  refine .iterate (J := fun _ u => ';' ∉ signs u) List.not_mem_nil fun s u hu =>
    (hstep s).mono fun next v hv => ?_
  have huv : ';' ∉ signs (u ++ v) := by
    rw [signs_append, List.mem_append]
    exact not_or.2 ⟨hu, hv⟩
  cases next <;> exact huv

theorem Parse.Unended.discard {α : Type} {p : Parse α} (hp : p.Unended) : (discard p).Unended :=
  (Parse.Takes.discard hp).mono fun _ _ ⟨_, hu⟩ => hu

theorem unended_comma : (punct ",").Unended :=
  (takes_punct ",").mono fun _ _ hu => by rw [hu]; decide

theorem unended_separatedUntil {α : Type} {stop : Parse Bool} {p : Parse α} (hstop : stop.Neatly)
    (hp : p.Neatly) : (separatedUntil stop "," p).Unended := by
  refine unended_iterate fun read => ?_
  have hpure (next : List α ⊕ List α) : (pure next : Parse (List α ⊕ List α)).Unended :=
    (neat_pure next).unended
  refine unended_bind hstop.unended fun found => .ite (hpure _) ?_
  refine unended_bind hp.unended fun a => unended_bind hstop.unended fun found => .ite (hpure _) ?_
  exact unended_bind unended_comma fun _ => hpure _

/-- Among what the reader takes in the open are no separators, and there is this sign. -/
def Parse.Closes {α : Type} (p : Parse α) (c : Char) : Prop := p.Takes fun _ u => Neat u ∧ c ∈ signs u

theorem closes_angle : (punct ">").Closes '>' :=
  (takes_punct ">").mono fun _ _ hu => ⟨neat_of_isInner (by decide) hu, by rw [hu]; decide⟩

theorem closes_bar : (punct "|").Closes '|' :=
  (takes_punct "|").mono fun _ _ hu => ⟨neat_of_isInner (by decide) hu, by rw [hu]; decide⟩

theorem closes_then {α β : Type} {p : Parse α} {f : α → Parse β} {c : Char} (hp : p.Closes c)
    (hf : ∀ a, (f a).Neatly) : (p >>= f).Closes c :=
  hp.bind fun a u ⟨hu, hc⟩ => (hf a).mono fun b v hv =>
    ⟨hu.append hv, by rw [signs_append]; exact List.mem_append_left _ hc⟩

theorem closes_after {α β : Type} {p : Parse α} {f : α → Parse β} {c : Char} (hp : p.Neatly)
    (hf : ∀ a, (f a).Closes c) : (p >>= f).Closes c :=
  hp.bind fun a u hu => (hf a).mono fun b v ⟨hv, hc⟩ =>
    ⟨hu.append hv, by rw [signs_append]; exact List.mem_append_right _ hc⟩

/-- Between angle brackets or bars there may be commas. -/
theorem neat_between {α β : Type} {first : String} {c d : Char} {p : Parse α} {f : α → Parse β}
    (hfirst : first.toList = [c]) (hsigns : (c = '<' ∧ d = '>') ∨ (c = '|' ∧ d = '|')) (hp : p.Unended)
    (hf : ∀ a, (f a).Closes d) : (punct first >>= fun _ => p >>= f).Neatly := by
  refine (takes_punct first).bind fun _ u hu => hp.bind fun a v hv => (hf a).mono fun b w ⟨hw, hd⟩ => ?_
  rw [hfirst] at hu
  have hsemicolon : ';' ∉ signs u := by
    rw [hu]
    rcases hsigns with ⟨rfl, -⟩ | ⟨rfl, -⟩ <;> decide
  have hcomma : ',' ∉ signs u := by
    rw [hu]
    rcases hsigns with ⟨rfl, -⟩ | ⟨rfl, -⟩ <;> decide
  constructor
  · simp only [signs_append, List.mem_append, not_or]
    exact ⟨hsemicolon, hv, hw.semicolon⟩
  · intro hmem
    simp only [signs_append, List.mem_append, hcomma, false_or] at hmem
    rcases hmem with hmem | hmem
    · -- a comma in between is hidden by the signs around it
      have hsublist : [c, ',', d].Sublist (signs (u ++ (v ++ w))) := by
        rw [signs_append, signs_append, hu]
        exact (List.Sublist.refl [c]).append
          ((List.singleton_sublist.2 hmem).append (List.singleton_sublist.2 hd))
      rcases hsigns with ⟨rfl, rfl⟩ | ⟨rfl, rfl⟩
      · exact .inl hsublist
      · exact .inr hsublist
    · exact (hw.comma hmem).mono
        ((List.sublist_append_right v w).trans (List.sublist_append_right u (v ++ w)))

theorem neat_angles {α β : Type} {p : Parse α} {f : α → Parse β} (hp : p.Unended)
    (hf : ∀ a, (f a).Closes '>') : (punct "<" >>= fun _ => p >>= f).Neatly :=
  neat_between (c := '<') rfl (.inl ⟨rfl, rfl⟩) hp hf

theorem neat_bars {α β : Type} {p : Parse α} {f : α → Parse β} (hp : p.Unended)
    (hf : ∀ a, (f a).Closes '|') : (punct "|" >>= fun _ => p >>= f).Neatly :=
  neat_between (c := '|') rfl (.inr ⟨rfl, rfl⟩) hp hf

/-! ## Paths, types and patterns -/

/-- The types and patterns of a grammar take no separator. -/
structure Grammar.Neat (g : Grammar) : Prop where
  type : ∀ plus, (g.type plus).Neatly
  pattern : g.pattern.Neatly

attribute [grind .] Grammar.Neat.type Grammar.Neat.pattern

section Types

variable {g : Grammar} {bound : BoundRules → Parse BoundKind}

@[grind .]
theorem neat_outerAttribute (g : Grammar) : (outerAttribute g).Neatly := by
  unfold outerAttribute
  grind

@[grind .]
theorem neat_outerAttributes (g : Grammar) : (outerAttributes g).Neatly := by
  unfold outerAttributes
  grind

@[grind .]
theorem neat_constArgument (g : Grammar) : (constArgument g).Neatly := by
  unfold constArgument
  grind

@[grind .]
theorem neat_genericParamsWith (hg : g.Neat) (hbound : ∀ rules, (bound rules).Neatly) :
    (genericParamsWith g bound).Neatly := by
  refine neat_angles (unended_separatedUntil (neat_peek _) ?_).discard fun _ => closes_angle
  -- a parameter is a lifetime, a type or a constant
  refine neat_bind (by grind) fun _ => neat_bind (neat_peek _) fun _ => neat_ite ?_ ?_
  · grind +splitImp
  refine neat_bind (neat_peek _) fun _ => neat_ite ?_ (by grind)
  refine neat_bind (by grind) fun _ => neat_bind (by grind) fun _ => neat_ite ?_ (by grind)
  exact neat_bind (neat_discard (neat_chain (by grind) (by decide) (hbound _))) fun _ => by grind

@[grind .]
theorem neat_binder? (hg : g.Neat) (hbound : ∀ rules, (bound rules).Neatly) : (binder? g bound).Neatly := by
  unfold binder?
  grind

@[grind .]
theorem neat_resultType (hg : g.Neat) (plus : Bool) : (resultType g plus).Neatly := by
  unfold resultType
  grind

@[grind .]
theorem neat_parenthesizedArguments (hg : g.Neat) : (parenthesizedArguments g).Neatly := by
  unfold parenthesizedArguments
  grind

@[grind .]
theorem neat_parensAhead : parensAhead.Neatly := by
  unfold parensAhead
  grind

@[grind .]
theorem neat_dropColons : dropColons.Neatly := by
  unfold dropColons
  grind

@[grind .]
theorem neat_angleArguments (hg : g.Neat) (hbound : ∀ rules, (bound rules).Neatly) :
    (angleArguments g bound).Neatly := by
  unfold angleArguments
  refine neat_angles ?_ fun _ => closes_after (by grind) fun _ => closes_angle
  refine unended_captured (unended_iterate fun read => ?_)
  have hpure (next : List ArgumentText ⊕ List ArgumentText) : (pure next : Parse _).Unended :=
    (neat_pure next).unended
  refine unended_bind (neat_peek _).unended fun _ => .ite (hpure _) ?_
  refine unended_bind (Parse.Neatly.unended (neat_captured ?_)) fun argument => ?_
  · -- a lifetime, a constant, or a type that may be a name with what it stands for or its bounds
    refine neat_bind (neat_peek _) fun _ => neat_bind (neat_peekSecond _) fun _ => neat_ite (by grind) ?_
    refine neat_bind (neat_peek _) fun _ => neat_bind (neat_peek _) fun _ => neat_ite (by grind) ?_
    refine neat_bind (hg.type true) fun type => neat_ite ?_ (neat_pure _)
    refine neat_bind (by grind) fun _ => neat_ite (by grind) ?_
    refine neat_bind (by grind) fun _ => neat_ite ?_ (neat_pure _)
    exact neat_bind (neat_discard (neat_chain (by grind) (by decide) (hbound _))) fun _ => neat_pure _
  · refine unended_bind (neat_peek _).unended fun _ => .ite (hpure _) ?_
    exact unended_bind unended_comma fun _ => hpure _

@[grind .]
theorem neat_pathSegment (hg : g.Neat) (hbound : ∀ rules, (bound rules).Neatly) (inExpr : Bool) :
    (pathSegment g bound inExpr).Neatly := by
  refine neat_bind neat_input fun now => neat_ite (by grind) ?_
  -- the name is read in one of two ways, and then what may follow it
  refine neat_bind (neat_peek _) fun _ => neat_ite ?_ ?_
  all_goals
    refine neat_bind (by grind) fun name => neat_bind (neat_peek _) fun _ => neat_bind (neat_peek _) fun _ => ?_
    refine neat_bind (neat_peek _) fun _ => neat_bind (neat_peekThird _) fun _ => ?_
    exact neat_ite (by grind) (neat_pure _)

@[grind .]
theorem neat_pathRest (hg : g.Neat) (hbound : ∀ rules, (bound rules).Neatly) (inExpr : Bool) (p : Path) :
    (pathRest g bound inExpr p).Neatly := by
  unfold pathRest
  grind +splitImp

@[grind .]
theorem neat_unqualifiedPath (hg : g.Neat) (hbound : ∀ rules, (bound rules).Neatly) (inExpr : Bool) :
    (unqualifiedPath g bound inExpr).Neatly := by
  unfold unqualifiedPath
  grind

theorem neat_boundWith (hg : g.Neat) (hbound : ∀ rules, (bound rules).Neatly) (rules : BoundRules) :
    (boundWith g bound rules).Neatly := by
  have htail (binder : Bool) (kind : BoundKind) : Parse.Neatly (do
      let mark ← here
      let maybe ← punct? "?"
      let binder ← if !binder && maybe then binder? g bound else pure binder
      let path ← unqualifiedPath g bound false
      if !path.endsInArgs && (← parensAhead) then
        dropColons
        discard (parenthesizedArguments g)
      if binder && maybe then
        wrongAt mark "`for<...>` binder not allowed with `?` trait polarity modifier"
      return kind) := by
    refine neat_bind neat_here fun mark => neat_bind (by grind) fun maybe => neat_ite ?_ ?_
    all_goals
      refine neat_bind (by grind) fun binder => neat_bind (by grind) fun path => ?_
      exact neat_bind neat_parensAhead fun _ => neat_ite (by grind) (by grind)
  refine neat_bind (neat_peek _) fun _ => neat_ite (by grind) ?_
  refine neat_bind (neat_peek _) fun _ => neat_ite ?_ ?_
  · -- what may be captured stands between angle brackets
    refine neat_bind (by grind) fun start => neat_bind (by grind) fun _ => neat_angles ?_ fun _ => ?_
    · refine (unended_separatedUntil (neat_peek _) ?_).discard
      grind
    · exact closes_then closes_angle fun _ => by grind
  · refine neat_bind (neat_peek _) fun _ => neat_ite (by grind) (neat_bind (by grind) fun binder => ?_)
    refine neat_bind (neat_peek _) fun _ => neat_ite ?_ (neat_bind (neat_peek _) fun _ => neat_ite ?_ ?_)
    · refine neat_bind neat_here fun _ => neat_bind (neat_group _ _) fun _ => neat_ite (htail binder _) ?_
      exact neat_wrongAt_bind _ _ _
    · refine neat_bind neat_here fun _ => neat_bind (neat_word _) fun _ => neat_ite (htail binder _) ?_
      exact neat_wrongAt_bind _ _ _
    · exact htail binder _

theorem neat_boundFor (hg : g.Neat) (n : Nat) (rules : BoundRules) : (boundFor g n rules).Neatly := by
  induction n generalizing rules with
  | zero =>
    unfold boundFor
    exact neat_failWith _
  | succ n ih => exact neat_boundWith hg ih rules

@[grind .]
theorem neat_bound (hg : g.Neat) (rules : BoundRules) : (Syntax.bound g rules).Neatly :=
  neat_bind neat_input fun _ => neat_boundFor hg _ rules

@[grind .]
theorem neat_path (hg : g.Neat) (inExpr : Bool) : (path g inExpr).Neatly := by
  refine neat_bind (by grind) fun _ => neat_ite ?_ (neat_unqualifiedPath hg (neat_bound hg) inExpr)
  -- a type between angle brackets, and segments after it
  refine neat_bind (by grind) fun _ => neat_bind (by grind) fun _ => ?_
  refine neat_ite (neat_bind (by grind) fun _ => ?_) ?_
  all_goals
    refine neat_bind (by grind) fun _ => neat_bind (by grind) fun _ => neat_bind (by grind) fun segment => ?_
    exact neat_iterate fun p => by grind

@[grind .]
theorem neat_boundAhead (const : Bool) : (boundAhead const).Neatly := by
  unfold boundAhead
  grind

@[grind .]
theorem neat_bounds (hg : g.Neat) (plus : Bool) (rules : BoundRules) : (bounds g plus rules).Neatly := by
  unfold bounds
  grind +splitImp

@[grind .]
theorem neat_requireTrait (start : Span) (what : String) (kinds : List BoundKind) :
    (requireTrait start what kinds).Neatly := by
  unfold requireTrait
  grind

@[grind .]
theorem neat_objectBounds (hg : g.Neat) (start : Span) (plus : Bool) :
    (objectBounds g start plus).Neatly := by
  unfold objectBounds
  grind

@[grind .]
theorem neat_boundsAfterPlus (hg : g.Neat) : (boundsAfterPlus g).Neatly := by
  unfold boundsAfterPlus
  grind

@[grind .]
theorem neat_functionPointer (hg : g.Neat) : (functionPointer g).Neatly := by
  unfold functionPointer
  grind

@[grind .]
theorem neat_pathType (hg : g.Neat) : (pathType g).Neatly := by
  unfold pathType
  grind +splitImp

@[grind .]
theorem neat_parenType (hg : g.Neat) (plus : Bool) : (parenType g plus).Neatly := by
  unfold parenType
  grind

theorem neat_typeRule (hg : g.Neat) (plus : Bool) : (typeRule g plus).Neatly := by
  -- only some types may come after a binder
  refine neat_bind (by grind) fun binder => ?_
  refine neat_ite (neat_bind neat_input fun now => neat_ite (neat_expected_bind _ _) ?_) ?_
  all_goals
    refine neat_bind neat_input fun now => neat_ite (by grind) (neat_ite (by grind) (neat_ite ?_ ?_))
    · -- a path, perhaps with bounds behind it
      refine neat_bind (by grind) fun p => neat_ite (by grind) ?_
      refine neat_bind (by grind) fun _ => neat_bind (by grind) fun _ => neat_ite (by grind) ?_
      refine neat_bind (by grind) fun _ => neat_ite (neat_ite ?_ (by grind)) (by grind)
      refine neat_bind (neat_iterate fun single => neat_bind (by grind) fun _ => neat_ite ?_ ?_) fun _ => ?_
      all_goals grind
    · refine neat_ite (by grind) (neat_ite (by grind) (neat_ite (by grind) (neat_ite (by grind) ?_)))
      refine neat_ite (by grind) (neat_ite (by grind) (neat_ite (by grind) (neat_ite (by grind) ?_)))
      exact neat_expected _

@[grind .]
theorem neat_typeExpr (hg : g.Neat) (plus : Bool) : (typeExpr g plus).Neatly := by
  unfold typeExpr
  grind

@[grind .]
theorem neat_barAhead : barAhead.Neatly := by
  unfold barAhead
  grind

@[grind .]
theorem neat_patterns (hg : g.Neat) : (patterns g).Neatly := by
  refine neat_bind neat_here fun start => neat_bind (by grind) fun leading => neat_bind hg.pattern fun _ => ?_
  refine neat_bind neat_barAhead fun _ => neat_ite ?_ (neat_pure _)
  exact neat_bind (neat_discard (neat_many neat_barAhead (by grind))) fun _ => by grind

@[grind .]
theorem neat_rangeDots (obsolete : Bool) : (rangeDots obsolete).Neatly := by
  unfold rangeDots
  grind

@[grind .]
theorem neat_rangeBound (hg : g.Neat) : (rangeBound g).Neatly := by
  refine neat_bind neat_atEnd fun _ => neat_bind (neat_peek _) fun _ => neat_bind (neat_peek _) fun _ => ?_
  refine neat_bind (neat_peek _) fun _ => neat_bind (neat_peek _) fun _ => neat_bind (neat_peek _) fun _ => ?_
  refine neat_bind (neat_peek _) fun _ => neat_bind (neat_peek _) fun _ => neat_ite (neat_pure _) ?_
  -- a literal, a path, or a block for a constant
  refine neat_bind neat_input fun _ => neat_ite (by grind) (neat_ite (by grind) ?_)
  exact neat_ite (by grind) (by grind)

@[grind .]
theorem neat_rangeAfterStart (hg : g.Neat) (start : Span) : (rangeAfterStart g start).Neatly := by
  unfold rangeAfterStart
  grind

@[grind .]
theorem neat_pathPattern (hg : g.Neat) : (pathPattern g).Neatly := by
  refine neat_bind neat_here fun start => neat_bind (by grind) fun p => ?_
  refine neat_bind (neat_peek _) fun _ => neat_bind (neat_peek _) fun _ => neat_ite (by grind) ?_
  grind

@[grind .]
theorem neat_namePattern (hg : g.Neat) : (namePattern g).Neatly := by
  refine neat_bind neat_here fun start => neat_bind (by grind) fun _ => neat_bind (by grind) fun _ => ?_
  refine neat_bind (neat_peek _) fun _ => neat_ite ?_ ?_
  all_goals
    refine neat_bind (by grind) fun name => neat_bind (by grind) fun _ => neat_ite (by grind) (neat_pure _)

theorem neat_patternRule (hg : g.Neat) : (patternRule g).Neatly := by
  refine neat_bind neat_here fun start => neat_bind neat_input fun now => neat_bind (neat_pure _) fun goesOn => ?_
  -- a path, an underscore, a box
  refine neat_ite (neat_pathPattern hg) (neat_ite (by grind) (neat_ite (by grind) ?_))
  -- a literal, or a range that starts with one
  refine neat_ite (by grind) (neat_ite (neat_namePattern hg) ?_)
  -- a reference, a tuple, a slice
  refine neat_ite (by grind) (neat_ite (by grind) (neat_ite (by grind) ?_))
  -- a range without a start
  exact neat_ite (by grind) (neat_expected _)

end Types

theorem Grammar.neat_grammar (n : Nat) : (grammar n).Neat := by
  induction n with
  | zero =>
    have hfail {α : Type} : (failWith fun _ => .unexpected none : Parse α).Neatly := neat_failWith _
    exact ⟨fun _ => hfail, hfail⟩
  | succ n ih => exact ⟨fun plus => neat_typeRule ih plus, neat_patternRule ih⟩

end Notebook.Syntax

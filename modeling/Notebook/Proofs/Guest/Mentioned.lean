import Notebook.Proofs.Guest.Checking
import Notebook.Proofs.Guest.Declared

/-!
# What a check depends on

A check depends on the local names around it, and on what the names of the session that it mentions stand
for.  What it says is missing stands for nothing, or not for what it is used as.
-/

namespace Notebook.Guest
open Notebook.Text Notebook.Syntax

namespace Check

/-! ## Scopes -/

/-- Two checks come to the same, names that count as used or missing aside, and leave scopes of a kind. -/
inductive Twin {α : Type} (kept : List (List (String × Ty)) → Prop) :
    Except CheckError (α × CheckState) → Except CheckError (α × CheckState) → Prop
  | error (e : CheckError) : Twin kept (.error e) (.error e)
  | ok (a : α) {t t' : CheckState} (scopes : t'.scopes = t.scopes) (keeps : kept t.scopes) :
    Twin kept (.ok (a, t)) (.ok (a, t'))

/-- The checks come to the same in the same scopes, and leave the scopes as they were. -/
def SameInside {α : Type} (x x' : Check α) : Prop :=
  ∀ st st' : CheckState, st'.scopes = st.scopes → Twin (· = st.scopes) (x.run st) (x'.run st')

/-- The checks come to the same in the same scopes, and leave the outer scopes as they were. -/
def SameOutside {α : Type} (x x' : Check α) : Prop :=
  ∀ st st' : CheckState, st'.scopes = st.scopes →
    Twin (·.tail = st.scopes.tail) (x.run st) (x'.run st')

theorem local?_congr {st st' : CheckState} (h : st'.scopes = st.scopes) (n : String) :
    st'.local? n = st.local? n := by
  unfold CheckState.local?
  rw [h]

theorem twin_unknownName {st st' : CheckState} (h : st'.scopes = st.scopes) (c : CheckContext)
    (n : String) (span : Span) (what : String) :
    Twin (· = st.scopes) ((unknownName c n span what).run st) ((unknownName c n span what).run st') := by
  rw [unknownName_run, unknownName_run]
  split
  · exact .ok _ h rfl
  · exact .error _

theorem twin_calledGlobal {st st' : CheckState} (h : st'.scopes = st.scopes) (c : CheckContext)
    (i : Ident) : Twin (· = st.scopes) (calledGlobal c i st) (calledGlobal c i st') := by
  unfold calledGlobal
  split
  · exact .ok _ h rfl
  · exact .error _
  · exact .ok _ h rfl
  · split
    · exact .ok _ h rfl
    · exact .error _

theorem twin_bind {α β : Type} {kept kept' : List (List (String × Ty)) → Prop} {x x' : Check α}
    {f f' : α → Check β} {st st' : CheckState} (hx : Twin kept (x.run st) (x'.run st'))
    (hf : ∀ a t t', t'.scopes = t.scopes → kept t.scopes → Twin kept' ((f a).run t) ((f' a).run t')) :
    Twin kept' ((x >>= f).run st) ((x' >>= f').run st') := by
  rw [StateT.run_bind, StateT.run_bind]
  revert hx
  generalize x.run st = r
  generalize x'.run st' = r'
  rintro (e | ⟨a, hscopes, hkeeps⟩)
  · exact .error e
  · exact hf a _ _ hscopes hkeeps

theorem SameInside.bind {α β : Type} {x x' : Check α} {f f' : α → Check β} (hx : SameInside x x')
    (hf : ∀ a, SameInside (f a) (f' a)) : SameInside (x >>= f) (x' >>= f') := by
  intro st st' h
  refine twin_bind (hx st st' h) fun a t t' hscopes hkeeps => ?_
  rw [← hkeeps]
  exact hf a t t' hscopes

theorem sameInside_method (c : CheckContext) (receiver : Expr) (ty : Ty) (m : Ident) (count : Nat) :
    SameInside (method c receiver ty m count) (method c receiver ty m count) := by
  intro st st' h
  have hmethods : methodsNamed c st' receiver = methodsNamed c st receiver := by
    unfold methodsNamed
    simp only [local?_congr h]
  rw [method_run, method_run, hmethods]
  cases methodResult (methodsNamed c st receiver) ty m count with
  | ok result => exact .ok result h rfl
  | error e => exact .error e

theorem declare_run_nil {n : String} {ty : Ty} {st : CheckState} (h : st.scopes = []) :
    (declare n ty).run st = .ok ((), st) := by
  obtain ⟨⟩ := st
  cases h
  rfl

theorem declare_run_cons {n : String} {ty : Ty} {st : CheckState} {scope : List (String × Ty)}
    {outer : List (List (String × Ty))} (h : st.scopes = scope :: outer) :
    (declare n ty).run st = .ok ((), { st with scopes := ((n, ty) :: scope) :: outer }) := by
  obtain ⟨⟩ := st
  cases h
  rfl

/-- A check depends on the scopes that it starts in, and on no names that were used or missed before. -/
theorem sameInside (c : CheckContext) : Alongside c c (fun _ => True) SameInside SameOutside where
  own := rfl
  pure a := fun _ _ h => .ok a h rfl
  fail o span := fun _ _ _ => .error _
  bind hx hf := hx.bind hf
  weaken hx := by
    intro st st' h
    have hx := hx st st' h
    revert hx
    generalize StateT.run _ st = r
    generalize StateT.run _ st' = r'
    rintro (e | ⟨a, hscopes, hkeeps⟩)
    · exact .error e
    · exact .ok a hscopes (congrArg List.tail hkeeps)
  then_ hx hf := by
    intro st st' h
    refine twin_bind (hx st st' h) fun a t t' hscopes hkeeps => ?_
    rw [← hkeeps]
    exact hf a t t' hscopes
  declare n ty := by
    intro st st' h
    -- only the innermost scope grows
    cases hst : st.scopes with
    | nil =>
      rw [declare_run_nil hst, declare_run_nil (h.trans hst)]
      exact .ok _ h (congrArg List.tail hst)
    | cons scope outer =>
      rw [declare_run_cons hst, declare_run_cons (h.trans hst)]
      exact .ok _ rfl rfl
  inScope hx := by
    intro st st' h
    let opens : Check Unit := modify fun s => { s with scopes := [] :: s.scopes }
    have hopens : Twin (·.tail = st.scopes) (opens.run st) (opens.run st') :=
      .ok () (congrArg ([] :: ·) h) rfl
    refine twin_bind hopens fun _ t t' hscopes hkeeps => ?_
    refine twin_bind (hx t t' hscopes) fun a u u' hscopes' hkeeps' => ?_
    exact .ok a (congrArg List.tail hscopes') (hkeeps'.trans hkeeps)
  name i := by
    intro st st' h
    rw [name_run, name_run, local?_congr h]
    split
    · exact .ok _ h rfl
    · exact .ok _ h rfl
    · exact .ok _ h rfl
    · exact .error _
    · exact .error _
    · exact twin_unknownName h ..
  place e := by
    intro st st' h
    cases e
    case name i span =>
      rw [place_run, place_run, local?_congr h]
      split
      · exact .ok _ h rfl
      · exact .ok _ h rfl
      · exact .error _
      · exact twin_unknownName h ..
    all_goals exact .error _
  type t _ := by
    intro st st' h
    rw [resolveType_run, resolveType_run]
    split
    · exact .ok _ h rfl
    · exact .error _
    · split
      · exact .ok _ h rfl
      · split
        · exact .ok _ h rfl
        · exact .error _
  callee i _ := by
    intro st st' h
    rw [callee_run, callee_run, local?_congr h]
    split
    · exact .error _
    · split
      · exact .ok _ h rfl
      · exact twin_calledGlobal h ..
    · exact twin_calledGlobal h ..
  method inLoop receiver m args span hreceiver hargs :=
    hreceiver.bind fun ty => hargs.bind fun types => sameInside_method c receiver ty m types.length
  shown span n _ := by
    intro st st' h
    rw [shownName_run, shownName_run, local?_congr h]
    split
    · exact .ok _ h rfl
    · exact .ok _ h rfl
    · exact .ok _ h rfl
    · split
      · exact .ok _ h rfl
      · exact .error _

/-- A check that succeeds leaves the scopes as they were. -/
theorem SameInside.scopes_eq {α : Type} {x : Check α} (h : SameInside x x) {st t : CheckState} {a : α}
    (hrun : x.run st = .ok (a, t)) : t.scopes = st.scopes := by
  have htwin := h st st rfl
  rw [hrun] at htwin
  cases htwin with
  | ok _ _ hkeeps => exact hkeeps

end Check

/-! ## The names that a check mentions -/

/-- The name counts as used or as missing. -/
def CheckState.Mentions (st : CheckState) (n : String) : Prop := n ∈ st.referenced ∨ n ∈ st.missing

theorem CheckState.mentions_refer (st : CheckState) (n other : String) :
    (st.refer n).Mentions other ↔ other = n ∨ st.Mentions other := by
  unfold Mentions refer
  dsimp only
  rw [mem_insertNew, or_assoc]

theorem CheckState.mentions_miss (st : CheckState) (n other : String) :
    (st.miss n).Mentions other ↔ other = n ∨ st.Mentions other := by
  unfold Mentions miss
  dsimp only
  rw [mem_insertOrdered]
  tauto

namespace Check

/-- What the first check comes to among its names, the second one comes to among names that differ only
where the first one mentions nothing. -/
def Framed (c c' : CheckContext) {α : Type} (x x' : Check α) : Prop :=
  ∀ (st : CheckState) (a : α) (t : CheckState), x.run st = .ok (a, t) →
    (∀ n, st.Mentions n → t.Mentions n) ∧
      ((∀ n, t.Mentions n → c'.globals n = c.globals n) → x'.run st = .ok (a, t))

/-- A built-in function that is called is still built in for the second context: its name has not been
taken. -/
def KeepsBuiltins (c c' : CheckContext) (u : NameUse × String) : Prop :=
  u.1 = .called → (Builtin.find? u.2).isSome = true → c.globals u.2 = none → c'.globals u.2 = none

/-- A success after which the state is the same, or a failure. -/
theorem framed_of_same {c c' : CheckContext} {α : Type} {x : Check α}
    (h : ∀ st a t, x.run st = .ok (a, t) → ∀ n, st.Mentions n → t.Mentions n) : Framed c c' x x :=
  fun st a t hrun => ⟨h st a t hrun, fun _ => hrun⟩

theorem Framed.bind {c c' : CheckContext} {α β : Type} {x x' : Check α} {f f' : α → Check β}
    (hx : Framed c c' x x') (hf : ∀ a, Framed c c' (f a) (f' a)) :
    Framed c c' (x >>= f) (x' >>= f') := by
  intro st b u hrun
  rw [StateT.run_bind] at hrun ⊢
  obtain ⟨⟨a, t⟩, hxrun, hfrun⟩ := exists_of_bind_ok hrun
  obtain ⟨hgrows, hsame⟩ := hx st a t hxrun
  obtain ⟨hgrows', hsame'⟩ := hf a t b u hfrun
  refine ⟨fun n hn => hgrows' n (hgrows n hn), fun hagree => ?_⟩
  -- what the first part mentions, the whole mentions
  rw [hsame fun n hn => hagree n (hgrows' n hn)]
  exact hsame' hagree

/-- A step that mentions the name that it looks up, unless it has no need to look it up. -/
theorem framed_of_lookup {c c' : CheckContext} {α : Type} {x x' : Check α} {n : String}
    (h : ∀ st a t, x.run st = .ok (a, t) →
      t = st ∧ x'.run st = .ok (a, t) ∨
        (t = st.refer n ∨ t = st.miss n) ∧
          (c'.globals n = c.globals n → x'.run st = .ok (a, t))) : Framed c c' x x' := by
  intro st a t hrun
  rcases h st a t hrun with ⟨rfl, hsame⟩ | ⟨rfl | rfl, hsame⟩
  · exact ⟨fun _ h => h, fun _ => hsame⟩
  · exact ⟨fun other hother => (st.mentions_refer n other).2 (.inr hother),
      fun hagree => hsame (hagree n ((st.mentions_refer n n).2 (.inl rfl)))⟩
  · exact ⟨fun other hother => (st.mentions_miss n other).2 (.inr hother),
      fun hagree => hsame (hagree n ((st.mentions_miss n n).2 (.inl rfl)))⟩

theorem lenient_eq {c c' : CheckContext} (h : c'.own = c.own) : c'.lenient = c.lenient := by
  unfold CheckContext.lenient
  rw [h]

theorem unknownName_eq {c c' : CheckContext} (h : c'.own = c.own) : unknownName c' = unknownName c := by
  unfold unknownName
  rw [lenient_eq h]

theorem unknownName_ok {c : CheckContext} {n : String} {span : Span} {what : String}
    {st t : CheckState} {a : Ty} (h : (unknownName c n span what).run st = .ok (a, t)) :
    t = st.miss n := by
  rw [unknownName_run] at h
  split at h
  · cases h
    rfl
  · cases h

variable {c c' : CheckContext}

theorem framed_name (hown : c'.own = c.own) (i : Ident) : Framed c c' (name c i) (name c' i) := by
  refine framed_of_lookup (n := i.name) fun st a t hrun => ?_
  rw [name_run] at hrun ⊢
  rw [unknownName_eq hown]
  split at hrun
  · cases hrun
    exact .inl ⟨rfl, by simp only [*]⟩
  · cases hrun
    exact .inr ⟨.inl rfl, fun h => by simp only [*]⟩
  · cases hrun
    exact .inr ⟨.inl rfl, fun h => by simp only [*]⟩
  · cases hrun
  · cases hrun
  · exact .inr ⟨.inr (unknownName_ok hrun), fun h => by simp only [*]⟩

theorem framed_place (hown : c'.own = c.own) (e : Expr) : Framed c c' (place c e) (place c' e) := by
  cases e
  case name i span =>
    refine framed_of_lookup (n := i.name) fun st a t hrun => ?_
    rw [place_run] at hrun ⊢
    rw [unknownName_eq hown]
    split at hrun
    · cases hrun
      exact .inl ⟨rfl, by simp only [*]⟩
    · cases hrun
      exact .inr ⟨.inl rfl, fun h => by simp only [*]⟩
    · cases hrun
    · exact .inr ⟨.inr (unknownName_ok hrun), fun h => by simp only [*]⟩
  all_goals exact fun _ _ _ hrun => by cases hrun

theorem framed_resolveType (hown : c'.own = c.own) (t : TypeExpr) :
    Framed c c' (resolveType c t) (resolveType c' t) := by
  cases hread : Ty.read t.form with
  | known ty =>
    -- a built-in type mentions no name, so any one will do
    refine framed_of_lookup (n := "") fun st a u hrun => ?_
    rw [resolveType_run, hread] at hrun ⊢
    cases hrun
    exact .inl ⟨rfl, rfl⟩
  | unsupported =>
    intro st a u hrun
    rw [resolveType_run, hread] at hrun
    cases hrun
  | named n =>
    refine framed_of_lookup (n := n) fun st a u hrun => ?_
    rw [resolveType_run, hread] at hrun ⊢
    dsimp only at hrun ⊢
    rw [lenient_eq hown]
    split at hrun
    · cases hrun
      exact .inr ⟨.inl rfl, fun h => by simp only [*, if_true]⟩
    · split at hrun
      · cases hrun
        exact .inr ⟨.inr rfl, fun h => by simp only [*, if_true, if_false]⟩
      · cases hrun

theorem framed_callee (hown : c'.own = c.own) (i : Ident)
    (hbuiltin : KeepsBuiltins c c' (.called, i.name)) : Framed c c' (callee c i) (callee c' i) := by
  have hglobal (st : CheckState) (a : Option (List Ty × Ty)) (t : CheckState)
      (hrun : calledGlobal c i st = .ok (a, t)) :
      t = st ∧ calledGlobal c' i st = .ok (a, t) ∨
        (t = st.refer i.name ∨ t = st.miss i.name) ∧
          (c'.globals i.name = c.globals i.name → calledGlobal c' i st = .ok (a, t)) := by
    unfold calledGlobal at hrun ⊢
    rw [lenient_eq hown]
    split at hrun
    · cases hrun
      exact .inr ⟨.inl rfl, fun h => by simp only [*]⟩
    · cases hrun
    · rename_i b hnone hb
      cases hrun
      -- a built-in function is not mentioned, so its name has to be free in both contexts
      have hnone' := hbuiltin rfl (by rw [hb]; rfl) hnone
      exact .inl ⟨rfl, by simp only [*]⟩
    · split at hrun
      · cases hrun
        exact .inr ⟨.inr rfl, fun h => by simp only [*, if_true]⟩
      · cases hrun
  refine framed_of_lookup (n := i.name) fun st a t => ?_
  rw [callee_run, callee_run, hown]
  cases st.local? i.name with
  | some ty => exact fun hrun => by cases hrun
  | none =>
    cases c.own with
    | none => exact hglobal st a t
    | some own =>
      dsimp only
      split
      · intro hrun
        exact .inl ⟨by cases hrun; rfl, hrun⟩
      · exact hglobal st a t

theorem framed_shownName (hown : c'.own = c.own) (span : Span) (n : String) :
    Framed c c' (shownName c span n) (shownName c' span n) := by
  refine framed_of_lookup (n := n) fun st a t hrun => ?_
  rw [shownName_run] at hrun ⊢
  rw [lenient_eq hown]
  split at hrun
  · cases hrun
    exact .inl ⟨rfl, by simp only [*]⟩
  · cases hrun
    exact .inr ⟨.inl rfl, fun h => by simp only [*]⟩
  · cases hrun
    exact .inr ⟨.inl rfl, fun h => by simp only [*]⟩
  · split at hrun
    · cases hrun
      exact .inr ⟨.inr rfl, fun h => by simp only [*, if_true]⟩
    · cases hrun

/-- The methods that are known of a receiver are those of a name that checking the receiver mentions. -/
theorem methodsNamed_eq (receiver : Expr) {inLoop : Bool} {st t u : CheckState} {ty : Ty}
    (hreceiver : (expr c inLoop receiver).run st = .ok (ty, t)) (hscopes : u.scopes = t.scopes)
    (hgrows : ∀ n, t.Mentions n → u.Mentions n)
    (hagree : ∀ n, u.Mentions n → c'.globals n = c.globals n) :
    methodsNamed c' u receiver = methodsNamed c u receiver := by
  cases receiver
  case name i span =>
    have hlocal : u.local? i.name = st.local? i.name :=
      (local?_congr hscopes _).trans (local?_congr ((sameInside c).name i |>.scopes_eq hreceiver) _)
    -- a receiver that is no local name has been looked up in the session, so it counts as mentioned
    have hname (h : u.local? i.name = none) : t.Mentions i.name := by
      rw [hlocal] at h
      rw [expr, name_run, h] at hreceiver
      split at hreceiver
      · contradiction
      · cases hreceiver
        exact (st.mentions_refer _ _).2 (.inl rfl)
      · cases hreceiver
        exact (st.mentions_refer _ _).2 (.inl rfl)
      · cases hreceiver
      · cases hreceiver
      · rw [unknownName_ok hreceiver]
        exact (st.mentions_miss _ _).2 (.inl rfl)
    simp only [methodsNamed]
    cases hu : u.local? i.name with
    | some ty => rfl
    | none => rw [hagree _ (hgrows _ (hname hu))]
  all_goals rfl

theorem framed_pure {α : Type} (a : α) : Framed c c' (pure a : Check α) (pure a) :=
  framed_of_same fun _ _ _ hrun _ hn => by
    cases hrun
    exact hn

/-- A change of scopes mentions nothing. -/
theorem framed_modify {f : CheckState → CheckState} (hf : ∀ st n, st.Mentions n → (f st).Mentions n) :
    Framed c c' (modify f : Check Unit) (modify f) :=
  framed_of_same fun st _ _ hrun n hn => by
    cases hrun
    exact hf st n hn

theorem Framed.inScope {α : Type} {x x' : Check α} (hx : Framed c c' x x') :
    Framed c c' (inScope x) (Check.inScope x') := by
  unfold Check.inScope
  refine (framed_modify ?_).bind fun _ => hx.bind fun a =>
    (framed_modify ?_).bind fun _ => framed_pure a
  · exact fun _ _ h => h
  · exact fun _ _ h => h

/-- Checks in two contexts of which the second keeps the built-in functions of the first. -/
theorem framed (hown : c'.own = c.own) :
    Alongside c c' (KeepsBuiltins c c') (Framed c c') (Framed c c') where
  own := hown
  pure a := framed_pure a
  fail o span := fun _ _ _ hrun => by cases hrun
  bind hx hf := hx.bind hf
  weaken hx := hx
  then_ hx hf := hx.bind hf
  declare n ty := framed_modify fun st other hother => by
    cases hst : st.scopes <;> exact hother
  inScope hx := hx.inScope
  name i := framed_name hown i
  place e := framed_place hown e
  type t _ := framed_resolveType hown t
  callee i hu := framed_callee hown i hu
  shown span n _ := framed_shownName hown span n
  method inLoop receiver m args span hreceiver hargs := by
    intro st a v hrun
    rw [expr, StateT.run_bind] at hrun
    obtain ⟨⟨ty, t⟩, hty, hrun⟩ := exists_of_bind_ok hrun
    rw [StateT.run_bind] at hrun
    obtain ⟨⟨types, u⟩, htypes, hrun⟩ := exists_of_bind_ok hrun
    obtain ⟨hgrows, hsame⟩ := hreceiver st ty t hty
    obtain ⟨hgrows', hsame'⟩ := hargs t types u htypes
    rw [method_run] at hrun
    -- the method itself mentions nothing, since the receiver has been looked up before
    obtain ⟨result, hresult, hrun⟩ := exists_of_bind_ok hrun
    cases hrun
    refine ⟨fun n hn => hgrows' n (hgrows n hn), fun hagree => ?_⟩
    change ((expr c' inLoop receiver).run st >>= fun p => (exprs c' inLoop args).run p.2 >>= fun q =>
      (method c' receiver p.1 m q.1.length).run q.2) = _
    rw [hsame fun n hn => hagree n (hgrows' n hn)]
    change ((exprs c' inLoop args).run t >>= fun q => (method c' receiver ty m q.1.length).run q.2) = _
    rw [hsame' hagree]
    change (method c' receiver ty m types.length).run u = _
    rw [method_run, methodsNamed_eq receiver hty _ hgrows' hagree, hresult]
    · rfl
    · exact ((sameInside c).exprs inLoop args fun _ _ => trivial).scopes_eq htypes

end Check

/-! ## Missing names -/

/-- The name stands for something, but not for what it is used as. -/
def Globals.Misfits (g : Globals) (n : String) : NameUse → Prop
  | .called => False
  | .asType => ∃ kind, g n = some kind ∧ kind ≠ .struct
  | .shown => g n = some .struct ∨ ∃ params result, g n = some (.function params result)

/-- The name is missing: it stands for nothing, or it is used as something that it does not stand for. -/
def Globals.Lacks (g : Globals) (U : NameUse × String → Prop) (n : String) : Prop :=
  g n = none ∨ ∃ use, U (use, n) ∧ g.Misfits n use

theorem Globals.Lacks.mono {g : Globals} {U V : NameUse × String → Prop} (h : ∀ u, U u → V u)
    {n : String} (hn : g.Lacks U n) : g.Lacks V n := by
  rcases hn with hnone | ⟨use, hu, hmisfits⟩
  · exact .inl hnone
  · exact .inr ⟨use, h _ hu, hmisfits⟩

theorem Globals.lacks_of_ne_struct {g : Globals} {U : NameUse × String → Prop} {n : String}
    (hn : g n ≠ some .struct) (hu : U (.asType, n)) : g.Lacks U n := by
  cases hg : g n with
  | none => exact .inl hg
  | some kind => exact .inr ⟨.asType, hu, kind, hg, fun h => hn (h ▸ hg)⟩

namespace Check

/-- What the check adds to the missing names is missing. -/
def Blames (g : Globals) (U : NameUse × String → Prop) {α : Type} (x : Check α) : Prop :=
  ∀ (st : CheckState) (a : α) (t : CheckState), x.run st = .ok (a, t) →
    ∀ n ∈ t.missing, n ∈ st.missing ∨ g.Lacks U n

variable {g : Globals} {U : NameUse × String → Prop}

theorem Blames.bind {α β : Type} {x : Check α} {f : α → Check β} (hx : Blames g U x)
    (hf : ∀ a, Blames g U (f a)) : Blames g U (x >>= f) := by
  intro st b u hrun n hn
  rw [StateT.run_bind] at hrun
  obtain ⟨⟨a, t⟩, hxrun, hfrun⟩ := exists_of_bind_ok hrun
  rcases hf a t b u hfrun n hn with hn | hlacks
  · exact hx st a t hxrun n hn
  · exact .inr hlacks

/-- A step after which at most one name more is missing. -/
theorem blames_of_step {α : Type} {x : Check α}
    (h : ∀ st a t, x.run st = .ok (a, t) →
      t.missing = st.missing ∨ ∃ n, t = st.miss n ∧ g.Lacks U n) : Blames g U x := by
  intro st a t hrun n hn
  rcases h st a t hrun with hsame | ⟨m, rfl, hlacks⟩
  · exact .inl (hsame ▸ hn)
  · rcases (mem_insertOrdered n m st.missing).1 hn with rfl | hn
    · exact .inr hlacks
    · exact .inl hn

theorem blames_pure {α : Type} (a : α) : Blames g U (pure a : Check α) :=
  blames_of_step fun _ _ _ hrun => by
    cases hrun
    exact .inl rfl

theorem blames_modify {f : CheckState → CheckState} (hf : ∀ st, (f st).missing = st.missing) :
    Blames g U (modify f : Check Unit) :=
  blames_of_step fun st _ _ hrun => by
    cases hrun
    exact .inl (hf st)

theorem Blames.inScope {α : Type} {x : Check α} (hx : Blames g U x) : Blames g U (inScope x) := by
  unfold Check.inScope
  refine (blames_modify ?_).bind fun _ => hx.bind fun a => (blames_modify ?_).bind fun _ => blames_pure a
  · exact fun _ => rfl
  · exact fun _ => rfl

theorem blames_name (i : Ident) : Blames c.globals U (name c i) := by
  refine blames_of_step fun st a t hrun => ?_
  rw [name_run] at hrun
  split at hrun
  · cases hrun
    exact .inl rfl
  · cases hrun
    exact .inl rfl
  · cases hrun
    exact .inl rfl
  · cases hrun
  · cases hrun
  · exact .inr ⟨i.name, unknownName_ok hrun, .inl ‹_›⟩

theorem blames_place (e : Expr) : Blames c.globals U (place c e) := by
  refine blames_of_step fun st a t hrun => ?_
  cases e
  case name i span =>
    rw [place_run] at hrun
    split at hrun
    · cases hrun
      exact .inl rfl
    · cases hrun
      exact .inl rfl
    · cases hrun
    · exact .inr ⟨i.name, unknownName_ok hrun, .inl ‹_›⟩
  all_goals cases hrun

theorem blames_resolveType (t : TypeExpr) (hu : ∀ u ∈ Uses.type t, U u) :
    Blames c.globals U (resolveType c t) := by
  refine blames_of_step fun st a u hrun => ?_
  rw [resolveType_run] at hrun
  unfold Uses.type at hu
  split at hrun
  · cases hrun
    exact .inl rfl
  · cases hrun
  · rename_i n hread
    rw [hread] at hu
    split at hrun
    · cases hrun
      exact .inl rfl
    · split at hrun
      · rename_i hn _
        cases hrun
        exact .inr ⟨n, rfl, Globals.lacks_of_ne_struct hn (hu _ List.mem_cons_self)⟩
      · cases hrun

theorem blames_callee (i : Ident) : Blames c.globals U (callee c i) := by
  have hglobal (st : CheckState) (a : Option (List Ty × Ty)) (t : CheckState)
      (hrun : calledGlobal c i st = .ok (a, t)) :
      t.missing = st.missing ∨ ∃ n, t = st.miss n ∧ c.globals.Lacks U n := by
    unfold calledGlobal at hrun
    split at hrun
    · cases hrun
      exact .inl rfl
    · cases hrun
    · cases hrun
      exact .inl rfl
    · split at hrun
      · cases hrun
        exact .inr ⟨i.name, rfl, .inl ‹_›⟩
      · cases hrun
  refine blames_of_step fun st a t => ?_
  rw [callee_run]
  cases st.local? i.name with
  | some ty => exact fun hrun => by cases hrun
  | none =>
    cases c.own with
    | none => exact hglobal st a t
    | some own =>
      dsimp only
      split
      · exact fun hrun => .inl (by cases hrun; rfl)
      · exact hglobal st a t

theorem blames_shownName (span : Span) (n : String) (hu : U (.shown, n)) :
    Blames c.globals U (shownName c span n) := by
  refine blames_of_step fun st a t => ?_
  rw [shownName_run]
  cases st.local? n with
  | some ty => exact fun hrun => .inl (by cases hrun; rfl)
  | none =>
    -- whatever is no variable and no host object counts as missing when a template shows it
    have hmiss (hlacks : c.globals.Lacks U n)
        (hrun : (if c.lenient then .ok ((), st.miss n) else .error ⟨.notFound "value" n, span⟩ :
          Except CheckError (Unit × CheckState)) = .ok (a, t)) :
        t.missing = st.missing ∨ ∃ m, t = st.miss m ∧ c.globals.Lacks U m := by
      split at hrun
      · cases hrun
        exact .inr ⟨n, rfl, hlacks⟩
      · cases hrun
    cases hg : c.globals n with
    | none => exact hmiss (.inl hg)
    | some kind =>
      rcases kind with ty | ⟨params, result⟩ | _ | ⟨typeName, methods⟩
      · exact fun hrun => .inl (by cases hrun; rfl)
      · exact hmiss (.inr ⟨.shown, hu, .inr ⟨params, result, hg⟩⟩)
      · exact hmiss (.inr ⟨.shown, hu, .inl hg⟩)
      · exact fun hrun => .inl (by cases hrun; rfl)

/-- Only what is missing counts as missing. -/
theorem blames (c : CheckContext) (U : NameUse × String → Prop) :
    Alongside c c U (fun x _ => Blames c.globals U x) (fun x _ => Blames c.globals U x) where
  own := rfl
  pure a := blames_pure a
  fail o span := fun _ _ _ hrun => by cases hrun
  bind hx hf := hx.bind hf
  weaken hx := hx
  then_ hx hf := hx.bind hf
  declare n ty := blames_modify fun st => by cases st.scopes <;> rfl
  inScope hx := hx.inScope
  name i := blames_name i
  place e := blames_place e
  type t hu := blames_resolveType t hu
  callee i _ := blames_callee i
  shown span n hu := blames_shownName span n hu
  method inLoop receiver m args span hreceiver hargs :=
    hreceiver.bind fun ty => hargs.bind fun types => blames_of_step fun st a t hrun => by
      rw [method_run] at hrun
      obtain ⟨result, -, hrun⟩ := exists_of_bind_ok hrun
      cases hrun
      exact .inl rfl

end Check

end Notebook.Guest

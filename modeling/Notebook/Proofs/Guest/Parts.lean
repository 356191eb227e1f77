import Notebook.Proofs.Guest.Keeping
import Notebook.Proofs.Guest.Leaving

/-!
# Parts of code that keep to their types

What the check takes on trust at a site, and what it overlooks there.  If at all sites of some code it
takes nothing on trust (`Site.Sharp`), or has found all types and overlooked nothing, then the code keeps to
its types while it runs.  Here this is said of code that is put together from expressions that do; what is
called, and the whole of an evaluation, comes afterwards.
-/

namespace Notebook.Guest
open Notebook.Text Notebook.Syntax

/-! ## What the check takes on trust, and what it overlooks -/

def Code.leaves : Code → Bool
  | .expr e => Leaves.expr e
  | .stmts ss => Leaves.stmts ss

/-- Whether the name is one of a function of the session. -/
def CheckContext.declares (c : CheckContext) (n : String) : Bool :=
  c.own.any (·.name = n) || (c.globals n).any fun
    | .function .. => true
    | _ => false

namespace Site

/-- The function of the session that is called at the site. -/
def function? (c : CheckContext) (p : Site) : Option String :=
  match p.code with
  | .expr (.call (.name i _) _ _) => if c.declares i.name then some i.name else none
  | _ => none

/-- A type is expected, and code may have a value that the check does not know to be of that type. -/
def Strays (c : CheckContext) (expected : Ty) (q : Site) : Prop :=
  expected ≠ .unknown ∧ q.type? c ≠ some expected ∧ q.code.leaves = false

instance (c : CheckContext) (expected : Ty) (q : Site) : Decidable (q.Strays c expected) :=
  inferInstanceAs (Decidable (_ ∧ _))

/-- The check takes nothing on trust at the site: where it expects a type, it has found that type. -/
def Sharp (c : CheckContext) (p : Site) : Prop :=
  match p.code with
  | .expr (.binary op l r _) =>
    op.opClass = .bit → ¬ ((p.expr l).type? c = some .unknown ∧ (p.expr r).type? c = some .unknown)
  | .expr (.compound op l r _) =>
    (op.opClass = .arith ∨ op.opClass = .bit) ∧
      (op.opClass = .bit → ¬ ((p.expr l).type? c = some .unknown ∧ (p.expr r).type? c = some .unknown))
  | .expr (.assign l r _) =>
    ∀ target ∈ Check.answer? (Check.place c l) p.scopes, ¬ (p.expr r).Strays c target
  | .expr (.call (.name i _) args _) =>
    c.declares i.name = true → ∀ called ∈ Check.answer? (Check.callee c i) p.scopes,
      ∀ types ∈ called, ∀ a ∈ types.1.zip args, ¬ (p.expr a.2).Strays c a.1
  | .expr (.ifThen _ yes no _) =>
    ∀ ty ∈ p.type? c, ¬ (p.block yes).Strays c ty ∧ ∀ e ∈ no, ¬ (p.expr e).Strays c ty
  | .expr (.returnFn value _) =>
    ∀ own ∈ c.own, (value.isNone = true → own.result = .unit ∨ own.result = .unknown) ∧
      ∀ e ∈ value, ¬ (p.expr e).Strays c own.result
  | .stmts (.bind pattern (some e) _ _ :: _) =>
    match bindingOf pattern with
    | .ok (_, some t) =>
      ∀ ty ∈ Check.answer? (Check.resolveType c t) p.scopes, ¬ (p.expr e).Strays c ty
    | _ => True
  | _ => True

instance (c : CheckContext) (p : Site) : Decidable (p.Sharp c) := by
  unfold Sharp
  split
  case h_7 => split <;> infer_instance
  all_goals infer_instance

/-- The check lets something pass at the site that the evaluation does not. -/
def Overlooked (c : CheckContext) (p : Site) : Prop :=
  match p.code with
  | .expr (.binary op l _ _) => isOrdering op = true ∧ ∃ ty ∈ (p.expr l).type? c, ty.isOrdered = false
  | .expr (.compound op _ _ _) => op.opClass ≠ .arith ∧ op.opClass ≠ .bit
  | .expr (.method receiver m args _) =>
    ∃ ty ∈ (p.expr receiver).type? c, ∃ wanted ∈ ty.argument? m.name,
      ∃ e ∈ args, (p.expr e).type? c ≠ some wanted
  | .expr (.invocation (.mk name _ (.items (_ :: t :: rest) _) _ _) _) =>
    MacroKind.ofName? name = some .assert ∧
      Check.answer? (Check.template c t rest.length) p.scopes = none
  | .expr (.forLoop _ (.range first last _ _) _ _) => first.isNone = true ∨ last.isNone = true
  | _ => False

instance (c : CheckContext) (p : Site) : Decidable (p.Overlooked c) := by
  unfold Overlooked
  split <;> infer_instance

variable {c : CheckContext} {P Q : Site → Prop} {p q : Site}

theorem All.here (h : All c P p) : P p := by
  cases h with
  | intro h _ => exact h

theorem All.part (h : All c P p) (hq : q ∈ p.parts c) : All c P q := by
  cases h with
  | intro _ h => exact h q hq

theorem All.mono (h : All c P p) (hPQ : ∀ q, P q → Q q) : All c Q p := by
  induction h with
  | intro here _ ih => exact .intro (hPQ _ here) ih

/-- Looks at a site and at those that the check comes to from it, which are at most so deep. -/
def all (c : CheckContext) (P : Site → Bool) : Nat → Site → Bool
  | 0, _ => false
  | depth + 1, p => P p && (p.parts c).all (all c P depth)

theorem all_of_all {P : Site → Bool} {depth : Nat} (h : all c P depth p = true) :
    All c (fun q => P q = true) p := by
  induction depth generalizing p with
  | zero => cases h
  | succ depth ih =>
    obtain ⟨here, hparts⟩ := Bool.and_eq_true_iff.1 h
    exact .intro here fun q hq => ih (List.all_eq_true.1 hparts q hq)

end Site

namespace Setting

variable {σ : Type} {S : Setting}

/-- What a site has to be like for what is asked of code. -/
def Fine (S : Setting) (p : Site) : Prop :=
  (∀ n ∈ p.function? S.context, S.called n) ∧
    match S.aim with
    | .truth => p.Sharp S.context
    | .safety => p.type? S.context ≠ some .unknown ∧ ¬ p.Overlooked S.context

theorem Fine.of_sharp {p : Site} (hcalls : ∀ n ∈ p.function? S.context, S.called n)
    (hsharp : p.Sharp S.context) (haim : S.aim = .truth) : S.Fine p := by
  refine ⟨hcalls, ?_⟩
  rw [haim]
  exact hsharp

abbrev AllFine (S : Setting) (p : Site) : Prop := p.All S.context S.Fine

theorem AllFine.sharp {p : Site} (h : S.AllFine p) (haim : S.aim = .truth) : p.Sharp S.context := by
  have := h.here.2
  rwa [haim] at this

theorem AllFine.known {p : Site} (h : S.AllFine p) (haim : S.aim = .safety) :
    p.type? S.context ≠ some .unknown ∧ ¬ p.Overlooked S.context := by
  have := h.here.2
  rwa [haim] at this

theorem AllFine.ne_unknown {p : Site} {ty : Ty} (h : S.AllFine p) (hty : p.type? S.context = some ty)
    (haim : S.aim = .safety) : ty ≠ .unknown := by
  rintro rfl
  exact (h.known haim).1 hty

/-- What is known of a part that has to be of a type when it runs. -/
theorem eq_of_safety {q : Site} {expected found : Ty} (hq : S.AllFine q)
    (hfound : q.type? S.context = some found) (hcompatible : expected.compatible found = true)
    (hexpected : expected ≠ .unknown) (haim : S.aim = .safety) : found = expected :=
  (eq_of_compatible hcompatible hexpected (hq.ne_unknown hfound haim)).symm

/-- Code of which a type is expected has values of it, or none. -/
theorem expected_cases {q : Site} {expected found : Ty} (hfound : q.type? S.context = some found)
    (hsharp : S.aim = .truth → ¬ q.Strays S.context expected)
    (hsafe : S.aim = .safety → ∀ v, found.Fits S.aim v → expected.Fits S.aim v) :
    (∀ v, found.Fits S.aim v → expected.Fits S.aim v) ∨ q.code.leaves = true := by
  cases haim : S.aim with
  | safety =>
    rw [haim] at hsafe
    exact .inl (hsafe rfl)
  | truth =>
    by_cases hexpected : expected = .unknown
    · subst hexpected
      exact .inl fun v _ => fits_unknown v
    · by_contra hnot
      rw [not_or] at hnot
      refine hsharp haim ⟨hexpected, fun hsame => ?_, by simpa using hnot.2⟩
      rw [hfound] at hsame
      cases hsame
      exact hnot.1 fun _ hv => hv

/-- Parts of code are evaluated by code that keeps to their types. -/
structure Evaluates (S : Setting) (eval : Run.Evaluator σ) : Prop where
  keeps : ∀ (p : Site) (e : Expr) (ty : Ty), (p.expr e).type? S.context = some ty → S.AllFine (p.expr e) →
    S.Keeps p.inLoop p.scopes (ty.Fits S.aim) (eval e)
  leaves : ∀ e, Leaves.expr e = true → (eval e).Leaves

section

variable {eval : Run.Evaluator σ} (h : S.Evaluates eval) {p : Site}

/-- Code of which a type is expected. -/
theorem Keeps.expect {α : Type} {inLoop : Bool} {Γ : Scopes} {P Q : α → Prop} {r : Run σ α}
    (hr : S.Keeps inLoop Γ P r) (hQ : (∀ a, P a → Q a) ∨ r.Leaves) : S.Keeps inLoop Γ Q r := by
  rcases hQ with hQ | hleaves
  · exact hr.mono hQ
  · intro m hm
    have hend := hr m hm
    rcases hrun : r.run.run m with ⟨e | a, m'⟩
    · rw [hrun] at hend
      cases hend with
      | error he hm' => exact .error he hm'
    · exact absurd hrun (hleaves m m' a)

/-- An expression of which a type is expected that is known to be right, or that the check has found. -/
theorem keeps_as (h : S.Evaluates eval) {e : Expr} {expected found : Ty} (hall : S.AllFine (p.expr e))
    (hfound : (p.expr e).type? S.context = some found)
    (hsharp : S.aim = .truth → ¬ (p.expr e).Strays S.context expected)
    (hsafe : S.aim = .safety → ∀ v, found.Fits S.aim v → expected.Fits S.aim v) :
    S.Keeps p.inLoop p.scopes (expected.Fits S.aim) (eval e) :=
  (h.keeps p e found hfound hall).expect
    ((expected_cases hfound hsharp hsafe).imp_right (h.leaves e))

theorem keeps_expected (h : S.Evaluates eval) {e : Expr} {expected found : Ty}
    (hall : S.AllFine (p.expr e)) (hfound : (p.expr e).type? S.context = some found)
    (hcompatible : expected.compatible found = true)
    (hsharp : S.aim = .truth → ¬ (p.expr e).Strays S.context expected) :
    S.Keeps p.inLoop p.scopes (expected.Fits S.aim) (eval e) := by
  refine keeps_as h hall hfound hsharp fun haim v hv => ?_
  by_cases hexpected : expected = .unknown
  · subst hexpected
    exact fits_unknown v
  · rwa [eq_of_safety hall hfound hcompatible hexpected haim] at hv

/-! ## Values, conditions and numbers -/

theorem keeps_values {es : List Expr} {types : List Ty}
    (hes : List.Forall₂ (fun e ty => S.Keeps p.inLoop p.scopes (Ty.Fits S.aim ty) (eval e)) es types) :
    S.Keeps p.inLoop p.scopes (AllFit S.aim types) (Run.values eval es) := by
  induction hes with
  | nil => exact keeps_pure .nil
  | cons he _ ih => exact he.bind fun v hv => ih.bind fun vs hvs => keeps_pure (.cons hv hvs)

theorem keeps_found (h : S.Evaluates eval) {es : List Expr} {types : List (Ty × Span)}
    (htypes : p.HaveTypes S.context es types) (hall : ∀ e ∈ es, S.AllFine (p.expr e)) :
    S.Keeps p.inLoop p.scopes (AllFit S.aim (types.map (·.1))) (Run.values eval es) := by
  refine keeps_values ?_
  induction htypes with
  | nil => exact .nil
  | @cons e found es types hfound _ ih =>
    obtain ⟨he, hes⟩ := List.forall_mem_cons.1 hall
    exact .cons (h.keeps p e _ hfound he) (ih hes)

/-- Where no type error may occur, code has values of the type that is wanted of it. -/
theorem keeps_wanted (h : S.Evaluates eval) {e : Expr} {wanted found : Ty} (hall : S.AllFine (p.expr e))
    (hfound : (p.expr e).type? S.context = some found) (hcompatible : wanted.compatible found = true)
    (hwanted : wanted ≠ .unknown) :
    S.Keeps p.inLoop p.scopes (fun v => S.aim = .safety → wanted.Fits S.aim v) (eval e) := by
  refine (h.keeps p e found hfound hall).mono fun v hv haim => ?_
  rwa [eq_of_safety hall hfound hcompatible hwanted haim] at hv

theorem keeps_truth (h : S.Evaluates eval) {e : Expr} {found : Ty} (hall : S.AllFine (p.expr e))
    (hfound : (p.expr e).type? S.context = some found) (hbool : Ty.bool.compatible found = true) :
    S.Keeps p.inLoop p.scopes (fun _ => True) (Run.truth eval e) := by
  refine (keeps_wanted h hall hfound hbool Ty.noConfusion).bind fun v hv => ?_
  cases v
  case bool b => exact keeps_pure trivial
  all_goals
    refine keeps_fault fun haim => ?_
    obtain ⟨b, hb⟩ := (hv haim).eq_bool
    cases hb

theorem keeps_whole (h : S.Evaluates eval) {e : Expr} {found : Ty} (hall : S.AllFine (p.expr e))
    (hfound : (p.expr e).type? S.context = some found) (hint : Ty.int.compatible found = true) :
    S.Keeps p.inLoop p.scopes (fun _ => True) (Run.whole eval e) := by
  refine (keeps_wanted h hall hfound hint Ty.noConfusion).bind fun v hv => ?_
  cases v
  case int n => exact keeps_pure trivial
  all_goals
    refine keeps_fault fun haim => ?_
    obtain ⟨n, hn⟩ := (hv haim).eq_int
    cases hn

/-! ## Blocks -/

theorem bindingName_eq {pattern : Pattern} {n : String} {annotated : Option TypeExpr}
    (h : bindingOf pattern = .ok (n, annotated)) : (Run.bindingName pattern : Run σ String) = pure n := by
  unfold Run.bindingName
  rw [h]

theorem tail_declaring (n : String) (ty : Ty) (Γ : Scopes) : (Site.declaring n ty Γ).tail = Γ.tail := by
  cases Γ <;> rfl

theorem moves_stmt (h : S.Evaluates eval) {s : Stmt} {ty : Ty} {Γ : Scopes}
    (hs : p.Understands S.context s ty Γ) (hall : ∀ e, evaluated s = some e → S.AllFine (p.expr e))
    (hsharp : ∀ pattern e keyword span, s = .bind pattern (some e) keyword span → S.aim = .truth →
      ∀ n t declared, bindingOf pattern = .ok (n, some t) →
        Check.answer? (Check.resolveType S.context t) p.scopes = some declared →
          ¬ (p.expr e).Strays S.context declared) :
    S.Moves p.inLoop p.scopes Γ (ty.Fits S.aim) (Run.stmt eval s) ∧ Γ.tail = p.scopes.tail := by
  cases s with
  | bind pattern value keyword span =>
    obtain ⟨n, annotated, e, found, declared, hbinding, rfl, hfound, rfl, rfl, hdeclared⟩ := hs
    have he := hall e rfl
    have hvalue : S.Keeps p.inLoop p.scopes (declared.Fits S.aim) (eval e) := by
      cases annotated with
      | none =>
        obtain rfl := hdeclared
        exact h.keeps p e declared hfound he
      | some t =>
        exact keeps_expected h he hfound hdeclared.2 fun haim =>
          hsharp pattern e keyword span rfl haim n t declared hbinding hdeclared.1
    refine ⟨?_, tail_declaring n declared p.scopes⟩
    change S.Moves _ _ _ _ (Run.bindingName pattern >>= fun n =>
      eval e >>= fun v => Run.declare n v >>= fun _ => pure Value.unit)
    rw [bindingName_eq hbinding, pure_bind]
    refine hvalue.moves.bind rfl fun v hv => ?_
    refine (moves_declare hv).bind (tail_declaring n declared p.scopes) fun _ _ => ?_
    exact (keeps_pure fits_unit).moves
  | expr e ended span =>
    obtain ⟨found, hfound, rfl, rfl⟩ := hs
    refine ⟨((h.keeps p e found hfound (hall e rfl)).bind fun v hv => ?_).moves, rfl⟩
    cases ended with
    | true => exact keeps_pure fits_unit
    | false => exact keeps_pure hv
  | item i span => exact hs.elim

theorem moves_stmts (h : S.Evaluates eval) {ss : List Stmt} {ty : Ty}
    (hty : ({ p with code := .stmts ss } : Site).type? S.context = some ty)
    (hall : S.AllFine { p with code := .stmts ss }) :
    ∃ Γ, S.Moves p.inLoop p.scopes Γ (ty.Fits S.aim) (Run.stmts eval ss) ∧ Γ.tail = p.scopes.tail := by
  induction ss generalizing p with
  | nil =>
    obtain ⟨Γ, hgives⟩ := Check.gives_of_answer? hty
    obtain ⟨rfl, -⟩ := Check.Gives.pure hgives
    exact ⟨p.scopes, (keeps_pure fits_unit).moves, rfl⟩
  | cons s ss ih =>
    obtain ⟨stmtTy, Γ, hs, hafter, hrest⟩ := Site.type?_stmts hty
    have hpart (e : Expr) (he : evaluated s = some e) : S.AllFine (p.expr e) := by
      refine hall.part (List.mem_append_left _ ?_)
      change p.expr e ∈ (evaluated s).toList.map p.expr
      rw [he]
      exact List.mem_singleton_self _
    obtain ⟨hfirst, htail⟩ := moves_stmt h hs hpart fun pattern e keyword span heq haim n t _ hbinding => by
      subst heq
      have hsharp := hall.sharp haim
      unfold Site.Sharp at hsharp
      dsimp only at hsharp
      rw [hbinding] at hsharp
      exact hsharp _
    -- the last statement gives the block its value, the values of those before are left out
    rcases hrest with ⟨rfl, rfl⟩ | ⟨hss, hrest⟩
    · exact ⟨Γ, hfirst, htail⟩
    · have hrestAll : S.AllFine { p with scopes := Γ, code := .stmts ss } := by
        refine hall.part (List.mem_append_right _ ?_)
        rw [hafter]
        exact List.mem_singleton_self _
      obtain ⟨Γ', hmoves, htail'⟩ := ih (p := { p with scopes := Γ }) hrest hrestAll
      cases ss with
      | nil => exact absurd rfl hss
      | cons t ss =>
        refine ⟨Γ', ?_, htail'.trans htail⟩
        have hdiscard : S.Moves p.inLoop p.scopes Γ (fun _ => True) (Functor.discard (Run.stmt eval s)) :=
          hfirst.bind htail fun _ _ => (keeps_pure trivial).moves
        exact hdiscard.bind htail fun _ _ => hmoves

theorem keeps_block (h : S.Evaluates eval) {b : Block} {ty : Ty}
    (hty : (p.block b).type? S.context = some ty) (hall : S.AllFine (p.block b)) :
    S.Keeps p.inLoop p.scopes (ty.Fits S.aim) (Run.block eval b) := by
  obtain ⟨Γ, hmoves, htail⟩ := moves_stmts h (p := { p with scopes := [] :: p.scopes }) hty hall
  exact hmoves.inScope htail fun _ => .none

theorem leaves_block_code (b : Block) : (p.block b).code.leaves = Leaves.block b := by
  cases b
  rfl

/-- A block of which a type is expected that is known to be right, or that the check has found. -/
theorem keeps_block_as (h : S.Evaluates eval) {b : Block} {expected found : Ty}
    (hall : S.AllFine (p.block b)) (hfound : (p.block b).type? S.context = some found)
    (hsharp : S.aim = .truth → ¬ (p.block b).Strays S.context expected)
    (hsafe : S.aim = .safety → ∀ v, found.Fits S.aim v → expected.Fits S.aim v) :
    S.Keeps p.inLoop p.scopes (expected.Fits S.aim) (Run.block eval b) := by
  refine (keeps_block h hfound hall).expect ((expected_cases hfound hsharp hsafe).imp_right fun hleaves => ?_)
  rw [leaves_block_code] at hleaves
  exact Run.leaves_block h.leaves hleaves

/-! ## Templates and macros -/

/-- How many values a template takes. -/
def placesOf (pieces : List TemplatePiece) : Nat := pieces.countP fun
  | .next _ => true
  | _ => false

theorem placesOf_of_gives {c : CheckContext} {span : Span} {pieces : List TemplatePiece} {places : Nat}
    {Γ Γ' : Scopes} (h : Check.Gives (Check.templatePieces c span pieces) Γ places Γ') :
    places = placesOf pieces := by
  induction pieces generalizing places Γ Γ' with
  | nil => exact h.pure.1
  | cons piece pieces ih =>
    cases piece with
    | literal text => exact ih h
    | next shown =>
      obtain ⟨rest, Γ₁, hrest, h⟩ := Check.Gives.bind h
      rw [h.pure.1, ih hrest]
      simp [placesOf]
    | named n shown =>
      rw [Check.templatePieces_named] at h
      obtain ⟨⟨⟩, Γ₁, -, h⟩ := h.bind
      exact ih h

/-- A template that has been checked can be read, and takes as many values as are given. -/
theorem template_checked {c : CheckContext} {t : Expr} {given : Nat} {Γ : Scopes}
    (h : Check.answer? (Check.template c t given) Γ = some ⟨⟩) :
    ∃ cs span pieces, t = .literal (.text cs) span ∧ parseTemplate cs = .ok pieces ∧
      placesOf pieces = given := by
  obtain ⟨Γ', h⟩ := Check.gives_of_answer? h
  unfold Check.template at h
  cases t with
  | literal l span =>
    cases l with
    | text cs =>
      dsimp only at h
      cases hpieces : parseTemplate cs with
      | error e =>
        rw [hpieces] at h
        exact absurd h Check.not_gives_fail
      | ok pieces =>
        rw [hpieces] at h
        obtain ⟨places, Γ₁, hplaces, h⟩ := Check.Gives.bind h
        refine ⟨cs, span, pieces, rfl, hpieces, ?_⟩
        rw [← placesOf_of_gives hplaces]
        split at h
        · exact absurd h Check.not_gives_fail
        · rename_i heq
          exact not_not.1 heq
    | _ => exact absurd h Check.not_gives_fail
  | _ => exact absurd h Check.not_gives_fail

theorem keeps_fill (h : S.Evaluates eval) {pieces : List TemplatePiece} {es : List Expr}
    {types : List (Ty × Span)} (htypes : p.HaveTypes S.context es types)
    (hall : ∀ e ∈ es, S.AllFine (p.expr e)) (hplaces : S.aim = .safety → placesOf pieces ≤ es.length) :
    S.Keeps p.inLoop p.scopes (fun _ => True) (Run.fill eval pieces es) := by
  fun_induction Run.fill eval pieces es generalizing types with
  | case1 => exact keeps_pure trivial
  | case2 cs ps es ih => exact (ih htypes hall hplaces).bind fun _ _ => keeps_pure trivial
  | case3 n shown ps es ih =>
    exact (keeps_lookup _).bind fun _ _ => (ih htypes hall hplaces).bind fun _ _ => keeps_pure trivial
  | case4 shown ps e es ih =>
    obtain ⟨he, hes⟩ := List.forall_mem_cons.1 hall
    cases htypes with
    | cons hfound htypes =>
      refine (h.keeps p e _ hfound he).bind fun v _ => ?_
      refine (ih htypes hes fun haim => ?_).bind fun _ _ => keeps_pure trivial
      have := hplaces haim
      simpa [placesOf] using this
  | case5 shown ps =>
    refine keeps_fault fun haim => ?_
    have := hplaces haim
    simp [placesOf] at this

theorem keeps_formatted (h : S.Evaluates eval) {es : List Expr} (hes : p.Templated S.context es)
    (hall : ∀ e ∈ es.tail, S.AllFine (p.expr e)) :
    S.Keeps p.inLoop p.scopes (fun _ => True) (Run.formatted eval es) := by
  rcases hes with rfl | ⟨t, rest, types, rfl, htemplate, htypes⟩
  · exact keeps_pure trivial
  · obtain ⟨cs, span, pieces, rfl, hpieces, hplaces⟩ := template_checked htemplate
    unfold Run.formatted
    dsimp only
    rw [hpieces]
    exact keeps_fill h htypes hall fun _ => hplaces.le

theorem keeps_assertion (h : S.Evaluates eval) {rest : List Expr} {types : List (Ty × Span)}
    (htypes : p.HaveTypes S.context rest types) (hall : ∀ e ∈ rest, S.AllFine (p.expr e))
    (htemplate : S.aim = .safety → p.Templated S.context rest) :
    S.Keeps p.inLoop p.scopes (fun _ => True) (Run.formatted eval rest) := by
  cases haim : S.aim with
  | safety => exact keeps_formatted h (htemplate haim) fun e he => hall e (List.mem_of_mem_tail he)
  | truth =>
    have hfault (cause : FaultCause) : S.aim = .safety → ¬ cause.IsTypeError := by
      rw [haim]
      exact fun h => nomatch h
    unfold Run.formatted
    split
    · exact keeps_pure trivial
    · split
      · cases htypes with
        | cons _ htypes =>
          exact keeps_fill h htypes (List.forall_mem_cons.1 hall).2 fun haim' => absurd haim' (by simp [haim])
      · exact keeps_fault (hfault _)
    · exact keeps_fault (hfault _)

theorem keeps_invocation (h : S.Evaluates eval) {call : MacroCall} {span : Span} {ty : Ty}
    (hty : (p.expr (.invocation call span)).type? S.context = some ty)
    (hall : S.AllFine (p.expr (.invocation call span))) :
    S.Keeps p.inLoop p.scopes (ty.Fits S.aim) (Run.invocation eval call) := by
  obtain ⟨name, nameSpan, args, braced, callSpan⟩ := call
  obtain ⟨kind, es, first, hkind, rfl, hargs⟩ := Site.type?_invocation hty
  have hparts (e : Expr) (he : e ∈ if kind.hasTemplate then es.tail else es) : S.AllFine (p.expr e) := by
    refine hall.part ?_
    change p.expr e ∈ Site.arguments p (.mk name nameSpan (.items es first) braced callSpan)
    unfold Site.arguments
    dsimp only
    rw [hkind]
    dsimp only
    split at he
    · rename_i htemplate
      rw [if_pos htemplate]
      exact List.mem_map_of_mem he
    · rename_i htemplate
      rw [if_neg htemplate]
      exact List.mem_map_of_mem he
  unfold Run.invocation
  dsimp only
  rw [hkind]
  dsimp only
  cases kind with
  | println =>
    obtain ⟨htemplated, rfl⟩ := hargs
    exact (keeps_formatted h htemplated hparts).bind fun _ _ =>
      (keeps_print _).bind fun _ _ => keeps_pure fits_unit
  | print =>
    obtain ⟨htemplated, rfl⟩ := hargs
    exact (keeps_formatted h htemplated hparts).bind fun _ _ =>
      (keeps_print _).bind fun _ _ => keeps_pure fits_unit
  | format =>
    obtain ⟨htemplated, rfl⟩ := hargs
    exact (keeps_formatted h htemplated hparts).bind fun _ _ => keeps_pure (fits_ofValue (.str _))
  | vec =>
    obtain ⟨⟨types, htypes⟩, rfl⟩ := hargs
    exact (keeps_found h htypes hparts).bind fun _ _ => keeps_pure (fits_ofValue (.list _))
  | panic =>
    obtain ⟨htemplated, rfl⟩ := hargs
    have hfault (message : String) : S.aim = .safety → ¬ (FaultCause.panic message).IsTypeError :=
      fun _ => by rintro (h | h) <;> cases h
    dsimp only
    split
    · exact keeps_fault (hfault _)
    · exact (keeps_formatted h htemplated hparts).bind fun _ _ => keeps_fault (hfault _)
  | assert =>
    obtain ⟨condition, rest, conditionTy, types, rfl, hcondition, hbool, htypes, rfl⟩ := hargs
    have hfault (message : String) : S.aim = .safety → ¬ (FaultCause.assertion message).IsTypeError :=
      fun _ => by rintro (h | h) <;> cases h
    obtain ⟨hconditionAll, hrestAll⟩ := List.forall_mem_cons.1 hparts
    refine (keeps_truth h hconditionAll hcondition hbool).bind fun holds _ => ?_
    cases holds with
    | true => exact keeps_pure fits_unit
    | false =>
      rw [if_neg Bool.false_ne_true]
      split
      · exact keeps_fault (hfault _)
      · refine (keeps_assertion h htypes hrestAll fun haim => ?_).bind fun _ _ => keeps_fault (hfault _)
        -- a message that is no proper template would have been overlooked
        cases rest with
        | nil => exact .inl rfl
        | cons t rest =>
          cases htypes with
          | cons _ htypes =>
            refine .inr ⟨t, rest, _, rfl, ?_, htypes⟩
            have hoverlooked := (hall.known haim).2
            change ¬ (_ ∧ _) at hoverlooked
            rw [not_and] at hoverlooked
            exact Option.ne_none_iff_exists'.1 (hoverlooked hkind) |>.elim fun _ h => h

/-! ## Operators -/

theorem keeps_binary (h : S.Evaluates eval) {op : BinaryOp} {l r : Expr} {left right ty : Ty}
    (hl : (p.expr l).type? S.context = some left) (hr : (p.expr r).type? S.context = some right)
    (hlAll : S.AllFine (p.expr l)) (hrAll : S.AllFine (p.expr r))
    (hty : Ty.binary? op left right = some ty) (hoperands : Operands S.aim op left right) :
    S.Keeps p.inLoop p.scopes (ty.Fits S.aim) (Run.binary eval op l r) := by
  refine (h.keeps p l left hl hlAll).bind fun v hv => ?_
  split
  · rename_i hlogic
    have hbool : ty = .bool ∧ Ty.bool.compatible left = true ∧ Ty.bool.compatible right = true := by
      unfold Ty.binary? at hty
      rw [hlogic] at hty
      dsimp only at hty
      split at hty
      · rename_i hboth
        exact ⟨(Option.some.inj hty).symm, Bool.and_eq_true_iff.1 hboth⟩
      · cases hty
    obtain ⟨rfl, hleft, hright⟩ := hbool
    have hno (haim : S.aim = .safety) : ∃ b, v = .bool b := by
      rw [eq_of_safety hlAll hl hleft Ty.noConfusion haim] at hv
      exact hv.eq_bool
    cases v
    case bool b =>
      dsimp only
      split
      · exact keeps_pure (fits_ofValue (.bool b))
      · exact (keeps_truth h hrAll hr hright).bind fun b _ => keeps_pure (fits_ofValue (.bool b))
    all_goals
      refine keeps_fault fun haim => ?_
      obtain ⟨b, hb⟩ := hno haim
      cases hb
  · rename_i hlogic
    exact (h.keeps p r right hr hrAll).bind fun w hw =>
      keeps_ofOutcome (meets_binary hlogic hty hoperands hv hw)

theorem operands_of_fine {op : BinaryOp} {l r : Expr} {left right : Ty}
    (hl : (p.expr l).type? S.context = some left) (hr : (p.expr r).type? S.context = some right)
    (hlAll : S.AllFine (p.expr l)) (hrAll : S.AllFine (p.expr r))
    (hsharp : S.aim = .truth → op.opClass = .bit →
      ¬ ((p.expr l).type? S.context = some .unknown ∧ (p.expr r).type? S.context = some .unknown))
    (hordered : S.aim = .safety → isOrdering op = true → left.isOrdered = true) :
    Operands S.aim op left right := by
  refine ⟨fun hbit => ?_, fun haim => ⟨hlAll.ne_unknown hl haim, hrAll.ne_unknown hr haim⟩, hordered⟩
  cases haim : S.aim with
  | truth =>
    have hboth := hsharp haim hbit
    rw [hl, hr] at hboth
    by_contra hnot
    rw [not_or, not_not, not_not] at hnot
    exact hboth ⟨congrArg some hnot.1, congrArg some hnot.2⟩
  | safety => exact .inl (hlAll.ne_unknown hl haim)

/-- What is assigned to has the type that it has as a value. -/
theorem place_eq {c : CheckContext} {l : Expr} {target left : Ty}
    (hplace : Check.answer? (Check.place c l) p.scopes = some target)
    (hleft : (p.expr l).type? c = some left) : target = left := by
  cases l with
  | name i span =>
    unfold Check.answer? at hplace
    unfold Site.type? Check.answer? at hleft
    have hname : (Site.check c (p.expr (.name i span))).run { scopes := (p.expr (.name i span)).scopes } =
        (Check.name c i).run { scopes := p.scopes } := rfl
    rw [Check.place_run] at hplace
    rw [hname, Check.name_run] at hleft
    revert hplace hleft
    generalize CheckState.local? _ i.name = known
    cases known with
    | some ty =>
      intro hplace hleft
      cases hplace
      cases hleft
      rfl
    | none =>
      cases c.globals i.name with
      | none =>
        intro hplace hleft
        exact Option.some.inj (hplace.symm.trans hleft)
      | some kind =>
        intro hplace hleft
        cases kind <;> cases hplace
        cases hleft
        rfl
  | _ => cases hplace

theorem keeps_compound (h : S.Evaluates eval) {op : BinaryOp} {l r : Expr} {span : Span} {ty : Ty}
    (hty : (p.expr (.compound op l r span)).type? S.context = some ty)
    (hall : S.AllFine (p.expr (.compound op l r span))) :
    S.Keeps p.inLoop p.scopes (ty.Fits S.aim)
      (Run.binary eval op l r >>= fun v => Run.assignTo l v >>= fun _ => pure Value.unit) := by
  obtain ⟨target, left, right, found, hplace, hl, hr, hfound, rfl⟩ := Site.type?_compound hty
  have hlAll : S.AllFine (p.expr l) := hall.part List.mem_cons_self
  have hrAll : S.AllFine (p.expr r) := hall.part (List.mem_cons_of_mem _ List.mem_cons_self)
  obtain rfl := place_eq hplace hl
  -- arithmetic and operations on bits leave the type of the variable as it is
  have hop : op.opClass = .arith ∨ op.opClass = .bit := by
    cases haim : S.aim with
    | truth => exact (hall.sharp haim).1
    | safety =>
      have hoverlooked := (hall.known haim).2
      by_contra hnot
      exact hoverlooked (not_or.1 hnot)
  have hoperands : Operands S.aim op target right :=
    operands_of_fine hl hr hlAll hrAll (fun haim => (hall.sharp haim).2) fun _ hordering => by
      rcases hop with hop | hop <;> cases op <;> cases hop <;> cases hordering
  have hkept : found = target ∨ target = .unknown := by
    rcases hop with hop | hop
    · exact (binary?_arith hop hfound).1.imp_left Eq.symm
    · exact (binary?_bit hop hfound).1.imp_left Eq.symm
  refine (keeps_binary h hl hr hlAll hrAll hfound hoperands).bind fun v hv => ?_
  refine (keeps_place hplace ?_).bind fun _ _ => keeps_pure fits_unit
  rcases hkept with rfl | rfl
  · exact hv
  · exact fits_unknown v

/-! ## Branches and loops -/

theorem keeps_ifThen (h : S.Evaluates eval) {condition : Expr} {yes : Block} {no : Option Expr}
    {span : Span} {ty : Ty} (hty : (p.expr (.ifThen condition yes no span)).type? S.context = some ty)
    (hall : S.AllFine (p.expr (.ifThen condition yes no span))) :
    S.Keeps p.inLoop p.scopes (ty.Fits S.aim) (do
      if ← Run.truth eval condition then Run.block eval yes
      else
        match no with
        | some e => eval e
        | none => return .unit) := by
  obtain ⟨conditionTy, yesTy, hcondition, hbool, hyes, hno⟩ := Site.type?_ifThen hty
  have hconditionAll : S.AllFine (p.expr condition) := hall.part List.mem_cons_self
  have hyesAll : S.AllFine (p.block yes) := hall.part (List.mem_cons_of_mem _ List.mem_cons_self)
  have hsharp (haim : S.aim = .truth) : ¬ (p.block yes).Strays S.context ty ∧
      ∀ e, no = some e → ¬ (p.expr e).Strays S.context ty := hall.sharp haim ty hty
  have hblock (hsafe : S.aim = .safety → ∀ v, yesTy.Fits S.aim v → ty.Fits S.aim v) :
      S.Keeps p.inLoop p.scopes (ty.Fits S.aim) (Run.block eval yes) :=
    keeps_block_as h hyesAll hyes (fun haim => (hsharp haim).1) hsafe
  refine (keeps_truth h hconditionAll hcondition hbool).bind fun holds _ => ?_
  cases no with
  | none =>
    obtain rfl : ty = .unit := hno
    cases holds with
    | true => exact hblock fun haim v _ => .inr (.inr (.inr ⟨haim, rfl⟩))
    | false => exact keeps_pure fits_unit
  | some e =>
    obtain ⟨noTy, hnoTy, hcompatible, hresult⟩ := hno
    have hnoAll : S.AllFine (p.expr e) :=
      hall.part (List.mem_cons_of_mem _ (List.mem_cons_of_mem _ List.mem_cons_self))
    -- where all types are known, both branches have the type of the whole
    have hsame (haim : S.aim = .safety) : yesTy = ty ∧ noTy = ty := by
      have hknown := hyesAll.ne_unknown hyes haim
      rw [if_pos (by simp [Ty.isKnown, hknown])] at hresult
      exact ⟨hresult.symm, (eq_of_safety hnoAll hnoTy hcompatible hknown haim).trans hresult.symm⟩
    cases holds with
    | true => exact hblock fun haim v hv => (hsame haim).1 ▸ hv
    | false =>
      exact keeps_as h hnoAll hnoTy (fun haim => (hsharp haim).2 e rfl) fun haim v hv => (hsame haim).2 ▸ hv

theorem Keeps.loopBody {inLoop : Bool} {Γ : Scopes} {P : Value → Prop} {r : Run σ Value}
    (hr : S.Keeps true Γ P r) : S.Keeps inLoop Γ (fun _ => True) (Run.loopBody r) := by
  intro m hm
  have hend := hr m hm
  unfold Run.loopBody
  rw [ExceptT.run_mk, StateT.run_bind]
  revert hend
  generalize r.run.run m = result
  rintro (⟨-, hm'⟩ | ⟨he, hm'⟩)
  · exact .ok ⟨trivial, hm'⟩
  · rename_i e _
    cases e with
    | broke => exact .ok ⟨trivial, hm'⟩
    | continued => exact .ok ⟨trivial, hm'⟩
    | _ => exact .error he hm'

theorem keeps_body (h : S.Evaluates eval) {b : Block} {ty : Ty} (hty : (p.body b).type? S.context = some ty)
    (hall : S.AllFine (p.body b)) :
    S.Keeps p.inLoop p.scopes (fun _ => True) (Run.loopBody (Run.block eval b)) :=
  (keeps_block h (p := { p with inLoop := true }) hty hall).loopBody

theorem keeps_rounds {inLoop : Bool} {Γ : Scopes} {round : Run σ Bool}
    (hround : S.Keeps inLoop Γ (fun _ => True) round) (n : Nat) :
    S.Keeps inLoop Γ (fun _ => True) (Run.rounds round n) := by
  induction n with
  | zero => exact keeps_throw trivial
  | succ n ih =>
    refine hround.bind fun again _ => ?_
    split
    · exact ih
    · exact keeps_pure trivial

theorem keeps_overRange {inLoop : Bool} {Γ : Scopes} {body : Value → Run σ Bool}
    (hbody : ∀ v, Ty.int.Fits S.aim v → S.Keeps inLoop Γ (fun _ => True) (body v)) (first : Int) (n : Nat) :
    S.Keeps inLoop Γ (fun _ => True) (Run.overRange body first n) := by
  induction n generalizing first with
  | zero => exact keeps_pure trivial
  | succ n ih =>
    refine (hbody _ (fits_ofValue (.int _))).bind fun again _ => ?_
    split
    · exact ih (first + 1)
    · exact keeps_pure trivial

theorem keeps_overList {inLoop : Bool} {Γ : Scopes} {body : Value → Run σ Bool}
    (hbody : ∀ v, S.Keeps inLoop Γ (fun _ => True) (body v)) (vs : List Value) :
    S.Keeps inLoop Γ (fun _ => True) (Run.overList body vs) := by
  induction vs with
  | nil => exact keeps_pure trivial
  | cons v vs ih =>
    refine (hbody v).bind fun again _ => ?_
    split
    · exact ih
    · exact keeps_pure trivial

theorem keeps_whileLoop (h : S.Evaluates eval) {condition : Expr} {b : Block} {span : Span} {ty : Ty}
    (hty : (p.expr (.whileLoop condition b span)).type? S.context = some ty)
    (hall : S.AllFine (p.expr (.whileLoop condition b span))) (fuel : Nat) :
    S.Keeps p.inLoop p.scopes (fun _ => True) (Run.rounds (do
      if ← Run.truth eval condition then Run.loopBody (Run.block eval b) else return false) fuel) := by
  obtain ⟨conditionTy, bodyTy, hcondition, hbool, hbody, -⟩ := Site.type?_whileLoop hty
  refine keeps_rounds ?_ fuel
  refine (keeps_truth h (hall.part List.mem_cons_self) hcondition hbool).bind fun holds _ => ?_
  split
  · exact keeps_body h hbody (hall.part (List.mem_cons_of_mem _ List.mem_cons_self))
  · exact keeps_pure trivial

/-- One round of a loop over values, for which a name stands. -/
theorem keeps_round (h : S.Evaluates eval) {pattern : Pattern} {n : String} {annotated : Option TypeExpr}
    {b : Block} {element bodyTy : Ty} (hbinding : bindingOf pattern = .ok (n, annotated))
    (hty : (({ p with scopes := [(n, element)] :: p.scopes } : Site).body b).type? S.context = some bodyTy)
    (hall : ∀ q ∈ p.bodyFor pattern element b, S.AllFine q) {v : Value} (hv : element.Fits S.aim v) :
    S.Keeps p.inLoop p.scopes (fun _ => True)
      (Run.inScope [(n, v)] (Run.loopBody (Run.block eval b))) := by
  have hbody := keeps_body h hty (hall _ (by simp [Site.bodyFor, hbinding]))
  refine hbody.moves.inScope rfl fun j => ?_
  simp only [List.lookup_cons, List.lookup_nil, Table.get?]
  by_cases hj : n = j
  · subst hj
    simpa using hv
  · rw [if_neg hj, beq_false_of_ne (Ne.symm hj)]
    exact .none

/-- A loop over numbers.  The check overlooks that a bound may be left out. -/
theorem keeps_forRange (h : S.Evaluates eval) {pattern : Pattern} {first last : Option Expr}
    {closed : Bool} {rangeSpan : Span} {b : Block} {span : Span} {ty : Ty}
    (hty : (p.expr (.forLoop pattern (.range first last closed rangeSpan) b span)).type? S.context = some ty)
    (hall : S.AllFine (p.expr (.forLoop pattern (.range first last closed rangeSpan) b span)))
    (calls : HostCalls σ) (fuel : Nat) :
    S.Keeps p.inLoop p.scopes (ty.Fits S.aim)
      (Run.step calls fuel eval (.forLoop pattern (.range first last closed rangeSpan) b span)) := by
  obtain ⟨n, annotated, bodyTy, hbinding, hfirst, hlast, hbody, rfl⟩ := Site.type?_forRange hty
  unfold Run.step
  dsimp only
  rw [bindingName_eq hbinding, pure_bind]
  have hparts (q : Site) (hq : q ∈ first.toList.map p.expr ++ last.toList.map p.expr ++
      p.bodyFor pattern .int b) : S.AllFine q := hall.part hq
  have hround (v : Value) (hv : Ty.int.Fits S.aim v) :
      S.Keeps p.inLoop p.scopes (fun _ => True)
        (Run.inScope [(n, v)] (Run.loopBody (Run.block eval b))) :=
    keeps_round h hbinding hbody (fun q hq => hparts q (List.mem_append_right _ hq)) hv
  have hopen (hmissing : first.isNone = true ∨ last.isNone = true) :
      S.Keeps p.inLoop p.scopes (fun _ => False) (Run.fault .openRange : Run σ PUnit) :=
    keeps_fault fun haim => absurd hmissing (hall.known haim).2
  cases first with
  | none => exact (hopen (.inl rfl)).bind fun _ h => h.elim
  | some first =>
    cases last with
    | none => exact (hopen (.inr rfl)).bind fun _ h => h.elim
    | some last =>
      obtain ⟨firstTy, hfirstTy, hfirstInt⟩ := hfirst first rfl
      obtain ⟨lastTy, hlastTy, hlastInt⟩ := hlast last rfl
      refine (keeps_whole h (hparts _ (by simp)) hfirstTy hfirstInt).bind fun start _ => ?_
      refine (keeps_whole h (hparts _ (by simp)) hlastTy hlastInt).bind fun stop _ => ?_
      exact (keeps_overRange hround _ _).bind fun _ _ => keeps_pure fits_unit

/-- A loop over the values of a list. -/
theorem keeps_forItems (h : S.Evaluates eval) {pattern : Pattern} {items : Expr} {b : Block} {span : Span}
    {ty : Ty} (hrange : items.isRange = false)
    (hty : (p.expr (.forLoop pattern items b span)).type? S.context = some ty)
    (hall : S.AllFine (p.expr (.forLoop pattern items b span))) (calls : HostCalls σ) (fuel : Nat) :
    S.Keeps p.inLoop p.scopes (ty.Fits S.aim) (Run.step calls fuel eval (.forLoop pattern items b span)) := by
  obtain ⟨n, annotated, itemsTy, bodyTy, hbinding, hitems, hlist, hbody, rfl⟩ :=
    Site.type?_forItems hrange hty
  have hparts : S.AllFine (p.expr items) ∧ ∀ q ∈ p.bodyFor pattern .unknown b, S.AllFine q := by
    cases items
    case range => cases hrange
    all_goals
      exact ⟨hall.part List.mem_cons_self, fun q hq => hall.part (List.mem_cons_of_mem _ hq)⟩
  have hround (v : Value) : S.Keeps p.inLoop p.scopes (fun _ => True)
      (Run.inScope [(n, v)] (Run.loopBody (Run.block eval b))) :=
    keeps_round h hbinding hbody hparts.2 (fits_unknown v)
  have hvalues := keeps_wanted h hparts.1 hitems hlist Ty.noConfusion
  unfold Run.step
  dsimp only
  rw [bindingName_eq hbinding, pure_bind]
  cases items
  case range => cases hrange
  all_goals
    refine hvalues.bind fun v hv => ?_
    cases v
    case list vs => exact (keeps_overList hround vs).bind fun _ _ => keeps_pure fits_unit
    all_goals
      refine (keeps_fault (P := fun _ => False) fun haim => ?_).bind fun _ h => h.elim
      obtain ⟨vs, hvs⟩ := (hv haim).eq_list
      cases hvs

end

end Setting

end Notebook.Guest

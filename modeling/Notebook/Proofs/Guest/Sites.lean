import Mathlib.Data.List.Forall2
import Notebook.Guest.Evaluation
import Notebook.Proofs.Guest.Mentioned

/-!
# Sites of code

A site is a piece of code in the place where the check comes to it: among local names with their types,
and in a loop or not.  The check of a site is one of its parts, each at a site of its own
(`Site.parts`), so that one can say of all that the check comes to what it finds there (`Site.All`).
-/

namespace Notebook.Guest
open Notebook.Text Notebook.Syntax

/-- The local names and their types, innermost scope first. -/
abbrev Scopes := List (List (String × Ty))

/-! ## Answers of a check -/

namespace Check

variable {α β : Type} {x : Check α}

/-- What a check comes to in the scopes. -/
def answer? (x : Check α) (Γ : Scopes) : Option α :=
  match x.run { scopes := Γ } with
  | .ok (a, _) => some a
  | .error _ => none

/-- The scopes that a check leaves. -/
def after? (x : Check α) (Γ : Scopes) : Option Scopes :=
  match x.run { scopes := Γ } with
  | .ok (_, st) => some st.scopes
  | .error _ => none

/-- In some state with the first scopes the check gives the answer, and leaves the second scopes. -/
def Gives (x : Check α) (Γ : Scopes) (a : α) (Γ' : Scopes) : Prop :=
  ∃ st t, st.scopes = Γ ∧ x.run st = .ok (a, t) ∧ t.scopes = Γ'

theorem Gives.bind {Γ Γ'' : Scopes} {f : α → Check β} {b : β} (h : Gives (x >>= f) Γ b Γ'') :
    ∃ a Γ', Gives x Γ a Γ' ∧ Gives (f a) Γ' b Γ'' := by
  obtain ⟨st, u, hst, hrun, hu⟩ := h
  rw [StateT.run_bind] at hrun
  obtain ⟨⟨a, t⟩, hx, hf⟩ := exists_of_bind_ok hrun
  exact ⟨a, t.scopes, ⟨st, t, hst, hx, rfl⟩, ⟨t, u, rfl, hf, hu⟩⟩

theorem Gives.pure {Γ Γ' : Scopes} {a b : α} (h : Gives (Pure.pure a : Check α) Γ b Γ') :
    b = a ∧ Γ' = Γ := by
  obtain ⟨st, t, rfl, hrun, rfl⟩ := h
  cases hrun
  exact ⟨rfl, rfl⟩

theorem Gives.lift {Γ Γ' : Scopes} {y : Except CheckError α} {a : α}
    (h : Gives (liftM y : Check α) Γ a Γ') : y = .ok a ∧ Γ' = Γ := by
  obtain ⟨st, t, rfl, hrun, rfl⟩ := h
  cases y with
  | error e => cases hrun
  | ok b =>
    cases hrun
    exact ⟨rfl, rfl⟩

theorem not_gives_fail {Γ Γ' : Scopes} {o : Objection} {span : Span} {a : α} :
    ¬ Gives (fail o span : Check α) Γ a Γ' := by
  rintro ⟨st, t, -, hrun, -⟩
  cases hrun

theorem Gives.discard {Γ Γ' : Scopes} {a : PUnit} (h : Gives (Functor.discard x) Γ a Γ') :
    ∃ b, Gives x Γ b Γ' := by
  have heq : Functor.discard x = x >>= fun _ => Pure.pure PUnit.unit := rfl
  rw [heq] at h
  obtain ⟨b, Γ'', hx, h⟩ := h.bind
  obtain ⟨-, rfl⟩ := h.pure
  exact ⟨b, hx⟩

/-- A check that depends on the scopes only gives its answer whatever names were used before. -/
theorem Gives.answer {Γ Γ' : Scopes} {a : α} (h : Gives x Γ a Γ')
    (hx : ∀ st st' : CheckState, st'.scopes = st.scopes →
      ∃ kept, Twin kept (x.run st) (x.run st')) :
    answer? x Γ = some a ∧ after? x Γ = some Γ' := by
  obtain ⟨st, t, rfl, hrun, rfl⟩ := h
  -- the state in which an answer is looked for has the same scopes
  obtain ⟨kept, htwin⟩ := hx st { scopes := st.scopes } rfl
  unfold answer? after?
  revert htwin
  rw [hrun]
  generalize x.run { scopes := st.scopes } = r
  rintro ⟨⟩
  rename_i t' hscopes _
  exact ⟨rfl, congrArg some hscopes⟩

/-- A check that leaves the scopes as they were. -/
theorem Gives.inside {Γ Γ' : Scopes} {a : α} (h : Gives x Γ a Γ') (hx : SameInside x x) :
    answer? x Γ = some a ∧ Γ' = Γ := by
  obtain ⟨hanswer, -⟩ := h.answer fun st st' hst => ⟨_, hx st st' hst⟩
  obtain ⟨st, t, rfl, hrun, rfl⟩ := h
  exact ⟨hanswer, hx.scopes_eq hrun⟩

theorem gives_of_answer? {Γ : Scopes} {a : α} (h : answer? x Γ = some a) : ∃ Γ', Gives x Γ a Γ' := by
  unfold answer? at h
  split at h
  · rename_i b st hrun
    cases h
    exact ⟨_, _, _, rfl, hrun, rfl⟩
  · cases h

end Check

/-! ## Sites -/

/-- A piece of code that the check gives a type: an expression, or the statements of a block that are
left. -/
inductive Code
  | expr (e : Expr)
  | stmts (ss : List Stmt)

structure Site where
  inLoop : Bool
  scopes : Scopes
  code : Code

/-- The expression that a statement evaluates. -/
def evaluated : Stmt → Option Expr
  | .bind _ value _ _ => value
  | .expr e _ _ => some e
  | .item .. => none

namespace Site

/-- Another expression at the same place. -/
def expr (p : Site) (e : Expr) : Site := { p with code := .expr e }

/-- A block, in a scope of its own. -/
def block (p : Site) (b : Block) : Site := { p with scopes := [] :: p.scopes, code := .stmts b.stmts }

/-- The body of a loop. -/
def body (p : Site) (b : Block) : Site := { p.block b with inLoop := true }

/-- The body of a loop over values of a type. -/
def bodyFor (p : Site) (pattern : Pattern) (ty : Ty) (b : Block) : List Site :=
  match bindingOf pattern with
  | .ok (n, _) => [{ p with scopes := [(n, ty)] :: p.scopes }.body b]
  | .error _ => []

/-- The check of the code. -/
def check (c : CheckContext) (p : Site) : Check Ty :=
  match p.code with
  | .expr e => Check.expr c p.inLoop e
  | .stmts ss => Check.stmts c p.inLoop ss

/-- The type that the check gives the code. -/
def type? (c : CheckContext) (p : Site) : Option Ty := Check.answer? (p.check c) p.scopes

/-- The expressions have the types at the place, one after the other. -/
def HaveTypes (c : CheckContext) (p : Site) : List Expr → List (Ty × Span) → Prop :=
  List.Forall₂ fun e found => (p.expr e).type? c = some found.1

/-- The arguments of a macro that are checked for themselves. A template is not. -/
def arguments (p : Site) : MacroCall → List Site
  | .mk name _ (.items es _) _ _ =>
    match MacroKind.ofName? name with
    | some kind => if kind.hasTemplate then es.tail.map p.expr else es.map p.expr
    | none => []
  | .mk .. => []

/-- The sites that the check comes to from an expression. -/
def exprParts (p : Site) : Expr → List Site
  | .literal .. | .name .. | .path _ | .breakLoop .. | .continueLoop _ | .range .. | .other .. => []
  | .paren e _ | .reference e _ | .unary _ e _ | .cast e _ _ => [p.expr e]
  | .binary _ l r _ | .compound _ l r _ => [p.expr l, p.expr r]
  | .assign _ r _ => [p.expr r]
  | .call _ args _ => args.map p.expr
  | .method receiver _ args _ => p.expr receiver :: args.map p.expr
  | .invocation m _ => p.arguments m
  | .ifThen condition yes no _ => p.expr condition :: p.block yes :: no.toList.map p.expr
  | .block b _ => [p.block b]
  | .whileLoop condition b _ => [p.expr condition, p.body b]
  | .loop b _ => [p.body b]
  | .forLoop pattern (.range first last _ _) b _ =>
    first.toList.map p.expr ++ last.toList.map p.expr ++ p.bodyFor pattern .int b
  | .forLoop pattern items b _ => p.expr items :: p.bodyFor pattern .unknown b
  | .returnFn value _ => value.toList.map p.expr
  | .array items _ => items.map p.expr
  | .index target position _ => [p.expr target, p.expr position]

/-- The sites that the check comes to from a site. What a statement declares is there for the next one. -/
def parts (c : CheckContext) (p : Site) : List Site :=
  match p.code with
  | .expr e => p.exprParts e
  | .stmts [] => []
  | .stmts (s :: ss) =>
    (evaluated s).toList.map p.expr ++
      (Check.after? (Check.stmt c p.inLoop s) p.scopes).toList.map fun Γ =>
        { p with scopes := Γ, code := .stmts ss }

/-- Something holds of a site, and of all sites that the check comes to from it. -/
inductive All (c : CheckContext) (P : Site → Prop) : Site → Prop
  | intro {p : Site} (here : P p) (parts : ∀ q ∈ p.parts c, All c P q) : All c P p

/-! ## The types of sites -/

section

variable {c : CheckContext} {p : Site} {ty : Ty} {Γ : Scopes}

theorem gives_expr {e : Expr} (h : Check.Gives (Check.expr c p.inLoop e) p.scopes ty Γ) :
    (p.expr e).type? c = some ty ∧ Γ = p.scopes :=
  h.inside ((Check.sameInside c).expr p.inLoop e fun _ _ => trivial)

theorem gives_of_type? {e : Expr} (h : (p.expr e).type? c = some ty) :
    Check.Gives (Check.expr c p.inLoop e) p.scopes ty p.scopes := by
  obtain ⟨Γ, hgives⟩ := Check.gives_of_answer? h
  obtain ⟨-, rfl⟩ := gives_expr (p := p) hgives
  exact hgives

theorem gives_stmts {ss : List Stmt} (h : Check.Gives (Check.stmts c p.inLoop ss) p.scopes ty Γ) :
    ({ p with code := .stmts ss } : Site).type? c = some ty := by
  have hsame := (Check.sameInside c).stmts p.inLoop ss fun _ _ => trivial
  exact (h.answer fun st st' hst => ⟨_, hsame st st' hst⟩).1

/-- The scopes in which a name has been declared. -/
def declaring (n : String) (ty : Ty) : Scopes → Scopes
  | [] => []
  | scope :: outer => ((n, ty) :: scope) :: outer

theorem gives_declare {n : String} {found : Ty} {u : PUnit} {Γ Γ' : Scopes}
    (h : Check.Gives (Check.declare n found) Γ u Γ') : Γ' = declaring n found Γ := by
  obtain ⟨st, t, rfl, hrun, rfl⟩ := h
  cases hst : st.scopes with
  | nil =>
    rw [Check.declare_run_nil hst] at hrun
    cases hrun
    exact hst
  | cons scope outer =>
    rw [Check.declare_run_cons hst] at hrun
    cases hrun
    rfl

theorem gives_inScope {α : Type} {x : Check α} {a : α} {Γ Γ' : Scopes}
    (h : Check.Gives (Check.inScope x) Γ a Γ') : ∃ Γ'', Check.Gives x ([] :: Γ) a Γ'' := by
  obtain ⟨⟨⟩, Γ₁, hopens, h⟩ := h.bind
  obtain ⟨st, t, rfl, hrun, rfl⟩ := hopens
  cases hrun
  obtain ⟨b, Γ₂, hx, h⟩ := h.bind
  obtain ⟨⟨⟩, Γ₃, -, h⟩ := h.bind
  obtain ⟨rfl, -⟩ := h.pure
  exact ⟨Γ₂, hx⟩

theorem gives_block {b : Block} (h : Check.Gives (Check.block c p.inLoop b) p.scopes ty Γ) :
    (p.block b).type? c = some ty ∧ Γ = p.scopes := by
  obtain ⟨ss, span⟩ := b
  have hsame := (Check.sameInside c).block p.inLoop (.mk ss span) fun _ _ => trivial
  obtain ⟨Γ', hstmts⟩ := gives_inScope h
  exact ⟨gives_stmts (p := { p with scopes := [] :: p.scopes }) hstmts, (h.inside hsame).2⟩

theorem gives_exprs {es : List Expr} {types : List (Ty × Span)}
    (h : Check.Gives (Check.exprs c p.inLoop es) p.scopes types Γ) :
    p.HaveTypes c es types ∧ Γ = p.scopes := by
  induction es generalizing types Γ with
  | nil =>
    obtain ⟨rfl, rfl⟩ := Check.Gives.pure h
    exact ⟨.nil, rfl⟩
  | cons e es ih =>
    obtain ⟨ty, Γ₁, he, h⟩ := Check.Gives.bind h
    obtain ⟨htype, rfl⟩ := gives_expr he
    obtain ⟨rest, Γ₂, hes, h⟩ := h.bind
    obtain ⟨hrest, rfl⟩ := ih hes
    obtain ⟨rfl, rfl⟩ := h.pure
    exact ⟨.cons htype hrest, rfl⟩

/-! ## What a type says of the parts

One lemma for each kind of expression that has parts. -/

theorem type?_unary {op : UnaryOp} {e : Expr} {span : Span}
    (h : (p.expr (.unary op e span)).type? c = some ty) :
    ∃ inner, (p.expr e).type? c = some inner ∧
      ∃ st t, (Check.unary op inner span).run st = .ok (ty, t) := by
  obtain ⟨inner, Γ, he, hop⟩ := (gives_of_type? h).bind
  obtain ⟨st, t, -, hrun, -⟩ := hop
  exact ⟨inner, (gives_expr he).1, st, t, hrun⟩

theorem binary?_of_gives {op : BinaryOp} {left right : Ty} {span : Span} {Γ Γ' : Scopes}
    (h : Check.Gives (Check.binary op left right span) Γ ty Γ') : Ty.binary? op left right = some ty := by
  unfold Check.binary at h
  cases hty : Ty.binary? op left right with
  | none =>
    rw [hty] at h
    exact absurd h Check.not_gives_fail
  | some result =>
    rw [hty] at h
    rw [h.pure.1]

theorem type?_binary {op : BinaryOp} {l r : Expr} {span : Span}
    (h : (p.expr (.binary op l r span)).type? c = some ty) :
    ∃ left right, (p.expr l).type? c = some left ∧ (p.expr r).type? c = some right ∧
      Ty.binary? op left right = some ty := by
  obtain ⟨left, Γ, hl, h⟩ := (gives_of_type? h).bind
  obtain ⟨hleft, rfl⟩ := gives_expr hl
  obtain ⟨right, Γ', hr, hop⟩ := h.bind
  exact ⟨left, right, hleft, (gives_expr hr).1, binary?_of_gives hop⟩

theorem type?_compound {op : BinaryOp} {l r : Expr} {span : Span}
    (h : (p.expr (.compound op l r span)).type? c = some ty) :
    ∃ target left right found, Check.answer? (Check.place c l) p.scopes = some target ∧
      (p.expr l).type? c = some left ∧ (p.expr r).type? c = some right ∧
      Ty.binary? op left right = some found ∧ ty = .unit := by
  obtain ⟨⟨⟩, Γ, hplace, h⟩ := (gives_of_type? h).bind
  obtain ⟨target, hplace⟩ := hplace.discard
  obtain ⟨htarget, rfl⟩ := hplace.inside ((Check.sameInside c).place l)
  obtain ⟨left, Γ', hl, h⟩ := h.bind
  obtain ⟨hleft, rfl⟩ := gives_expr hl
  obtain ⟨right, Γ'', hr, h⟩ := h.bind
  obtain ⟨hright, rfl⟩ := gives_expr hr
  obtain ⟨⟨⟩, Γ₃, hop, h⟩ := h.bind
  obtain ⟨found, hop⟩ := hop.discard
  exact ⟨target, left, right, found, htarget, hleft, hright, binary?_of_gives hop, h.pure.1⟩

theorem compatible_of_expectType {expected found : Ty} {span : Span}
    (h : expectType expected found span = .ok ()) : expected.compatible found = true := by
  unfold expectType at h
  split at h
  · assumption
  · cases h

theorem type?_assign {l r : Expr} {span : Span}
    (h : (p.expr (.assign l r span)).type? c = some ty) :
    ∃ target found, Check.answer? (Check.place c l) p.scopes = some target ∧
      (p.expr r).type? c = some found ∧ target.compatible found = true ∧ ty = .unit := by
  obtain ⟨target, Γ, hplace, h⟩ := (gives_of_type? h).bind
  obtain ⟨htarget, rfl⟩ := hplace.inside ((Check.sameInside c).place l)
  obtain ⟨found, Γ', hr, h⟩ := h.bind
  obtain ⟨hfound, rfl⟩ := gives_expr hr
  obtain ⟨⟨⟩, Γ'', hexpect, h⟩ := h.bind
  exact ⟨target, found, htarget, hfound, compatible_of_expectType hexpect.lift.1, h.pure.1⟩

/-- The types of the arguments are compatible with those of the parameters. -/
def ArgumentsMatch (params : List Ty) (args : List (Ty × Span)) : Prop :=
  List.Forall₂ (fun ty found => ty.compatible found.1 = true) params args

theorem argumentsMatch {params : List Ty} {args : List (Ty × Span)} (hlength : params.length = args.length)
    (h : Check.argumentTypes params args = .ok ()) : ArgumentsMatch params args := by
  induction params generalizing args with
  | nil =>
    obtain rfl := List.eq_nil_of_length_eq_zero hlength.symm
    exact .nil
  | cons ty params ih =>
    cases args with
    | nil => cases hlength
    | cons found args =>
      obtain ⟨a, span⟩ := found
      unfold Check.argumentTypes at h
      obtain ⟨⟨⟩, hfirst, hrest⟩ := exists_of_bind_ok h
      exact .cons (compatible_of_expectType hfirst) (ih (Nat.succ.inj hlength) hrest)

theorem type?_call {f : Expr} {args : List Expr} {span : Span}
    (h : (p.expr (.call f args span)).type? c = some ty) :
    ∃ i nameSpan types called, f = .name i nameSpan ∧
      p.HaveTypes c args types ∧
      Check.answer? (Check.callee c i) p.scopes = some called ∧
      match called with
      | none => ty = .unknown
      | some (params, result) => ArgumentsMatch params types ∧ ty = result := by
  obtain ⟨types, Γ, hargs, h⟩ := (gives_of_type? h).bind
  obtain ⟨htypes, rfl⟩ := gives_exprs hargs
  unfold Check.call at h
  cases f with
  | name i nameSpan =>
    obtain ⟨called, Γ', hcallee, h⟩ := h.bind
    obtain ⟨hcalled, -⟩ := hcallee.inside ((Check.sameInside c).callee i trivial)
    refine ⟨i, nameSpan, types, called, rfl, htypes, hcalled, ?_⟩
    cases called with
    | none => exact h.pure.1
    | some called =>
      obtain ⟨params, result⟩ := called
      dsimp only at h ⊢
      split at h
      · obtain ⟨⟨⟩, Γ'', hfail, -⟩ := h.bind
        exact absurd hfail Check.not_gives_fail
      · rename_i hlength
        obtain ⟨⟨⟩, Γ'', hmatch, h⟩ := h.bind
        exact ⟨argumentsMatch (not_not.1 hlength) hmatch.lift.1, h.pure.1⟩
  | _ => exact absurd h Check.not_gives_fail

theorem type?_method {receiver : Expr} {m : Ident} {args : List Expr} {span : Span}
    (h : (p.expr (.method receiver m args span)).type? c = some ty) :
    ∃ receiverTy types, (p.expr receiver).type? c = some receiverTy ∧
      p.HaveTypes c args types ∧
      ((∃ n, receiverTy = .host n) ∧ ty = .unknown ∨ receiverTy.method? m.name args.length = some ty) := by
  obtain ⟨receiverTy, Γ, hreceiver, h⟩ := (gives_of_type? h).bind
  obtain ⟨htype, rfl⟩ := gives_expr hreceiver
  obtain ⟨types, Γ', hargs, h⟩ := h.bind
  obtain ⟨htypes, rfl⟩ := gives_exprs hargs
  refine ⟨receiverTy, types, htype, htypes, ?_⟩
  obtain ⟨st, t, -, hrun, -⟩ := h
  rw [Check.method_run, ← htypes.length_eq] at hrun
  unfold Check.methodResult at hrun
  split at hrun
  · rename_i n
    refine .inl ⟨⟨n, rfl⟩, ?_⟩
    split at hrun
    · split at hrun
      · cases hrun
      · cases hrun
        rfl
    · cases hrun
      rfl
  · split at hrun
    · rename_i hmethod
      cases hrun
      exact .inr hmethod
    · cases hrun

theorem type?_ifThen {condition : Expr} {yes : Block} {no : Option Expr} {span : Span}
    (h : (p.expr (.ifThen condition yes no span)).type? c = some ty) :
    ∃ conditionTy yesTy, (p.expr condition).type? c = some conditionTy ∧
      Ty.bool.compatible conditionTy = true ∧ (p.block yes).type? c = some yesTy ∧
      match no with
      | none => ty = .unit
      | some e => ∃ noTy, (p.expr e).type? c = some noTy ∧ yesTy.compatible noTy = true ∧
        ty = if yesTy.isKnown then yesTy else noTy := by
  obtain ⟨conditionTy, Γ, hcondition, h⟩ := (gives_of_type? h).bind
  obtain ⟨hconditionTy, rfl⟩ := gives_expr hcondition
  obtain ⟨⟨⟩, Γ', hexpect, h⟩ := h.bind
  obtain ⟨hbool, rfl⟩ := hexpect.lift
  obtain ⟨yesTy, Γ'', hyes, h⟩ := h.bind
  obtain ⟨hyesTy, rfl⟩ := gives_block hyes
  refine ⟨conditionTy, yesTy, hconditionTy, compatible_of_expectType hbool, hyesTy, ?_⟩
  obtain ⟨found, Γ₃, hno, h⟩ := h.bind
  cases no with
  | none =>
    obtain ⟨rfl, rfl⟩ := Check.Gives.pure hno
    exact h.pure.1
  | some e =>
    obtain ⟨noTy, Γ₁, he, hno⟩ := Check.Gives.bind hno
    obtain ⟨hnoTy, rfl⟩ := gives_expr he
    obtain ⟨rfl, rfl⟩ := hno.pure
    refine ⟨noTy, hnoTy, ?_⟩
    dsimp only at h
    split at h
    · obtain ⟨⟨⟩, Γ₂, hfail, -⟩ := h.bind
      exact absurd hfail Check.not_gives_fail
    · rename_i hcompatible
      exact ⟨by simpa using hcompatible, h.pure.1⟩

/-- What follows a check of which nothing but success counts. -/
theorem gives_body {b : Block} {α : Type} {f : PUnit → Check α} {a : α} {Γ Γ' : Scopes}
    (hp : p.scopes = Γ) (h : Check.Gives (Functor.discard (Check.block c true b) >>= f) Γ a Γ') :
    (∃ bodyTy, (p.body b).type? c = some bodyTy) ∧ Check.Gives (f ⟨⟩) Γ a Γ' := by
  subst hp
  obtain ⟨⟨⟩, Γ₁, hbody, h⟩ := h.bind
  obtain ⟨bodyTy, hbody⟩ := hbody.discard
  obtain ⟨htype, rfl⟩ := gives_block (p := { p with inLoop := true }) hbody
  exact ⟨⟨bodyTy, htype⟩, h⟩

theorem type?_whileLoop {condition : Expr} {b : Block} {span : Span}
    (h : (p.expr (.whileLoop condition b span)).type? c = some ty) :
    ∃ conditionTy bodyTy, (p.expr condition).type? c = some conditionTy ∧
      Ty.bool.compatible conditionTy = true ∧ (p.body b).type? c = some bodyTy ∧ ty = .unit := by
  obtain ⟨conditionTy, Γ, hcondition, h⟩ := (gives_of_type? h).bind
  obtain ⟨hconditionTy, rfl⟩ := gives_expr hcondition
  obtain ⟨⟨⟩, Γ', hexpect, h⟩ := h.bind
  obtain ⟨hbool, rfl⟩ := hexpect.lift
  obtain ⟨⟨bodyTy, hbody⟩, h⟩ := gives_body rfl h
  exact ⟨conditionTy, bodyTy, hconditionTy, compatible_of_expectType hbool, hbody, h.pure.1⟩

theorem type?_loop {b : Block} {span : Span} (h : (p.expr (.loop b span)).type? c = some ty) :
    (∃ bodyTy, (p.body b).type? c = some bodyTy) ∧ ty = .unit := by
  obtain ⟨hbody, h⟩ := gives_body rfl (gives_of_type? h)
  exact ⟨hbody, h.pure.1⟩

theorem gives_bound {value : Option Expr} {u : PUnit} {Γ : Scopes}
    (h : Check.Gives (Check.bound c p.inLoop value) p.scopes u Γ) :
    (∀ e, value = some e → ∃ found, (p.expr e).type? c = some found ∧ Ty.int.compatible found = true) ∧
      Γ = p.scopes := by
  cases value with
  | none => exact ⟨fun _ he => (by cases he), h.pure.2⟩
  | some e =>
    obtain ⟨found, Γ', he, h⟩ := h.bind
    obtain ⟨hfound, rfl⟩ := gives_expr he
    obtain ⟨hint, rfl⟩ := h.lift
    refine ⟨fun e' he' => ?_, rfl⟩
    cases he'
    exact ⟨found, hfound, compatible_of_expectType hint⟩

/-- The body of a loop over values, for each of which the name stands once. -/
theorem gives_bodyFor {n : String} {element : Ty} {b : Block} {Γ : Scopes}
    (h : Check.Gives (do
      Check.inScope (do
        Check.declare n element
        Functor.discard (Check.block c true b))
      return Ty.unit) p.scopes ty Γ) :
    (∃ bodyTy, (({ p with scopes := [(n, element)] :: p.scopes } : Site).body b).type? c = some bodyTy) ∧
      ty = .unit := by
  obtain ⟨⟨⟩, Γ', hscope, h⟩ := h.bind
  obtain ⟨Γ'', hscope⟩ := gives_inScope hscope
  obtain ⟨⟨⟩, Γ₃, hdeclare, hbody⟩ := hscope.bind
  obtain rfl := gives_declare hdeclare
  obtain ⟨bodyTy, hbody⟩ := hbody.discard
  have hblock := gives_block (p := ⟨true, [(n, element)] :: p.scopes, p.code⟩) hbody
  exact ⟨⟨bodyTy, hblock.1⟩, h.pure.1⟩

theorem type?_forRange {pattern : Pattern} {first last : Option Expr} {closed : Bool} {b : Block}
    {rangeSpan span : Span}
    (h : (p.expr (.forLoop pattern (.range first last closed rangeSpan) b span)).type? c = some ty) :
    ∃ n annotated bodyTy, bindingOf pattern = .ok (n, annotated) ∧
      (∀ e, first = some e →
        ∃ found, (p.expr e).type? c = some found ∧ Ty.int.compatible found = true) ∧
      (∀ e, last = some e →
        ∃ found, (p.expr e).type? c = some found ∧ Ty.int.compatible found = true) ∧
      (({ p with scopes := [(n, .int)] :: p.scopes } : Site).body b).type? c = some bodyTy ∧ ty = .unit := by
  obtain ⟨⟨n, annotated⟩, Γ, hpattern, h⟩ := (gives_of_type? h).bind
  obtain ⟨hbinding, rfl⟩ := hpattern.lift
  obtain ⟨⟨⟩, Γ', hbound, h⟩ := h.bind
  obtain ⟨hfirst, rfl⟩ := gives_bound hbound
  obtain ⟨⟨⟩, Γ'', hbound', h⟩ := h.bind
  obtain ⟨hlast, rfl⟩ := gives_bound hbound'
  obtain ⟨⟨bodyTy, hbody⟩, hty⟩ := gives_bodyFor h
  exact ⟨n, annotated, bodyTy, hbinding, hfirst, hlast, hbody, hty⟩

theorem type?_forItems {pattern : Pattern} {items : Expr} {b : Block} {span : Span}
    (hitems : items.isRange = false)
    (h : (p.expr (.forLoop pattern items b span)).type? c = some ty) :
    ∃ n annotated itemsTy bodyTy, bindingOf pattern = .ok (n, annotated) ∧
      (p.expr items).type? c = some itemsTy ∧ Ty.list.compatible itemsTy = true ∧
      (({ p with scopes := [(n, .unknown)] :: p.scopes } : Site).body b).type? c = some bodyTy ∧
      ty = .unit := by
  have h := gives_of_type? h
  cases items
  case range => cases hitems
  all_goals
    obtain ⟨⟨n, annotated⟩, Γ, hpattern, h⟩ := h.bind
    obtain ⟨hbinding, rfl⟩ := hpattern.lift
    obtain ⟨itemsTy, Γ', he, h⟩ := h.bind
    obtain ⟨hitemsTy, rfl⟩ := gives_expr he
    obtain ⟨⟨⟩, Γ'', hexpect, h⟩ := h.bind
    obtain ⟨hlist, rfl⟩ := hexpect.lift
    obtain ⟨⟨bodyTy, hbody⟩, hty⟩ := gives_bodyFor h
    exact ⟨n, annotated, itemsTy, bodyTy, hbinding, hitemsTy, compatible_of_expectType hlist, hbody, hty⟩

theorem type?_breakLoop {hasValue : Bool} {span : Span}
    (h : (p.expr (.breakLoop hasValue span)).type? c = some ty) : p.inLoop = true := by
  have h := gives_of_type? h
  unfold Check.expr at h
  split at h
  · rename_i hin
    exact (Bool.and_eq_true_iff.1 hin).1
  · exact absurd h Check.not_gives_fail

theorem type?_continueLoop {span : Span} (h : (p.expr (.continueLoop span)).type? c = some ty) :
    p.inLoop = true := by
  have h := gives_of_type? h
  unfold Check.expr at h
  split at h
  · assumption
  · exact absurd h Check.not_gives_fail

theorem type?_returnFn {value : Option Expr} {span : Span}
    (h : (p.expr (.returnFn value span)).type? c = some ty) :
    (∃ own, c.own = some own) ∧ (∀ e, value = some e → ∃ found, (p.expr e).type? c = some found) ∧
      ty = .unknown := by
  have h := gives_of_type? h
  unfold Check.expr at h
  split at h
  · obtain ⟨⟨⟩, Γ, hfail, -⟩ := h.bind
    exact absurd hfail Check.not_gives_fail
  · rename_i hlenient
    have hown : c.lenient = true := by simpa using hlenient
    obtain ⟨⟨⟩, Γ, hvalue, h⟩ := h.bind
    obtain ⟨found, hvalue⟩ := hvalue.discard
    refine ⟨Option.isSome_iff_exists.1 hown, fun e he => ?_, h.pure.1⟩
    subst he
    obtain ⟨ty, Γ', he, -⟩ := Check.Gives.bind hvalue
    exact ⟨ty, (gives_expr he).1⟩

theorem type?_array {items : List Expr} {span : Span}
    (h : (p.expr (.array items span)).type? c = some ty) :
    (∃ types, p.HaveTypes c items types) ∧ ty = .list := by
  obtain ⟨⟨⟩, Γ, hitems, h⟩ := (gives_of_type? h).bind
  obtain ⟨types, hitems⟩ := hitems.discard
  exact ⟨⟨types, (gives_exprs hitems).1⟩, h.pure.1⟩

theorem type?_index {target position : Expr} {span : Span}
    (h : (p.expr (.index target position span)).type? c = some ty) :
    ∃ targetTy positionTy, (p.expr target).type? c = some targetTy ∧
      (p.expr position).type? c = some positionTy ∧ Ty.int.compatible positionTy = true ∧
      ty = .unknown := by
  obtain ⟨targetTy, Γ, htarget, h⟩ := (gives_of_type? h).bind
  obtain ⟨htargetTy, rfl⟩ := gives_expr htarget
  obtain ⟨⟨⟩, Γ', hlist, h⟩ := h.bind
  obtain ⟨-, rfl⟩ := hlist.lift
  obtain ⟨positionTy, Γ'', hposition, h⟩ := h.bind
  obtain ⟨hpositionTy, rfl⟩ := gives_expr hposition
  obtain ⟨⟨⟩, Γ₃, hint, h⟩ := h.bind
  exact ⟨targetTy, positionTy, htargetTy, hpositionTy, compatible_of_expectType hint.lift.1, h.pure.1⟩

/-- A cast goes to the built-in type that is written, if one is, as the evaluation takes it too. -/
theorem type?_cast {e : Expr} {t : TypeExpr} {span : Span}
    (h : (p.expr (.cast e t span)).type? c = some ty) :
    ∃ source, (p.expr e).type? c = some source ∧
      ∃ st u, (Check.cast source (Run.castTarget t) span).run st = .ok (ty, u) := by
  obtain ⟨source, Γ, he, h⟩ := (gives_of_type? h).bind
  obtain ⟨target, Γ', htarget, hcast⟩ := h.bind
  refine ⟨source, (gives_expr he).1, ?_⟩
  obtain ⟨st, u, -, hrun, -⟩ := hcast
  obtain ⟨st', t', -, htarget, -⟩ := htarget
  rw [Check.resolveType_run] at htarget
  unfold Run.castTarget
  cases hread : Ty.read t.form with
  | known known =>
    rw [hread] at htarget
    cases htarget
    exact ⟨st, u, hrun⟩
  | unsupported =>
    rw [hread] at htarget
    cases htarget
  | named n =>
    rw [hread] at htarget
    dsimp only at htarget
    split at htarget
    · -- a struct is no number, so there is no cast to it
      cases htarget
      unfold Check.cast at hrun
      simp at hrun
      cases hrun
    · split at htarget
      · cases htarget
        exact ⟨st, u, hrun⟩
      · cases htarget

/-- A macro that prints, and its template: it takes as many values as there are. -/
def Templated (c : CheckContext) (p : Site) (es : List Expr) : Prop :=
  es = [] ∨ ∃ t rest types, es = t :: rest ∧
    Check.answer? (Check.template c t rest.length) p.scopes = some ⟨⟩ ∧ p.HaveTypes c rest types

theorem gives_template {t : Expr} {es : List Expr} {α : Type} {f : PUnit → Check α} {a : α} {Γ : Scopes}
    (h : Check.Gives (do
      Check.template c t es.length
      Functor.discard (Check.exprs c p.inLoop es) >>= f) p.scopes a Γ) :
    p.Templated c (t :: es) ∧ Check.Gives (f ⟨⟩) p.scopes a Γ := by
  obtain ⟨⟨⟩, Γ', htemplate, h⟩ := h.bind
  obtain ⟨hanswer, rfl⟩ :=
    htemplate.inside ((Check.sameInside c).template t es es.length fun _ _ => trivial)
  obtain ⟨⟨⟩, Γ', hes, h⟩ := h.bind
  obtain ⟨types, hes⟩ := hes.discard
  obtain ⟨htypes, rfl⟩ := gives_exprs hes
  exact ⟨.inr ⟨t, es, types, rfl, hanswer, htypes⟩, h⟩

theorem type?_invocation {name : Option String} {nameSpan : Span} {args : MacroArgs} {braced : Bool}
    {callSpan span : Span}
    (h : (p.expr (.invocation (.mk name nameSpan args braced callSpan) span)).type? c = some ty) :
    ∃ kind es first, MacroKind.ofName? name = some kind ∧ args = .items es first ∧
      match kind with
      | .vec => (∃ types, p.HaveTypes c es types) ∧ ty = .list
      | .assert => ∃ condition rest conditionTy types, es = condition :: rest ∧
          (p.expr condition).type? c = some conditionTy ∧ Ty.bool.compatible conditionTy = true ∧
          p.HaveTypes c rest types ∧ ty = .unit
      | .format => p.Templated c es ∧ ty = .str
      | .panic => p.Templated c es ∧ ty = .unknown
      | .println | .print => p.Templated c es ∧ ty = .unit := by
  have h : Check.Gives (Check.invocation c p.inLoop (.mk name nameSpan args braced callSpan)) p.scopes ty
    p.scopes := gives_of_type? h
  unfold Check.invocation at h
  cases hkind : MacroKind.ofName? name with
  | none =>
    rw [hkind] at h
    exact absurd h Check.not_gives_fail
  | some kind =>
    rw [hkind] at h
    cases args with
    | malformed e => exact absurd h Check.not_gives_fail
    | items es first =>
      refine ⟨kind, es, first, rfl, rfl, ?_⟩
      cases es with
      | nil =>
        -- without arguments there is neither a template nor a condition
        cases kind with
        | vec => exact ⟨⟨[], .nil⟩, h.pure.1⟩
        | assert => exact absurd h Check.not_gives_fail
        | _ => exact ⟨.inl rfl, h.pure.1⟩
      | cons e es =>
        cases kind with
        | vec =>
          obtain ⟨⟨⟩, Γ, he, h⟩ := Check.Gives.bind h
          obtain ⟨found, he⟩ := he.discard
          obtain ⟨hfound, rfl⟩ := gives_expr he
          obtain ⟨⟨⟩, Γ', hes, h⟩ := h.bind
          obtain ⟨types, hes⟩ := hes.discard
          exact ⟨⟨(found, e.span) :: types, .cons hfound (gives_exprs hes).1⟩, h.pure.1⟩
        | assert =>
          obtain ⟨conditionTy, Γ, he, h⟩ := Check.Gives.bind h
          obtain ⟨hconditionTy, rfl⟩ := gives_expr he
          obtain ⟨⟨⟩, Γ', hexpect, h⟩ := h.bind
          obtain ⟨hbool, rfl⟩ := hexpect.lift
          obtain ⟨⟨⟩, Γ'', hes, h⟩ := h.bind
          obtain ⟨types, hes⟩ := hes.discard
          exact ⟨e, es, conditionTy, types, rfl, hconditionTy, compatible_of_expectType hbool,
            (gives_exprs hes).1, h.pure.1⟩
        | _ =>
          obtain ⟨htemplated, h⟩ := gives_template h
          exact ⟨htemplated, h.pure.1⟩

/-! ## Statements -/

/-- What the check of a statement says of its parts and of the scopes that it leaves. -/
def Understands (c : CheckContext) (p : Site) (s : Stmt) (ty : Ty) (Γ : Scopes) : Prop :=
  match s with
  | .bind pattern value _ _ =>
    ∃ n annotated e found declared, bindingOf pattern = .ok (n, annotated) ∧ value = some e ∧
      (p.expr e).type? c = some found ∧ ty = .unit ∧ Γ = declaring n declared p.scopes ∧
      match annotated with
      | none => declared = found
      | some t => Check.answer? (Check.resolveType c t) p.scopes = some declared ∧
          declared.compatible found = true
  | .expr e ended _ =>
    ∃ found, (p.expr e).type? c = some found ∧ Γ = p.scopes ∧ ty = if ended then .unit else found
  | .item .. => False

theorem understands {s : Stmt} {Γ : Scopes}
    (h : Check.Gives (Check.stmt c p.inLoop s) p.scopes ty Γ) : p.Understands c s ty Γ := by
  cases s with
  | bind pattern value keyword span =>
    rw [Check.stmt] at h
    obtain ⟨⟨n, annotated⟩, Γ₁, hpattern, h⟩ := h.bind
    obtain ⟨hbinding, rfl⟩ := hpattern.lift
    cases value with
    | none => exact absurd h Check.not_gives_fail
    | some e =>
      obtain ⟨found, Γ₂, he, h⟩ := h.bind
      obtain ⟨hfound, rfl⟩ := gives_expr he
      cases annotated with
      | none =>
        obtain ⟨⟨⟩, Γ₃, hdeclare, h⟩ := h.bind
        obtain rfl := gives_declare hdeclare
        obtain ⟨rfl, rfl⟩ := h.pure
        exact ⟨n, none, e, found, found, hbinding, rfl, hfound, rfl, rfl, rfl⟩
      | some t =>
        obtain ⟨declared, Γ₃, htype, h⟩ := h.bind
        obtain ⟨hanswer, rfl⟩ := htype.inside ((Check.sameInside c).type t fun _ _ => trivial)
        obtain ⟨⟨⟩, Γ₃, hexpect, h⟩ := h.bind
        obtain ⟨hcompatible, rfl⟩ := hexpect.lift
        obtain ⟨⟨⟩, Γ₃, hdeclare, h⟩ := h.bind
        obtain rfl := gives_declare hdeclare
        obtain ⟨rfl, rfl⟩ := h.pure
        exact ⟨n, some t, e, found, declared, hbinding, rfl, hfound, rfl, rfl, hanswer,
          compatible_of_expectType hcompatible⟩
  | expr e ended span =>
    obtain ⟨found, Γ₁, he, h⟩ := h.bind
    obtain ⟨hfound, rfl⟩ := gives_expr he
    obtain ⟨rfl, rfl⟩ := h.pure
    exact ⟨found, hfound, rfl, rfl⟩
  | item i span => exact absurd h Check.not_gives_fail

/-- The first of several statements, and the site of those that are left. -/
theorem type?_stmts {s : Stmt} {ss : List Stmt}
    (h : ({ p with code := .stmts (s :: ss) } : Site).type? c = some ty) :
    ∃ stmtTy Γ, p.Understands c s stmtTy Γ ∧ Check.after? (Check.stmt c p.inLoop s) p.scopes = some Γ ∧
      (ss = [] ∧ ty = stmtTy ∨
        ss ≠ [] ∧ ({ p with scopes := Γ, code := .stmts ss } : Site).type? c = some ty) := by
  have hsame := (Check.sameInside c).stmt p.inLoop s fun _ _ => trivial
  obtain ⟨Γ', hgives⟩ := Check.gives_of_answer? h
  cases ss with
  | nil =>
    obtain ⟨-, hafter⟩ := hgives.answer fun st st' hst => ⟨_, hsame st st' hst⟩
    exact ⟨ty, Γ', understands hgives, hafter, .inl ⟨rfl, rfl⟩⟩
  | cons t ss =>
    obtain ⟨⟨⟩, Γ, hstmt, hrest⟩ := Check.Gives.bind hgives
    obtain ⟨stmtTy, hstmt⟩ := hstmt.discard
    obtain ⟨-, hafter⟩ := hstmt.answer fun st st' hst => ⟨_, hsame st st' hst⟩
    exact ⟨stmtTy, Γ, understands hstmt, hafter,
      .inr ⟨List.cons_ne_nil t ss, gives_stmts (p := { p with scopes := Γ }) hrest⟩⟩

end

end Site

end Notebook.Guest

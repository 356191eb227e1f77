import Notebook.Guest.Check

/-!
# Checks side by side

The check of a piece of code is put together from the checks of its parts.  So whatever relates the
checks of single names in two contexts, and is kept when checks are put together, relates the checks
of all code in the two contexts (`Alongside.expr`).  What names are used as matters to some relations:
`Uses.expr` collects the names that are called, written as types, and shown by templates.
-/

namespace Notebook.Guest
open Notebook.Text Notebook.Syntax

/-! ## The checks of single names -/

namespace CheckState

/-- The type of a local name, of the innermost scope that has it. -/
def local? (st : CheckState) (n : String) : Option Ty :=
  st.scopes.findSome? fun scope => scope.lookup n

/-- The state in which a name of the session counts as used. -/
def refer (st : CheckState) (n : String) : CheckState :=
  { st with referenced := insertNew n st.referenced }

/-- The state in which a name counts as missing. -/
def miss (st : CheckState) (n : String) : CheckState :=
  { st with missing := insertOrdered n st.missing }

end CheckState

namespace Check

theorem local?_bind {α : Type} (n : String) (f : Option Ty → Check α) (st : CheckState) :
    (local? n >>= f).run st = (f (st.local? n)).run st := rfl

theorem unknownName_run (c : CheckContext) (n : String) (span : Span) (what : String)
    (st : CheckState) :
    (unknownName c n span what).run st =
      if c.lenient then .ok (.unknown, st.miss n) else .error ⟨.notFound what n, span⟩ := by
  unfold unknownName
  split <;> rfl

theorem name_run (c : CheckContext) (i : Ident) (st : CheckState) :
    (name c i).run st =
      match st.local? i.name, c.globals i.name with
      | some ty, _ => .ok (ty, st)
      | none, some (.variable ty) => .ok (ty, st.refer i.name)
      | none, some (.host typeName _) => .ok (.host typeName, st.refer i.name)
      | none, some (.function ..) => .error ⟨.functionValue i.name, i.span⟩
      | none, some .struct => .error ⟨.structValue i.name, i.span⟩
      | none, none => (unknownName c i.name i.span "value").run st := by
  unfold name
  rw [local?_bind]
  cases st.local? i.name with
  | some ty => rfl
  | none =>
    cases c.globals i.name with
    | none => rfl
    | some kind => cases kind <;> rfl

theorem place_run (c : CheckContext) (i : Ident) (span : Span) (st : CheckState) :
    (place c (.name i span)).run st =
      match st.local? i.name, c.globals i.name with
      | some ty, _ => .ok (ty, st)
      | none, some (.variable ty) => .ok (ty, st.refer i.name)
      | none, some _ => .error ⟨.notAssignable i.name, i.span⟩
      | none, none => (unknownName c i.name i.span "value").run st := by
  unfold place
  dsimp only
  rw [local?_bind]
  cases st.local? i.name with
  | some ty => rfl
  | none =>
    cases c.globals i.name with
    | none => rfl
    | some kind => cases kind <;> rfl

theorem resolveType_run (c : CheckContext) (t : TypeExpr) (st : CheckState) :
    (resolveType c t).run st =
      match Ty.read t.form with
      | .known ty => .ok (ty, st)
      | .unsupported => .error ⟨.unsupportedType, t.span⟩
      | .named n =>
        if c.globals n = some .struct then .ok (.struct n, st.refer n)
        else if c.lenient then .ok (.unknown, st.miss n)
        else .error ⟨.notFound "type" n, t.span⟩ := by
  unfold resolveType
  cases Ty.read t.form with
  | known ty => rfl
  | unsupported => rfl
  | named n =>
    dsimp only
    split
    · rename_i hstruct
      rw [if_pos hstruct]
      rfl
    · rename_i hother
      rw [if_neg hother]
      split <;> rfl

/-- What a name in front of the arguments of a call stands for, if it is neither local nor the name of
the function that is checked. -/
def calledGlobal (c : CheckContext) (i : Ident) (st : CheckState) :
    Except CheckError (Option (List Ty × Ty) × CheckState) :=
  match c.globals i.name, Builtin.find? i.name with
  | some (.function params result), _ => .ok (some (params, result), st.refer i.name)
  | some _, _ => .error ⟨.notFunction i.name, i.span⟩
  | none, some b => .ok (some (b.params, b.result), st)
  | none, none =>
    if c.lenient then .ok (none, st.miss i.name) else .error ⟨.notFound "function" i.name, i.span⟩

/-- The check that looks such a name up in the session. -/
def lookedUp (c : CheckContext) (i : Ident) : Check (Option (List Ty × Ty)) :=
  match c.globals i.name with
  | some (.function params result) => do
    refer i.name
    return some (params, result)
  | some _ => fail (.notFunction i.name) i.span
  | none =>
    match Builtin.find? i.name with
    | some b => return some (b.params, b.result)
    | none => do
      discard (unknownName c i.name i.span "function")
      return none

theorem lookedUp_run (c : CheckContext) (i : Ident) (st : CheckState) :
    (lookedUp c i).run st = calledGlobal c i st := by
  unfold lookedUp calledGlobal
  cases c.globals i.name with
  | none =>
    cases Builtin.find? i.name with
    | none =>
      dsimp only
      unfold unknownName
      split <;> rfl
    | some b => rfl
  | some kind => cases kind <;> rfl

theorem callee_run (c : CheckContext) (i : Ident) (st : CheckState) :
    (callee c i).run st =
      match st.local? i.name, c.own with
      | some _, _ => .error ⟨.notFunction i.name, i.span⟩
      | none, some own =>
        if own.name = i.name then .ok (some (own.params, own.result), st) else calledGlobal c i st
      | none, none => calledGlobal c i st := by
  -- what is looked up in the session when the name is neither local nor the function's own
  have hglobal := lookedUp_run c i st
  unfold callee
  rw [local?_bind]
  cases st.local? i.name with
  | some ty =>
    cases c.own with
    | none => rfl
    | some own =>
      simp only [Option.isSome_some, Bool.not_true, Bool.and_false]
      rfl
  | none =>
    cases c.own with
    | none => exact hglobal
    | some own =>
      simp only [Option.isSome_none, Bool.not_false, Bool.and_true, decide_eq_true_eq]
      split
      · rfl
      · exact hglobal

/-- The methods of the host object that an expression names. -/
def methodsNamed (c : CheckContext) (st : CheckState) : Expr → Option (List MethodDoc)
  | .name i _ =>
    match st.local? i.name, c.globals i.name with
    | none, some (.host _ methods) => some methods
    | _, _ => none
  | _ => none

theorem hostMethods?_run (c : CheckContext) (receiver : Expr) (st : CheckState) :
    (hostMethods? c receiver).run st = .ok (methodsNamed c st receiver, st) := by
  cases receiver
  case name i span =>
    unfold hostMethods? methodsNamed
    dsimp only
    rw [local?_bind]
    cases st.local? i.name with
    | some ty => rfl
    | none =>
      cases c.globals i.name with
      | none => rfl
      | some kind => cases kind <;> rfl
  all_goals rfl

/-- The type of a method call, as the receiver's type and the methods that are known of it have it. -/
def methodResult (known : Option (List MethodDoc)) (ty : Ty) (m : Ident) (count : Nat) :
    Except CheckError Ty :=
  match ty with
  | .host typeName =>
    match known with
    | some methods =>
      if !methods.isEmpty && !methods.any (·.name == m.name) then
        .error ⟨.noHostMethod m.name typeName, m.span⟩
      else .ok .unknown
    | none => .ok .unknown
  | _ =>
    match ty.method? m.name count with
    | some result => .ok result
    | none => .error ⟨.noMethod m.name count ty, m.span⟩

theorem method_run (c : CheckContext) (receiver : Expr) (ty : Ty) (m : Ident) (count : Nat)
    (st : CheckState) :
    (method c receiver ty m count).run st =
      (methodResult (methodsNamed c st receiver) ty m count).map (·, st) := by
  unfold method methodResult
  cases ty
  case host typeName =>
    dsimp only
    rw [StateT.run_bind, hostMethods?_run]
    change StateT.run (match methodsNamed c st receiver with | some methods => _ | none => _) st = _
    cases methodsNamed c st receiver with
    | none => rfl
    | some methods =>
      dsimp only
      split <;> rfl
  all_goals
    dsimp only
    generalize Ty.method? _ m.name count = found
    cases found <;> rfl

/-- The check of a name that a template shows. -/
def shownName (c : CheckContext) (span : Span) (n : String) : Check Unit := do
  if (← local? n).isNone then
    match c.globals n with
    | some (.variable _) | some (.host ..) => refer n
    | _ => discard (unknownName c n span "value")

theorem templatePieces_named (c : CheckContext) (span : Span) (cs : List Char) (shown : Bool)
    (ps : List TemplatePiece) :
    templatePieces c span (.named cs shown :: ps) =
      shownName c span (String.ofList cs) >>= fun _ => templatePieces c span ps := by
  rw [templatePieces, shownName]
  simp only [bind_assoc]
  refine bind_congr fun found => ?_
  split
  · cases c.globals (String.ofList cs) with
    | none => rfl
    | some kind => cases kind <;> rfl
  · rfl

theorem shownName_run (c : CheckContext) (span : Span) (n : String) (st : CheckState) :
    (shownName c span n).run st =
      match st.local? n, c.globals n with
      | some _, _ => .ok ((), st)
      | none, some (.variable _) | none, some (.host ..) => .ok ((), st.refer n)
      | none, _ =>
        if c.lenient then .ok ((), st.miss n) else .error ⟨.notFound "value" n, span⟩ := by
  unfold shownName
  rw [local?_bind]
  have hmissing : (discard (unknownName c n span "value")).run st =
      if c.lenient then .ok ((), st.miss n) else .error ⟨.notFound "value" n, span⟩ := by
    unfold unknownName
    split <;> rfl
  cases st.local? n with
  | some ty => rfl
  | none =>
    cases c.globals n with
    | none => exact hmissing
    | some kind =>
      rcases kind with ty | ⟨params, result⟩ | _ | ⟨typeName, methods⟩
      · rfl
      · exact hmissing
      · exact hmissing
      · rfl

end Check

/-! ## What names are used as -/

/-- What a name is used as, other than for a value. -/
inductive NameUse
  | called
  | asType
  | shown
  deriving DecidableEq

/-- The names that a template shows. -/
def shownNames : List Expr → List String
  | .literal (.text cs) _ :: _ =>
    match parseTemplate cs with
    | .ok pieces => pieces.filterMap fun
      | .named n _ => some (String.ofList n)
      | _ => none
    | .error _ => []
  | _ => []

/-- Whether the first argument of a macro is a template. -/
def MacroKind.hasTemplate : MacroKind → Bool
  | .vec | .assert => false
  | _ => true

namespace Uses

/-- The name that a written type uses. -/
def type (t : TypeExpr) : List (NameUse × String) :=
  match Ty.read t.form with
  | .named n => [(.asType, n)]
  | _ => []

/-- The name that is called. -/
def callee : Expr → List (NameUse × String)
  | .name i _ => [(.called, i.name)]
  | _ => []

/-- The name of the type that is written with a pattern. -/
def pattern (p : Pattern) : List (NameUse × String) :=
  match bindingOf p with
  | .ok (_, some t) => type t
  | _ => []

mutual

/-- The names that an expression uses for something else than values, and as what. -/
def expr : Expr → List (NameUse × String)
  | .literal .. | .name .. | .path _ | .breakLoop .. | .continueLoop _ | .other .. => []
  | .paren e _ | .reference e _ | .unary _ e _ => expr e
  | .binary _ l r _ | .compound _ l r _ => expr l ++ expr r
  | .assign _ r _ => expr r
  | .call f args _ => callee f ++ exprs args
  | .method receiver _ args _ => expr receiver ++ exprs args
  | .invocation m _ => invocation m
  | .ifThen cond yes no _ => expr cond ++ block yes ++ optional no
  | .block b _ | .loop b _ => block b
  | .whileLoop cond body _ => expr cond ++ block body
  | .forLoop _ items body _ => expr items ++ block body
  | .range first last _ _ => optional first ++ optional last
  | .returnFn value _ => optional value
  | .array items _ => exprs items
  | .index target position _ => expr target ++ expr position
  | .cast e t _ => expr e ++ type t

def optional : Option Expr → List (NameUse × String)
  | none => []
  | some e => expr e

def exprs : List Expr → List (NameUse × String)
  | [] => []
  | e :: es => expr e ++ exprs es

def invocation : MacroCall → List (NameUse × String)
  | .mk name _ args _ _ =>
    match MacroKind.ofName? name with
    | some kind => invocationArgs kind args
    | none => []

def invocationArgs (kind : MacroKind) : MacroArgs → List (NameUse × String)
  | .malformed _ => []
  | .items es _ => (if kind.hasTemplate then (shownNames es).map (.shown, ·) else []) ++ exprs es

def block : Block → List (NameUse × String)
  | .mk ss _ => stmts ss

def stmts : List Stmt → List (NameUse × String)
  | [] => []
  | s :: ss => stmt s ++ stmts ss

def stmt : Stmt → List (NameUse × String)
  | .bind p value _ _ => pattern p ++ optional value
  | .expr e _ _ => expr e
  | .item .. => []

end

end Uses

/-! ## Putting checks together -/

namespace Check

theorem liftM_ok_bind {α β : Type} (a : α) (f : α → Check β) :
    (liftM (Except.ok a : Except CheckError α) : Check α) >>= f = f a := rfl

/-- A relation between checks, `R`, that is kept when checks are put together and that the checks of
single names in two contexts stand in, given what those names are used as. What a statement declares
stays until its scope ends, so statements are related by `Q`, which a scope turns into `R` again. -/
structure Alongside (c c' : CheckContext) (U : NameUse × String → Prop)
    (R Q : ∀ {α : Type}, Check α → Check α → Prop) : Prop where
  own : c'.own = c.own
  pure {α : Type} (a : α) : R (pure a) (pure a)
  fail {α : Type} (o : Objection) (span : Span) : R (fail o span : Check α) (fail o span)
  bind {α β : Type} {x x' : Check α} {f f' : α → Check β} :
    R x x' → (∀ a, R (f a) (f' a)) → R (x >>= f) (x' >>= f')
  weaken {α : Type} {x x' : Check α} : R x x' → Q x x'
  then_ {α β : Type} {x x' : Check α} {f f' : α → Check β} :
    Q x x' → (∀ a, Q (f a) (f' a)) → Q (x >>= f) (x' >>= f')
  declare (n : String) (ty : Ty) : Q (declare n ty) (declare n ty)
  inScope {α : Type} {x x' : Check α} : Q x x' → R (inScope x) (inScope x')
  name (i : Ident) : R (name c i) (name c' i)
  place (e : Expr) : R (place c e) (place c' e)
  type (t : TypeExpr) : (∀ u ∈ Uses.type t, U u) → R (resolveType c t) (resolveType c' t)
  callee (i : Ident) : U (.called, i.name) → R (callee c i) (callee c' i)
  method (inLoop : Bool) (receiver : Expr) (m : Ident) (args : List Expr) (span : Span) :
    R (expr c inLoop receiver) (expr c' inLoop receiver) →
      R (exprs c inLoop args) (exprs c' inLoop args) →
        R (expr c inLoop (.method receiver m args span)) (expr c' inLoop (.method receiver m args span))
  shown (span : Span) (n : String) : U (.shown, n) → R (shownName c span n) (shownName c' span n)

namespace Alongside

variable {c c' : CheckContext} {U : NameUse × String → Prop}
  {R Q : ∀ {α : Type}, Check α → Check α → Prop}

theorem lenient (h : Alongside c c' U R Q) : c'.lenient = c.lenient := by
  unfold CheckContext.lenient
  rw [h.own]

/-- A comparison that looks at no context. -/
theorem lift (h : Alongside c c' U R Q) {α : Type} (x : Except CheckError α) :
    R (liftM x : Check α) (liftM x) := by
  cases x with
  | ok a => exact h.pure a
  | error e => exact h.fail e.objection e.span

theorem discard (h : Alongside c c' U R Q) {α : Type} {x x' : Check α} (hx : R x x') :
    R (Functor.discard x) (Functor.discard x') := by
  have heq (y : Check α) : Functor.discard y = y >>= fun _ => Pure.pure PUnit.unit := rfl
  rw [heq, heq]
  exact h.bind hx fun _ => h.pure _

theorem literal (h : Alongside c c' U R Q) (l : Literal) (span : Span) :
    R (literal l span) (Check.literal l span) := by
  cases l with
  | other => exact h.fail _ _
  | _ => exact h.pure _

theorem unary (h : Alongside c c' U R Q) (op : UnaryOp) (ty : Ty) (span : Span) :
    R (unary op ty span) (Check.unary op ty span) := by
  unfold Check.unary
  extract_lets ok
  split
  · exact h.pure _
  · exact h.fail _ _

theorem binary (h : Alongside c c' U R Q) (op : BinaryOp) (left right : Ty) (span : Span) :
    R (binary op left right span) (Check.binary op left right span) := by
  unfold Check.binary
  split
  · exact h.pure _
  · exact h.fail _ _

theorem cast (h : Alongside c c' U R Q) (source target : Ty) (span : Span) :
    R (cast source target span) (Check.cast source target span) := by
  unfold Check.cast
  dsimp only
  split
  · exact h.pure _
  · exact h.fail _ _

theorem call (h : Alongside c c' U R Q) (f : Expr) (args : List (Ty × Span)) (span : Span)
    (hf : ∀ u ∈ Uses.callee f, U u) : R (call c f args span) (Check.call c' f args span) := by
  unfold Check.call
  split
  · rename_i i _
    refine h.bind (h.callee i (hf _ List.mem_cons_self)) fun types => ?_
    split
    · exact h.pure _
    · rename_i params result
      split
      · exact h.bind (h.fail _ _) fun _ => h.bind (h.lift _) fun _ => h.pure _
      · exact h.bind (h.lift _) fun _ => h.pure _
  · exact h.fail _ _
  · exact h.fail _ _

theorem templatePieces (h : Alongside c c' U R Q) (span : Span) (ps : List TemplatePiece)
    (hps : ∀ n shown, .named n shown ∈ ps → U (.shown, String.ofList n)) :
    R (templatePieces c span ps) (Check.templatePieces c' span ps) := by
  induction ps with
  | nil => exact h.pure _
  | cons p ps ih =>
    have hrest := ih fun n shown hn => hps n shown (List.mem_cons_of_mem p hn)
    cases p with
    | literal cs => exact hrest
    | next shown => exact h.bind hrest fun _ => h.pure _
    | named n shown =>
      rw [templatePieces_named, templatePieces_named]
      exact h.bind (h.shown span _ (hps n shown List.mem_cons_self)) fun _ => hrest

theorem template (h : Alongside c c' U R Q) (t : Expr) (es : List Expr) (given : Nat)
    (hes : ∀ n ∈ shownNames (t :: es), U (.shown, n)) :
    R (template c t given) (Check.template c' t given) := by
  unfold Check.template
  split
  · rename_i cs span
    cases hcs : parseTemplate cs with
    | error e => exact h.fail _ _
    | ok pieces =>
      dsimp only
      refine h.bind (h.templatePieces span pieces fun n shown hn => ?_) fun places => ?_
      · refine hes _ ?_
        simp only [shownNames, hcs, List.mem_filterMap]
        exact ⟨_, hn, rfl⟩
      · split
        · exact h.fail _ _
        · exact h.pure _
  · exact h.fail _ _

mutual

/-- What relates the checks of single names relates the checks of expressions. -/
theorem expr (h : Alongside c c' U R Q) (inLoop : Bool) (e : Expr) (hu : ∀ u ∈ Uses.expr e, U u) :
    R (expr c inLoop e) (Check.expr c' inLoop e) := by
  cases e with
  | literal l s => exact h.literal l s
  | name i _ => exact h.name i
  | path s => exact h.fail _ _
  | paren e _ => exact expr h inLoop e hu
  | reference e _ => exact expr h inLoop e hu
  | unary op e s => exact h.bind (expr h inLoop e hu) fun ty => h.unary op ty s
  | binary op l r s =>
    obtain ⟨hl, hr⟩ := List.forall_mem_append.1 hu
    exact h.bind (expr h inLoop l hl) fun left => h.bind (expr h inLoop r hr) fun right =>
      h.binary op left right s
  | compound op l r s =>
    obtain ⟨hl, hr⟩ := List.forall_mem_append.1 hu
    exact h.bind (h.discard (h.place l)) fun _ => h.bind (expr h inLoop l hl) fun left =>
      h.bind (expr h inLoop r hr) fun right => h.bind (h.discard (h.binary op left right s)) fun _ =>
        h.pure _
  | assign l r _ =>
    exact h.bind (h.place l) fun target => h.bind (expr h inLoop r hu) fun value =>
      h.bind (h.lift _) fun _ => h.pure _
  | call f args s =>
    obtain ⟨hf, hargs⟩ := List.forall_mem_append.1 hu
    exact h.bind (exprs h inLoop args hargs) fun types => h.call f types s hf
  | method receiver m args s =>
    obtain ⟨hreceiver, hargs⟩ := List.forall_mem_append.1 hu
    exact h.method inLoop receiver m args s (expr h inLoop receiver hreceiver)
      (exprs h inLoop args hargs)
  | invocation m _ => exact invocation h inLoop m hu
  | ifThen cond yes no _ =>
    obtain ⟨hu, hno⟩ := List.forall_mem_append.1 hu
    obtain ⟨hcond, hyes⟩ := List.forall_mem_append.1 hu
    refine h.bind (expr h inLoop cond hcond) fun ty => h.bind (h.lift _) fun _ =>
      h.bind (block h inLoop yes hyes) fun yesTy => h.bind (optional h inLoop no hno) fun found => ?_
    cases found with
    | none => exact h.pure _
    | some found =>
      dsimp only
      split
      · exact h.bind (h.fail _ _) fun _ => h.pure _
      · exact h.pure _
  | block b _ => exact block h inLoop b hu
  | whileLoop cond body _ =>
    obtain ⟨hcond, hbody⟩ := List.forall_mem_append.1 hu
    exact h.bind (expr h inLoop cond hcond) fun ty => h.bind (h.lift _) fun _ =>
      h.bind (h.discard (block h true body hbody)) fun _ => h.pure _
  | loop body _ => exact h.bind (h.discard (block h true body hu)) fun _ => h.pure _
  | forLoop p items body _ =>
    obtain ⟨hitems, hbody⟩ := List.forall_mem_append.1 hu
    -- the variable of the loop is declared in a scope of its own, which ends with the body
    have hscope (n : String) (ty : Ty) :
        R (do Check.inScope (do Check.declare n ty; Functor.discard (Check.block c true body)); return Ty.unit)
          (do Check.inScope (do Check.declare n ty; Functor.discard (Check.block c' true body)); return Ty.unit) :=
      h.bind (h.inScope (h.then_ (h.declare n ty) fun _ =>
        h.weaken (h.discard (block h true body hbody)))) fun _ => h.pure _
    cases items
    case range first last closed _ =>
      obtain ⟨hfirst, hlast⟩ := List.forall_mem_append.1 hitems
      exact h.bind (h.lift _) fun found => h.bind (bound h inLoop first hfirst) fun _ =>
        h.bind (bound h inLoop last hlast) fun _ => hscope found.1 .int
    all_goals
      exact h.bind (h.lift _) fun found => h.bind (expr h inLoop _ hitems) fun ty =>
        h.bind (h.lift _) fun _ => hscope found.1 .unknown
  | breakLoop hasValue s =>
    simp only [Check.expr]
    split
    · exact h.pure _
    · exact h.fail _ _
  | continueLoop s =>
    simp only [Check.expr]
    split
    · exact h.pure _
    · exact h.fail _ _
  | returnFn value s =>
    simp only [Check.expr, h.lenient]
    split
    · exact h.bind (h.fail _ _) fun _ => h.bind (h.discard (optional h inLoop value hu)) fun _ => h.pure _
    · exact h.bind (h.discard (optional h inLoop value hu)) fun _ => h.pure _
  | array items _ => exact h.bind (h.discard (exprs h inLoop items hu)) fun _ => h.pure _
  | index target position _ =>
    obtain ⟨htarget, hposition⟩ := List.forall_mem_append.1 hu
    exact h.bind (expr h inLoop target htarget) fun _ => h.bind (h.lift _) fun _ =>
      h.bind (expr h inLoop position hposition) fun _ => h.bind (h.lift _) fun _ => h.pure _
  | cast e t s =>
    obtain ⟨he, ht⟩ := List.forall_mem_append.1 hu
    exact h.bind (expr h inLoop e he) fun source => h.bind (h.type t ht) fun target =>
      h.cast source target s
  | range _ _ _ s => exact h.fail _ _
  | other _ s => exact h.fail _ _

theorem optional (h : Alongside c c' U R Q) (inLoop : Bool) (value : Option Expr)
    (hu : ∀ u ∈ Uses.optional value, U u) :
    R (optional c inLoop value) (Check.optional c' inLoop value) := by
  cases value with
  | none => exact h.pure _
  | some e => exact h.bind (expr h inLoop e hu) fun _ => h.pure _

theorem bound (h : Alongside c c' U R Q) (inLoop : Bool) (value : Option Expr)
    (hu : ∀ u ∈ Uses.optional value, U u) : R (bound c inLoop value) (Check.bound c' inLoop value) := by
  cases value with
  | none => exact h.pure _
  | some e => exact h.bind (expr h inLoop e hu) fun _ => h.lift _

theorem exprs (h : Alongside c c' U R Q) (inLoop : Bool) (es : List Expr)
    (hu : ∀ u ∈ Uses.exprs es, U u) : R (exprs c inLoop es) (Check.exprs c' inLoop es) := by
  cases es with
  | nil => exact h.pure _
  | cons e es =>
    obtain ⟨he, hes⟩ := List.forall_mem_append.1 hu
    exact h.bind (expr h inLoop e he) fun _ => h.bind (exprs h inLoop es hes) fun _ => h.pure _

theorem invocation (h : Alongside c c' U R Q) (inLoop : Bool) (m : MacroCall)
    (hu : ∀ u ∈ Uses.invocation m, U u) :
    R (invocation c inLoop m) (Check.invocation c' inLoop m) := by
  obtain ⟨macroName, nameSpan, args, _, span⟩ := m
  simp only [Uses.invocation] at hu
  simp only [Check.invocation]
  cases hkind : MacroKind.ofName? macroName with
  | none => exact h.fail _ _
  | some kind =>
    rw [hkind] at hu
    exact invocationArgs h inLoop kind span args hu

theorem invocationArgs (h : Alongside c c' U R Q) (inLoop : Bool) (kind : MacroKind) (span : Span)
    (args : MacroArgs) (hu : ∀ u ∈ Uses.invocationArgs kind args, U u) :
    R (invocationArgs c inLoop kind span args) (Check.invocationArgs c' inLoop kind span args) := by
  cases args with
  | malformed e => exact h.fail _ _
  | items es first =>
    obtain ⟨hshown, hes⟩ := List.forall_mem_append.1 hu
    cases es with
    | nil =>
      cases kind
      case assert => exact h.fail _ _
      all_goals exact h.pure _
    | cons e es =>
      obtain ⟨he, hes⟩ := List.forall_mem_append.1 hes
      have hrest := h.discard (exprs h inLoop es hes)
      cases kind with
      | vec => exact h.bind (h.discard (expr h inLoop e he)) fun _ => h.bind hrest fun _ => h.pure _
      | assert =>
        exact h.bind (expr h inLoop e he) fun _ => h.bind (h.lift _) fun _ => h.bind hrest fun _ => h.pure _
      | _ =>
        refine h.bind (h.template e es _ fun n hn => ?_) fun _ => h.bind hrest fun _ => h.pure _
        exact hshown _ (List.mem_map_of_mem hn)

theorem block (h : Alongside c c' U R Q) (inLoop : Bool) (b : Block) (hu : ∀ u ∈ Uses.block b, U u) :
    R (block c inLoop b) (Check.block c' inLoop b) := by
  obtain ⟨ss, _⟩ := b
  exact h.inScope (stmts h inLoop ss hu)

theorem stmts (h : Alongside c c' U R Q) (inLoop : Bool) (ss : List Stmt)
    (hu : ∀ u ∈ Uses.stmts ss, U u) : Q (stmts c inLoop ss) (Check.stmts c' inLoop ss) := by
  cases ss with
  | nil => exact h.weaken (h.pure _)
  | cons s ss =>
    obtain ⟨hs, hss⟩ := List.forall_mem_append.1 hu
    cases ss with
    | nil => exact stmt h inLoop s hs
    | cons t ss =>
      -- the value of a statement that others follow is left out
      have hfirst := stmt h inLoop s hs
      exact h.then_ (h.then_ hfirst fun _ => h.weaken (h.pure _)) fun _ => stmts h inLoop (t :: ss) hss

theorem stmt (h : Alongside c c' U R Q) (inLoop : Bool) (s : Stmt) (hu : ∀ u ∈ Uses.stmt s, U u) :
    Q (stmt c inLoop s) (Check.stmt c' inLoop s) := by
  cases s with
  | bind p value keyword span =>
    obtain ⟨hp, hvalue⟩ := List.forall_mem_append.1 hu
    unfold Uses.pattern at hp
    rw [Check.stmt, Check.stmt]
    cases hbinding : bindingOf p with
    | error e => exact h.weaken (h.fail e.objection e.span)
    | ok found =>
      obtain ⟨n, annotated⟩ := found
      rw [hbinding] at hp
      rw [liftM_ok_bind, liftM_ok_bind]
      cases value with
      | none => exact h.weaken (h.fail _ _)
      | some e =>
        have he := expr h inLoop e hvalue
        cases annotated with
        | none =>
          exact h.then_ (h.weaken he) fun found => h.then_ (h.declare n found) fun _ =>
            h.weaken (h.pure _)
        | some t =>
          -- the initial value comes before the written type, as the check takes them
          exact h.then_ (h.weaken he) fun found => h.then_ (h.weaken (h.type t hp)) fun declared =>
            h.then_ (h.weaken (h.lift _)) fun _ => h.then_ (h.declare n declared) fun _ =>
              h.weaken (h.pure _)
  | expr e ended _ => exact h.weaken (h.bind (expr h inLoop e hu) fun _ => h.pure _)
  | item _ span => exact h.weaken (h.fail _ _)

end

end Alongside

end Check

end Notebook.Guest

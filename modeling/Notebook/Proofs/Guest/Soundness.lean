import Notebook.Guest.Engine
import Notebook.Proofs.Guest.Parts

/-!
# Soundness of the check

An evaluation keeps to the types that the check has come to (`Setting.keeps_eval`), if the check takes
nothing on trust in it nor in the functions of the session, or if it has found all types and overlooks
nothing.  A call is the one place where code runs that has been checked elsewhere: the body of the
function, among its parameters.
-/

namespace Notebook.Guest
open Notebook.Text Notebook.Syntax

/-- A function as the check of its body knows it. -/
def Function.type (f : Function) : FnType := ⟨f.name, f.params.map (·.2), f.result⟩

/-- The body of a function, among its parameters. -/
def Function.site (f : Function) : Site := Site.block ⟨false, [f.params.reverse], .stmts []⟩ f.body

/-- The check takes nothing on trust in the function, which calls some functions of the session only. -/
structure Function.Sharp (f : Function) (g : Globals) (called : String → Prop) : Prop where
  checks : (f.site.type? ⟨g, some f.type⟩).isSome = true
  result : ¬ f.site.Strays ⟨g, some f.type⟩ f.result
  body : f.site.All ⟨g, some f.type⟩ fun q =>
    q.Sharp ⟨g, some f.type⟩ ∧ ∀ n ∈ q.function? ⟨g, some f.type⟩, called n

namespace Store

variable {s : Store} {n : String}

theorem callee?_of_globals {params : List Ty} {result : Ty}
    (h : s.globals n = some (.function params result)) :
    (∃ f id, s.callee? n = some (.ready f id) ∧ params = f.type.params ∧ result = f.result) ∨
      ∃ missing, s.callee? n = some (.waiting missing) := by
  obtain ⟨id, r, f, hid, hr, hdefined, hdefinition, rfl, rfl⟩ := globals_eq_function_iff.1 h
  simp only [callee?_eq_some_iff, Record.callee?]
  cases hstatus : r.status with
  | valid => exact .inl ⟨f, id, ⟨id, r, hid, hr, by rw [hdefinition, hstatus]⟩, rfl, rfl⟩
  | recoverableDefined => exact .inr ⟨r.unresolved, id, r, hid, hr, by rw [hdefinition, hstatus]⟩
  | _ =>
    rw [hstatus] at hdefined
    cases hdefined

theorem globals_of_callee? {callee : Callee} (h : s.callee? n = some callee) :
    ∃ params result, s.globals n = some (.function params result) := by
  obtain ⟨id, r, hid, hr, hcallee⟩ := callee?_eq_some_iff.1 h
  unfold Record.callee? at hcallee
  split at hcallee
  · rename_i f hdefinition hstatus
    exact ⟨_, _, globals_eq_function_iff.2 ⟨id, r, f, hid, hr, by rw [hstatus]; rfl, hdefinition, rfl, rfl⟩⟩
  · rename_i f hdefinition hstatus
    exact ⟨_, _, globals_eq_function_iff.2 ⟨id, r, f, hid, hr, by rw [hstatus]; rfl, hdefinition, rfl, rfl⟩⟩
  · cases hcallee

end Store

namespace Setting

variable {σ : Type} {S : Setting}

/-- The body of a function, checked and evaluated in the same session. -/
def inside (S : Setting) (f : Function) : Setting := { S with own := some f.type }

/-- The function that code is in is one of the session, and the check takes nothing on trust in those that
are called. -/
structure Proper (S : Setting) : Prop where
  strict : S.aim = .safety → S.own = none ∧ ∀ n, ¬ S.called n
  own : ∀ own ∈ S.own, ∃ f id, S.base.callee? own.name = some (.ready f id) ∧ own = f.type
  functions : ∀ n f id, S.called n → S.base.callee? n = some (.ready f id) →
    f.name = n ∧ f.Sharp S.base.globals S.called

/-- Where no type error may occur, code is in no function. -/
theorem Proper.aim_of_own (hS : S.Proper) {own : FnType} (hown : own ∈ S.own) : S.aim = .truth := by
  cases haim : S.aim with
  | truth => rfl
  | safety => cases (hS.strict haim).1.symm.trans hown

/-- Where no type error may occur, code calls no function of the session. -/
theorem Proper.aim_of_called (hS : S.Proper) {n : String} (hn : S.called n) : S.aim = .truth := by
  cases haim : S.aim with
  | truth => rfl
  | safety => exact absurd hn ((hS.strict haim).2 n)

/-- What the check takes the name in front of the arguments of a call for. -/
inductive Called (S : Setting) (n : String) : Option (List Ty × Ty) → Prop
  | function {f : Function} {id : SnippetId} : S.context.declares n = true →
      S.base.callee? n = some (.ready f id) → Called S n (some (f.type.params, f.result))
  | waiting {missing : List String} {called : Option (List Ty × Ty)} : S.context.declares n = true →
      S.base.callee? n = some (.waiting missing) → Called S n called
  | builtin {b : Builtin} : S.base.callee? n = none → Builtin.find? n = some b →
      Called S n (some (b.params, b.result))
  | missing : S.base.callee? n = none → Builtin.find? n = none → Called S n none

theorem called_of_gives (hS : S.Proper) {i : Ident} {Γ Γ' : Scopes} {called : Option (List Ty × Ty)}
    (h : Check.Gives (Check.callee S.context i) Γ called Γ') :
    (Γ.findSome? fun scope => scope.lookup i.name) = none ∧ S.Called i.name called := by
  obtain ⟨st, t, rfl, hrun, -⟩ := h
  rw [Check.callee_run] at hrun
  have hglobal (hrun : Check.calledGlobal S.context i st = .ok (called, t)) :
      S.Called i.name called := by
    unfold Check.calledGlobal at hrun
    -- what means nothing to the check cannot be called either
    have hcallee (hnone : S.context.globals i.name = none) : S.base.callee? i.name = none := by
      by_contra hsome
      obtain ⟨callee, hcallee⟩ := Option.ne_none_iff_exists'.1 hsome
      obtain ⟨params, result, hglobals⟩ := Store.globals_of_callee? hcallee
      exact absurd (hnone.symm.trans hglobals) (by simp)
    split at hrun
    · rename_i params result hglobals
      cases hrun
      have hdeclares : S.context.declares i.name = true := by
        unfold CheckContext.declares
        rw [hglobals]
        exact Bool.or_true _
      obtain ⟨f, id, hready, rfl, rfl⟩ | ⟨missing, hwaiting⟩ := Store.callee?_of_globals hglobals
      · exact .function hdeclares hready
      · exact .waiting hdeclares hwaiting
    · cases hrun
    · rename_i hnone hb
      cases hrun
      exact .builtin (hcallee hnone) hb
    · rename_i hnone hb
      split at hrun
      · cases hrun
        exact .missing (hcallee hnone) hb
      · cases hrun
  split at hrun
  · cases hrun
  · -- in a function, its own name comes before those of the session
    rename_i own hlocal hown
    refine ⟨hlocal, ?_⟩
    split at hrun
    · rename_i hname
      cases hrun
      obtain ⟨f, id, hready, rfl⟩ := hS.own own hown
      refine .function ?_ (hname ▸ hready)
      unfold CheckContext.declares
      rw [hown]
      simp [hname]
    · exact hglobal hrun
  · rename_i hlocal _
    exact ⟨hlocal, hglobal hrun⟩

section

variable {eval : Run.Evaluator σ} {inLoop : Bool} {Γ : Scopes}

/-- The parameters of a function, each with the last one of the arguments that are given for its name. -/
theorem fits_params {params : List (String × Ty)} {args : List Value}
    (hargs : AllFit S.aim (params.map (·.2)) args) {types : List (String × Ty)} {scope : Scope}
    (hscope : ScopeFits S.aim types scope) :
    ScopeFits S.aim (params.reverse ++ types)
      ((params.zip args).foldl (fun (scope : Scope) (p, v) => scope.put p.1 v) scope) := by
  induction params generalizing args types scope with
  | nil => exact hscope
  | cons param params ih =>
    obtain ⟨n, ty⟩ := param
    cases hargs with
    | cons hv hargs =>
      rw [List.reverse_cons, List.append_assoc]
      exact ih hargs (fits_put hscope hv)

/-- The body of a function sees its parameters only, and the caller gets its own state back. -/
theorem Keeps.inFrame {f : Function} {types : List (String × Ty)} {scope : Scope} {r : Run σ Value}
    (hr : (S.inside f).Keeps false [types] (f.result.Fits S.aim) r) (hscope : ScopeFits S.aim types scope)
    (frame : Frame) : S.Keeps inLoop Γ (f.result.Fits S.aim) (Run.inFrame frame scope r) := by
  intro m hm
  have hend := hr { m with frames := frame :: m.frames, scopes := [scope] }
    ⟨hm.same, hm.holds, .cons hscope .nil⟩
  have hback {m' : Machine σ} (hm' : (S.inside f).Suits [types] m') :
      S.Suits Γ { m' with frames := m.frames, scopes := m.scopes } := ⟨hm'.same, hm'.holds, hm.scopes⟩
  unfold Run.inFrame
  rw [Run.get_bind, Run.modify_bind]
  dsimp only
  unfold Run.followedBy
  rw [ExceptT.run_mk, StateT.run_bind, ExceptT.run_mk, StateT.run_bind]
  revert hend
  generalize r.run.run { m with frames := frame :: m.frames, scopes := [scope] } = result
  rintro (⟨hv, hm'⟩ | ⟨he, hm'⟩)
  · exact .ok ⟨hv, hback hm'⟩
  · rename_i e _
    cases e with
    | returned v =>
      -- the call takes what is returned for its value
      obtain ⟨own, hown, hv⟩ := he
      cases hown
      exact .ok ⟨hv, hback hm'⟩
    | broke => cases he
    | continued => cases he
    | _ => exact .error he (hback hm')

theorem keeps_invoke {f : Function} (hsharp : f.Sharp S.base.globals S.called) (heval : (S.inside f).Evaluates eval)
    (haim : S.aim = .truth) (id : SnippetId) {args : List Value}
    (hargs : AllFit S.aim f.type.params args) :
    S.Keeps inLoop Γ (f.result.Fits S.aim) (Run.invoke eval f id args) := by
  obtain ⟨found, hfound⟩ := Option.isSome_iff_exists.1 hsharp.checks
  have hsafety : S.aim ≠ .safety := by
    rw [haim]
    rintro ⟨⟩
  have hall : (S.inside f).AllFine f.site := hsharp.body.mono fun q hq => .of_sharp hq.2 hq.1 haim
  have hblock : (S.inside f).Keeps false [f.params.reverse] (f.result.Fits S.aim) (Run.block eval f.body) :=
    keeps_block_as heval (p := ⟨false, [f.params.reverse], .stmts []⟩) hall hfound
      (fun _ => hsharp.result) fun h => (hsafety h).elim
  have hnone : ScopeFits S.aim [] [] := fun _ => .none
  have hscope := fits_params hargs hnone
  rw [List.append_nil] at hscope
  have hframe (frame : Frame) : S.Keeps inLoop Γ (f.result.Fits S.aim)
      (Run.inFrame frame _ (Run.block eval f.body)) := hblock.inFrame hscope frame
  have hfault {α : Type} (cause : FaultCause) :
      S.Keeps inLoop Γ (fun _ => False) (Run.fault cause : Run σ α) :=
    keeps_fault fun h => (hsafety h).elim
  unfold Run.invoke
  refine keeps_get_bind fun m hm => ?_
  dsimp only
  -- too many calls within each other, or arguments that are not as many as the parameters
  split
  · exact ((hfault _).bind fun _ h => h.elim) m hm
  · split
    · exact ((hfault _).bind fun _ h => h.elim) m hm
    · exact hframe _ m hm

theorem callName_run (eval : Run.Evaluator σ) (n : String) (args : List Value) (m : Machine σ) :
    (Run.callName eval n args).run.run m =
      (match if (m.scopes.findSome? fun scope => scope.get? n).isSome then none else m.store.callee? n with
        | some (.ready f id) => Run.invoke eval f id args
        | some (.waiting missing) => Run.fault (.waiting n missing)
        | none =>
          if (Builtin.find? n).isSome then Run.ofOutcome (Value.builtin n args)
          else Run.fault (.uncallable n) : Run σ Value).run.run m := rfl

theorem keeps_callName {P : Value → Prop} {n : String} {args : List Value}
    (hlocal : (Γ.findSome? fun scope => scope.lookup n) = none)
    (hready : ∀ f id, S.base.callee? n = some (.ready f id) →
      S.Keeps inLoop Γ P (Run.invoke eval f id args))
    (hnone : ∀ b, S.base.callee? n = none → Builtin.find? n = some b →
      S.Keeps inLoop Γ P (Run.ofOutcome (Value.builtin n args) : Run σ Value)) :
    S.Keeps inLoop Γ P (Run.callName eval n args) := by
  intro m hm
  have hheld : (m.scopes.findSome? fun scope => scope.get? n) = none := by
    have hfits := local?_fits hm.scopes n
    rw [hlocal] at hfits
    revert hfits
    generalize (m.scopes.findSome? fun scope => scope.get? n) = held
    rintro ⟨⟩
    rfl
  rw [callName_run, hheld, hm.same.callee?]
  dsimp only [Option.isSome_none]
  rw [if_neg Bool.false_ne_true]
  split
  · rename_i f id hcallee
    exact hready f id hcallee m hm
  · exact keeps_fault (fun _ => by rintro (h | h) <;> cases h) m hm
  · rename_i hcallee
    cases hb : Builtin.find? n with
    | some b => exact hnone b hcallee hb m hm
    | none => exact keeps_fault (fun _ => by rintro (h | h) <;> cases h) m hm

variable {p : Site} (h : S.Evaluates eval)

/-- Arguments where parameters expect their types. -/
theorem keeps_arguments (h : S.Evaluates eval) {args : List Expr} {params : List Ty}
    {types : List (Ty × Span)} (htypes : p.HaveTypes S.context args types)
    (hmatch : Site.ArgumentsMatch params types) (hall : ∀ e ∈ args, S.AllFine (p.expr e))
    (hsharp : S.aim = .truth → ∀ a ∈ params.zip args, ¬ (p.expr a.2).Strays S.context a.1) :
    S.Keeps p.inLoop p.scopes (AllFit S.aim params) (Run.values eval args) := by
  refine keeps_values ?_
  induction htypes generalizing params with
  | nil =>
    cases hmatch
    exact .nil
  | cons hfound _ ih =>
    obtain ⟨he, hes⟩ := List.forall_mem_cons.1 hall
    cases hmatch with
    | cons hcompatible hmatch =>
      refine .cons (keeps_expected h he hfound hcompatible fun haim => ?_) (ih hmatch hes fun haim a ha => ?_)
      · exact hsharp haim _ List.mem_cons_self
      · exact hsharp haim a (List.mem_cons_of_mem _ ha)

theorem keeps_call (hS : S.Proper)
    (hinside : S.aim = .truth → ∀ n f id, S.called n → S.base.callee? n = some (.ready f id) →
      (S.inside f).Evaluates eval)
    (h : S.Evaluates eval) {i : Ident} {nameSpan : Span} {args : List Expr} {span : Span} {ty : Ty}
    (hty : (p.expr (.call (.name i nameSpan) args span)).type? S.context = some ty)
    (hall : S.AllFine (p.expr (.call (.name i nameSpan) args span))) :
    S.Keeps p.inLoop p.scopes (ty.Fits S.aim)
      (Run.values eval args >>= fun vs => Run.callName eval i.name vs) := by
  obtain ⟨i', _, types, called, heq, htypes, hcalled, hresult⟩ := Site.type?_call hty
  cases heq
  obtain ⟨Γ', hgives⟩ := Check.gives_of_answer? hcalled
  obtain ⟨hlocal, hcases⟩ := called_of_gives hS hgives
  have hargsAll (e : Expr) (he : e ∈ args) : S.AllFine (p.expr e) := hall.part (List.mem_map_of_mem he)
  have hcalled' (hdeclares : S.context.declares i.name = true) : S.called i.name := by
    refine hall.here.1 i.name ?_
    change (if S.context.declares i.name = true then some i.name else none) = _
    rw [if_pos hdeclares]
  cases hcases with
  | @function f id hdeclares hready =>
    have hf := hcalled' hdeclares
    have haim := hS.aim_of_called hf
    obtain ⟨hmatch, rfl⟩ := hresult
    have hsharp := hall.sharp haim hdeclares _ hcalled _ rfl
    refine (keeps_arguments h htypes hmatch hargsAll fun _ => hsharp).bind fun vs hvs => ?_
    refine keeps_callName hlocal (fun f' id' hready' => ?_) fun _ hnone => ?_
    · cases hready.symm.trans hready'
      exact keeps_invoke (hS.functions _ _ _ hf hready).2 (hinside haim _ _ _ hf hready) haim _ hvs
    · cases hready.symm.trans hnone
  | waiting hdeclares hwaiting =>
    refine (keeps_found h htypes hargsAll).bind fun vs _ => ?_
    refine keeps_callName hlocal (fun f' id' hready => ?_) fun _ hnone => ?_
    · cases hwaiting.symm.trans hready
    · cases hwaiting.symm.trans hnone
  | @builtin b hnone hb =>
    obtain ⟨hmatch, rfl⟩ := hresult
    have hvalues : S.Keeps p.inLoop p.scopes (fun vs => S.aim = .safety → AllFit S.aim b.params vs)
        (Run.values eval args) := by
      cases haim : S.aim with
      | truth =>
        exact (keeps_found h htypes hargsAll).mono fun _ _ haim => by cases haim
      | safety =>
        refine (keeps_arguments h htypes hmatch hargsAll fun haim' => ?_).mono fun vs hvs _ => haim ▸ hvs
        cases haim.symm.trans haim'
    refine hvalues.bind fun vs hvs => ?_
    refine keeps_callName hlocal (fun f' id' hready => ?_) fun b' _ hb' => ?_
    · cases hnone.symm.trans hready
    · cases hb.symm.trans hb'
      exact keeps_ofOutcome (meets_builtin hb hvs)
  | missing hnone hb =>
    refine (keeps_found h htypes hargsAll).bind fun vs _ => ?_
    refine keeps_callName hlocal (fun f' id' hready => ?_) fun b' _ hb' => ?_
    · cases hnone.symm.trans hready
    · cases hb.symm.trans hb'

theorem keeps_callMethod_unknown (calls : HostCalls σ) (haim : S.aim ≠ .safety) (receiver : Value)
    (name : String) (args : List Value) :
    S.Keeps inLoop Γ (Ty.unknown.Fits S.aim) (Run.callMethod calls receiver name args) := by
  unfold Run.callMethod
  split
  · exact (keeps_callHost calls _ name args).mono fun v _ => fits_unknown v
  · exact keeps_ofOutcome (meets_unknown haim)

/-- Where the types of the arguments of a method decide, they are what the method wants. -/
theorem fits_arguments {wanted : Ty} {args : List Expr} {types : List (Ty × Span)} {vs : List Value}
    (htypes : p.HaveTypes S.context args types) (hvs : AllFit S.aim (types.map (·.1)) vs)
    (hwanted : ∀ e ∈ args, (p.expr e).type? S.context = some wanted) : ∀ v ∈ vs, wanted.Fits S.aim v := by
  induction htypes generalizing vs with
  | nil =>
    cases hvs
    exact fun _ hv => nomatch hv
  | cons hfound _ ih =>
    obtain ⟨he, hes⟩ := List.forall_mem_cons.1 hwanted
    cases hvs with
    | cons hv hvs =>
      rw [he] at hfound
      cases hfound
      exact List.forall_mem_cons.2 ⟨hv, ih hvs hes⟩

theorem keeps_method (h : S.Evaluates eval) (calls : HostCalls σ) {receiver : Expr} {m : Ident}
    {args : List Expr} {span : Span} {ty : Ty}
    (hty : (p.expr (.method receiver m args span)).type? S.context = some ty)
    (hall : S.AllFine (p.expr (.method receiver m args span))) :
    S.Keeps p.inLoop p.scopes (ty.Fits S.aim)
      (eval receiver >>= fun v => Run.values eval args >>= fun vs => Run.callMethod calls v m.name vs) := by
  obtain ⟨receiverTy, types, hreceiver, htypes, hresult⟩ := Site.type?_method hty
  have hreceiverAll : S.AllFine (p.expr receiver) := hall.part List.mem_cons_self
  have hargsAll (e : Expr) (he : e ∈ args) : S.AllFine (p.expr e) :=
    hall.part (List.mem_cons_of_mem _ (List.mem_map_of_mem he))
  refine (h.keeps p receiver receiverTy hreceiver hreceiverAll).bind fun v hv => ?_
  refine (keeps_found h htypes hargsAll).bind fun vs hvs => ?_
  by_cases hunknown : ty = .unknown
  · subst hunknown
    exact keeps_callMethod_unknown calls (fun haim => hall.ne_unknown hty haim rfl) v m.name vs
  · have hmethod : receiverTy.method? m.name args.length = some ty :=
      hresult.resolve_left fun hhost => hunknown hhost.2
    have hlength : args.length = vs.length := by
      rw [htypes.length_eq, ← hvs.length_eq, List.length_map]
    rw [hlength] at hmethod
    have hreceiverTy : receiverTy ≠ .unknown := by
      rintro rfl
      cases hmethod
      exact hunknown rfl
    -- the type of the receiver has methods, so the value is no host object
    have hplain := hv.ofValue_eq (isPlain_of_method? hmethod hreceiverTy)
    have hcall : Run.callMethod calls v m.name vs = Run.ofOutcome (v.method m.name vs) := by
      cases v with
      | host object =>
        subst hplain
        cases hmethod
      | _ => rfl
    rw [hcall]
    refine keeps_ofOutcome (meets_method hmethod hv fun haim => ⟨hunknown, fun wanted hwanted => ?_⟩)
    refine fits_arguments htypes hvs fun e he => ?_
    by_contra hne
    exact (hall.known haim).2 ⟨receiverTy, hreceiver, wanted, hwanted, e, he, hne⟩

/-- One step of an evaluation keeps to its types, if the evaluation of the parts does. -/
theorem keeps_step (hS : S.Proper)
    (hinside : S.aim = .truth → ∀ n f id, S.called n → S.base.callee? n = some (.ready f id) →
      (S.inside f).Evaluates eval)
    (h : S.Evaluates eval) (calls : HostCalls σ) (fuel : Nat) {e : Expr} {ty : Ty}
    (hty : (p.expr e).type? S.context = some ty) (hall : S.AllFine (p.expr e)) :
    S.Keeps p.inLoop p.scopes (ty.Fits S.aim) (Run.step calls fuel eval e) := by
  cases e with
  | literal l span =>
    obtain ⟨st, t, -, hrun, -⟩ := Site.gives_of_type? hty
    exact keeps_ofOutcome (meets_literal hrun)
  | name i _ => exact keeps_name (Site.gives_of_type? hty)
  | path _ => exact absurd (Site.gives_of_type? hty) Check.not_gives_fail
  | paren e _ => exact h.keeps p e ty hty (hall.part List.mem_cons_self)
  | reference e _ => exact h.keeps p e ty hty (hall.part List.mem_cons_self)
  | unary op e _ =>
    obtain ⟨inner, hinner, st, t, hrun⟩ := Site.type?_unary hty
    have he : S.AllFine (p.expr e) := hall.part List.mem_cons_self
    exact (h.keeps p e inner hinner he).bind fun v hv =>
      keeps_ofOutcome (meets_unary hrun hv (he.ne_unknown hinner))
  | binary op l r _ =>
    obtain ⟨left, right, hl, hr, hfound⟩ := Site.type?_binary hty
    have hlAll : S.AllFine (p.expr l) := hall.part List.mem_cons_self
    have hrAll : S.AllFine (p.expr r) := hall.part (List.mem_cons_of_mem _ List.mem_cons_self)
    refine keeps_binary h hl hr hlAll hrAll hfound
      (operands_of_fine hl hr hlAll hrAll hall.sharp fun haim hordering => ?_)
    by_contra hordered
    exact (hall.known haim).2 ⟨hordering, left, hl, by simpa using hordered⟩
  | compound op l r _ => exact keeps_compound h hty hall
  | assign l r _ =>
    obtain ⟨target, found, hplace, hfound, hcompatible, rfl⟩ := Site.type?_assign hty
    have hr : S.AllFine (p.expr r) := hall.part List.mem_cons_self
    refine (keeps_expected h hr hfound hcompatible fun haim => (hall.sharp haim) target hplace).bind
      fun v hv => ?_
    exact (keeps_place hplace hv).bind fun _ _ => keeps_pure fits_unit
  | call f args _ =>
    obtain ⟨i, nameSpan, -, -, rfl, -⟩ := Site.type?_call hty
    exact keeps_call hS hinside h hty hall
  | method receiver m args _ => exact keeps_method h calls hty hall
  | invocation call _ => exact keeps_invocation h hty hall
  | ifThen condition yes no _ => exact keeps_ifThen h hty hall
  | block b _ =>
    obtain ⟨hblock, -⟩ := Site.gives_block (p := p) (Site.gives_of_type? hty)
    exact keeps_block h hblock (hall.part List.mem_cons_self)
  | whileLoop condition b _ =>
    obtain ⟨-, -, -, -, -, rfl⟩ := Site.type?_whileLoop hty
    exact (keeps_whileLoop h hty hall fuel).bind fun _ _ => keeps_pure fits_unit
  | loop b _ =>
    obtain ⟨⟨bodyTy, hbody⟩, rfl⟩ := Site.type?_loop hty
    exact (keeps_rounds (keeps_body h hbody (hall.part List.mem_cons_self)) fuel).bind fun _ _ =>
      keeps_pure fits_unit
  | forLoop pattern items b _ =>
    cases hrange : items.isRange with
    | false => exact keeps_forItems h hrange hty hall calls fuel
    | true =>
      cases items
      case range => exact keeps_forRange h hty hall calls fuel
      all_goals cases hrange
  | breakLoop hasValue _ => exact keeps_throw (Site.type?_breakLoop hty)
  | continueLoop _ => exact keeps_throw (Site.type?_continueLoop hty)
  | returnFn value _ =>
    obtain ⟨⟨own, hown⟩, hvalue, rfl⟩ := Site.type?_returnFn hty
    obtain ⟨hnone, hsome⟩ := hall.sharp (hS.aim_of_own hown) own hown
    cases value with
    | none =>
      refine keeps_throw ⟨own, hown, ?_⟩
      rcases hnone rfl with hunit | hunknown
      · rw [hunit]
        exact fits_unit
      · rw [hunknown]
        exact fits_unknown _
    | some e =>
      obtain ⟨found, hfound⟩ := hvalue e rfl
      have hreturned : S.Keeps p.inLoop p.scopes (own.result.Fits S.aim) (eval e) :=
        keeps_as h (hall.part List.mem_cons_self) hfound (fun _ => hsome e rfl)
          fun haim => nomatch (hS.aim_of_own hown).symm.trans haim
      exact hreturned.bind fun v hv => keeps_throw ⟨own, hown, hv⟩
  | array items _ =>
    obtain ⟨⟨types, htypes⟩, rfl⟩ := Site.type?_array hty
    refine (keeps_found h htypes fun e he => hall.part (List.mem_map_of_mem he)).bind fun vs _ => ?_
    exact keeps_pure (fits_ofValue (.list vs))
  | index target position _ =>
    obtain ⟨targetTy, positionTy, htarget, hposition, hint, rfl⟩ := Site.type?_index hty
    have haim : S.aim ≠ .safety := fun haim => hall.ne_unknown hty haim rfl
    refine (h.keeps p target targetTy htarget (hall.part List.mem_cons_self)).bind fun v _ => ?_
    have hpositionAll : S.AllFine (p.expr position) :=
      hall.part (List.mem_cons_of_mem _ List.mem_cons_self)
    exact (keeps_whole h hpositionAll hposition hint).bind fun n _ => keeps_ofOutcome (meets_unknown haim)
  | cast e t _ =>
    obtain ⟨source, hsource, st, u, hrun⟩ := Site.type?_cast hty
    have he : S.AllFine (p.expr e) := hall.part List.mem_cons_self
    exact (h.keeps p e source hsource he).bind fun v hv =>
      keeps_ofOutcome (meets_cast hrun hv (he.ne_unknown hsource))
  | range _ _ _ _ => exact absurd (Site.gives_of_type? hty) Check.not_gives_fail
  | other _ _ => exact absurd (Site.gives_of_type? hty) Check.not_gives_fail

end

/-- An evaluation keeps to the types of the check, for any number of steps. -/
theorem evaluates_eval (calls : HostCalls σ) (fuel : Nat) (hS : S.Proper) :
    S.Evaluates (Run.eval calls fuel) := by
  induction fuel generalizing S with
  | zero => exact ⟨fun _ _ _ _ _ => keeps_throw trivial, fun _ _ => Run.leaves_throw _⟩
  | succ fuel ih =>
    -- a function that is called is evaluated with less fuel, in its own setting
    have hinside (haim : S.aim = .truth) (n : String) (f : Function) (id : SnippetId) (hn : S.called n)
        (hready : S.base.callee? n = some (.ready f id)) :
        (S.inside f).Evaluates (Run.eval calls fuel) := by
      obtain ⟨rfl, -⟩ := hS.functions n f id hn hready
      refine ih ⟨fun haim' => ?_, fun own hown => ?_, hS.functions⟩
      · cases haim.symm.trans haim'
      · cases hown
        exact ⟨f, id, hready, rfl⟩
    exact ⟨fun p e ty hty hall => keeps_step hS hinside (ih hS) calls fuel hty hall,
      fun e he => Run.leaves_eval calls (fuel + 1) he⟩

end Setting

/-! ## Code at the outermost level -/

/-- Code outside of functions is checked among the names of the session. -/
def Store.outside (s : Store) : CheckContext := { globals := s.globals }

/-- An expression outside of functions. -/
def Site.outermost (e : Expr) : Site := ⟨false, [[]], .expr e⟩

theorem answer?_of_checkStrictly {α : Type} {s : Store} {x : CheckContext → Check α} {a : α}
    {refs : List String} (h : checkStrictly s x = .ok (a, refs)) :
    Check.answer? (x s.outside) [[]] = some a := by
  obtain ⟨⟨b, st⟩, hrun, h⟩ := exists_of_bind_ok h
  cases h
  unfold Check.answer?
  have hstart : (x s.outside).run { scopes := [[]] } = .ok (a, st) := hrun
  rw [hstart]

/-- What code outside of functions comes to that keeps to its types, and the store that it leaves. -/
theorem Setting.Keeps.topLevel {σ : Type} {S : Setting} {P : Value → Prop} {calls : HostCalls σ} {fuel : Nat}
    {e : Expr} (hkeeps : S.Keeps false [[]] P (Run.eval calls fuel e)) (hown : S.own = none)
    (hholds : S.base.Holds S.aim) {frame : Frame} {w w' : σ} {ending : Run.Ending} {t : Store}
    (h : Run.topLevel calls fuel frame e S.base w = (ending, t, w')) :
    S.base.SameBut t ∧ t.Holds S.aim ∧ (∀ v, ending = .value v → P v) ∧
      ∀ f, ending = .fault f → S.aim = .safety → ¬ f.cause.IsTypeError := by
  have hend := hkeeps { frames := [frame], store := S.base, world := w }
    ⟨.refl S.base, hholds, .cons (fun _ => .none) .nil⟩
  change Ends _ _ _ (Run.eval calls fuel e { frames := [frame], store := S.base, world := w }) at hend
  unfold Run.topLevel at h
  dsimp only [ExceptT.run, StateT.run] at h
  revert h hend
  generalize Run.eval calls fuel e { frames := [frame], store := S.base, world := w } = result
  intro h hend
  cases hend with
  | ok hv =>
    cases h
    refine ⟨hv.2.same, hv.2.holds, fun v hv' => ?_, fun f hf => (by cases hf)⟩
    cases hv'
    exact hv.1
  | @error exit m he hm =>
    cases exit with
    | fault f =>
      cases h
      refine ⟨hm.same, hm.holds, fun v hv => (by cases hv), fun f' hf => ?_⟩
      cases hf
      exact he
    | returned v =>
      obtain ⟨own, hown', -⟩ := he
      cases hown.symm.trans hown'
    | broke => cases he
    | continued => cases he
    | panicked message =>
      cases h
      exact ⟨hm.same, hm.holds, fun v hv => (by cases hv), fun f hf => (by cases hf)⟩
    | outOfFuel =>
      cases h
      exact ⟨hm.same, hm.holds, fun v hv => (by cases hv), fun f hf => (by cases hf)⟩

end Notebook.Guest

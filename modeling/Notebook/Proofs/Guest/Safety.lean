import Notebook.Syntax.Grammar
import Notebook.Proofs.Guest.Chronicle
import Notebook.Proofs.Guest.Soundness

/-!
# Typed code does not fail because of a type

Code in which all types are known, and which calls no function of the session, may fail in many ways, but
not because a value is of the wrong type (`typed_code_has_no_type_error`), unless it does one of the things
that the check overlooks.
-/

namespace Notebook.Guest
open Notebook.Syntax

/-- The type of every variable that a name stands for is the type of its value. -/
def Store.TypesTrue (s : Store) : Prop :=
  ∀ n r ty v, s.bound? n = some r → r.definition = .variable ty v → Ty.ofValue v = ty

/-- The type of the site is known, and no function of the session is called there. -/
def Site.Typed (c : CheckContext) (p : Site) : Prop := p.type? c ≠ some .unknown ∧ p.function? c = none

instance (c : CheckContext) (p : Site) : Decidable (p.Typed c) := inferInstanceAs (Decidable (_ ∧ _))

/-- Where variables have the types of their values, typed code that has been checked never fails because a
value is of the wrong type or cannot be used as it is, unless there is something in it that the check
overlooks. -/
theorem typed_code_has_no_type_error {σ : Type} (calls : HostCalls σ) (fuel : Nat) (frame : Frame)
    {s : Store} (hs : s.TypesTrue) (w : σ) {e : Expr} {ty : Ty} {refs : List String}
    (hcheck : checkStrictly s (fun c => Check.expr c false e) = .ok (ty, refs))
    (hsites : (Site.outermost e).All s.outside fun q => q.Typed s.outside ∧ ¬ q.Overlooked s.outside)
    {f : Fault} {t : Store} {w' : σ} (hfault : Run.topLevel calls fuel frame e s w = (.fault f, t, w')) :
    ¬ f.cause.IsTypeError := by
  -- the code is in no function, and no function of the session may be called
  let S : Setting := { aim := .safety, base := s }
  have hproper : S.Proper :=
    ⟨fun _ => ⟨rfl, fun _ h => h⟩, fun _ h => (by cases h), fun _ _ _ h => h.elim⟩
  have hholds : s.Holds .safety := fun n id r ty v hid hr hdefined hdefinition =>
    .inr (.inl (hs n r ty v (Store.bound?_eq_some_iff.2 ⟨id, hid, hr, hdefined⟩) hdefinition))
  have hall : S.AllFine (Site.outermost e) := by
    -- a call of a function of the session would have shown at its site
    refine hsites.mono fun q hq => ⟨fun n hn => ?_, hq.1.1, hq.2⟩
    cases hq.1.2.symm.trans hn
  have hkeeps := (Setting.evaluates_eval calls fuel hproper).keeps (Site.outermost e) e ty
    (answer?_of_checkStrictly hcheck) hall
  exact (hkeeps.topLevel rfl hholds hfault).2.2.2 f rfl rfl

/-- The expression that is the only statement of a text. -/
def onlyExpr? (text : String) : Option Expr :=
  match parseUnit text.toList with
  | .ok [.expr e _ _] => some e
  | _ => none

/-- The type of an expression and what it comes to, if it passes the check and a look at all its sites. -/
def tried? (s : Store) (P : Site → Bool) (text : String) : Option (Ty × Run.Ending) := do
  let e ← onlyExpr? text
  let (ty, _) ← (checkStrictly s fun c => Check.expr c false e).toOption
  if Site.all s.outside P 20 (Site.outermost e) then
    return (ty, (Run.topLevel errorCalls 20 ⟨"$1", 1⟩ e s ()).1)
  else none

theorem exists_of_tried? (s : Store) (P : Site → Bool) (text : String) (p : Ty → Run.Ending → Bool)
    (h : (tried? s P text).any (fun tried => p tried.1 tried.2) = true) :
    ∃ e ty refs ending t, onlyExpr? text = some e ∧
      checkStrictly s (fun c => Check.expr c false e) = .ok (ty, refs) ∧
      (Site.outermost e).All s.outside (fun q => P q = true) ∧
      Run.topLevel errorCalls 20 ⟨"$1", 1⟩ e s () = (ending, t, ()) ∧ p ty ending = true := by
  obtain ⟨⟨ty, ending⟩, htried, hp⟩ := (Option.any_eq_true _ _).1 h
  obtain ⟨e, he, htried⟩ := Option.bind_eq_some_iff.1 htried
  obtain ⟨⟨ty', refs⟩, hcheck, htried⟩ := Option.bind_eq_some_iff.1 htried
  dsimp only at htried
  split at htried
  · rename_i hsites
    cases htried
    refine ⟨e, ty, refs, _, _, he, ?_, Site.all_of_all hsites, rfl, hp⟩
    revert hcheck
    cases checkStrictly s fun c => Check.expr c false e with
    | error error => exact fun h => nomatch h
    | ok checked => exact fun h => congrArg _ (Option.some.inj h)
  · cases htried

/-- A session in which `n` is a number. -/
def oneNumber : Store := {
  records := [{
    kind := .declaration, source := "let n = 3;".toList, status := .valid, name := some "n"
    definition := .variable .int (.int 3), origin := ⟨1, 1⟩ }]
  bindings := [("n", 1)] }

theorem typesTrue_oneNumber : oneNumber.TypesTrue := by
  intro n r ty v hbound hdefinition
  obtain ⟨id, hid, hr, -⟩ := Store.bound?_eq_some_iff.1 hbound
  have hone : id = 1 := by
    simp only [Store.binding?, oneNumber, Table.get?] at hid
    split at hid
    · exact (Option.some.inj hid).symm
    · cases hid
  subst hone
  cases hr
  cases hdefinition
  rfl

theorem division_has_no_type_error :
    ∃ e refs f t,
      onlyExpr? "\x7b let k = n * 2; if k < 9 \x7b 10 / (n - 3) \x7d else \x7b k \x7d \x7d" = some e ∧
      checkStrictly oneNumber (fun c => Check.expr c false e) = .ok (.int, refs) ∧
      Run.topLevel errorCalls 20 ⟨"$1", 1⟩ e oneNumber () = (.fault f, t, ()) ∧ ¬ f.cause.IsTypeError := by
  obtain ⟨e, ty, refs, ending, t, he, hcheck, hsites, hrun, hp⟩ := exists_of_tried? oneNumber
    (fun q => decide (q.Typed oneNumber.outside ∧ ¬ q.Overlooked oneNumber.outside))
    "\x7b let k = n * 2; if k < 9 \x7b 10 / (n - 3) \x7d else \x7b k \x7d \x7d"
    (fun ty ending => match ending with
      | .fault _ => ty = .int
      | _ => false) (by decide +kernel)
  cases ending with
  | fault f =>
    obtain rfl : ty = .int := of_decide_eq_true hp
    refine ⟨e, refs, f, t, he, hcheck, hrun, ?_⟩
    exact typed_code_has_no_type_error errorCalls 20 _ typesTrue_oneNumber () hcheck
      (hsites.mono fun _ hq => of_decide_eq_true hq) hrun
  | _ => cases hp

/-- The argument of `contains` is not looked at by the check. -/
theorem typed_code_has_a_type_error :
    ∃ e refs f t, onlyExpr? "\"abc\".contains(5)" = some e ∧ ({} : Store).TypesTrue ∧
      checkStrictly {} (fun c => Check.expr c false e) = .ok (.bool, refs) ∧
      (Site.outermost e).All ({} : Store).outside (fun q => q.Typed ({} : Store).outside) ∧
      Run.topLevel errorCalls 20 ⟨"$1", 1⟩ e {} () = (.fault f, t, ()) ∧ f.cause.IsTypeError := by
  obtain ⟨e, ty, refs, ending, t, he, hcheck, hsites, hrun, hp⟩ := exists_of_tried? {}
    (fun q => decide (q.Typed ({} : Store).outside)) "\"abc\".contains(5)"
    (fun ty ending => match ending with
      | .fault f => ty = .bool && decide f.cause.IsTypeError
      | _ => false) (by decide +kernel)
  cases ending with
  | fault f =>
    obtain ⟨hty, hfault⟩ := Bool.and_eq_true_iff.1 hp
    obtain rfl : ty = .bool := of_decide_eq_true hty
    refine ⟨e, refs, f, t, he, ?_, hcheck, hsites.mono fun _ hq => of_decide_eq_true hq, hrun,
      of_decide_eq_true hfault⟩
    intro n r ty v hbound
    cases hbound
  | _ => cases hp

end Notebook.Guest

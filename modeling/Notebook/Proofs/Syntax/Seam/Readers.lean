import Notebook.Proofs.Syntax.Dividing
import Notebook.Proofs.Syntax.Eagerness
import Notebook.Proofs.Syntax.Seam.Looks

/-!
# Readers before a seam

A seam stands between tokens that end in a group in braces and the tokens that follow.  A reader that stops
before the seam, or at it, may have looked at what follows.  Here is when it reads the same if nothing follows:
always if it stops before (`Parse.Inside`), and for some readers also if it stops at the seam (`Parse.Local`).
-/

namespace Notebook.Syntax
open Notebook.Text

/-! ## Inputs before a seam -/

/-- The input with more tokens behind those that are left. -/
def Input.onto (now : Input) (back : List TokenTree) : Input := { now with rest := now.rest ++ back }

theorem Input.onto_inj {now now' : Input} {back : List TokenTree} (h : now.onto back = now'.onto back) :
    now = now' := by
  obtain ⟨rest, scope, printed, last, braced, leftover⟩ := now
  obtain ⟨rest', scope', printed', last', braced', leftover'⟩ := now'
  unfold onto at h
  rw [Input.mk.injEq] at h
  obtain ⟨hrest, hothers⟩ := h
  rw [Input.mk.injEq]
  exact ⟨List.append_cancel_right hrest, hothers⟩

theorem onto_rest (now : Input) (back : List TokenTree) : (now.onto back).rest = now.rest ++ back := rfl

/-- What is between two inputs before a seam is itself one. -/
theorem exists_onto {now middle after : Input} {back : List TokenTree} (h : middle.rest <:+ (now.onto back).rest)
    (h' : (after.onto back).rest <:+ middle.rest) :
    ∃ m : Input, middle = m.onto back ∧ m.rest <:+ now.rest ∧ after.rest <:+ m.rest := by
  obtain ⟨v, hv⟩ := h'
  obtain ⟨u, hu⟩ := h
  refine ⟨{ middle with rest := v ++ after.rest }, ?_, ⟨u, ?_⟩, ⟨v, rfl⟩⟩
  · unfold Input.onto at hv ⊢
    dsimp only at hv ⊢
    rw [List.append_assoc, hv]
  · rw [← hv] at hu
    unfold Input.onto at hu
    dsimp only at hu ⊢
    rw [← List.append_assoc, ← List.append_assoc] at hu
    rw [← List.append_assoc]
    exact List.append_cancel_right hu

theorem Shut.of_suffix {u v : List TokenTree} (h : Shut u) (hsuffix : v <:+ u) (hv : v ≠ []) : Shut v := by
  obtain ⟨w, rfl⟩ := hsuffix
  exact h.of_append hv

/-! ## Readers before a seam -/

section Readers

variable {α β σ : Type} {back : List TokenTree}

/-- The reader reads these tokens in the same way whatever follows them. -/
def Parse.SharpAt (p : Parse α) (now : Input) : Prop :=
  ∀ back, p.run (now.onto back) = (p.run now).map fun r => (r.1, r.2.onto back)

/-- The reader reads tokens that end in braces in the same way whatever follows them. -/
def Parse.Sharp (p : Parse α) : Prop := ∀ now, Shut now.rest → p.SharpAt now

/-- What the reader takes does not end in braces. -/
def Parse.Open (p : Parse α) : Prop := p.Takes fun _ u => ¬Shut u

/-- A reader that stops before a seam reads the same if nothing follows. -/
def Parse.Inside (p : Parse α) : Prop :=
  ∀ now after back a, Shut now.rest → after.rest ≠ [] → p.run (now.onto back) = .ok (a, after.onto back) →
    p.run now = .ok (a, after)

/-- A reader that stops before a seam or at it reads the same if nothing follows. -/
def Parse.Local (back : List TokenTree) (p : Parse α) : Prop :=
  ∀ now after a, Shut now.rest → p.run (now.onto back) = .ok (a, after.onto back) → p.run now = .ok (a, after)

/-- What a reader makes of a seam without taking a token, another one makes of nothing. -/
def Parse.Idle (back : List TokenTree) (p q : Parse α) : Prop :=
  ∀ now after a, now.rest = [] → after.rest = [] → p.run (now.onto back) = .ok (a, after.onto back) →
    q.run now = .ok (a, after)

theorem Parse.Sharp.local {p : Parse α} (hp : p.Sharp) : p.Local back := by
  intro now after a hnow hrun
  rw [hp now hnow back] at hrun
  cases hfirst : p.run now with
  | error e =>
    rw [hfirst] at hrun
    cases hrun
  | ok r =>
    obtain ⟨b, behind⟩ := r
    rw [hfirst] at hrun
    change Except.ok (b, behind.onto back) = _ at hrun
    rw [Except.ok.injEq, Prod.mk.injEq] at hrun
    rw [hrun.1, Input.onto_inj hrun.2]

theorem inside_of_local {p : Parse α} (hp : ∀ back, p.Local back) : p.Inside :=
  fun now after back a hnow _ hrun => hp back now after a hnow hrun

theorem Parse.Sharp.inside {p : Parse α} (hp : p.Sharp) : p.Inside := inside_of_local fun _ => hp.local

theorem run_pure_of_onto {a b : α} {now after : Input}
    (hrun : (pure b : Parse α).run (now.onto back) = .ok (a, after.onto back)) :
    (pure b : Parse α).run now = .ok (a, after) := by
  have h : Except.ok (b, now.onto back) = .ok (a, after.onto back) := hrun
  rw [Except.ok.injEq, Prod.mk.injEq] at h
  rw [h.1, ← Input.onto_inj h.2]
  rfl

/-- A reader that takes a token, whether that counts or not. -/
def Parse.Bites (p : Parse α) : Prop := p.Takes fun _ u => u ≠ []

theorem Parse.Eager.bites {p : Parse α} (hp : p.Eager) : p.Bites := hp.mono fun _ u hu hnil => by
  subst hnil
  exact absurd hu (lt_irrefl 0)

/-! ### Readers in a row -/

theorem inside_bind {p : Parse α} {f : α → Parse β} (hp : p.Inside) (hf : ∀ a, (f a).Inside) :
    (p >>= f).Inside := by
  intro now after back b hnow hafter hrun
  obtain ⟨a, middle, hfirst, hrun⟩ := Parse.run_bind hrun
  obtain ⟨m, rfl, hm, hrest⟩ := exists_onto (p.suffix hfirst) ((f a).suffix hrun)
  have hne : m.rest ≠ [] := fun hnil => hafter (List.suffix_nil.1 (hnil ▸ hrest))
  rw [Parse.run_bind_eq, hp now m back a hnow hne hfirst]
  exact hf a m after back b (hnow.of_suffix hm hne) hafter hrun

/-- A reader that stops at the seam is followed by one that makes nothing of it. -/
theorem local_bind {p : Parse α} {f : α → Parse β} (hp : p.Local back) (hf : ∀ a, (f a).Local back)
    (hidle : ∀ a, (f a).Idle back (f a)) : (p >>= f).Local back := by
  intro now after b hnow hrun
  obtain ⟨a, middle, hfirst, hrun⟩ := Parse.run_bind hrun
  obtain ⟨m, rfl, hm, hrest⟩ := exists_onto (p.suffix hfirst) ((f a).suffix hrun)
  rw [Parse.run_bind_eq, hp now m a hnow hfirst]
  by_cases hnil : m.rest = []
  · exact hidle a m after b hnil (List.suffix_nil.1 (hnil ▸ hrest)) hrun
  · exact hf a m after b (hnow.of_suffix hm hnil) hrun

/-- A reader does not stop at the seam if what it takes does not end in braces. -/
theorem Parse.Open.rest_ne_nil {p : Parse α} (hopen : p.Open) {now after : Input} {a : α} (hnow : Shut now.rest)
    (hrun : p.run (now.onto back) = .ok (a, after.onto back)) : after.rest ≠ [] := by
  intro hnil
  refine hopen (now.onto back) (after.onto back) a now.rest hrun ?_ hnow
  rw [onto_rest, onto_rest, hnil, List.nil_append]

theorem local_after {p : Parse α} {f : α → Parse β} (hp : p.Inside) (hopen : p.Open)
    (hf : ∀ a, (f a).Local back) : (p >>= f).Local back := by
  intro now after b hnow hrun
  obtain ⟨a, middle, hfirst, hrun⟩ := Parse.run_bind hrun
  obtain ⟨m, rfl, hm, -⟩ := exists_onto (p.suffix hfirst) ((f a).suffix hrun)
  have hne : m.rest ≠ [] := hopen.rest_ne_nil hnow hfirst
  rw [Parse.run_bind_eq, hp now m back a hnow hne hfirst]
  exact hf a m after b (hnow.of_suffix hm hne) hrun

/-- A reader does not stop at the seam if more is taken behind it. -/
theorem Parse.Bites.rest_ne_nil {p : Parse α} (hp : p.Bites) {now after : Input} {a : α} (hafter : after.rest = [])
    (hrun : p.run (now.onto back) = .ok (a, after.onto back)) : now.rest ≠ [] := by
  intro hnil
  refine hp (now.onto back) (after.onto back) a [] hrun ?_ rfl
  rw [onto_rest, onto_rest, hnil, hafter]
  rfl

theorem local_bind_of_bites {p : Parse α} {f : α → Parse β} (hp : p.Inside) (hf : ∀ a, (f a).Local back)
    (hbites : ∀ a, (f a).Bites) : (p >>= f).Local back := by
  intro now after b hnow hrun
  obtain ⟨a, middle, hfirst, hrun⟩ := Parse.run_bind hrun
  obtain ⟨m, rfl, hm, hrest⟩ := exists_onto (p.suffix hfirst) ((f a).suffix hrun)
  have hne : m.rest ≠ [] := fun hnil =>
    (hbites a).rest_ne_nil (List.suffix_nil.1 (hnil ▸ hrest)) hrun hnil
  rw [Parse.run_bind_eq, hp now m back a hnow hne hfirst]
  exact hf a m after b (hnow.of_suffix hm hne) hrun

theorem local_of_open {p : Parse α} (hp : p.Inside) (hopen : p.Open) : p.Local back :=
  fun now after a hnow hrun => hp now after back a hnow (hopen.rest_ne_nil hnow hrun) hrun

theorem idle_bind {p p' : Parse α} {f f' : α → Parse β} (hp : p.Idle back p') (hf : ∀ a, (f a).Idle back (f' a)) :
    (p >>= f).Idle back (p' >>= f') := by
  intro now after b hnow hafter hrun
  obtain ⟨a, middle, hfirst, hrun⟩ := Parse.run_bind hrun
  obtain ⟨m, rfl, hm, hrest⟩ := exists_onto (p.suffix hfirst) ((f a).suffix hrun)
  have hnil : m.rest = [] := List.suffix_nil.1 (hnow ▸ hm)
  rw [Parse.run_bind_eq, hp now m a hnow hnil hfirst]
  exact hf a m after b hnil hafter hrun

theorem idle_of_bites {p q : Parse α} (hp : p.Bites) : p.Idle back q :=
  fun _ _ _ hnow hafter hrun => absurd hnow (hp.rest_ne_nil hafter hrun)

theorem sharpAt_bind {p : Parse α} {f : α → Parse β} {now : Input} (hp : p.SharpAt now)
    (hf : ∀ a middle, p.run now = .ok (a, middle) → (f a).SharpAt middle) : (p >>= f).SharpAt now := by
  intro back
  rw [Parse.run_bind_eq, Parse.run_bind_eq, hp back]
  cases hfirst : p.run now with
  | error e => rfl
  | ok r => exact hf r.1 r.2 hfirst back

/-- What is left of tokens that end in braces does so too. -/
theorem Parse.Open.shut_rest {p : Parse α} (hopen : p.Open) {now after : Input} {a : α} (hnow : Shut now.rest)
    (hrun : p.run now = .ok (a, after)) : Shut after.rest := by
  obtain ⟨u, hu⟩ := p.suffix hrun
  refine hnow.of_suffix ⟨u, hu⟩ fun hnil => ?_
  rw [hnil, List.append_nil] at hu
  exact hopen now after a u hrun (by rw [hnil, List.append_nil, hu]) (hu ▸ hnow)

theorem sharp_bind {p : Parse α} {f : α → Parse β} (hp : p.Sharp) (hopen : p.Open) (hf : ∀ a, (f a).Sharp) :
    (p >>= f).Sharp :=
  fun now hnow => sharpAt_bind (hp now hnow) fun a middle hfirst => hf a middle (hopen.shut_rest hnow hfirst)

/-! ### Repetition -/

/-- A step that does not end a repetition takes a token. -/
def Parse.Moves (p : Parse (σ ⊕ α)) : Prop := p.Takes fun next u => next.isLeft = true → u ≠ []

theorem Parse.Moves.length_lt {p : Parse (σ ⊕ α)} (hp : p.Moves) {now after : Input} {s : σ}
    (hrun : p.run now = .ok (.inl s, after)) : after.rest.length < now.rest.length := by
  obtain ⟨u, hu⟩ := p.suffix hrun
  have hpos : 0 < u.length := List.length_pos_of_ne_nil (hp now after (.inl s) u hrun hu.symm rfl)
  rw [← hu, List.length_append]
  omega

/-- The number of steps that are allowed does not matter if it is large enough. -/
theorem iterateFor_eq {step : σ → Parse (σ ⊕ α)} (hstep : ∀ s, (step s).Moves) {n m : Nat} {s : σ} {now : Input}
    (hn : now.rest.length < n) (hm : now.rest.length < m) :
    (iterateFor step n s).run now = (iterateFor step m s).run now := by
  induction n generalizing m s now with
  | zero => exact absurd hn (Nat.not_lt_zero _)
  | succ n ih =>
    obtain _ | m := m
    · exact absurd hm (Nat.not_lt_zero _)
    rw [iterateFor, iterateFor, Parse.run_bind_eq, Parse.run_bind_eq]
    cases hrun : (step s).run now with
    | error e => rfl
    | ok r =>
      obtain ⟨next, after⟩ := r
      cases next with
      | inl s =>
        have hless := (hstep _).length_lt hrun
        exact ih (by omega) (by omega)
      | inr a => rfl

/-- A repetition goes on with what is left after its first step. -/
def iterateOn (step : σ → Parse (σ ⊕ α)) : σ ⊕ α → Parse α
  | .inl s => iterate s step
  | .inr a => pure a

theorem run_iterate_eq {step : σ → Parse (σ ⊕ α)} (hstep : ∀ s, (step s).Moves) (s : σ) (now : Input) :
    (iterate s step).run now = (step s >>= iterateOn step).run now := by
  change (iterateFor step (now.rest.length + 1) s).run now = _
  rw [iterateFor, Parse.run_bind_eq, Parse.run_bind_eq]
  cases hrun : (step s).run now with
  | error e => rfl
  | ok r =>
    obtain ⟨next, after⟩ := r
    cases next with
    | inl s =>
      have hless := (hstep _).length_lt hrun
      exact iterateFor_eq hstep hless (Nat.lt_succ_self _)
    | inr a => rfl

theorem sharp_iterate {step : σ → Parse (σ ⊕ α)} (hstep : ∀ s, (step s).Sharp) (hopen : ∀ s, (step s).Open)
    (hmoves : ∀ s, (step s).Moves) (s : σ) : (iterate s step).Sharp := by
  intro now hnow
  induction hn : now.rest.length using Nat.strong_induction_on generalizing s now with
  | h n ih =>
    subst hn
    intro back
    rw [run_iterate_eq hmoves, run_iterate_eq hmoves]
    refine sharpAt_bind (hstep s now hnow) (fun next middle hfirst => ?_) back
    cases next with
    | inl s => exact ih _ ((hmoves _).length_lt hfirst) s middle ((hopen _).shut_rest hnow hfirst) rfl
    | inr a => exact fun _ => rfl

theorem inside_iterate {step : σ → Parse (σ ⊕ α)} (hstep : ∀ s, (step s).Inside) (hmoves : ∀ s, (step s).Moves)
    (s : σ) : (iterate s step).Inside := by
  intro now after back a hnow hafter hrun
  induction hn : now.rest.length using Nat.strong_induction_on generalizing s now with
  | h n ih =>
    subst hn
    rw [run_iterate_eq hmoves] at hrun ⊢
    obtain ⟨next, middle, hfirst, hrun⟩ := Parse.run_bind hrun
    obtain ⟨m, rfl, hm, hrest⟩ := exists_onto ((step s).suffix hfirst) ((iterateOn step next).suffix hrun)
    have hne : m.rest ≠ [] := fun hnil => hafter (List.suffix_nil.1 (hnil ▸ hrest))
    have hstop := hstep s now m back next hnow hne hfirst
    rw [Parse.run_bind_eq, hstop]
    cases next with
    | inl s => exact ih _ ((hmoves _).length_lt hstop) s m (hnow.of_suffix hm hne) hrun rfl
    | inr b => exact run_pure_of_onto hrun

theorem idle_iterate {step : σ → Parse (σ ⊕ α)} (hidle : ∀ s, (step s).Idle back (step s))
    (hmoves : ∀ s, (step s).Moves) (s : σ) : (iterate s step).Idle back (iterate s step) := by
  intro now after a hnow hafter hrun
  rw [run_iterate_eq hmoves] at hrun ⊢
  obtain ⟨next, middle, hfirst, hrun⟩ := Parse.run_bind hrun
  obtain ⟨m, rfl, hm, hrest⟩ := exists_onto ((step s).suffix hfirst) ((iterateOn step next).suffix hrun)
  have hnil : m.rest = [] := List.suffix_nil.1 (hnow ▸ hm)
  have hstop := hidle s now m next hnow hnil hfirst
  rw [Parse.run_bind_eq, hstop]
  cases next with
  | inl s =>
    have hless := (hmoves _).length_lt hstop
    rw [hnow] at hless
    exact absurd hless (Nat.not_lt_zero _)
  | inr b => exact run_pure_of_onto hrun

theorem local_iterate {step : σ → Parse (σ ⊕ α)} (hstep : ∀ s, (step s).Local back)
    (hidle : ∀ s, (step s).Idle back (step s)) (hmoves : ∀ s, (step s).Moves) (s : σ) :
    (iterate s step).Local back := by
  intro now after a hnow hrun
  induction hn : now.rest.length using Nat.strong_induction_on generalizing s now with
  | h n ih =>
    subst hn
    rw [run_iterate_eq hmoves] at hrun ⊢
    obtain ⟨next, middle, hfirst, hrun⟩ := Parse.run_bind hrun
    obtain ⟨m, rfl, hm, hrest⟩ := exists_onto ((step s).suffix hfirst) ((iterateOn step next).suffix hrun)
    have hstop := hstep s now m next hnow hfirst
    rw [Parse.run_bind_eq, hstop]
    cases next with
    | inl s =>
      by_cases hnil : m.rest = []
      · -- the repetition comes to the seam, where it ends
        exact idle_iterate hidle hmoves s m after a hnil (List.suffix_nil.1 (hnil ▸ hrest)) hrun
      · exact ih _ ((hmoves _).length_lt hstop) s m (hnow.of_suffix hm hnil) hrun rfl
    | inr b => exact run_pure_of_onto hrun

end Readers

end Notebook.Syntax

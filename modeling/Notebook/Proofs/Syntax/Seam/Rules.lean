import Notebook.Proofs.Syntax.Seam.Tokens

/-!
# Rules for readers before a seam

A reader that is put together from others stops before a seam as they do.  If one of them stops at the seam, the
next one has to make of it what it makes of no tokens at all (`Parse.Idle`).
-/

namespace Notebook.Syntax
open Notebook.Text

variable {α β σ : Type} {back : List TokenTree}

/-! ## What takes a token -/

section Moves

attribute [grind .] Parse.Eager.bites

theorem bites_then {p : Parse α} {f : α → Parse β} (hp : p.Bites) : (p >>= f).Bites :=
  hp.bind fun _ _ hu => (Parse.Takes.any _).mono fun _ v _ => List.append_ne_nil_of_left_ne_nil hu v

theorem bites_after {p : Parse α} {f : α → Parse β} (hf : ∀ a, (f a).Bites) : (p >>= f).Bites :=
  (Parse.Takes.any p).bind fun a u _ => (hf a).mono fun _ _ hv => List.append_ne_nil_of_right_ne_nil u hv

theorem bites_ite {c : Prop} [Decidable c] {p q : Parse α} (hp : p.Bites) (hq : q.Bites) :
    (if c then p else q).Bites := .ite hp hq

theorem bites_of_signs {s : String} (hs : s.toList ≠ []) {u : List TokenTree} (hu : signs u = s.toList) : u ≠ [] := by
  rintro rfl
  exact hs hu.symm

theorem bites_punct? {s : String} (hs : s.toList ≠ []) {f : Bool → Parse α} (hf : (f false).Bites) :
    (punct? s >>= f).Bites := by
  refine (takes_punct? s).bind fun found u hu => ?_
  cases found with
  | true => exact (Parse.Takes.any _).mono fun _ v _ => List.append_ne_nil_of_left_ne_nil (bites_of_signs hs hu) v
  | false =>
    rw [show u = [] from hu]
    exact hf

theorem bites_perhaps {c : Prop} [Decidable c] {p : Parse Unit} {f : Unit → Parse α}
    (hf : (f ()).Bites) : (if c then p >>= f else f ()).Bites := bites_ite (bites_after fun _ => hf) hf

theorem ends_punct {s : String} (hs : s.toList ≠ []) : (punct s).Ends :=
  (open_punct s).ends ((takes_punct s).mono fun _ _ hu => bites_of_signs hs hu)

theorem ends_ite {c : Prop} [Decidable c] {p q : Parse α} (hp : p.Ends) (hq : q.Ends) :
    (if c then p else q).Ends := .ite hp hq

theorem Parse.Ends.perhaps {c : Prop} [Decidable c] {p : Parse Unit} {f : Unit → Parse α}
    (hf : (f ()).Ends) : (if c then p >>= f else f ()).Ends := ends_ite (.after fun _ => hf) hf

theorem ends_punct? {s : String} (hs : s.toList ≠ []) {f : Bool → Parse α} (hopen : (f true).Open)
    (hends : (f false).Ends) : (punct? s >>= f).Ends := by
  have htakes : (punct? s).Takes fun found u => (if found then signs u = s.toList else u = []) ∧ ¬Shut u :=
    fun now after found u hrun hrest =>
      ⟨takes_punct? s now after found u hrun hrest, open_punct? s now after found u hrun hrest⟩
  refine htakes.bind fun found u hu => ?_
  cases found with
  | true =>
    exact hopen.mono fun _ v hv =>
      ⟨List.append_ne_nil_of_left_ne_nil (bites_of_signs hs hu.1) v, not_shut_append hu.2 hv⟩
  | false =>
    obtain rfl : u = [] := hu.1
    exact hends

@[grind .]
theorem moves_of_bites {p : Parse (σ ⊕ α)} (hp : p.Bites) : p.Moves := hp.mono fun _ _ hu _ => hu

@[grind .]
theorem moves_then {p : Parse β} {f : β → Parse (σ ⊕ α)} (hp : p.Bites) : (p >>= f).Moves :=
  moves_of_bites (bites_then hp)

@[grind .]
theorem moves_after {p : Parse β} {f : β → Parse (σ ⊕ α)} (hf : ∀ b, (f b).Moves) : (p >>= f).Moves :=
  (Parse.Takes.any p).bind fun b u _ => (hf b).mono fun _ _ hv hnext =>
    List.append_ne_nil_of_right_ne_nil u (hv hnext)

@[grind .]
theorem moves_inr (a : α) : (pure (.inr a) : Parse (σ ⊕ α)).Moves := .pure fun h => absurd h Bool.false_ne_true

@[grind .]
theorem moves_wrong (what : String) : (wrong what : Parse (σ ⊕ α)).Moves := .failWith _

theorem moves_ite {c : Prop} [Decidable c] {p q : Parse (σ ⊕ α)} (hp : p.Moves) (hq : q.Moves) :
    (if c then p else q).Moves := .ite hp hq

theorem moves_punct? {s : String} (hs : s.toList ≠ []) {f : Bool → Parse (σ ⊕ α)} (hf : (f false).Moves) :
    (punct? s >>= f).Moves := by
  refine (takes_punct? s).bind fun found u hu => ?_
  cases found with
  | true => exact (Parse.Takes.any _).mono fun _ v _ _ => List.append_ne_nil_of_left_ne_nil (bites_of_signs hs hu) v
  | false =>
    rw [show u = [] from hu]
    exact hf

end Moves

/-! ## What stops before a seam -/

section Inside

attribute [grind .] Parse.Sharp.inside inside_bind inside_iterate

theorem inside_look {f : Input → Parse α} (hsame : ∀ now back, Shut now.rest → f (now.onto back) = f now)
    (hf : ∀ now, (f now).Inside) : (input >>= f).Inside := by
  intro now after back a hnow hafter hrun
  change (f (now.onto back)).run (now.onto back) = _ at hrun
  rw [hsame now back hnow] at hrun
  exact hf now now after back a hnow hafter hrun

@[grind .]
theorem inside_wrongAt_bind (s : Span) (what : String) (f : α → Parse β) :
    ((wrongAt s what : Parse α) >>= f).Inside := by
  intro now after back a _ _ hrun
  cases hrun

@[grind .]
theorem inside_failWith_bind (problem : Bool → Problem) (f : α → Parse β) :
    ((failWith problem : Parse α) >>= f).Inside := by
  intro now after back a _ _ hrun
  obtain ⟨_, _, hfail, -⟩ := Parse.run_bind hrun
  exact absurd hfail (not_run_failWith problem)

@[grind .]
theorem inside_expected_bind (things : List String) (f : α → Parse β) :
    ((expected things : Parse α) >>= f).Inside := inside_failWith_bind _ f

theorem inside_ite {c : Prop} [Decidable c] {p q : Parse α} (hp : p.Inside) (hq : q.Inside) :
    (if c then p else q).Inside := by
  split
  · exact hp
  · exact hq

/-- What may be read before, and what is read in any case. -/
theorem inside_perhaps {c : Prop} [Decidable c] {p : Parse Unit} {f : Unit → Parse α} (hp : p.Inside)
    (hf : (f ()).Inside) : (if c then p >>= f else f ()).Inside := inside_ite (inside_bind hp fun _ => hf) hf

@[grind .]
theorem inside_map {p : Parse α} {f : α → β} (hp : p.Inside) : (f <$> p).Inside :=
  inside_bind hp fun a => (sharp_pure (f a)).inside

@[grind .]
theorem inside_discard {p : Parse α} (hp : p.Inside) : (discard p).Inside := inside_map hp

@[grind .]
theorem inside_forIn {as : List α} {init : β} {f : α → β → Parse (ForInStep β)} (hf : ∀ a b, (f a b).Inside) :
    (forIn as init f : Parse β).Inside := by
  induction as generalizing init with
  | nil => exact (sharp_pure init).inside
  | cons a as ih =>
    rw [List.forIn_cons]
    refine inside_bind (hf a init) fun step => ?_
    cases step with
    | done b => exact (sharp_pure b).inside
    | yield b => exact ih

@[grind .]
theorem inside_captured {p : Parse α} (hp : p.Inside) : (captured p).Inside := by
  refine inside_look (fun _ _ _ => rfl) fun now => inside_bind (by grind) fun _ => inside_bind hp fun a => ?_
  exact inside_look (fun _ _ _ => rfl) fun now => by grind

@[grind .]
theorem inside_withText {p : Parse α} (hp : p.Inside) : (withText p).Inside := by
  unfold withText
  grind

@[grind .]
theorem inside_withSpan {p : Parse α} (hp : p.Inside) : (withSpan p).Inside := by
  unfold withSpan
  grind

theorem inside_many {condition : Parse Bool} {p : Parse α} (hcondition : condition.Inside) (hp : p.Inside)
    (hbites : p.Bites) : (many condition p).Inside := by
  refine inside_iterate (fun read => ?_) (fun read => ?_) []
  · exact inside_bind hcondition fun found => inside_ite (by grind) (by grind)
  · exact moves_after fun found => moves_ite (moves_then hbites) (moves_inr _)

theorem inside_separatedUntil {stop : Parse Bool} {separator : String} {p : Parse α} (hstop : stop.Inside)
    (hseparator : separator.toList ≠ []) (hp : p.Inside) : (separatedUntil stop separator p).Inside := by
  refine inside_iterate (fun read => ?_) (fun read => ?_) []
  · refine inside_bind hstop fun _ => inside_ite (by grind) (inside_bind hp fun a => ?_)
    exact inside_bind hstop fun _ => inside_ite (by grind) (by grind)
  · refine moves_after fun _ => moves_ite (moves_inr _) (moves_after fun a => moves_after fun _ => ?_)
    exact moves_ite (moves_inr _) (moves_then (ends_punct hseparator).bites)

theorem inside_chain {stop : Parse Bool} {separator : String} {p : Parse α} (hstop : stop.Inside)
    (hseparator : separator.toList ≠ []) (hp : p.Inside) : (chain stop separator p).Inside := by
  refine inside_iterate (fun read => ?_) (fun read => ?_) []
  · exact inside_bind hstop fun _ => inside_ite (by grind) (inside_bind hp fun a => by grind)
  · refine moves_after fun _ => moves_ite (moves_inr _) (moves_after fun a => ?_)
    exact moves_punct? hseparator (moves_inr _)

theorem inside_peek_peek {q r : List TokenTree → Bool} {f : Bool → Bool → Parse α} (hq : Sharp q)
    (hr : ∀ u back, Shut u → q u = true → r (u ++ back) = r u) (hf : ∀ found, f false found = f false false)
    (hinside : ∀ found found', (f found found').Inside) :
    (peek q >>= fun found => peek r >>= f found).Inside :=
  inside_look (f := fun now => f (q now.rest) (r now.rest)) (fun _ back hnow => guarded_append hq hr hf hnow back)
    fun _ => hinside _ _

/-- A look behind the first token counts only if that is no group in braces. -/
theorem inside_peekSecond {q r : List TokenTree → Bool} {f : Bool → Bool → Parse α} (hq : Sharp q) (hr : Sharp r)
    (hbrace : ∀ u, q u = true → isGroup .brace u = false) (hf : ∀ found, f false found = f false false)
    (hinside : ∀ found found', (f found found').Inside) :
    (peek q >>= fun found => peekSecond r >>= f found).Inside :=
  inside_peek_peek (r := second r) hq (fun u back hu hfound => second_append hr hu (hbrace u hfound) back) hf hinside

/-- A look behind two colons counts only if they are there. -/
theorem inside_peekThird {r : List TokenTree → Bool} {f : Bool → Bool → Parse α} (hr : Sharp r)
    (hf : ∀ found, f false found = f false false) (hinside : ∀ found found', (f found found').Inside) :
    (peek (isPunct "::") >>= fun found => peekThird r >>= f found).Inside :=
  inside_peek_peek (r := third r) (sharp_isPunct _) (fun _ back hu hfound =>
    third_append hr hu (isGroup_of_isPunct (by decide) hfound) (isGroup_skipOne_of_colons hfound) back) hf hinside

/-- A look behind punctuation counts only if that is there. -/
theorem inside_peek_then {s : String} {r : List TokenTree → Bool} {f : Bool → Parse α} {p : Parse α}
    (hs : s.toList ≠ []) (hr : Sharp r) (hf : ∀ found, (f found).Inside) (hp : p.Inside) :
    Parse.Inside (do if ← peek (isPunct s) then peekSecond r >>= f else p) := by
  have hsame : (do if ← peek (isPunct s) then peekSecond r >>= f else p) =
      peek (isPunct s) >>= fun found => peekSecond r >>= fun found' => if found then f found' else p := by
    refine Parse.ext fun now => ?_
    change (if isPunct s now.rest then peekSecond r >>= f else p).run now =
      (if isPunct s now.rest then f (second r now.rest) else p).run now
    split <;> rfl
  rw [hsame]
  exact inside_peekSecond (sharp_isPunct s) hr (fun _ => isGroup_of_isPunct hs) (fun _ => rfl)
    fun _ _ => inside_ite (hf _) hp

end Inside

/-! ## What stops at a seam -/

section Idle

variable {p q : Parse α}

theorem idle_of_sharpAt (h : ∀ now, p.SharpAt now) : p.Idle back p := by
  intro now after a _ _ hrun
  rw [h now back] at hrun
  cases hfirst : p.run now with
  | error e =>
    rw [hfirst] at hrun
    cases hrun
  | ok r =>
    rw [hfirst] at hrun
    change Except.ok (r.1, r.2.onto back) = _ at hrun
    rw [Except.ok.injEq, Prod.mk.injEq] at hrun
    rw [← hrun.1, ← Input.onto_inj hrun.2]

@[grind .]
theorem idle_pure (a : α) : (pure a : Parse α).Idle back (pure a) := idle_of_sharpAt fun _ _ => rfl

@[grind .]
theorem idle_spanFrom (start : Span) : (spanFrom start).Idle back (spanFrom start) := idle_of_sharpAt fun _ _ => rfl

@[grind .]
theorem idle_reprint (f : List Piece → List Piece) : (reprint f).Idle back (reprint f) :=
  idle_of_sharpAt fun _ _ => rfl

/-- Nothing is made of a seam where reading fails. -/
@[grind .]
theorem idle_wrongAt_bind (s : Span) (what : String) (f : α → Parse β) (q : Parse β) :
    ((wrongAt s what : Parse α) >>= f).Idle back q := by
  intro now after a _ _ hrun
  cases hrun

theorem idle_wrongAt (s : Span) (what : String) : (wrongAt s what : Parse α).Idle back q := by
  intro now after a _ _ hrun
  cases hrun

attribute [grind .] idle_bind

theorem idle_ite {c : Prop} [Decidable c] {p q p' q' : Parse α} (hp : p.Idle back p') (hq : q.Idle back q') :
    (if c then p else q).Idle back (if c then p' else q') := by
  split
  · exact hp
  · exact hq

/-- Whatever decides, the same is made of the seam. -/
theorem idle_ite_left {c : Prop} [Decidable c] {p' : Parse α} (hp : p.Idle back q) (hp' : p'.Idle back q) :
    (if c then p else p').Idle back q := by
  split
  · exact hp
  · exact hp'

theorem idle_look {f : Input → Parse α} (hsame : ∀ now, f (now.onto back) = f now)
    (hf : ∀ now, (f now).Idle back (f now)) : (input >>= f).Idle back (input >>= f) := by
  intro now after a hnow hafter hrun
  change (f (now.onto back)).run (now.onto back) = _ at hrun
  rw [hsame now] at hrun
  exact hf now now after a hnow hafter hrun

theorem idle_peek {r : List TokenTree → Bool} {f f' : Bool → Parse α}
    (hf : ∀ found, (f found).Idle back (f' (r []))) : (peek r >>= f).Idle back (peek r >>= f') := by
  intro now after a hnow hafter hrun
  change (f' (r now.rest)).run now = _
  rw [hnow]
  exact hf (r (now.onto back).rest) now after a hnow hafter hrun

/-- What is made of the seam is what is made of no tokens at all. -/
theorem idle_of_nil {r : Parse α} (hp : p.Idle back r) (hnil : ∀ now, now.rest = [] → q.run now = r.run now) :
    p.Idle back q := by
  intro now after a hnow hafter hrun
  rw [hnil now hnow]
  exact hp now after a hnow hafter hrun

theorem isPunct_nil {s : String} (hs : s.toList ≠ []) : isPunct s [] = false := by
  obtain ⟨c, cs, hcs⟩ := List.exists_cons_of_ne_nil hs
  rw [isPunct, hcs]
  rfl

/-- Nothing is found at the seam, where a token would be taken from behind it. -/
theorem idle_found {p : Parse Bool} (htakes : p.Takes fun found u => found = true → u ≠ [])
    (hfalse : ∀ now after, p.run now = .ok (false, after) → after = now)
    (hnil : ∀ now, now.rest = [] → p.run now = .ok (false, now)) {f f' : Bool → Parse α}
    (hf : (f false).Idle back (f' false)) : (p >>= f).Idle back (p >>= f') := by
  intro now after a hnow hafter hrun
  obtain ⟨found, middle, hfirst, hrun⟩ := Parse.run_bind hrun
  obtain ⟨m, rfl, hm, hrest⟩ := exists_onto (p.suffix hfirst) ((f found).suffix hrun)
  rw [Parse.run_bind_eq, hnil now hnow]
  cases found with
  | false =>
    rw [Input.onto_inj (hfalse _ _ hfirst)] at hrun
    exact hf now after a hnow hafter hrun
  | true =>
    have hnil' : m.rest = [] := List.suffix_nil.1 (hnow ▸ hm)
    refine absurd rfl (htakes (now.onto back) (m.onto back) true [] hfirst ?_ rfl)
    rw [onto_rest, onto_rest, hnow, hnil']
    rfl

theorem idle_punct? {s : String} (hs : s.toList ≠ []) {f f' : Bool → Parse α} (hf : (f false).Idle back (f' false)) :
    (punct? s >>= f).Idle back (punct? s >>= f') := by
  refine idle_found ((takes_punct? s).mono fun found u hu hfound => ?_) (fun now after hrun => ?_)
    (fun now hnow => ?_) hf
  · rw [if_pos hfound] at hu
    exact bites_of_signs hs hu
  · change (ite (isPunct s now.rest = true) _ _ : Parse Bool).run now = _ at hrun
    split at hrun
    · cases hrun
    · cases hrun
      rfl
  · change (ite (isPunct s now.rest = true) _ _ : Parse Bool).run now = _
    rw [hnow, isPunct_nil hs]
    rfl

theorem idle_word? (w : String) {f f' : Bool → Parse α} (hf : (f false).Idle back (f' false)) :
    (word? w >>= f).Idle back (word? w >>= f') := by
  refine idle_found ((takes_word? w).mono fun found u hu hfound => ?_) (fun now after hrun => ?_)
    (fun now hnow => ?_) hf
  · rw [if_pos hfound] at hu
    obtain ⟨s, rfl⟩ := hu
    exact List.cons_ne_nil _ _
  · change (ite (isWord w now.rest = true) _ _ : Parse Bool).run now = _ at hrun
    split at hrun
    · obtain ⟨_, _, -, hrun⟩ := Parse.run_bind hrun
      cases hrun
    · cases hrun
      rfl
  · change (ite (isWord w now.rest = true) _ _ : Parse Bool).run now = _
    rw [hnow]
    rfl

@[grind .]
theorem idle_discard_punct? {s : String} (hs : s.toList ≠ []) :
    (discard (punct? s)).Idle back (discard (punct? s)) := idle_punct? hs (idle_pure _)

end Idle

/-! ### Taking nothing -/

section Returns

/-- If the reader takes nothing, it gives this value and leaves its input as it is. -/
def Parse.Returns (p : Parse α) (a : α) : Prop :=
  ∀ now after b, p.run now = .ok (b, after) → after.rest = now.rest → b = a ∧ after = now

theorem idle_of_returns {p q : Parse α} {a : α} (hp : p.Returns a)
    (hnil : ∀ now, now.rest = [] → q.run now = (pure a : Parse α).run now) : p.Idle back q := by
  refine idle_of_nil (fun now after b hnow hafter hrun => ?_) hnil
  obtain ⟨rfl, hsame⟩ := hp _ _ _ hrun (by rw [onto_rest, onto_rest, hnow, hafter])
  rw [Input.onto_inj hsame]
  rfl

theorem returns_pure (a : α) : (pure a : Parse α).Returns a := by
  intro now after b hrun _
  cases hrun
  exact ⟨rfl, rfl⟩

theorem returns_of_bites {p : Parse α} (hp : p.Bites) (a : α) : p.Returns a :=
  fun now after b hrun hsame => absurd rfl (hp now after b [] hrun hsame.symm)

/-- The reader never gives a value. -/
def Parse.Fails (p : Parse α) : Prop := p.Takes fun _ _ => False

theorem moves_of_run {f : Input → Parse (σ ⊕ α)}
    (h : ∀ now after s, (f now).run now = .ok (.inl s, after) → after.rest ≠ now.rest) : (input >>= f).Moves := by
  intro now after next used hrun hrest hleft hnil
  cases next with
  | inl s => exact h now after s hrun (by rw [hrest, hnil, List.nil_append])
  | inr a => cases hleft

theorem returns_of_run {f : Input → Parse α} {a : α}
    (h : ∀ now after b, (f now).run now = .ok (b, after) → after.rest = now.rest → b = a ∧ after = now) :
    (input >>= f).Returns a := h

theorem returns_bind {p : Parse α} {f : α → Parse β} {a : α} {b : β} (hp : p.Returns a)
    (hf : (f a).Returns b) : (p >>= f).Returns b := by
  intro now after c hrun hsame
  obtain ⟨a', middle, hfirst, hlast⟩ := Parse.run_bind hrun
  have hmiddle : middle.rest = now.rest :=
    List.IsSuffix.eq_of_length_le (p.suffix hfirst) (hsame ▸ ((f a').suffix hlast).length_le)
  obtain ⟨rfl, rfl⟩ := hp now middle a' hfirst hmiddle
  exact hf _ _ _ hlast hsame

theorem fails_after {p : Parse α} {f : α → Parse β} (hf : ∀ a, (f a).Fails) : (p >>= f).Fails :=
  (Parse.Takes.any p).bind fun a _ _ => hf a

theorem fails_then {p : Parse α} {f : α → Parse β} (hp : p.Fails) : (p >>= f).Fails := hp.bind fun _ _ h => h.elim

theorem fails_wrong (what : String) : (wrong what : Parse α).Fails := .failWith _

theorem fails_expected (things : List String) : (expected things : Parse α).Fails := .failWith _

theorem fails_wrongAt (s : Span) (what : String) : (wrongAt s what : Parse α).Fails := .fail _

theorem fails_ite {c : Prop} [Decidable c] {p q : Parse α} (hp : p.Fails) (hq : q.Fails) :
    (if c then p else q).Fails := .ite hp hq

theorem Parse.Fails.bites {p : Parse α} (hp : p.Fails) : p.Bites := hp.mono fun _ _ h => h.elim

theorem Parse.Fails.ends {p : Parse α} (hp : p.Fails) : p.Ends := hp.mono fun _ _ h => h.elim

theorem Parse.Fails.local {p : Parse α} (hp : p.Fails) : p.Local back := by
  intro now after a _ hrun
  obtain ⟨u, hu⟩ := p.suffix hrun
  exact (hp _ _ _ u hrun hu.symm).elim

/-- The reader leaves its input as it is. -/
def Parse.Looks (p : Parse α) : Prop := ∀ now after a, p.run now = .ok (a, after) → after = now

theorem looks_input : input.Looks := fun now after a hrun => by
  cases hrun
  rfl

@[grind .]
theorem looks_pure (a : α) : (pure a : Parse α).Looks := fun now after a hrun => by
  cases hrun
  rfl

@[grind .]
theorem looks_bind {p : Parse α} {f : α → Parse β} (hp : p.Looks) (hf : ∀ a, (f a).Looks) : (p >>= f).Looks := by
  intro now after b hrun
  obtain ⟨a, middle, hfirst, hrun⟩ := Parse.run_bind hrun
  rw [hf a middle after b hrun, hp now middle a hfirst]

@[grind .]
theorem looks_peek (r : List TokenTree → Bool) : (peek r).Looks := looks_bind looks_input fun _ => looks_pure _

@[grind .]
theorem looks_peekThird (r : List TokenTree → Bool) : (peekThird r).Looks :=
  looks_bind looks_input fun _ => looks_pure _

/-- What is seen does not matter. -/
theorem returns_after {p : Parse β} {f : β → Parse α} {a : α} (hp : p.Looks) (hf : ∀ b, (f b).Returns a) :
    (p >>= f).Returns a := by
  intro now after b hrun hsame
  obtain ⟨c, middle, hfirst, hrun⟩ := Parse.run_bind hrun
  rw [hp _ _ _ hfirst] at hrun
  exact hf c now after b hrun hsame

theorem returns_ite {c : Prop} [Decidable c] {p q : Parse α} {a : α} (hp : p.Returns a) (hq : q.Returns a) :
    (if c then p else q).Returns a := by
  split
  · exact hp
  · exact hq

/-- A repetition that takes nothing ends with its first step. -/
theorem returns_iterate {step : σ → Parse (σ ⊕ α)} {s : σ} {a : α} (hstep : (step s).Returns (.inr a))
    (hmoves : ∀ s, (step s).Moves) : (iterate s step).Returns a := by
  intro now after b hrun hsame
  rw [run_iterate_eq hmoves] at hrun
  obtain ⟨next, middle, hfirst, hlast⟩ := Parse.run_bind hrun
  have hmiddle : middle.rest = now.rest :=
    List.IsSuffix.eq_of_length_le ((step s).suffix hfirst) (hsame ▸ ((iterateOn step next).suffix hlast).length_le)
  obtain ⟨hnext, hnow⟩ := hstep now middle next hfirst hmiddle
  rw [hnext, hnow] at hlast
  cases hlast
  exact ⟨rfl, rfl⟩

theorem run_iterate_nil {step : σ → Parse (σ ⊕ α)} {s : σ} {a : α} {now : Input}
    (hstep : (step s).run now = (pure (.inr a) : Parse (σ ⊕ α)).run now) :
    (iterate s step).run now = (pure a : Parse α).run now := by
  change (iterateFor step (now.rest.length + 1) s).run now = _
  rw [iterateFor, Parse.run_bind_eq, hstep]
  rfl

end Returns

section Local

attribute [grind .] Parse.Sharp.local

theorem local_look {f : Input → Parse α} (hsame : ∀ now back, Shut now.rest → f (now.onto back) = f now)
    (hf : ∀ now, (f now).Local back) : (input >>= f).Local back := by
  intro now after a hnow hrun
  change (f (now.onto back)).run (now.onto back) = _ at hrun
  rw [hsame now back hnow] at hrun
  exact hf now now after a hnow hrun

theorem local_of_run {f : Input → Parse α} (h : ∀ now after a, Shut now.rest →
    (f (now.onto back)).run (now.onto back) = .ok (a, after.onto back) → (f now).run now = .ok (a, after)) :
    (input >>= f).Local back := h

/-- A look behind the first token, where a group in braces comes to nothing. -/
theorem local_look_behind {f : Input → Parse α}
    (hfails : ∀ now, isGroup .brace now.rest = true → ∃ e, (f now).run now = .error e)
    (hsame : ∀ now back, Shut now.rest → isGroup .brace now.rest = false → f (now.onto back) = f now)
    (hf : ∀ now, (f now).Local back) : (input >>= f).Local back := by
  refine local_of_run fun now after a hnow hrun => ?_
  cases hbrace : isGroup .brace now.rest with
  | true =>
    obtain ⟨e, he⟩ := hfails (now.onto back) (by rw [onto_rest, isGroup_append hnow, hbrace])
    exact nomatch he.symm.trans hrun
  | false =>
    rw [hsame now back hnow hbrace] at hrun
    exact hf now now after a hnow hrun

/-- What is the same with tokens behind and without them, and does not end in braces. -/
theorem local_after_same {p : Parse α} {f : α → Parse β}
    (hp : ∀ now, Shut now.rest → p.run (now.onto back) = (p.run now).map fun r => (r.1, r.2.onto back))
    (hopen : p.Open) (hf : ∀ a, (f a).Local back) : (p >>= f).Local back := by
  intro now after b hnow hrun
  rw [Parse.run_bind_eq, hp now hnow] at hrun
  rw [Parse.run_bind_eq]
  cases hfirst : p.run now with
  | error e =>
    rw [hfirst] at hrun
    cases hrun
  | ok r =>
    rw [hfirst] at hrun
    exact hf r.1 r.2 after b (hopen.shut_rest hnow hfirst) hrun

theorem local_ite {c : Prop} [Decidable c] {p q : Parse α} (hp : p.Local back) (hq : q.Local back) :
    (if c then p else q).Local back := by
  split
  · exact hp
  · exact hq

theorem local_perhaps {c : Prop} [Decidable c] {p : Parse Unit} {f : Unit → Parse α} (hp : p.Inside)
    (hbites : (f ()).Bites) (hf : (f ()).Local back) : (if c then p >>= f else f ()).Local back :=
  local_ite (local_bind_of_bites hp (fun _ => hf) fun _ => hbites) hf

@[grind .]
theorem local_wrongAt_bind (s : Span) (what : String) (f : α → Parse β) :
    ((wrongAt s what : Parse α) >>= f).Local back := by
  intro now after a _ hrun
  cases hrun

@[grind .]
theorem local_expected_bind (things : List String) (f : α → Parse β) :
    ((expected things : Parse α) >>= f).Local back := by
  intro now after a _ hrun
  obtain ⟨_, _, hfail, -⟩ := Parse.run_bind hrun
  exact absurd hfail (not_run_failWith _)

/-- The value is made of what is read. -/
theorem local_bind_pure {p : Parse α} {f : α → β} (hp : p.Local back) : (p >>= fun a => pure (f a)).Local back :=
  local_bind hp (fun a => (sharp_pure (f a)).local) fun a => idle_pure (f a)

@[grind .]
theorem local_map {p : Parse α} {f : α → β} (hp : p.Local back) : (f <$> p).Local back := local_bind_pure hp

@[grind .]
theorem local_discard {p : Parse α} (hp : p.Local back) : (discard p).Local back := local_bind_pure hp

/-- The value is made of what is read, and of where all of it stands. -/
theorem local_spanned {p : Parse α} {f : α → Span → β} {start : Span} (hp : p.Local back) :
    (p >>= fun a => spanFrom start >>= fun s => pure (f a s)).Local back :=
  local_bind hp (fun _ => local_bind_pure (sharp_spanFrom start).local)
    fun _ => idle_bind (idle_spanFrom start) fun _ => idle_pure _

theorem local_withSpan {p : Parse α} (hp : p.Local back) : (withSpan p).Local back :=
  local_after sharp_here.inside open_here fun _ => local_spanned hp

theorem local_withText {p : Parse α} (hp : p.Local back) : (withText p).Local back := by
  have hcaptured : (captured p).Local back := by
    refine local_look (fun _ _ _ => rfl) fun now => local_after (sharp_reprint _).inside (open_reprint _) fun _ => ?_
    refine local_bind hp (fun _ => ?_) fun _ => ?_
    · exact local_look (fun _ _ _ => rfl) fun now =>
        local_after (sharp_reprint _).inside (open_reprint _) fun _ => (sharp_pure _).local
    · exact idle_look (fun _ => rfl) fun now => idle_bind (idle_reprint _) fun _ => idle_pure _
  exact local_bind hcaptured (fun _ => local_bind_pure (sharp_reprint _).local)
    fun _ => idle_bind (idle_reprint _) fun _ => idle_pure _

end Local

end Notebook.Syntax

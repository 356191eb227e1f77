import Notebook.Proofs.Syntax.Imports
import Notebook.Proofs.Syntax.Levels
import Notebook.Proofs.Syntax.Names

/-!
# What readers take

A reader takes tokens from the front of its input (`Parse.Takes` relates them to what it gives), and what
readers in a row take stands in a row.  Readers of single tokens and of groups take no separator
(`Parse.Neatly`), and neither do readers that are put together from them.
-/

namespace Notebook.Syntax
open Notebook.Text

/-! ## Readers in general -/

theorem not_run_failWith {α : Type} (problem : Bool → Problem) {now after : Input} {a : α} :
    (failWith problem : Parse α).run now ≠ .ok (a, after) := by
  intro hrun
  change (Parse.bind input _).run now = _ at hrun
  simp only [Parse.bind, input] at hrun
  split at hrun <;> cases hrun

/-- Whenever the reader gives a value, this holds of the value and the tokens that have been taken. -/
def Parse.Takes {α : Type} (p : Parse α) (Φ : α → List TokenTree → Prop) : Prop :=
  ∀ now after a used, p.run now = .ok (a, after) → now.rest = used ++ after.rest → Φ a used

namespace Parse.Takes

variable {α β σ : Type} {Φ Ψ : α → List TokenTree → Prop} {Ω : β → List TokenTree → Prop}

theorem any (p : Parse α) : p.Takes fun _ _ => True := fun _ _ _ _ _ _ => trivial

theorem mono {p : Parse α} (hp : p.Takes Φ) (h : ∀ a u, Φ a u → Ψ a u) : p.Takes Ψ :=
  fun now after a used hrun hrest => h a used (hp now after a used hrun hrest)

theorem bind {p : Parse α} {f : α → Parse β} (hp : p.Takes Φ)
    (hf : ∀ a u, Φ a u → (f a).Takes fun b v => Ω b (u ++ v)) : (p >>= f).Takes Ω := by
  intro now after b used hrun hrest
  obtain ⟨a, middle, hfirst, hrun⟩ := Parse.run_bind hrun
  obtain ⟨u, hu⟩ := p.suffix hfirst
  obtain ⟨v, hv⟩ := (f a).suffix hrun
  have hused : used = u ++ v := by
    rw [← hu, ← hv, ← List.append_assoc] at hrest
    exact (List.append_cancel_right hrest).symm
  rw [hused]
  exact hf a u (hp now middle a u hfirst hu.symm) middle after b v hrun hv.symm

/-- What comes first does not matter for the value. -/
theorem after {p : Parse α} {f : α → Parse β} {Q : β → Prop} (hf : ∀ a, (f a).Takes fun b _ => Q b) :
    (p >>= f).Takes fun b _ => Q b :=
  (any p).bind fun a _ _ => hf a

theorem pure {a : α} (h : Φ a []) : (Pure.pure a : Parse α).Takes Φ := by
  intro now after b used hrun hrest
  cases hrun
  rw [List.self_eq_append_left.1 hrest]
  exact h

theorem pure_bind {a : α} {f : α → Parse β} (hf : (f a).Takes Ω) : ((Pure.pure a : Parse α) >>= f).Takes Ω := hf

theorem ite {c : Prop} [Decidable c] {p q : Parse α} (hp : p.Takes Φ) (hq : q.Takes Φ) :
    (if c then p else q).Takes Φ := by
  split
  · exact hp
  · exact hq

theorem fail (e : ParseError) : (Parse.fail e : Parse α).Takes Φ := by
  intro now after a used hrun
  cases hrun

/-- Nothing is read behind an error. -/
theorem fail_bind (e : ParseError) (f : α → Parse β) : (Parse.fail e >>= f).Takes Ω :=
  bind (fail (Φ := fun _ _ => False) e) fun _ _ h => h.elim

theorem failWith (problem : Bool → Problem) : (failWith problem : Parse α).Takes Φ := by
  intro now after a used hrun
  exact absurd hrun (not_run_failWith problem)

theorem discard {p : Parse α} (hp : p.Takes Φ) : (discard p).Takes fun _ u => ∃ a, Φ a u :=
  hp.bind fun a u hu => .pure ⟨a, by rwa [List.append_nil]⟩

/-- The value is made of what is read last. -/
theorem last {p : Parse α} {f : α → β} (hp : p.Takes fun a u => Ω (f a) u) :
    (p >>= fun a => Pure.pure (f a)).Takes Ω :=
  hp.bind fun a u hu => .pure (by rwa [List.append_nil])

theorem map {p : Parse α} {f : α → β} (hp : p.Takes fun a u => Ω (f a) u) : (f <$> p).Takes Ω := hp.last

theorem failWith_bind (problem : Bool → Problem) (f : α → Parse β) :
    ((Syntax.failWith problem : Parse α) >>= f).Takes Ω :=
  bind (failWith (Φ := fun _ _ => False) problem) fun _ _ h => h.elim

/-- What is remembered of the tokens before does not matter for what is taken. -/
theorem afresh {p : Parse α} (hp : p.Takes Φ) : (afresh p).Takes Φ := by
  intro now after a used hrun hrest
  obtain ⟨behind, hfresh, rfl⟩ := run_afresh_eq_ok hrun
  exact hp { rest := now.rest, scope := now.scope } behind a used hfresh hrest

/-- What holds of every state that a repetition goes through, and of what it ends with, together with all
that has been taken up to there. -/
theorem iterate {J : σ → List TokenTree → Prop} {s : σ} {step : σ → Parse (σ ⊕ α)} (hs : J s [])
    (hstep : ∀ s u, J s u → (step s).Takes fun next v =>
      match next with
      | .inl s => J s (u ++ v)
      | .inr a => Φ a (u ++ v)) :
    (iterate s step).Takes Φ := by
  have hfor (n : Nat) (s : σ) (u : List TokenTree) (hs : J s u) :
      (iterateFor step n s).Takes fun a v => Φ a (u ++ v) := by
    induction n generalizing s u with
    | zero => exact failWith _
    | succ n ih =>
      refine bind (hstep s u hs) fun next v hnext => ?_
      cases next with
      | inl s => exact (ih s (u ++ v) hnext).mono fun a w h => by rwa [List.append_assoc] at h
      | inr a => exact pure (by rwa [List.append_nil])
  intro now after a used hrun
  exact hfor (now.rest.length + 1) s [] hs now after a used hrun

end Parse.Takes

/-! ## Readers that take nothing -/

/-- The reader leaves all tokens. -/
def Parse.Still {α : Type} (p : Parse α) : Prop := p.Takes fun _ u => u = []

section Still

variable {α β : Type} {Φ : β → List TokenTree → Prop}

/-- What takes nothing does not matter. -/
theorem Parse.Takes.skip {p : Parse α} {f : α → Parse β} (hp : p.Still) (hf : ∀ a, (f a).Takes Φ) :
    (p >>= f).Takes Φ := by
  refine Parse.Takes.bind hp fun a u hu => ?_
  subst hu
  exact hf a

theorem still_of_run {p : Parse α} (h : ∀ now after a, p.run now = .ok (a, after) → after.rest = now.rest) :
    p.Still := by
  intro now after a used hrun hrest
  rw [← h now after a hrun] at hrest
  exact List.self_eq_append_left.1 hrest

theorem still_input : input.Still := by
  refine still_of_run fun now after a hrun => ?_
  cases hrun
  rfl

theorem still_peek (p : List TokenTree → Bool) : (peek p).Still :=
  .skip still_input fun _ => .pure rfl

theorem still_peekSecond (p : List TokenTree → Bool) : (peekSecond p).Still :=
  .skip still_input fun _ => .pure rfl

theorem still_peekThird (p : List TokenTree → Bool) : (peekThird p).Still :=
  .skip still_input fun _ => .pure rfl

theorem still_atEnd : atEnd.Still := .skip still_input fun _ => .pure rfl

theorem still_here : here.Still := .skip still_input fun _ => .pure rfl

theorem still_spanFrom (start : Span) : (spanFrom start).Still := .skip still_input fun _ => .pure rfl

/-- The value is made of what is read last, and of where all of it stands. -/
theorem Parse.Takes.spanned {p : Parse α} {f : α → Span → β} {start : Span}
    (hp : p.Takes fun a u => ∀ s, Φ (f a s) u) :
    (p >>= fun a => spanFrom start >>= fun s => Pure.pure (f a s)).Takes Φ :=
  hp.bind fun a u hu => .skip (still_spanFrom start) fun s => .pure (by rw [List.append_nil]; exact hu s)

theorem still_reprint (f : List Piece → List Piece) : (reprint f).Still := by
  refine still_of_run fun now after a hrun => ?_
  cases hrun
  rfl

theorem still_ahead? (p : Parse α) : (ahead? p).Still := by
  refine still_of_run fun now after a hrun => ?_
  unfold ahead? at hrun
  dsimp only at hrun
  split at hrun <;> cases hrun <;> rfl

theorem takes_withSpan {Ψ : α → List TokenTree → Prop} {p : Parse α} (hp : p.Takes Ψ) :
    (withSpan p).Takes fun a u => Ψ a.1 u := by
  exact .skip still_here fun start => .spanned (hp.mono fun a u hu s => hu)

theorem takes_withText {Ψ : α → List TokenTree → Prop} {p : Parse α} (hp : p.Takes Ψ) :
    (withText p).Takes fun a u => Ψ a.1 u := by
  have hcaptured : (captured p).Takes fun a u => Ψ a.1 u := by
    refine .skip still_input fun now => .skip (still_reprint _) fun _ => hp.bind fun a u hu => ?_
    refine .skip still_input fun now => .skip (still_reprint _) fun _ => .pure ?_
    rwa [List.append_nil]
  refine hcaptured.bind fun a u hu => .skip (still_reprint _) fun _ => .pure ?_
  rwa [List.append_nil]

end Still

/-! ## Single tokens -/

/-- What depends on the tokens that are left. -/
theorem Parse.Takes.look {α : Type} {Φ : α → List TokenTree → Prop} {f : Input → Parse α}
    (h : ∀ now after a used, (f now).run now = .ok (a, after) → now.rest = used ++ after.rest → Φ a used) :
    (input >>= f).Takes Φ := h

/-- What depends on a look at the tokens that are left. -/
theorem Parse.Takes.peek {α : Type} {Φ : α → List TokenTree → Prop} {q : List TokenTree → Bool}
    {f : Bool → Parse α}
    (h : ∀ now after a used, (f (q now.rest)).run now = .ok (a, after) → now.rest = used ++ after.rest →
      Φ a used) :
    (peek q >>= f).Takes Φ := h

theorem used_eq_take {rest used : List TokenTree} {n : Nat} (h : rest = used ++ rest.drop n) :
    used = rest.take n :=
  List.append_cancel_right (h.symm.trans (List.take_append_drop n rest).symm)

theorem signs_of_isPunctChars {cs : List Char} {rest : List TokenTree} (h : isPunctChars cs rest = true) :
    signs (rest.take cs.length) = cs := by
  induction cs generalizing rest with
  | nil => rfl
  | cons c cs ih =>
    unfold isPunctChars at h
    split at h
    · cases ‹c :: cs = []›
    · rename_i d joint s rest heq hcs
      cases hcs
      simp only [Bool.and_eq_true, Bool.or_eq_true, decide_eq_true_eq, List.isEmpty_iff] at h
      obtain ⟨⟨rfl, -⟩, hcs | ⟨-, h⟩⟩ := h
      · rw [hcs]
        rfl
      · exact congrArg (_ :: ·) (ih h)
    · cases h

theorem takes_punct? (s : String) :
    (punct? s).Takes fun found u => if found then signs u = s.toList else u = [] := by
  refine .look fun now after found used hrun hrest => ?_
  split at hrun
  · rename_i hpunct
    cases hrun
    rw [used_eq_take (n := s.toList.length) hrest, if_pos rfl]
    exact signs_of_isPunctChars hpunct
  · cases hrun
    rw [List.self_eq_append_left.1 hrest]
    rfl

/-- What is read behind punctuation, and what is read without it. -/
theorem Parse.Takes.ifPunct {α : Type} {Φ : α → List TokenTree → Prop} {s : String} {p q : Parse α}
    (hp : ∀ u, signs u = s.toList → p.Takes fun a v => Φ a (u ++ v)) (hq : q.Takes Φ) :
    (do if ← punct? s then p else q).Takes Φ := by
  refine (takes_punct? s).bind fun found u hu => ?_
  cases found with
  | true => exact hp u hu
  | false =>
    rw [show u = [] from hu]
    exact hq

/-- Punctuation that is read stands there. -/
theorem takes_punct (s : String) : (punct s).Takes fun _ u => signs u = s.toList := by
  refine (takes_punct? s).bind fun found u hu => ?_
  split
  · rename_i hfound
    rw [hfound] at hu
    exact .pure (by rwa [List.append_nil])
  · exact .failWith _

theorem takes_anyWord : anyWord.Takes fun i u => ∃ s, u = [.word i.name s] := by
  refine .look fun now after i used hrun hrest => ?_
  split at hrun
  · rename_i w s rest heq
    cases hrun
    rw [used_eq_take (n := 1) hrest, heq]
    exact ⟨s, rfl⟩
  · exact absurd hrun (not_run_failWith _)

theorem takes_ident : ident.Takes fun i u => ∃ s, u = [.word i.name s] := by
  refine .skip still_input fun now => ?_
  split
  · exact .ite (.failWith _) takes_anyWord
  · exact .failWith _

theorem takes_word? (w : String) :
    (word? w).Takes fun found u => if found then ∃ s, u = [.word w s] else u = [] := by
  refine .peek fun now after found used hrun hrest => ?_
  split at hrun
  · rename_i hword
    obtain ⟨_, middle, hfirst, hrun⟩ := Parse.run_bind hrun
    cases hrun
    obtain ⟨i, s, rfl⟩ := takes_anyWord.discard now after () used hfirst hrest
    -- the word that has been seen is the one that is taken
    rw [hrest] at hword
    obtain rfl : i.name = w := eq_of_beq hword
    exact ⟨s, rfl⟩
  · cases hrun
    rw [List.self_eq_append_left.1 hrest]
    rfl

/-- What is read behind a word, and what is read without it. -/
theorem Parse.Takes.ifWord {α : Type} {Φ : α → List TokenTree → Prop} {w : String} {p q : Parse α}
    (hp : ∀ s, p.Takes fun a v => Φ a (.word w s :: v)) (hq : q.Takes Φ) :
    (do if ← word? w then p else q).Takes Φ := by
  refine (takes_word? w).bind fun found u hu => ?_
  cases found with
  | true =>
    obtain ⟨s, rfl⟩ := hu
    exact hp s
  | false =>
    rw [show u = [] from hu]
    exact hq

theorem takes_word (w : String) : (word w).Takes fun _ u => ∃ s, u = [.word w s] := by
  refine (takes_word? w).bind fun found u hu => ?_
  split
  · rename_i hfound
    rw [hfound, if_pos rfl] at hu
    exact .pure (by rwa [List.append_nil])
  · exact .failWith _

theorem takes_anyGroup : anyGroup.Takes fun g u => ∃ s, u = [.group g.1 g.2.1 s] := by
  refine .look fun now after g used hrun hrest => ?_
  split at hrun
  · rename_i d body s rest heq
    cases hrun
    rw [used_eq_take (n := 1) hrest, heq]
    exact ⟨s, rfl⟩
  · exact absurd hrun (not_run_failWith _)

theorem takes_lifetime : lifetime.Takes fun _ u => signs u = ['\x27'] := by
  refine .look fun now after s used hrun hrest => ?_
  split at hrun
  · rename_i s w t rest heq
    cases hrun
    rw [used_eq_take (n := 2) hrest, heq]
    rfl
  · exact absurd hrun (not_run_failWith _)

theorem takes_literal : literal.Takes fun _ u => signs u = [] ∨ signs u = ['-'] := by
  refine .look fun now after value used hrun hrest => ?_
  split at hrun
  · rename_i cs s rest heq
    cases hrun
    rw [used_eq_take (n := 1) hrest, heq]
    exact .inl rfl
  · rename_i w s rest heq
    split at hrun
    · cases hrun
      rw [used_eq_take (n := 1) hrest, heq]
      exact .inl rfl
    · exact absurd hrun (not_run_failWith _)
  · rename_i joint s cs t rest heq
    split at hrun
    · cases hrun
      rw [used_eq_take (n := 2) hrest, heq]
      exact .inr rfl
    · exact absurd hrun (not_run_failWith _)
  · exact absurd hrun (not_run_failWith _)

/-- A group is taken as a whole, and what is read inside is the front of what stands in it. -/
theorem takes_group {α : Type} {p : Parse α} {Φ : α → List TokenTree → Prop} (d : Delimiter)
    (hp : p.Takes Φ) :
    (group d p).Takes fun a u => ∃ v w s, u = [.group d (v ++ w) s] ∧ Φ a v := by
  intro now after a used hrun hrest
  unfold group at hrun
  dsimp only at hrun
  split at hrun
  · rename_i e body s rest heq
    split at hrun
    · rename_i hd
      split at hrun
      · cases hrun
      · rename_i value middle hinside
        cases hrun
        obtain ⟨v, hv⟩ := p.suffix hinside
        rw [heq] at hrest
        rw [used_eq_take (n := 1) hrest, hd]
        exact ⟨v, middle.rest, s, by rw [hv]; rfl, hp _ middle a v hinside hv.symm⟩
    · exact absurd hrun (not_run_failWith _)
  · exact absurd hrun (not_run_failWith _)

/-- Of values between separators, each one keeps what holds of more tokens as well. -/
theorem takes_separatedUntil {α : Type} {Q : α → List TokenTree → Prop} {stop : Parse Bool}
    {separator : String} {p : Parse α} (hmono : ∀ a u v, u <:+: v → Q a u → Q a v) (hp : p.Takes Q) :
    (separatedUntil stop separator p).Takes fun as u => ∀ a ∈ as, Q a u := by
  refine .iterate (J := fun read u => ∀ a ∈ read, Q a u) (fun _ h => absurd h List.not_mem_nil)
    fun read u hread => ?_
  have hkeep {v w : List TokenTree} {as : List α} (h : ∀ a ∈ as, Q a v) (hvw : v <:+: w) :
      ∀ a ∈ as, Q a w := fun a ha => hmono a v w hvw (h a ha)
  have hreverse {v w : List TokenTree} {as : List α} (h : ∀ a ∈ as, Q a v) (hvw : v <:+: w) :
      ∀ a ∈ as.reverse, Q a w := fun a ha => hkeep h hvw a (List.mem_reverse.1 ha)
  refine (Parse.Takes.any stop).bind fun found v _ => .ite (.pure (hreverse hread (List.prefix_append ..).isInfix)) ?_
  refine hp.bind fun a w ha => (Parse.Takes.any stop).bind fun found x _ => ?_
  have hcons : ∀ b ∈ a :: read, Q b (u ++ (v ++ (w ++ x))) := by
    refine List.forall_mem_cons.2 ⟨hmono a w _ ⟨u ++ v, x, by simp⟩ ha, ?_⟩
    exact hkeep hread (List.prefix_append ..).isInfix
  refine .ite (.pure (hreverse hcons ⟨[], [], by simp⟩)) ((Parse.Takes.any _).bind fun _ y _ => .pure ?_)
  exact hkeep hcons ⟨[], y, by simp⟩

/-! ## Readers that take no separator -/

/-- Whatever the reader takes is neat. -/
def Parse.Neatly {α : Type} (p : Parse α) : Prop := p.Takes fun _ u => Neat u

section Neatly

variable {α β σ : Type}

theorem Parse.Still.neatly {p : Parse α} (hp : p.Still) : p.Neatly :=
  hp.mono fun _ _ hu => hu ▸ neat_nil

@[grind .]
theorem neat_bind {p : Parse α} {f : α → Parse β} (hp : p.Neatly) (hf : ∀ a, (f a).Neatly) :
    (p >>= f).Neatly :=
  hp.bind fun a _ hu => (hf a).mono fun _ _ hv => hu.append hv

@[grind .]
theorem neat_pure (a : α) : (pure a : Parse α).Neatly := .pure neat_nil

@[grind .]
theorem neat_failWith (problem : Bool → Problem) : (failWith problem : Parse α).Neatly := .failWith _

@[grind .]
theorem neat_expected (things : List String) : (expected things : Parse α).Neatly := .failWith _

@[grind .]
theorem neat_wrong (what : String) : (wrong what : Parse α).Neatly := .failWith _

@[grind .]
theorem neat_wrongAt (s : Span) (what : String) : (wrongAt s what : Parse α).Neatly := .fail _

@[grind .]
theorem neat_wrongAt_bind (s : Span) (what : String) (f : α → Parse β) :
    ((wrongAt s what : Parse α) >>= f).Neatly := .fail_bind _ f

@[grind .]
theorem neat_expected_bind (things : List String) (f : α → Parse β) :
    ((expected things : Parse α) >>= f).Neatly := .failWith_bind _ f

theorem neat_ite {c : Prop} [Decidable c] {p q : Parse α} (hp : p.Neatly) (hq : q.Neatly) :
    (if c then p else q).Neatly := .ite hp hq

@[grind .]
theorem neat_discard {p : Parse α} (hp : p.Neatly) : (discard p).Neatly :=
  hp.discard.mono fun _ _ ⟨_, hu⟩ => hu

@[grind .]
theorem neat_map {p : Parse α} {f : α → β} (hp : p.Neatly) : (f <$> p).Neatly :=
  neat_bind hp fun a => neat_pure (f a)

@[grind .]
theorem neat_iterate {s : σ} {step : σ → Parse (σ ⊕ α)} (hstep : ∀ s, (step s).Neatly) :
    (iterate s step).Neatly := by
  refine .iterate (J := fun _ u => Neat u) neat_nil fun s u hu => (hstep s).mono fun next v hv => ?_
  cases next <;> exact hu.append hv

@[grind .]
theorem neat_forIn {as : List α} {init : β} {f : α → β → Parse (ForInStep β)}
    (hf : ∀ a b, (f a b).Neatly) : (forIn as init f : Parse β).Neatly := by
  induction as generalizing init with
  | nil => exact neat_pure init
  | cons a as ih =>
    rw [List.forIn_cons]
    refine neat_bind (hf a init) fun step => ?_
    cases step with
    | done b => exact neat_pure b
    | yield b => exact ih

@[grind .]
theorem neat_input : input.Neatly := still_input.neatly

@[grind .]
theorem neat_peek (q : List TokenTree → Bool) : (peek q).Neatly := (still_peek q).neatly

@[grind .]
theorem neat_peekSecond (q : List TokenTree → Bool) : (peekSecond q).Neatly := (still_peekSecond q).neatly

@[grind .]
theorem neat_peekThird (q : List TokenTree → Bool) : (peekThird q).Neatly := (still_peekThird q).neatly

@[grind .]
theorem neat_atEnd : atEnd.Neatly := still_atEnd.neatly

@[grind .]
theorem neat_here : here.Neatly := still_here.neatly

@[grind .]
theorem neat_spanFrom (start : Span) : (spanFrom start).Neatly := (still_spanFrom start).neatly

@[grind .]
theorem neat_print (p : Piece) : (print p).Neatly := (still_reprint _).neatly

@[grind .]
theorem neat_reprint (f : List Piece → List Piece) : (reprint f).Neatly := (still_reprint f).neatly

@[grind .]
theorem neat_captured {p : Parse α} (hp : p.Neatly) : (captured p).Neatly := by
  unfold captured
  grind

@[grind .]
theorem neat_withText {p : Parse α} (hp : p.Neatly) : (withText p).Neatly := by
  unfold withText
  grind

@[grind .]
theorem neat_withSpan {p : Parse α} (hp : p.Neatly) : (withSpan p).Neatly := by
  unfold withSpan
  grind

@[grind .]
theorem neat_many {condition : Parse Bool} {p : Parse α} (hcondition : condition.Neatly) (hp : p.Neatly) :
    (many condition p).Neatly := by
  unfold many
  grind

/-- Punctuation that is neither a comma nor a semicolon. -/
abbrev IsInner (s : String) : Prop :=
  s = "#" ∨ s = "!" ∨ s = "::" ∨ s = ":" ∨ s = "+" ∨ s = "?" ∨ s = "=" ∨ s = "->" ∨ s = ".." ∨ s = "..=" ∨
    s = "..." ∨ s = "." ∨ s = "&" ∨ s = "*" ∨ s = "-" ∨ s = "<" ∨ s = ">" ∨ s = "|" ∨ s = "@"

theorem neat_of_isInner {s : String} (hs : IsInner s) {u : List TokenTree} (hu : signs u = s.toList) :
    Neat u := by
  refine neat_of_signs (hu ▸ ?_) (hu ▸ ?_) <;> revert s <;> simp [IsInner]

@[grind .]
theorem neat_punct? {s : String} (hs : IsInner s) : (punct? s).Neatly := by
  refine (takes_punct? s).mono fun found u hu => ?_
  cases found with
  | true => exact neat_of_isInner hs hu
  | false => exact (show u = [] from hu) ▸ neat_nil

@[grind .]
theorem neat_punct {s : String} (hs : IsInner s) : (punct s).Neatly :=
  (takes_punct s).mono fun _ _ hu => neat_of_isInner hs hu

theorem neat_of_word (w : String) (s : Span) : Neat [.word w s] :=
  neat_of_signs List.not_mem_nil List.not_mem_nil

theorem neat_of_group (d : Delimiter) (body : List TokenTree) (s : Span) : Neat [.group d body s] :=
  neat_of_signs List.not_mem_nil List.not_mem_nil

@[grind .]
theorem neat_anyWord : anyWord.Neatly := takes_anyWord.mono fun _ _ ⟨_, hu⟩ => hu ▸ neat_of_word ..

@[grind .]
theorem neat_ident : ident.Neatly := takes_ident.mono fun _ _ ⟨_, hu⟩ => hu ▸ neat_of_word ..

@[grind .]
theorem neat_word? (w : String) : (word? w).Neatly := by
  unfold word?
  grind

@[grind .]
theorem neat_word (w : String) : (word w).Neatly := by
  unfold word
  grind

@[grind .]
theorem neat_underscore : underscore.Neatly := by
  unfold underscore
  grind

@[grind .]
theorem neat_lifetime : lifetime.Neatly :=
  takes_lifetime.mono fun _ _ hu => neat_of_signs (by rw [hu]; decide) (by rw [hu]; decide)

@[grind .]
theorem neat_lifetime? : lifetime?.Neatly := by
  unfold lifetime?
  grind

@[grind .]
theorem neat_literal : literal.Neatly := by
  refine takes_literal.mono fun _ u hu => ?_
  rcases hu with hu | hu <;> exact neat_of_signs (by rw [hu]; decide) (by rw [hu]; decide)

@[grind .]
theorem neat_anyGroup : anyGroup.Neatly := takes_anyGroup.mono fun _ _ ⟨_, hu⟩ => hu ▸ neat_of_group ..

@[grind .]
theorem neat_group (d : Delimiter) (p : Parse α) : (group d p).Neatly := by
  refine (takes_group d (.any p)).mono fun a u h => ?_
  obtain ⟨v, w, s, rfl, -⟩ := h
  exact neat_of_group ..

@[grind .]
theorem neat_chain {stop : Parse Bool} {separator : String} {p : Parse α} (hstop : stop.Neatly)
    (hseparator : IsInner separator) (hp : p.Neatly) : (chain stop separator p).Neatly := by
  unfold chain
  grind

end Neatly

end Notebook.Syntax

import Notebook.Proofs.Syntax.Taking

/-!
# Readers that take a token

A reader is eager if whatever it succeeds with has taken a token that counts (`TokenTree.size`): a word, a
group, or punctuation that is no semicolon.
-/

namespace Notebook.Syntax
open Notebook.Text

/-! ## Tokens that count -/

theorem sizes_append (u v : List TokenTree) :
    TokenTree.sizes (u ++ v) = TokenTree.sizes u + TokenTree.sizes v := by
  induction u with
  | nil => rw [List.nil_append, TokenTree.sizes, Nat.zero_add]
  | cons t u ih => rw [List.cons_append, TokenTree.sizes, TokenTree.sizes, ih, Nat.add_assoc]

/-- Punctuation that is no semicolon counts. -/
theorem sizes_pos_of_sign {c : Char} {u : List TokenTree} (hc : c ∈ signs u) (hne : c ≠ ';') :
    0 < TokenTree.sizes u := by
  obtain ⟨t, ht, hsign⟩ := List.mem_filterMap.1 hc
  obtain ⟨before, behind, rfl⟩ := List.append_of_mem ht
  rw [sizes_append, TokenTree.sizes]
  cases t with
  | punct d joint s =>
    obtain rfl := Option.some.inj hsign
    have hsize : TokenTree.size (.punct d joint s) = 1 := by
      unfold TokenTree.size
      split
      · rename_i heq
        cases heq
      · rename_i heq
        cases heq
        exact absurd rfl hne
      · rfl
    omega
  | word | literal | group => cases hsign

/-- Punctuation that starts with something else than a semicolon counts. -/
theorem sizes_pos_of_signs {s : String} (hs : s.toList.head?.any (· ≠ ';') = true) {u : List TokenTree}
    (hu : signs u = s.toList) :
    0 < TokenTree.sizes u := by
  obtain ⟨c, hc, hne⟩ := (Option.any_eq_true _ _).1 hs
  refine sizes_pos_of_sign (c := c) ?_ (of_decide_eq_true hne)
  rw [hu]
  exact List.mem_of_head? hc

/-! ## Eager readers -/

/-- The reader takes a token that counts. -/
def Parse.Eager {α : Type} (p : Parse α) : Prop := p.Takes fun _ u => 0 < TokenTree.sizes u

section Eager

variable {α β σ : Type}

@[grind .]
theorem Parse.Eager.first {p : Parse α} {f : α → Parse β} (hp : p.Eager) : (p >>= f).Eager :=
  hp.bind fun _ u _ => (Parse.Takes.any _).mono fun _ v _ => by
    rw [sizes_append]
    omega

@[grind .]
theorem Parse.Eager.after {p : Parse α} {f : α → Parse β} (hf : ∀ a, (f a).Eager) : (p >>= f).Eager :=
  (Parse.Takes.any p).bind fun a u _ => (hf a).mono fun _ v _ => by
    rw [sizes_append]
    omega

theorem Parse.Eager.ite {c : Prop} [Decidable c] {p q : Parse α} (hp : p.Eager) (hq : q.Eager) :
    (if c then p else q).Eager := Parse.Takes.ite hp hq

@[simp, grind .]
theorem eager_failWith (problem : Bool → Problem) : (failWith problem : Parse α).Eager := .failWith _

@[simp, grind .]
theorem eager_expected (things : List String) : (expected things : Parse α).Eager := .failWith _

@[simp, grind .]
theorem eager_wrong (what : String) : (wrong what : Parse α).Eager := .failWith _

@[simp, grind .]
theorem eager_wrongAt (s : Span) (what : String) : (wrongAt s what : Parse α).Eager := .fail _

@[grind .]
theorem eager_discard {p : Parse α} (hp : p.Eager) : (discard p).Eager := hp.first

@[simp, grind .]
theorem eager_punct {s : String} (hs : s.toList.head?.any (· ≠ ';') = true) : (punct s).Eager :=
  (takes_punct s).mono fun _ _ hu => sizes_pos_of_signs hs hu

@[simp, grind .]
theorem eager_anyWord : anyWord.Eager := takes_anyWord.mono fun _ _ ⟨_, hu⟩ => hu ▸ Nat.one_pos

@[simp, grind .]
theorem eager_ident : ident.Eager := takes_ident.mono fun _ _ ⟨_, hu⟩ => hu ▸ Nat.one_pos

@[simp, grind .]
theorem eager_word (w : String) : (word w).Eager := (takes_word w).mono fun _ _ ⟨_, hu⟩ => hu ▸ Nat.one_pos

@[simp, grind .]
theorem eager_lifetime : lifetime.Eager :=
  takes_lifetime.mono fun _ u hu => sizes_pos_of_sign (c := '\x27') (by rw [hu]; decide) (by decide)

@[simp, grind .]
theorem eager_anyGroup : anyGroup.Eager := takes_anyGroup.mono fun _ _ ⟨_, hu⟩ => hu ▸ Nat.succ_pos _

@[simp, grind .]
theorem eager_group (d : Delimiter) (p : Parse α) : (group d p).Eager :=
  (takes_group d (.any p)).mono fun _ _ ⟨_, _, _, hu, _⟩ => hu ▸ Nat.succ_pos _

theorem eager_rangeDots (obsolete : Bool) : (rangeDots obsolete).Eager := by
  have hdots {s : String} (hs : s.toList.head?.any (· ≠ ';') = true) {p : Parse (Bool × Span)} (hp : p.Eager)
      {closed : Bool} {start : Span} :
      Parse.Eager (do if ← punct? s then return (closed, ← spanFrom start) else p) :=
    .ifPunct (fun u hu => .skip (still_spanFrom start) fun _ => .pure (by
      rw [List.append_nil]
      exact sizes_pos_of_signs hs hu)) hp
  refine .after fun start => hdots (by decide) (.after fun _ => .ite ?_ (hdots (by decide) (eager_expected _)))
  exact .ite (.first (eager_punct (by decide))) (eager_expected _)

@[simp, grind .]
theorem eager_rangeLimits : rangeLimits.Eager := (eager_rangeDots false).first

/-! ## Bounds -/

theorem eager_pathSegment (g : Grammar) (bound : BoundRules → Parse BoundKind) (inExpr : Bool) :
    (pathSegment g bound inExpr).Eager := by
  refine .after fun _ => .ite eager_anyWord.first (.after fun _ => .ite eager_anyWord.first eager_ident.first)

theorem eager_unqualifiedPath (g : Grammar) (bound : BoundRules → Parse BoundKind) (inExpr : Bool) :
    (unqualifiedPath g bound inExpr).Eager := .after fun _ => (eager_pathSegment g bound inExpr).first

theorem eager_boundWith (g : Grammar) (bound : BoundRules → Parse BoundKind) (rules : BoundRules) :
    (boundWith g bound rules).Eager := by
  have hpath := eager_unqualifiedPath g bound false
  refine .after fun _ => .ite (.after fun _ => (eager_discard eager_lifetime).first)
    (.after fun _ => .ite ?_ (.after fun _ => .ite ?_ ?_))
  · exact .after fun _ => (eager_word _).first
  · exact eager_group _ _
  · grind

theorem eager_boundFor (g : Grammar) (n : Nat) (rules : BoundRules) : (boundFor g n rules).Eager := by
  cases n with
  | zero =>
    unfold boundFor
    exact eager_failWith _
  | succ n => exact eager_boundWith g _ rules

theorem eager_bound (g : Grammar) (rules : BoundRules) : (bound g rules).Eager :=
  .after fun _ => eager_boundFor g _ rules
end Eager

end Notebook.Syntax

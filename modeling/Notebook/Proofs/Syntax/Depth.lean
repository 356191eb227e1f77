import Notebook.Proofs.Syntax.Levels
import Notebook.Proofs.Syntax.Nodes

/-!
# Expressions and the levels of their tokens

The steps that are counted of a path through an expression are levels of the tokens that the expression has
been read from (`Sound`), and those tokens hold no separator in the open but a hidden comma.  An operator or
a keyword of its own, or brackets around, make up for each step that an expression adds to the paths through
its children.
-/

namespace Notebook.Syntax
open Notebook.Text

/-! ## Paths and levels -/

/-- The tokens have the levels that are counted of a path. If the path goes into no brackets, these are
operators and keywords in the open. -/
structure Fits (p : List Step) (u : List TokenTree) : Prop where
  deep : seen p ≤ deep u
  ops : .inside ∉ p → seen p ≤ ops u

theorem Fits.mono {p : List Step} {u v : List TokenTree} (hp : Fits p u) (h : u <:+: v) : Fits p v :=
  ⟨hp.deep.trans (deep_mono h), fun hinside => (hp.ops hinside).trans (ops_mono h)⟩

theorem fits_nil (u : List TokenTree) : Fits [] u := ⟨Nat.zero_le _, fun _ => Nat.zero_le _⟩

/-- All paths that start with this step and go on in the expression have their levels in the tokens. -/
def Carries (s : Step) (e : Expr) (u : List TokenTree) : Prop := ∀ p, e.HasPath p → Fits (s :: p) u

/-- All paths through the expression have their levels in the tokens. -/
def Within (e : Expr) (u : List TokenTree) : Prop := ∀ p, e.HasPath p → Fits p u

section Levels

variable {e : Expr} {s : Step} {u v : List TokenTree}

theorem Within.mono (he : Within e u) (h : u <:+: v) : Within e v := fun p hp => (he p hp).mono h

theorem Carries.mono (he : Carries s e u) (h : u <:+: v) : Carries s e v := fun p hp => (he p hp).mono h

theorem within_of_children (h : ∀ s c, (s, c) ∈ e.children → Carries s c u) : Within e u := by
  intro p hp
  cases p with
  | nil => exact fits_nil u
  | cons s p =>
    obtain ⟨c, hc, hp⟩ := hp
    exact h s c hc p hp

/-- A keyword or an operator comes before. -/
theorem Within.right (he : Within e v) (hops : 0 < ops u) : Carries .right e (u ++ v) := by
  intro p hp
  have hfits := he p hp
  constructor
  · have := hfits.deep
    rw [seen, deep_append]
    omega
  · intro hinside
    have := hfits.ops fun h => hinside (List.mem_cons_of_mem _ h)
    rw [seen, ops_append]
    omega

/-- An operator comes behind, which shows only if there are no brackets before it. -/
theorem Within.left (he : Within e u) (hops : 0 < ops v) : Carries .left e (u ++ v) := by
  intro p hp
  have hfits := he p hp
  by_cases hp' : .inside ∈ p
  · constructor
    · have := hfits.deep
      rw [seen, if_pos hp', deep_append]
      omega
    · exact fun h => absurd (List.mem_cons_of_mem _ hp') h
  · have hcount : seen (.left :: p) ≤ ops (u ++ v) := by
      have := hfits.ops hp'
      rw [seen, if_neg hp', ops_append]
      omega
    exact ⟨hcount.trans (ops_le_deep _), fun _ => hcount⟩

theorem Within.front (he : Within e u) : Carries .front e u := fun p hp =>
  ⟨(he p hp).deep, fun h => (he p hp).ops fun hinside => h (List.mem_cons_of_mem _ hinside)⟩

/-- Some of the tokens, with no separator among them, have the levels of all paths. -/
def Held (e : Expr) (u : List TokenTree) : Prop :=
  ∃ part, part <:+: u ∧ Neat part ∧ ∀ p, e.HasPath p → seen p ≤ deep part

theorem Held.mono (he : Held e u) (h : u <:+: v) : Held e v := by
  obtain ⟨part, hpart, hneat, hdeep⟩ := he
  exact ⟨part, hpart.trans h, hneat, hdeep⟩

/-- Brackets stand around. -/
theorem Held.inside {body : List TokenTree} (he : Held e body) (d : Delimiter) (s : Span) :
    Carries .inside e [.group d body s] := by
  obtain ⟨part, hpart, hneat, hdeep⟩ := he
  intro p hp
  have hlevels : deep part < deep [.group d body s] := deep_lt_reach hpart hneat
  refine ⟨?_, fun h => absurd List.mem_cons_self h⟩
  have := hdeep p hp
  rw [seen]
  omega

end Levels

/-- No separator is among the tokens, and they have the levels of all paths through the expression. -/
structure Sound (e : Expr) (u : List TokenTree) : Prop where
  neat : Neat u
  within : Within e u

/-- No separator is among the tokens, and they have brackets around all of the expressions. -/
structure Around (cs : List Expr) (u : List TokenTree) : Prop where
  neat : Neat u
  inside : ∀ c ∈ cs, Carries .inside c u

/-- No separator is among the tokens, but an operator or a keyword. -/
structure Raises (u : List TokenTree) : Prop where
  neat : Neat u
  ops : 0 < ops u

/-- With more tokens behind it, an expression becomes another one. -/
structure Extends (e e' : Expr) (v : List TokenTree) : Prop where
  neat : Neat v
  sound : ∀ u, Sound e u → Sound e' (u ++ v)

section Nodes

variable {e e' e'' c l r : Expr} {cs : List Expr} {u v w : List TokenTree}

theorem Sound.held (he : Sound e u) (h : u <:+: v) : Held e v :=
  ⟨u, h, he.neat, fun p hp => (he.within p hp).deep⟩

theorem Sound.behind (hu : Neat u) (he : Sound e v) : Sound e (u ++ v) :=
  ⟨hu.append he.neat, he.within.mono (List.suffix_append u v).isInfix⟩

theorem Around.behind (hu : Neat u) (hcs : Around cs v) : Around cs (u ++ v) :=
  ⟨hu.append hcs.neat, fun c hc => (hcs.inside c hc).mono (List.suffix_append u v).isInfix⟩

theorem Around.before (hcs : Around cs u) (hv : Neat v) : Around cs (u ++ v) :=
  ⟨hcs.neat.append hv, fun c hc => (hcs.inside c hc).mono (List.prefix_append u v).isInfix⟩

theorem around_nil (hu : Neat u) : Around [] u := ⟨hu, fun _ hc => absurd hc List.not_mem_nil⟩

theorem Raises.behind (hu : Neat u) (hv : Raises v) : Raises (u ++ v) :=
  ⟨hu.append hv.neat, hv.ops.trans_le (ops_mono (List.suffix_append u v).isInfix)⟩

theorem Raises.before (hu : Raises u) (hv : Neat v) : Raises (u ++ v) :=
  ⟨hu.neat.append hv, hu.ops.trans_le (ops_mono (List.prefix_append u v).isInfix)⟩

theorem sound_congr (h : ∀ p, e.HasPath p → e'.HasPath p) (he : Sound e' u) : Sound e u :=
  ⟨he.neat, fun p hp => he.within p (h p hp)⟩

theorem sound_childless (he : e.children = []) (hu : Neat u) : Sound e u :=
  ⟨hu, within_of_children fun _ _ hc => absurd (he ▸ hc) List.not_mem_nil⟩

theorem sound_around (he : e.children = cs.map (.inside, ·)) (hcs : Around cs u) : Sound e u := by
  refine ⟨hcs.neat, within_of_children fun s c hc => ?_⟩
  rw [he] at hc
  obtain ⟨c, hc, heq⟩ := List.mem_map.1 hc
  cases heq
  exact hcs.inside c hc

/-- A keyword or an operator, an expression behind it, and brackets. -/
theorem sound_right (he : e.children = (.right, c) :: cs.map (.inside, ·)) (hu : Raises u) (hc : Sound c v)
    (hcs : Around cs w) : Sound e (u ++ (v ++ w)) := by
  refine ⟨hu.neat.append (hc.neat.append hcs.neat), within_of_children fun s d hd => ?_⟩
  rw [he] at hd
  rcases List.mem_cons.1 hd with heq | hd
  · cases heq
    exact (hc.within.mono (List.prefix_append v w).isInfix).right hu.ops
  · obtain ⟨d, hd, heq⟩ := List.mem_map.1 hd
    cases heq
    refine (hcs.inside d hd).mono ?_
    rw [← List.append_assoc]
    exact (List.suffix_append (u ++ v) w).isInfix

theorem sound_unary (he : e.children = [(.right, c)]) (hu : Raises u) (hc : Sound c v) : Sound e (u ++ v) := by
  have hright : Sound e (u ++ (v ++ [])) := sound_right (by rw [he, List.map_nil]) hu hc (around_nil neat_nil)
  rwa [List.append_nil] at hright

/-! ## What is made of a left side -/

theorem extends_refl (e : Expr) : Extends e e [] :=
  ⟨neat_nil, fun u he => by rwa [List.append_nil]⟩

theorem Extends.trans (h : Extends e e' v) (h' : Extends e' e'' w) : Extends e e'' (v ++ w) :=
  ⟨h.neat.append h'.neat, fun u he => by
    rw [← List.append_assoc]
    exact h'.sound _ (h.sound u he)⟩

theorem extends_childless (he : e'.children = []) (hv : Neat v) : Extends e e' v :=
  ⟨hv, fun _ hu => sound_childless he (hu.neat.append hv)⟩

/-- An operator behind the left side, and an expression behind it. -/
theorem extends_binary (he : e'.children = [(.left, l), (.right, r)]) (hu : Raises u) (hr : Sound r v) :
    Extends l e' (u ++ v) := by
  refine ⟨hu.neat.append hr.neat, fun t hl => ⟨hl.neat.append (hu.neat.append hr.neat), ?_⟩⟩
  refine within_of_children fun s c hc => ?_
  rw [he] at hc
  rcases List.mem_cons.1 hc with heq | hc
  · cases heq
    exact hl.within.left (hu.before hr.neat).ops
  · cases List.mem_singleton.1 hc
    rw [← List.append_assoc]
    exact hr.within.right (hu.behind hl.neat).ops

/-- An operator behind the left side, and brackets. -/
theorem extends_left (he : e'.children = (.left, l) :: cs.map (.inside, ·)) (hu : Raises u)
    (hcs : Around cs v) : Extends l e' (u ++ v) := by
  refine ⟨hu.neat.append hcs.neat, fun t hl => ⟨hl.neat.append (hu.neat.append hcs.neat), ?_⟩⟩
  refine within_of_children fun s c hc => ?_
  rw [he] at hc
  rcases List.mem_cons.1 hc with heq | hc
  · cases heq
    exact hl.within.left (hu.before hcs.neat).ops
  · obtain ⟨c, hc, heq⟩ := List.mem_map.1 hc
    cases heq
    exact ((hcs.behind hu.neat).inside c hc).mono (List.suffix_append t _).isInfix

/-- Brackets behind what is called or indexed. -/
theorem extends_front (he : e'.children = (.front, l) :: cs.map (.inside, ·)) (hcs : Around cs v) :
    Extends l e' v := by
  refine ⟨hcs.neat, fun t hl => ⟨hl.neat.append hcs.neat, within_of_children fun s c hc => ?_⟩⟩
  rw [he] at hc
  rcases List.mem_cons.1 hc with heq | hc
  · cases heq
    exact hl.within.front.mono (List.prefix_append t v).isInfix
  · obtain ⟨c, hc, heq⟩ := List.mem_map.1 hc
    cases heq
    exact (hcs.inside c hc).mono (List.suffix_append t v).isInfix

end Nodes

end Notebook.Syntax

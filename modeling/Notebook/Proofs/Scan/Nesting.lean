import Mathlib.Data.List.Forall2
import Notebook.Proofs.Syntax.Bodies
import Notebook.Scan.Nesting

/-!
# Texts that are let through are no deeper than the limit

The nesting of a text is estimated from its tokens before it is parsed.  Where the estimate sees all that the
parser sees (`Sees`) and no comma hides in angle brackets or bars (`ShowsCommas`), a text that is let through
has no path whose steps that are counted come to the limit (`nodes_within_limit`).  A path that goes to
nothing called or indexed, and from no left side into brackets, is counted in full.

A text with a doc comment is not spoken of: the parser reads the comment as an attribute in brackets, of which
the estimate sees nothing.  It is right there as well, but what it counts is then not what the tokens come to.
Paths go through expressions that have a meaning in the guest language.  Closures, tuples, matches, struct
literals and the like have none (`Expr.other`): they are refused where they stand, and what is inside them is no
node of a path.

Other paths can be as long as one likes (`deep_paths_are_let_through`): an operator behind a closed pair of
brackets adds nothing to what is in them, one call of the result of another adds nothing at all, and a comma
between angle brackets takes back all that has been counted.
-/

namespace Notebook.Scan
open Notebook.Text Notebook.Syntax

/-! ## What the estimate is made of -/

/-- What a token does to the nesting. -/
inductive Event
  | opens
  | closes
  | separates
  | raises
  /-- Nothing. -/
  | passes
  deriving DecidableEq, Repr

/-- Brackets and separators. -/
def Event.isMark : Event → Bool
  | .opens | .closes | .separates => true
  | .raises | .passes => false

/-- What a significant token does. -/
def Token.event (t : Token) : Event :=
  if t.kind = .punctuation then
    if t.isAny ["(", "[", "\x7b"] then .opens
    else if t.isAny [")", "]", "\x7d"] then .closes
    else if t.isAny [";", ","] then .separates
    else .raises
  else if t.kind = .keyword then .raises
  else .passes

/-- The nesting after one more event. -/
def Nesting.next (n : Nesting) : Event → Nesting
  | .opens => ⟨0, n.inner :: n.outer, n.depth + 1⟩
  | .closes =>
    match n.outer with
    | [] => n
    | weight :: outer => ⟨weight, outer, n.depth - (n.inner + 1)⟩
  | .separates => ⟨0, n.outer, n.depth - n.inner⟩
  | .raises => ⟨n.inner + 1, n.outer, n.depth + 1⟩
  | .passes => n

theorem Nesting.step_eq_next (n : Nesting) (t : Token) : n.step t = n.next t.event := by
  unfold Nesting.step Token.event
  split_ifs <;> rfl

/-- The depth is within the limit, now and after every event. -/
def Nesting.Stays (limit : Nat) : Nesting → List Event → Prop
  | n, [] => n.depth ≤ limit
  | n, e :: es => n.depth ≤ limit ∧ Stays limit (n.next e) es

theorem Nesting.Stays.depth_le {limit : Nat} {n : Nesting} {es : List Event} (h : n.Stays limit es) :
    n.depth ≤ limit := by
  cases es with
  | nil => exact h
  | cons e es => exact h.1

theorem stays_of_overflowFrom? {limit : Nat} {n : Nesting} {ts : List Token} (hn : n.depth ≤ limit)
    (h : overflowFrom? limit n ts = none) : n.Stays limit (ts.map Token.event) := by
  induction ts generalizing n with
  | nil => exact hn
  | cons t ts ih =>
    rw [overflowFrom?] at h
    split at h
    · cases h
    · rename_i hdepth
      rw [Nesting.step_eq_next] at h hdepth
      exact ⟨hn, ih (Nat.le_of_not_lt hdepth) h⟩

/-- The events of a text. -/
def eventsIn (cs : List Char) : List Event := ((tokens cs).filter (·.isSignificant)).map Token.event

/-! ## Events left out -/

/-- The levels that open groups come to. -/
def weightOf : List Nat → Nat
  | [] => 0
  | weight :: outer => weight + 1 + weightOf outer

theorem weightOf_le {ns ms : List Nat} (h : List.Forall₂ (· ≤ ·) ns ms) : weightOf ns ≤ weightOf ms := by
  induction h with
  | nil => exact Nat.le_refl 0
  | cons hle _ ih =>
    simp only [weightOf]
    omega

/-- Nowhere more levels, and depths that are kept up to date. -/
structure Nesting.Below (n m : Nesting) : Prop where
  inner : n.inner ≤ m.inner
  outer : List.Forall₂ (· ≤ ·) n.outer m.outer
  depth : n.depth = n.inner + weightOf n.outer + 1
  depth' : m.depth = m.inner + weightOf m.outer + 1

theorem Nesting.Below.depth_le {n m : Nesting} (h : n.Below m) : n.depth ≤ m.depth := by
  have hinner := h.inner
  have houter := weightOf_le h.outer
  rw [h.depth, h.depth']
  omega

/-- An event keeps what is below below. -/
theorem Nesting.Below.next {n m : Nesting} (h : n.Below m) (e : Event) : (n.next e).Below (m.next e) := by
  obtain ⟨inner, outer, depth⟩ := n
  obtain ⟨inner', outer', depth'⟩ := m
  obtain ⟨hinner, houter, hdepth, hdepth'⟩ := h
  dsimp only at hinner houter hdepth hdepth'
  cases e with
  | opens =>
    refine ⟨Nat.le_refl 0, .cons hinner houter, ?_, ?_⟩ <;>
      simp only [Nesting.next, weightOf] <;> omega
  | closes =>
    cases houter with
    | nil => exact ⟨hinner, .nil, hdepth, hdepth'⟩
    | cons hle houter =>
      simp only [weightOf] at hdepth hdepth'
      refine ⟨hle, houter, ?_, ?_⟩ <;> simp only [Nesting.next] <;> omega
  | separates => refine ⟨Nat.le_refl 0, houter, ?_, ?_⟩ <;> simp only [Nesting.next] <;> omega
  | raises => refine ⟨Nat.succ_le_succ hinner, houter, ?_, ?_⟩ <;> simp only [Nesting.next] <;> omega
  | passes => exact ⟨hinner, houter, hdepth, hdepth'⟩

/-- An event that is no bracket and no separator lowers nothing. -/
theorem Nesting.Below.skip {n m : Nesting} (h : n.Below m) {e : Event} (he : e.isMark = false) :
    n.Below (m.next e) := by
  cases e with
  | raises => exact ⟨h.inner.trans (Nat.le_succ _), h.outer, h.depth, by simp only [Nesting.next, h.depth']; omega⟩
  | passes => exact h
  | opens | closes | separates => cases he

theorem Nesting.Stays.of_sublist {limit : Nat} {n m : Nesting} {fs es : List Event} (hsublist : fs.Sublist es)
    (hmarks : es.filter Event.isMark = fs.filter Event.isMark) (hbelow : n.Below m)
    (hstays : m.Stays limit es) : n.Stays limit fs := by
  induction hsublist generalizing n m with
  | slnil => exact hbelow.depth_le.trans hstays
  | @cons fs es e hsublist ih =>
    -- a mark that is left out would be missing
    have he : e.isMark = false := by
      by_contra hmark
      rw [Bool.not_eq_false] at hmark
      rw [List.filter_cons_of_pos hmark] at hmarks
      have hlength := (hsublist.filter Event.isMark).length_le
      rw [← hmarks, List.length_cons] at hlength
      omega
    rw [List.filter_cons_of_neg (by simp [he])] at hmarks
    exact ih hmarks (hbelow.skip he) hstays.2
  | @cons_cons fs es e hsublist ih =>
    have hrest : es.filter Event.isMark = fs.filter Event.isMark := by
      by_cases he : e.isMark = true
      · rw [List.filter_cons_of_pos he, List.filter_cons_of_pos he] at hmarks
        exact (List.cons.inj hmarks).2
      · rwa [List.filter_cons_of_neg he, List.filter_cons_of_neg he] at hmarks
    exact ⟨hbelow.depth_le.trans hstays.1, ih hrest (hbelow.next e) hstays.2⟩

end Notebook.Scan

namespace Notebook.Syntax
open Notebook.Scan

/-! ## The events of trees -/

mutual

/-- What the tokens of a tree do to the nesting, if anything. An apostrophe goes with its name. -/
def TokenTree.events : TokenTree → List Event
  | .group _ body _ => .opens :: (TokenTree.eventsAll body ++ [.closes])
  | .punct c _ _ =>
    if c = ',' ∨ c = ';' then [.separates] else if c = '\x27' then [] else [.raises]
  | .word w _ => if w ∈ TokenTree.levelWords then [.raises] else []
  | .literal .. => []

/-- What the tokens of trees do to the nesting. -/
def TokenTree.eventsAll : List TokenTree → List Event
  | [] => []
  | t :: ts => t.events ++ TokenTree.eventsAll ts

end

mutual

/-- No group in the tree hides a comma. -/
def TokenTree.shows : TokenTree → Bool
  | .group _ body _ => !decide (HidesComma body) && TokenTree.showsEach body
  | _ => true

/-- No group in the trees hides a comma. -/
def TokenTree.showsEach : List TokenTree → Bool
  | [] => true
  | t :: ts => t.shows && TokenTree.showsEach ts

end

/-- Neither in the open nor inside brackets a comma stands between angle brackets or bars. -/
def ShowsCommas (ts : List TokenTree) : Prop := ¬ HidesComma ts ∧ TokenTree.showsEach ts = true

instance (ts : List TokenTree) : Decidable (ShowsCommas ts) := inferInstanceAs (Decidable (_ ∧ _))

/-- A nesting with so many levels around the innermost group. -/
def nestingAt (base count : Nat) (outer : List Nat) : Nesting := ⟨count, outer, base + count⟩

open TokenTree

/-- The levels that are counted behind a tree. -/
def TokenTree.behind (t : TokenTree) (count : Nat) : Nat := if t.separates then 0 else count + t.weight

/-- A nesting that stays within the limit over a tree and what follows has the levels of the tree within the
limit. -/
def TokenTree.Counts (t : TokenTree) : Prop :=
  ∀ {limit base count : Nat} {outer : List Nat} {es : List Event},
    (nestingAt base count outer).Stays limit (t.events ++ es) →
    base + count + t.reach ≤ limit ∧ (nestingAt base (t.behind count) outer).Stays limit es

/-- A nesting that stays within the limit over trees and what follows has the levels of the trees within the
limit. -/
def CountsAll (ts : List TokenTree) : Prop :=
  ∀ {limit base count : Nat} {outer : List Nat} {es : List Event},
    (nestingAt base count outer).Stays limit (eventsAll ts ++ es) →
    base + peak true count ts ≤ limit ∧ ∃ count', (nestingAt base count' outer).Stays limit es

theorem counts_punct (c : Char) (joint : Bool) (s : Notebook.Text.Span) : (TokenTree.punct c joint s).Counts := by
  intro limit base count outer es h
  refine ⟨h.depth_le, ?_⟩
  rw [events] at h
  rw [behind]
  split_ifs at h with hseparator hquote
  · rw [if_pos (by simpa [separates] using hseparator)]
    have hnext : (nestingAt base count outer).next .separates = nestingAt base 0 outer := by
      simp only [Nesting.next, nestingAt, Nat.add_sub_cancel, Nat.add_zero]
    exact hnext ▸ h.2
  · rw [if_neg (by simpa [separates] using hseparator), weight, if_pos (by simp [hquote])]
    exact h
  · rw [if_neg (by simpa [separates] using hseparator), weight, if_neg (by simp_all)]
    exact h.2

theorem counts_word (w : String) (s : Notebook.Text.Span) : (TokenTree.word w s).Counts := by
  intro limit base count outer es h
  refine ⟨h.depth_le, ?_⟩
  rw [events] at h
  simp only [behind, separates, Bool.false_eq_true, if_false, weight]
  split_ifs at h ⊢
  · exact h.2
  · exact h

/-- The levels in a group are on top of those around it, and gone behind it. -/
theorem counts_group {d : Delimiter} {body : List TokenTree} {s : Notebook.Text.Span} (hcomma : ¬ HidesComma body)
    (hbody : CountsAll body) : (TokenTree.group d body s).Counts := by
  intro limit base count outer es h
  rw [events, List.cons_append, List.append_assoc] at h
  have hinside : (nestingAt (base + count + 1) 0 (count :: outer)).Stays limit
      (eventsAll body ++ ([.closes] ++ es)) := h.2
  obtain ⟨hpeak, count', -, hrest⟩ := hbody hinside
  have hclose : (nestingAt (base + count + 1) count' (count :: outer)).next .closes =
      nestingAt base count outer := by
    simp only [Nesting.next, nestingAt, Nesting.mk.injEq, true_and]
    omega
  constructor
  · rw [reach, decide_eq_false hcomma, Bool.not_false]
    omega
  · exact hclose ▸ hrest

theorem countsAll_cons {t : TokenTree} {ts : List TokenTree} (ht : t.Counts) (hts : CountsAll ts) :
    CountsAll (t :: ts) := by
  intro limit base count outer es h
  rw [eventsAll, List.append_assoc] at h
  have hcount : base + count ≤ limit := h.depth_le
  obtain ⟨hreach, hrest⟩ := ht h
  obtain ⟨hpeak, hbehind⟩ := hts hrest
  refine ⟨?_, hbehind⟩
  rw [behind] at hpeak
  rw [peak, Bool.true_and]
  split_ifs at hpeak ⊢ <;> omega

mutual

theorem counts_of_shows : (t : TokenTree) → t.shows = true → t.Counts
  | .group d body s, hshows => by
    rw [shows, Bool.and_eq_true, Bool.not_eq_true', decide_eq_false_iff_not] at hshows
    exact counts_group hshows.1 (countsAll_of_showsEach body hshows.2)
  | .punct c joint s, _ => counts_punct c joint s
  | .word w s, _ => counts_word w s
  | .literal .., _ => fun h => ⟨h.depth_le, h⟩

/-- What the nesting comes to over trees is what their levels come to. -/
theorem countsAll_of_showsEach : (ts : List TokenTree) → showsEach ts = true → CountsAll ts
  | [], _ => fun h => ⟨h.depth_le, _, h⟩
  | t :: ts, hshows => by
    rw [showsEach, Bool.and_eq_true] at hshows
    exact countsAll_cons (counts_of_shows t hshows.1) (countsAll_of_showsEach ts hshows.2)

end

end Notebook.Syntax

namespace Notebook
open Notebook.Scan Notebook.Syntax
open TokenTree (eventsAll)

/-! ## Texts that are let through -/

/-- The estimate sees the brackets and separators that the parser sees, and no fewer operators and keywords,
and nothing only where the parser sees nothing. It does not with a doc comment, which is a comment to it and an
attribute in brackets to the parser. -/
structure Sees (cs : List Char) (trees : List TokenTree) : Prop where
  sublist : (eventsAll trees).Sublist (eventsIn cs)
  marks : (eventsIn cs).filter Event.isMark = (eventsAll trees).filter Event.isMark
  ne_nil : trees ≠ [] → eventsIn cs ≠ []

instance (cs : List Char) (trees : List TokenTree) : Decidable (Sees cs trees) :=
  decidable_of_iff (_ ∧ _ ∧ _) ⟨fun ⟨h, h', h''⟩ => ⟨h, h', h''⟩, fun ⟨h, h', h''⟩ => ⟨h, h', h''⟩⟩

/-- The estimate sees the tokens of the text, and no comma hides among them. -/
def Estimable (cs : List Char) : Prop := ∃ trees, lex cs = .ok trees ∧ Sees cs trees ∧ ShowsCommas trees

instance (cs : List Char) : Decidable (Estimable cs) :=
  match hlex : lex cs with
  | .error _ => isFalse fun ⟨_, h, _⟩ => nomatch hlex.symm.trans h
  | .ok trees => decidable_of_iff (Sees cs trees ∧ ShowsCommas trees)
      ⟨fun h => ⟨trees, hlex, h⟩, fun ⟨_, h, h'⟩ => Except.ok.inj (hlex.symm.trans h) ▸ h'⟩

/-- The text is parsed, and the steps lead down from one of its expressions. -/
def ParsesPath (cs : List Char) (p : List Step) : Prop :=
  ∃ stmts, parse cs = .ok stmts ∧ ∃ s ∈ stmts, ∃ e ∈ s.exprs, e.HasPath p

instance (cs : List Char) (p : List Step) : Decidable (ParsesPath cs p) :=
  match hparse : parse cs with
  | .error _ => isFalse fun ⟨_, h, _⟩ => nomatch hparse.symm.trans h
  | .ok stmts => decidable_of_iff (∃ s ∈ stmts, ∃ e ∈ s.exprs, e.HasPath p)
      ⟨fun h => ⟨stmts, hparse, h⟩, fun ⟨_, h, h'⟩ => Except.ok.inj (hparse.symm.trans h) ▸ h'⟩

variable {cs : List Char} {limit : Nat} {trees : List TokenTree}

/-- No first event leads to a depth of zero. -/
theorem one_le_of_events (hevents : eventsIn cs ≠ []) (h : nestingOverflow? cs limit = none) : 1 ≤ limit := by
  unfold nestingOverflow? at h
  unfold eventsIn at hevents
  cases htokens : (tokens cs).filter (·.isSignificant) with
  | nil => exact absurd (by rw [htokens]; rfl) hevents
  | cons t ts =>
    rw [htokens, overflowFrom?] at h
    split at h
    · cases h
    · rename_i hdepth
      have hfirst : 1 ≤ (Nesting.step {} t).depth := by
        rw [Nesting.step_eq_next]
        cases t.event <;> simp [Nesting.next]
      omega

/-- The tokens of a text that is let through have no more levels than the limit. -/
theorem peak_le_limit (hsees : Sees cs trees) (hshows : ShowsCommas trees) (hne : trees ≠ [])
    (h : nestingOverflow? cs limit = none) : 1 + TokenTree.peak true 0 trees ≤ limit := by
  have hstart : 1 ≤ limit := one_le_of_events (hsees.ne_nil hne) h
  have hstays : Nesting.Stays limit {} (eventsIn cs) := stays_of_overflowFrom? hstart h
  have hbelow : Nesting.Below {} {} := ⟨Nat.le_refl 0, .nil, rfl, rfl⟩
  have htrees : (nestingAt 1 0 []).Stays limit (eventsAll trees ++ []) := by
    rw [List.append_nil]
    exact hstays.of_sublist hsees.sublist hsees.marks hbelow
  exact (countsAll_of_showsEach trees hshows.2 htrees).1

/-- No path through a text that is let through has more steps that are counted than the limit allows, and a
plain path goes through no more nodes than the limit allows. Nothing is said of texts with doc comments, nor of what
is inside an expression that has no meaning in the guest language. -/
theorem nodes_within_limit (hestimable : Estimable cs) (h : nestingOverflow? cs limit = none) {p : List Step}
    (hpath : ParsesPath cs p) : seen p + 1 ≤ limit ∧ (IsPlain p → p.length + 1 ≤ limit) := by
  obtain ⟨trees, hlex, hsees, hshows⟩ := hestimable
  obtain ⟨stmts, hparse, s, hs, e, he, hp⟩ := hpath
  obtain ⟨part, hpart, hneat, hdeep⟩ := within_of_parse hlex hparse s hs e he
  have hne : trees ≠ [] := by
    rintro rfl
    rw [parse, hlex] at hparse
    cases hparse
    exact absurd hs List.not_mem_nil
  have hseen : seen p + 1 ≤ limit := by
    have hlevels : seen p ≤ deep part := hdeep p hp
    have hpeak := deep_le_peak hpart hneat
    rw [decide_eq_false hshows.1, Bool.not_false] at hpeak
    have hlimit := peak_le_limit hsees hshows hne h
    omega
  exact ⟨hseen, fun hplain => seen_of_isPlain hplain ▸ hseen⟩

/-- A negated sum in brackets that is an argument of a call. -/
theorem nodes_of_call_within_limit :
    let text := "let total = sum(1, -(2 + x as u64));".toList
    let p : List Step := [.inside, .right, .inside, .right, .left]
    Estimable text ∧ nestingOverflow? text 9 = none ∧ ParsesPath text p ∧ IsPlain p ∧
      seen p + 1 ≤ 9 ∧ p.length + 1 ≤ 9 := by
  intro text p
  have hestimable : Estimable text := by decide +kernel
  have hlimit : nestingOverflow? text 9 = none := by decide +kernel
  have hpath : ParsesPath text p := by decide +kernel
  have hplain : IsPlain p := by decide
  obtain ⟨hseen, hnodes⟩ := nodes_within_limit hestimable hlimit hpath
  exact ⟨hestimable, hlimit, hpath, hplain, hseen, hnodes hplain⟩

/-! ## Depths that are not seen -/

/-- A first operand, the same link behind it so many times, and a semicolon. -/
def chain (first link : String) (n : Nat) : List Char :=
  first.toList ++ (List.replicate n link.toList).flatten ++ [';']

/-- A text is let through that has a path with more nodes than the limit. -/
def PassesDeep (limit : Nat) (cs : List Char) (p : List Step) : Prop :=
  nestingOverflow? cs limit = none ∧ ParsesPath cs p ∧ limit < p.length + 1

instance (limit : Nat) (cs : List Char) (p : List Step) : Decidable (PassesDeep limit cs p) :=
  inferInstanceAs (Decidable (_ ∧ _ ∧ _))

/-- An operator behind brackets, calls of what calls return, and chains of operators, casts and method calls
with commas between angle brackets. -/
theorem deep_paths_are_let_through :
    PassesDeep 2 (chain "(1)" " + 1" 1) [.left, .inside] ∧
      PassesDeep 2 (chain "f" "()" 2) (List.replicate 2 .front) ∧
      PassesDeep 6 (chain "a" " + b::<A, B>" 6) (List.replicate 6 .left) ∧
      PassesDeep 4 (chain "1" " as T<A, B>" 4) (List.replicate 4 .left) ∧
      PassesDeep 6 (chain "a" ".b::<A, B>()" 6) (List.replicate 6 .left) := by
  decide +kernel

end Notebook

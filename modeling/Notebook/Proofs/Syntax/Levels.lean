import Mathlib.Data.List.Infix
import Notebook.Syntax.Token

/-!
# Levels of token trees

How deep tokens nest, as their brackets, operators and keywords show it: every open pair of brackets is a
level, and so is every operator or keyword before.  A comma or a semicolon between brackets ends what has
been counted there (`TokenTree.peak`), so the depth of what stands between two of them is counted in full
(`deep_le_peak`).  A comma between angle brackets or bars ends it as well, although an expression goes on
behind it (`HidesComma`).
-/

namespace Notebook.Syntax

/-! ## Signs in the open -/

/-- The character of a punctuation mark. -/
def TokenTree.sign? : TokenTree → Option Char
  | .punct c _ _ => some c
  | _ => none

/-- The punctuation marks that stand in no group. -/
def signs (ts : List TokenTree) : List Char := ts.filterMap TokenTree.sign?

theorem signs_append (us vs : List TokenTree) : signs (us ++ vs) = signs us ++ signs vs :=
  List.filterMap_append

theorem signs_sublist {us vs : List TokenTree} (h : us.Sublist vs) : (signs us).Sublist (signs vs) :=
  h.filterMap _

/-- In the open there is a comma between angle brackets or between bars. -/
def HidesComma (ts : List TokenTree) : Prop :=
  ['<', ',', '>'].Sublist (signs ts) ∨ ['|', ',', '|'].Sublist (signs ts)

instance (ts : List TokenTree) : Decidable (HidesComma ts) := inferInstanceAs (Decidable (_ ∨ _))

theorem HidesComma.mono {us vs : List TokenTree} (h : us.Sublist vs) (hides : HidesComma us) :
    HidesComma vs :=
  hides.imp (·.trans (signs_sublist h)) (·.trans (signs_sublist h))

/-- No semicolon stands in the open, and a comma only where it is hidden. -/
structure Neat (ts : List TokenTree) : Prop where
  semicolon : ';' ∉ signs ts
  comma : ',' ∈ signs ts → HidesComma ts

theorem neat_nil : Neat [] := ⟨List.not_mem_nil, fun h => absurd h List.not_mem_nil⟩

theorem Neat.append {us vs : List TokenTree} (hus : Neat us) (hvs : Neat vs) : Neat (us ++ vs) := by
  constructor
  · rw [signs_append, List.mem_append]
    exact not_or.2 ⟨hus.semicolon, hvs.semicolon⟩
  · rw [signs_append, List.mem_append]
    rintro (h | h)
    · exact (hus.comma h).mono (List.sublist_append_left us vs)
    · exact (hvs.comma h).mono (List.sublist_append_right us vs)

/-- Signs of which none is a comma or a semicolon. -/
theorem neat_of_signs {ts : List TokenTree} (hcomma : ',' ∉ signs ts) (hsemicolon : ';' ∉ signs ts) :
    Neat ts :=
  ⟨hsemicolon, fun h => absurd h hcomma⟩

/-! ## Levels -/

namespace TokenTree

/-- Keywords that come before or between the parts of an expression. -/
def levelWords : List String := ["as", "else", "for", "if", "in", "return", "while"]

/-- The levels that a token adds to all that follow it. -/
def weight : TokenTree → Nat
  | .punct c _ _ => if c ∈ [',', ';', '\x27'] then 0 else 1
  | .word w _ => if w ∈ levelWords then 1 else 0
  | .literal .. | .group .. => 0

/-- Whether the token ends what has been counted. -/
def separates : TokenTree → Bool
  | .punct c _ _ => c = ',' || c = ';'
  | _ => false

mutual

/-- The levels that there are in a tree. Commas between brackets count as separators unless one of them is
hidden. -/
def reach : TokenTree → Nat
  | .group _ body _ => peak (!decide (HidesComma body)) 0 body + 1
  | _ => 0

/-- The most levels that there are at one time, after so many in front. A separator takes back those that
have been counted, if separators count. -/
def peak (resets : Bool) (count : Nat) : List TokenTree → Nat
  | [] => count
  | t :: ts =>
    if resets && t.separates then max count (peak resets 0 ts)
    else max (count + t.reach) (peak resets (count + t.weight) ts)

end

end TokenTree

open TokenTree

/-- The operators and keywords in the open. -/
def ops : List TokenTree → Nat
  | [] => 0
  | t :: ts => t.weight + ops ts

/-- The most levels at one time where no separator counts. -/
def deep (ts : List TokenTree) : Nat := peak false 0 ts

theorem ops_append (us vs : List TokenTree) : ops (us ++ vs) = ops us + ops vs := by
  induction us with
  | nil => rw [List.nil_append, ops, Nat.zero_add]
  | cons t us ih => rw [List.cons_append, ops, ops, ih, Nat.add_assoc]

theorem peak_false (count : Nat) (ts : List TokenTree) : peak false count ts = count + deep ts := by
  unfold deep
  induction ts generalizing count with
  | nil => simp [peak]
  | cons t ts ih =>
    simp only [peak, Bool.false_and, Bool.false_eq_true, if_false]
    rw [ih (count + t.weight), ih (0 + t.weight)]
    omega

theorem deep_cons (t : TokenTree) (ts : List TokenTree) :
    deep (t :: ts) = max t.reach (t.weight + deep ts) := by
  rw [deep, peak]
  simp [peak_false]

theorem deep_append (us vs : List TokenTree) : deep (us ++ vs) = max (deep us) (ops us + deep vs) := by
  induction us with
  | nil => simp [ops, deep, peak]
  | cons t us ih =>
    rw [List.cons_append, deep_cons, deep_cons, ih, ops]
    omega

theorem ops_le_deep (ts : List TokenTree) : ops ts ≤ deep ts := by
  have h := deep_append ts []
  rw [List.append_nil] at h
  omega

/-- A punctuation mark that separates nothing is a level. -/
theorem ops_pos_of_sign {c : Char} {ts : List TokenTree} (hc : c ∈ signs ts)
    (hlevel : c ∉ [',', ';', '\x27']) : 0 < ops ts := by
  obtain ⟨t, ht, hsign⟩ := List.mem_filterMap.1 hc
  obtain ⟨before, behind, rfl⟩ := List.append_of_mem ht
  cases t with
  | punct d joint s =>
    obtain rfl := Option.some.inj hsign
    have hweight : weight (.punct d joint s) = 1 := if_neg hlevel
    rw [ops_append, ops]
    omega
  | word | literal | group => cases hsign

theorem count_le_peak (resets : Bool) (count : Nat) (ts : List TokenTree) : count ≤ peak resets count ts := by
  induction ts generalizing count with
  | nil => exact Nat.le_refl count
  | cons t ts ih =>
    rw [peak]
    split
    · exact Nat.le_max_left _ _
    · have := ih (count + t.weight)
      omega

/-- What is left out in front of or behind some of the tokens lowers nothing. -/
theorem deep_mono {us vs : List TokenTree} (h : us <:+: vs) : deep us ≤ deep vs := by
  obtain ⟨before, after, rfl⟩ := h
  have hbefore := deep_append before (us ++ after)
  have hus := deep_append us after
  rw [← List.append_assoc] at hbefore
  omega

theorem ops_mono {us vs : List TokenTree} (h : us <:+: vs) : ops us ≤ ops vs := by
  obtain ⟨before, after, rfl⟩ := h
  rw [ops_append, ops_append]
  omega

/-- Tokens without a separator are counted in full, wherever they stand. -/
theorem deep_le_peak_of_infix {us vs : List TokenTree} (h : us <:+: vs) (hus : ∀ t ∈ us, t.separates = false)
    (count : Nat) : deep us ≤ peak true count vs := by
  have hfront {us vs : List TokenTree} (h : us <+: vs) (hus : ∀ t ∈ us, t.separates = false) (count : Nat) :
      count + deep us ≤ peak true count vs := by
    induction us generalizing vs count with
    | nil => exact count_le_peak true count vs
    | cons t us ih =>
      obtain ⟨rest, rfl⟩ := h
      obtain ⟨ht, hus⟩ := List.forall_mem_cons.1 hus
      have hrest := ih (List.prefix_append us rest) hus (count + t.weight)
      rw [List.cons_append, peak, ht, deep_cons]
      simp only [Bool.and_false, Bool.false_eq_true, if_false]
      omega
  obtain ⟨before, after, rfl⟩ := h
  induction before generalizing count with
  | nil =>
    have := hfront (List.prefix_append us after) hus count
    rw [List.nil_append]
    omega
  | cons t before ih =>
    rw [List.cons_append, List.cons_append, peak]
    split
    · exact (ih 0).trans (Nat.le_max_right _ _)
    · exact (ih (count + t.weight)).trans (Nat.le_max_right _ _)

theorem Neat.not_separates {ts : List TokenTree} (h : Neat ts) (hcomma : ',' ∉ signs ts) :
    ∀ t ∈ ts, t.separates = false := by
  intro t ht
  cases t with
  | punct c joint s =>
    have hc : c ∈ signs ts := List.mem_filterMap.2 ⟨_, ht, rfl⟩
    simp only [separates, Bool.or_eq_false_iff, decide_eq_false_iff_not]
    exact ⟨fun h => hcomma (h ▸ hc), fun h' => h.semicolon (h' ▸ hc)⟩
  | word | literal | group => rfl

/-- What is read between separators is counted in full. -/
theorem deep_le_peak {us vs : List TokenTree} (h : us <:+: vs) (hus : Neat us) :
    deep us ≤ peak (!decide (HidesComma vs)) 0 vs := by
  by_cases hides : HidesComma vs
  · rw [decide_eq_true hides]
    exact deep_mono h
  · rw [decide_eq_false hides]
    have hcomma : ',' ∉ signs us := fun hmem => hides ((hus.comma hmem).mono h.sublist)
    exact deep_le_peak_of_infix h (hus.not_separates hcomma) 0

/-- A group holds what is read in it. -/
theorem deep_lt_reach {d : Delimiter} {body us : List TokenTree} {s : Notebook.Text.Span} (h : us <:+: body)
    (hus : Neat us) : deep us < deep [.group d body s] := by
  have := deep_le_peak h hus
  rw [deep_cons, reach]
  omega

end Notebook.Syntax

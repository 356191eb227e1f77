import Mathlib.Algebra.Ring.Nat
import Notebook.Proofs.Scan.Nesting

/-!
# What the nesting of a text counts

The depth of a text is kept up to date token by token, by additions and subtractions.  Here it is counted
afresh (`depthOf`): the groups that are open, and in each of them the operators and keywords that no comma or
semicolon of the group stands behind.  Both come to the same at every token, nothing is ever taken from a depth
that is smaller, and a text is refused at its first token behind which this number exceeds the limit
(`nesting_is_counted`).
-/

namespace Notebook.Scan
open Notebook.Text

/-! ## Groups that are open -/

/-- How many groups are open behind some events, besides the outermost one. A closing bracket that answers no
opening one closes nothing. -/
def openGroups (es : List Event) : Nat :=
  es.foldl (fun n e =>
    match e with
    | .opens => n + 1
    | .closes => n - 1
    | .separates | .raises | .passes => n) 0

@[simp] theorem openGroups_nil : openGroups [] = 0 := rfl

theorem openGroups_concat (es : List Event) (e : Event) :
    openGroups (es ++ [e]) =
      match e with
      | .opens => openGroups es + 1
      | .closes => openGroups es - 1
      | .separates | .raises | .passes => openGroups es := by
  unfold openGroups
  rw [List.foldl_append]
  rfl

/-- The event at place `j` is an operator or a keyword that counts for the open group with `level` groups
around it: it stands in this group, the group has not been closed since, and no comma or semicolon of the group
stands behind it. -/
structure CountsFor (es : List Event) (level j : Nat) : Prop where
  raises : es[j]? = some .raises
  inGroup : openGroups (es.take j) = level
  stillOpen : ∀ k ≤ es.length, j < k → level ≤ openGroups (es.take k)
  notSeparated : ∀ k < es.length, j < k → es[k]? = some .separates → openGroups (es.take k) ≠ level

instance (es : List Event) (level j : Nat) : Decidable (CountsFor es level j) :=
  decidable_of_iff (_ ∧ _ ∧ _ ∧ _)
    ⟨fun ⟨h, h', h'', h'''⟩ => ⟨h, h', h'', h'''⟩, fun ⟨h, h', h'', h'''⟩ => ⟨h, h', h'', h'''⟩⟩

/-- The operators and keywords of an open group since its last comma or semicolon. -/
def weight (es : List Event) (level : Nat) : Nat :=
  (List.range es.length).countP fun j => decide (CountsFor es level j)

/-- The depth of a text with these events: its open groups, the outermost one among them, and the operators
and keywords that each of them has since its last comma or semicolon. -/
def depthOf (es : List Event) : Nat :=
  openGroups es + 1 + ((List.range (openGroups es + 1)).map (weight es)).sum

/-! ## One more event -/

variable {es : List Event} {e : Event} {level j : Nat}

/-- What counts goes on to count, unless the event closes the group or is a separator of it. -/
theorem countsFor_concat_of_lt (hj : j < es.length) :
    CountsFor (es ++ [e]) level j ↔
      CountsFor es level j ∧ level ≤ openGroups (es ++ [e]) ∧ ¬ (e = .separates ∧ openGroups es = level) := by
  have htake {k : Nat} (hk : k ≤ es.length) : (es ++ [e]).take k = es.take k :=
    List.take_append_of_le_length hk
  have hget {k : Nat} (hk : k < es.length) : (es ++ [e])[k]? = es[k]? := List.getElem?_append_left hk
  have hlength : (es ++ [e]).length = es.length + 1 := List.length_append
  have hlast : (es ++ [e])[es.length]? = some e := List.getElem?_concat_length
  constructor
  · rintro ⟨hraises, hgroup, hopen, hseparated⟩
    refine ⟨⟨hget hj ▸ hraises, htake hj.le ▸ hgroup, fun k hk hjk => ?_, fun k hk hjk hsep => ?_⟩, ?_, ?_⟩
    · rw [← htake hk]
      exact hopen k (by omega) hjk
    · rw [← htake hk.le]
      exact hseparated k (by omega) hjk (hget hk ▸ hsep)
    · -- the last place is the one behind the new event
      have := hopen (es.length + 1) hlength.ge (by omega)
      rwa [← hlength, List.take_length] at this
    · rintro ⟨rfl, hlevel⟩
      refine hseparated es.length (by omega) hj hlast ?_
      rwa [htake le_rfl, List.take_length]
  · rintro ⟨⟨hraises, hgroup, hopen, hseparated⟩, hlevel, hnot⟩
    refine ⟨(hget hj).symm ▸ hraises, (htake hj.le).symm ▸ hgroup, fun k hk hjk => ?_, fun k hk hjk hsep => ?_⟩
    · rcases Nat.lt_or_ge es.length k with hlt | hle
      · obtain rfl : k = (es ++ [e]).length := by omega
        rwa [List.take_length]
      · rw [htake hle]
        exact hopen k hle hjk
    · rcases Nat.lt_or_ge k es.length with hlt | hle
      · rw [htake hlt.le]
        exact hseparated k hlt hjk (hget hlt ▸ hsep)
      · obtain rfl : k = es.length := by omega
        rw [htake le_rfl, List.take_length]
        exact fun heq => hnot ⟨Option.some.inj (hlast.symm.trans hsep), heq⟩

/-- A new operator or keyword counts for the innermost group. -/
theorem countsFor_concat_length :
    CountsFor (es ++ [e]) level es.length ↔ e = .raises ∧ openGroups es = level := by
  have hlast : (es ++ [e])[es.length]? = some e := List.getElem?_concat_length
  have htake : (es ++ [e]).take es.length = es := List.take_left
  have hlength : (es ++ [e]).length = es.length + 1 := List.length_append
  constructor
  · rintro ⟨hraises, hgroup, -, -⟩
    exact ⟨Option.some.inj (hlast.symm.trans hraises), htake ▸ hgroup⟩
  · rintro ⟨rfl, rfl⟩
    refine ⟨hlast, by rw [htake], fun k hk hlt => ?_, fun k hk hlt => by omega⟩
    obtain rfl : k = (es ++ [Event.raises]).length := by omega
    rw [List.take_length, openGroups_concat]

theorem weight_concat (es : List Event) (e : Event) (level : Nat) :
    weight (es ++ [e]) level =
      (if level ≤ openGroups (es ++ [e]) ∧ ¬ (e = .separates ∧ openGroups es = level) then weight es level
        else 0) +
        if e = .raises ∧ openGroups es = level then 1 else 0 := by
  have hold : (List.range es.length).countP (fun j => decide (CountsFor (es ++ [e]) level j)) =
      if level ≤ openGroups (es ++ [e]) ∧ ¬ (e = .separates ∧ openGroups es = level) then weight es level
        else 0 := by
    split_ifs with hstays
    · refine List.countP_congr fun j hj => ?_
      rw [decide_eq_true_iff, decide_eq_true_iff, countsFor_concat_of_lt (List.mem_range.1 hj)]
      exact ⟨fun h => h.1, fun h => ⟨h, hstays⟩⟩
    · refine List.countP_eq_zero.2 fun j hj => ?_
      rw [decide_eq_true_iff, countsFor_concat_of_lt (List.mem_range.1 hj)]
      exact fun h => hstays h.2
  rw [weight, List.length_append, List.length_singleton, List.range_succ, List.countP_append, hold,
    List.countP_singleton]
  simp only [decide_eq_true_iff, countsFor_concat_length]

/-- No more groups are open than there are. -/
theorem weight_eq_zero (h : openGroups es < level) : weight es level = 0 := by
  refine List.countP_eq_zero.2 fun j hj => ?_
  rw [decide_eq_true_iff]
  intro hcounts
  have hopen := hcounts.stillOpen es.length le_rfl (List.mem_range.1 hj)
  rw [List.take_length] at hopen
  omega

/-! ## The depth that is kept -/

/-- The nesting behind some events has the weights of the open groups, and their depth. -/
structure Nesting.Tells (n : Nesting) (es : List Event) : Prop where
  inner : n.inner = weight es (openGroups es)
  outer : n.outer = (List.range (openGroups es)).reverse.map (weight es)
  depth : n.depth = n.inner + (n.outer.sum + n.outer.length) + 1

theorem Nesting.tells_start : Nesting.Tells {} [] := ⟨rfl, rfl, rfl⟩

/-- An event changes nothing in the groups around the innermost one. -/
theorem weight_concat_of_lt (h : level < openGroups es) : weight (es ++ [e]) level = weight es level := by
  have hopen : level ≤ openGroups (es ++ [e]) := by
    rw [openGroups_concat]
    cases e <;> dsimp only <;> omega
  rw [weight_concat, if_pos ⟨hopen, fun hsep => by omega⟩, if_neg fun hraises => by omega, Nat.add_zero]

theorem map_weight_concat (es : List Event) (e : Event) :
    (List.range (openGroups es)).reverse.map (weight (es ++ [e])) =
      (List.range (openGroups es)).reverse.map (weight es) := by
  refine List.map_congr_left fun level hlevel => weight_concat_of_lt ?_
  rw [List.mem_reverse] at hlevel
  exact List.mem_range.1 hlevel

/-- The open groups, innermost first, where there is one besides the outermost. -/
theorem map_range_succ (f : Nat → Nat) (n : Nat) :
    (List.range (n + 1)).reverse.map f = f n :: (List.range n).reverse.map f := by
  rw [List.range_succ, List.reverse_append]
  rfl

/-- What is kept of the nesting stays true with every event. -/
theorem Nesting.Tells.next {n : Nesting} (h : n.Tells es) (e : Event) : (n.next e).Tells (es ++ [e]) := by
  obtain ⟨inner, outer, depth⟩ := n
  obtain ⟨hinner, houter, hdepth⟩ := h
  dsimp only at hinner houter hdepth
  have hopen := openGroups_concat es e
  have hweight := weight_concat es e (openGroups es)
  have hmap := map_weight_concat es e
  cases e with
  | opens =>
    dsimp only at hopen
    refine ⟨?_, ?_, ?_⟩
    · -- the new group is empty
      show 0 = _
      rw [hopen, weight_concat, weight_eq_zero (Nat.lt_succ_self _)]
      simp
    · show inner :: outer = _
      rw [hopen, map_range_succ, hmap, ← houter, hweight, hinner]
      simp [hopen]
    · show depth + 1 = 0 + ((inner :: outer).sum + (inner :: outer).length) + 1
      rw [List.sum_cons, List.length_cons]
      omega
  | closes =>
    dsimp only at hopen
    cases hlevel : openGroups es with
    | zero =>
      -- the closing bracket answers none, and all stays as it was
      rw [hlevel] at hopen houter hinner hweight
      subst houter
      refine ⟨?_, ?_, hdepth⟩
      · show inner = _
        rw [hopen, hweight, hinner]
        simp
      · show [] = _
        rw [hopen]
        rfl
    | succ level =>
      rw [hlevel, map_range_succ] at houter
      rw [hlevel, Nat.add_sub_cancel] at hopen
      subst houter
      rw [hlevel, map_range_succ, map_range_succ] at hmap
      obtain ⟨hhead, htail⟩ := List.cons.inj hmap
      refine ⟨?_, ?_, ?_⟩
      · show weight es level = _
        rw [hopen, hhead]
      · show (List.range level).reverse.map (weight es) = _
        rw [hopen, htail]
      · show depth - (inner + 1) = weight es level + _ + 1
        rw [List.sum_cons, List.length_cons] at hdepth
        show depth - (inner + 1) = weight es level +
          (((List.range level).reverse.map (weight es)).sum + ((List.range level).reverse.map (weight es)).length) + 1
        omega
  | separates =>
    dsimp only at hopen
    refine ⟨?_, ?_, ?_⟩
    · show 0 = _
      rw [hopen, hweight]
      simp
    · show outer = _
      rw [hopen, hmap, houter]
    · show depth - inner = 0 + (outer.sum + outer.length) + 1
      omega
  | raises =>
    dsimp only at hopen
    refine ⟨?_, ?_, ?_⟩
    · show inner + 1 = _
      rw [hopen, hweight, hinner]
      simp [hopen]
    · show outer = _
      rw [hopen, hmap, houter]
    · show depth + 1 = inner + 1 + (outer.sum + outer.length) + 1
      omega
  | passes =>
    dsimp only at hopen
    refine ⟨?_, ?_, hdepth⟩
    · show inner = _
      rw [hopen, hweight, hinner]
      simp [hopen]
    · show outer = _
      rw [hopen, hmap, houter]

theorem Nesting.Tells.depth_eq {n : Nesting} (h : n.Tells es) : n.depth = depthOf es := by
  have houter : n.outer.length = openGroups es := by
    rw [h.outer, List.length_map, List.length_reverse, List.length_range]
  have hsum : n.outer.sum = ((List.range (openGroups es)).map (weight es)).sum := by
    rw [h.outer, List.map_reverse, List.sum_reverse]
  rw [depthOf, List.range_succ, List.map_append, List.sum_append, List.map_singleton, List.sum_singleton,
    h.depth, h.inner, houter, hsum]
  omega

/-- What an event adds to the depth or takes from it. -/
def Nesting.change (n : Nesting) : Event → Int
  | .opens | .raises => 1
  | .closes => if n.outer = [] then 0 else -(n.inner + 1)
  | .separates => -n.inner
  | .passes => 0

/-- The depth changes by just what an event adds or takes: never is more taken than there is. -/
theorem Nesting.Tells.depth_next {n : Nesting} (h : n.Tells es) (e : Event) :
    ((n.next e).depth : Int) = n.depth + n.change e := by
  obtain ⟨inner, outer, depth⟩ := n
  have hdepth := h.depth
  dsimp only at hdepth
  cases e with
  | opens => exact Int.natCast_succ depth
  | closes =>
    cases outer with
    | nil => exact (Int.add_zero _).symm
    | cons weight outer =>
      show ((depth - (inner + 1) : Nat) : Int) = depth + -((inner : Int) + 1)
      omega
  | separates =>
    show ((depth - inner : Nat) : Int) = depth + -(inner : Int)
    omega
  | raises => exact Int.natCast_succ depth
  | passes => exact (Int.add_zero _).symm

/-! ## Texts -/

/-- The tokens of a text that carry meaning. -/
def significant (cs : List Char) : List Token := (tokens cs).filter (·.isSignificant)

/-- The nesting that is kept up to date over some tokens. -/
def Nesting.after (ts : List Token) : Nesting := ts.foldl Nesting.step {}

theorem Nesting.after_concat (ts : List Token) (t : Token) :
    Nesting.after (ts ++ [t]) = (Nesting.after ts).step t := by
  rw [after, List.foldl_append]
  rfl

theorem Nesting.tells_after (ts : List Token) : (Nesting.after ts).Tells (ts.map Token.event) := by
  induction ts using List.reverseRecOn with
  | nil => exact tells_start
  | append_singleton ts t ih =>
    rw [after_concat, step_eq_next, List.map_append]
    exact ih.next t.event

theorem overflowFrom?_cons (limit : Nat) (n : Nesting) (t : Token) (ts : List Token) :
    overflowFrom? limit n (t :: ts) =
      if limit < (n.step t).depth then some t else overflowFrom? limit (n.step t) ts := rfl

/-- No token leads over the limit if no front of them does. -/
theorem overflowFrom?_eq_none_iff {limit : Nat} {n : Nesting} {ts : List Token} :
    overflowFrom? limit n ts = none ↔
      ∀ front, front <+: ts → front ≠ [] → (front.foldl Nesting.step n).depth ≤ limit := by
  induction ts generalizing n with
  | nil => exact ⟨fun _ front hfront hne => absurd (List.prefix_nil.1 hfront) hne, fun _ => rfl⟩
  | cons t ts ih =>
    rw [overflowFrom?_cons]
    split_ifs with hover
    · refine ⟨fun h => h.elim, fun h => ?_⟩
      have hfirst := h [t] ⟨ts, rfl⟩ (List.cons_ne_nil _ _)
      exact absurd hover (Nat.not_lt.2 hfirst)
    · rw [ih]
      constructor
      · rintro h (- | ⟨u, front⟩) hfront hne
        · exact absurd rfl hne
        · obtain ⟨rfl, htail⟩ := List.cons_prefix_cons.1 hfront
          cases front with
          | nil => exact Nat.le_of_not_lt hover
          | cons v front => exact h (v :: front) htail (List.cons_ne_nil _ _)
      · intro h front hfront _
        exact h (t :: front) (List.cons_prefix_cons.2 ⟨rfl, hfront⟩) (List.cons_ne_nil _ _)

/-- The first of some tokens behind which the depth exceeds the limit. -/
theorem overflowFrom?_eq_some_iff {limit : Nat} {n : Nesting} {ts : List Token} {t : Token} :
    overflowFrom? limit n ts = some t ↔
      ∃ before behind, ts = before ++ t :: behind ∧ overflowFrom? limit n before = none ∧
        limit < ((before ++ [t]).foldl Nesting.step n).depth := by
  induction ts generalizing n with
  | nil =>
    refine ⟨fun h => (Option.some_ne_none _ h.symm).elim, ?_⟩
    rintro ⟨before, behind, hts, -⟩
    exact absurd hts.symm (List.append_ne_nil_of_right_ne_nil before (List.cons_ne_nil t behind))
  | cons first ts ih =>
    rw [overflowFrom?_cons]
    split_ifs with hover
    · constructor
      · intro h
        obtain rfl := Option.some.inj h
        exact ⟨[], ts, rfl, rfl, hover⟩
      · rintro ⟨before, behind, hts, hwithin, -⟩
        cases before with
        | nil => exact congrArg some (List.cons.inj hts).1
        | cons u before =>
          obtain ⟨rfl, -⟩ := List.cons.inj hts
          rw [overflowFrom?_cons, if_pos hover] at hwithin
          cases hwithin
    · rw [ih]
      constructor
      · rintro ⟨before, behind, rfl, hwithin, hdepth⟩
        refine ⟨first :: before, behind, rfl, ?_, hdepth⟩
        rwa [overflowFrom?_cons, if_neg hover]
      · rintro ⟨before, behind, hts, hwithin, hdepth⟩
        cases before with
        | nil =>
          obtain ⟨rfl, -⟩ := List.cons.inj hts
          exact absurd hdepth hover
        | cons u before =>
          obtain ⟨rfl, rfl⟩ := List.cons.inj hts
          rw [overflowFrom?_cons, if_neg hover] at hwithin
          exact ⟨before, behind, rfl, hwithin, hdepth⟩

/-- The depth that is counted behind some tokens. -/
def depthBehind (ts : List Token) : Nat := depthOf (ts.map Token.event)

theorem Nesting.depth_after (ts : List Token) : (Nesting.after ts).depth = depthBehind ts :=
  (Nesting.tells_after ts).depth_eq

/-- Some tokens come behind none of which the depth exceeds the limit. -/
def WithinLimit (limit : Nat) (ts : List Token) : Prop :=
  ∀ front, front <+: ts → front ≠ [] → depthBehind front ≤ limit

theorem withinLimit_iff {limit : Nat} {ts : List Token} :
    overflowFrom? limit {} ts = none ↔ WithinLimit limit ts := by
  rw [overflowFrom?_eq_none_iff]
  refine forall_congr' fun front => ?_
  rw [← Nesting.depth_after]
  rfl

/-- Behind every token, the depth that is kept up to date is the depth that is counted, and no subtraction on
the way has cut it off at zero.  A text is refused at the first token behind which this depth exceeds the limit,
and let through if there is none, so that a higher limit refuses no more texts. -/
theorem nesting_is_counted (cs : List Char) (limit : Nat) :
    (∀ before t behind, significant cs = before ++ t :: behind →
      (Nesting.after (before ++ [t])).depth = depthBehind (before ++ [t]) ∧
      ((Nesting.after (before ++ [t])).depth : Int) =
        (Nesting.after before).depth + (Nesting.after before).change t.event) ∧
    (∀ t, nestingOverflow? cs limit = some t ↔
      ∃ before behind, significant cs = before ++ t :: behind ∧
        WithinLimit limit before ∧ limit < depthBehind (before ++ [t])) ∧
    (nestingOverflow? cs limit = none ↔ WithinLimit limit (significant cs)) ∧
    ∀ higher, limit ≤ higher → nestingOverflow? cs limit = none → nestingOverflow? cs higher = none := by
  have hnone (limit : Nat) : nestingOverflow? cs limit = none ↔ WithinLimit limit (significant cs) := withinLimit_iff
  refine ⟨fun before t behind _ => ⟨Nesting.depth_after _, ?_⟩, fun t => ?_, hnone limit, fun higher hle h => ?_⟩
  · rw [Nesting.after_concat, Nesting.step_eq_next]
    exact (Nesting.tells_after before).depth_next t.event
  · refine overflowFrom?_eq_some_iff.trans ?_
    refine exists_congr fun before => exists_congr fun behind => and_congr_right fun _ => ?_
    rw [withinLimit_iff, ← Nesting.depth_after]
    rfl
  · rw [hnone] at h ⊢
    exact fun front hfront hne => (h front hfront hne).trans hle

/-- A bracket that answers no other, and two that are open: the outermost group has an operator, and so has the
one around the innermost, since its comma. -/
theorem strayBracket_is_counted :
    let text := "a) + f(b, -(c".toList
    let before := (significant text).take 8
    let t : Token := ⟨⟨.punctuation, ['('], true⟩, 11, 12⟩
    significant text = before ++ t :: (significant text).drop 9 ∧
      (Nesting.after (before ++ [t])).depth = 5 ∧ depthBehind (before ++ [t]) = 5 ∧
      nestingOverflow? text 4 = some t ∧ nestingOverflow? text 5 = none ∧ nestingOverflow? text 7 = none := by
  intro text before t
  have hsplit : significant text = before ++ t :: (significant text).drop 9 := by decide +kernel
  have hdepth : (Nesting.after (before ++ [t])).depth = 5 := by decide +kernel
  have hwithin : WithinLimit 4 before := withinLimit_iff.1 (by decide +kernel)
  have hfive : nestingOverflow? text 5 = none := by decide +kernel
  obtain ⟨hcounted, -, -, -⟩ := nesting_is_counted text 5
  have hsame := (hcounted before t _ hsplit).1
  have hfirst := ((nesting_is_counted text 4).2.1 t).2 ⟨before, _, hsplit, hwithin, by omega⟩
  exact ⟨hsplit, hdepth, hsame ▸ hdepth, hfirst, hfive, (nesting_is_counted text 5).2.2.2 7 (by decide) hfive⟩

end Notebook.Scan

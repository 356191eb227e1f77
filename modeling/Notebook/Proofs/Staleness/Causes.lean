import Mathlib.Data.Finset.Card
import Mathlib.Data.List.Forall2
import Mathlib.Data.List.Induction
import Mathlib.Logic.Relation
import Mathlib.Order.Lattice.Nat
import Notebook.Staleness.CauseGraph

/-!
# What causes are noted, and how far they reach

A graph of causes is built by noting pairs of a cause and an effect.  Whatever was noted, and however
often, the graph answers for the pairs: each of them once, in the order in which they were noted first;
and what is found to be affected by a snippet is what can be reached from it along the pairs, the nearest
first (`causes_answer_reachability`).

A graph draws a list of pairs if its arcs lead between the places of their snippets and no two snippets
share a place (`Draws`); what it says of neighbours is then said of the pairs (`Draws.neighbours_eq`).
That the search finds the nearest snippets first is an invariant of its queue (`Spreads`).
-/

namespace Notebook

/-! ## Steps and distances -/

section Ways

variable {α : Type} (r : α → α → Prop) (start : α)

/-- There is a way of so many steps. -/
inductive Way : Nat → α → Prop
  | here : Way 0 start
  | on {n : Nat} {via stop : α} (way : Way n via) (step : r via stop) : Way (n + 1) stop

/-- The length of the shortest way. -/
noncomputable def distance (stop : α) : Nat := sInf {n | Way r start n stop}

variable {r start}

/-- What can be reached is where some way leads. -/
theorem exists_way_iff {stop : α} : (∃ n, Way r start n stop) ↔ Relation.ReflTransGen r start stop := by
  constructor
  · rintro ⟨n, way⟩
    induction way with
    | here => exact .refl
    | on _ step ih => exact ih.tail step
  · intro h
    induction h with
    | refl => exact ⟨0, .here⟩
    | tail _ step ih =>
      obtain ⟨n, way⟩ := ih
      exact ⟨n + 1, way.on step⟩

theorem way_distance {n : Nat} {stop : α} (way : Way r start n stop) :
    Way r start (distance r start stop) stop :=
  Nat.sInf_mem (s := {n | Way r start n stop}) ⟨n, way⟩

theorem distance_le {n : Nat} {stop : α} (way : Way r start n stop) : distance r start stop ≤ n :=
  Nat.sInf_le way

theorem distance_start : distance r start start = 0 := Nat.le_zero.1 (distance_le .here)

/-- The last step of a shortest way comes from a snippet that is one step nearer. -/
theorem exists_nearer {n : Nat} {stop : α} (way : Way r start n stop) (hstop : stop ≠ start) :
    ∃ via, r via stop ∧ Way r start (distance r start via) via ∧
      distance r start stop = distance r start via + 1 := by
  have hway := way_distance way
  generalize hlength : distance r start stop = length at hway
  cases hway with
  | here => exact absurd rfl hstop
  | @on m via _ hvia step =>
    refine ⟨via, step, way_distance hvia, ?_⟩
    have hless : distance r start via ≤ m := distance_le hvia
    have hmore : distance r start stop ≤ distance r start via + 1 := distance_le ((way_distance hvia).on step)
    omega

end Ways

/-- The pair of the two ends. -/
def Direction.pair {α : Type} (d : Direction) (near far : α) : α × α :=
  match d with
  | .forwards => (near, far)
  | .backwards => (far, near)

namespace CauseGraph

/-- The graph after pairs of a cause and an effect have been noted. -/
def after (calls : List (SnippetId × SnippetId)) : CauseGraph :=
  calls.foldl (fun g call => g.add call.1 call.2) {}

theorem after_concat (calls : List (SnippetId × SnippetId)) (call : SnippetId × SnippetId) :
    after (calls ++ [call]) = (after calls).add call.1 call.2 := by
  rw [after, List.foldl_append]
  rfl

/-! ## The pairs that a graph draws -/

/-- A snippet has a place. -/
def At (g : CauseGraph) (place : Nat) (id : SnippetId) : Prop := g.places.get? id = some place

/-- An arc leads from the place of a cause to that of its effect. -/
def Joins (g : CauseGraph) (arc : Nat × Nat) (pair : SnippetId × SnippetId) : Prop :=
  g.At arc.1 pair.1 ∧ g.At arc.2 pair.2

/-- The arcs are those of some pairs, the newest pair first. The snippet that has a place is the one that
stands there. -/
structure Draws (g : CauseGraph) (pairs : List (SnippetId × SnippetId)) : Prop where
  places : ∀ place id, g.At place id ↔ g.network.nodes[place]? = some id
  arcs : List.Forall₂ g.Joins g.network.arcs pairs

variable {g : CauseGraph} {pairs : List (SnippetId × SnippetId)}

theorem Joins.near {arc : Nat × Nat} {pair : SnippetId × SnippetId} (h : g.Joins arc pair) (d : Direction) :
    g.At (d.near arc) (d.near pair) := by
  cases d
  · exact h.1
  · exact h.2

theorem Joins.far {arc : Nat × Nat} {pair : SnippetId × SnippetId} (h : g.Joins arc pair) (d : Direction) :
    g.At (d.far arc) (d.far pair) := by
  cases d
  · exact h.2
  · exact h.1

namespace Draws

theorem eq_iff_eq (h : g.Draws pairs) {place place' : Nat} {id id' : SnippetId} (hid : g.At place id)
    (hid' : g.At place' id') : place = place' ↔ id = id' := by
  constructor
  · rintro rfl
    exact Option.some.inj (((h.places _ _).1 hid).symm.trans ((h.places _ _).1 hid'))
  · rintro rfl
    exact Option.some.inj (hid.symm.trans hid')

/-- Since no two snippets share a place, there is one arc for a pair. -/
theorem mem_arcs_iff (h : g.Draws pairs) {arc : Nat × Nat} {pair : SnippetId × SnippetId}
    (hjoins : g.Joins arc pair) : arc ∈ g.network.arcs ↔ pair ∈ pairs := by
  have hunique : Relator.BiUnique g.Joins := by
    refine ⟨fun arc arc' pair harc harc' => ?_, fun arc pair pair' hpair hpair' => ?_⟩
    · exact Prod.ext ((h.eq_iff_eq harc.1 harc'.1).2 rfl) ((h.eq_iff_eq harc.2 harc'.2).2 rfl)
    · exact Prod.ext ((h.eq_iff_eq hpair.1 hpair'.1).1 rfl) ((h.eq_iff_eq hpair.2 hpair'.2).1 rfl)
  exact List.rel_mem hunique hjoins h.arcs

theorem edgeCount_eq (h : g.Draws pairs) : g.edgeCount = pairs.length := h.arcs.length_eq

end Draws

theorem place_of_get? {place : Nat} {id : SnippetId} (hid : g.places.get? id = some place) :
    g.place id = (place, g) := by
  rw [CauseGraph.place, hid]

/-- A snippet that has no place gets the one behind all others. -/
theorem place_of_new {id : SnippetId} (hid : g.places.get? id = none) :
    g.place id = (g.network.nodes.length,
      ⟨(g.network.addNode id).2, g.places.put id g.network.nodes.length⟩) := by
  rw [CauseGraph.place, hid]
  rfl

theorem at_place (g : CauseGraph) (id : SnippetId) : (g.place id).2.At (g.place id).1 id := by
  cases hid : g.places.get? id with
  | some place => rw [place_of_get? hid]; exact hid
  | none => rw [place_of_new hid]; exact (Table.get?_put _ _ _ _).trans (if_pos rfl)

theorem At.place {place : Nat} {other : SnippetId} (h : g.At place other) (id : SnippetId) :
    (g.place id).2.At place other := by
  cases hid : g.places.get? id with
  | some place => rw [place_of_get? hid]; exact h
  | none =>
    have hother : id ≠ other := fun hother => Option.some_ne_none _ (h.symm.trans (hother ▸ hid))
    rw [place_of_new hid]
    exact (Table.get?_put _ _ _ _).trans ((if_neg hother).trans h)

theorem Draws.place (h : g.Draws pairs) (id : SnippetId) : (g.place id).2.Draws pairs := by
  cases hid : g.places.get? id with
  | some place => rw [place_of_get? hid]; exact h
  | none =>
    have harcs : (g.place id).2.network.arcs = g.network.arcs := by rw [place_of_new hid]; rfl
    have hnodes : (g.place id).2.network.nodes = g.network.nodes ++ [id] := by rw [place_of_new hid]; rfl
    have hplaces : (g.place id).2.places = g.places.put id g.network.nodes.length := by
      rw [place_of_new hid]
    refine ⟨fun place other => ?_, harcs ▸ h.arcs.imp fun arc pair hjoins => ?_⟩
    · have hconcat : (g.network.nodes ++ [id])[place]? = some other ↔
          g.network.nodes[place]? = some other ∨ g.network.nodes.length = place ∧ id = other := by
        grind
      rw [At, hplaces, Table.get?_put, hnodes, hconcat, ← h.places]
      by_cases hother : id = other
      · -- so far the snippet has stood nowhere
        have hnowhere : ¬ g.At place other := fun hat => Option.some_ne_none _ (hat.symm.trans (hother ▸ hid))
        simp [hother, hnowhere]
      · simp [hother, At]
    · exact ⟨hjoins.1.place id, hjoins.2.place id⟩

/-- A pair that is noted comes first, unless it has been noted before. -/
theorem Draws.add (h : g.Draws pairs) (cause effect : SnippetId) :
    (g.add cause effect).Draws
      (if (cause, effect) ∈ pairs then pairs else (cause, effect) :: pairs) := by
  have hdraws := (h.place cause).place effect
  have hjoins : Joins ((g.place cause).2.place effect).2
      ((g.place cause).1, ((g.place cause).2.place effect).1) (cause, effect) :=
    ⟨(g.at_place cause).place effect, (g.place cause).2.at_place effect⟩
  have hmem := hdraws.mem_arcs_iff hjoins
  unfold CauseGraph.add
  rcases hstart : g.place cause with ⟨start, g₁⟩
  rcases hstop : g₁.place effect with ⟨stop, g₂⟩
  simp only [hstart, hstop] at hdraws hjoins hmem ⊢
  simp only [Network.hasArc, List.contains_iff_mem, hmem]
  split
  · exact hdraws
  · exact ⟨hdraws.places, .cons hjoins hdraws.arcs⟩

theorem Draws.exists_joins (h : g.Draws pairs) {pair : SnippetId × SnippetId} (hpair : pair ∈ pairs) :
    ∃ arc, g.Joins arc pair := by
  have harcs := h.arcs
  generalize g.network.arcs = arcs at harcs
  clear h
  induction harcs with
  | nil => cases hpair
  | cons hjoins _ ih =>
    rcases List.mem_cons.1 hpair with rfl | hpair
    · exact ⟨_, hjoins⟩
    · exact ih hpair

/-- What is next to a snippet is what the pairs say. -/
theorem Draws.neighbours_eq (h : g.Draws pairs) (d : Direction) (id : SnippetId) :
    g.neighbours d id = ((pairs.filter (d.near · = id)).map d.far).reverse := by
  unfold neighbours
  cases hid : g.places.get? id with
  | none =>
    -- both ends of a pair have places, so none of them is this snippet
    have hnone : pairs.filter (d.near · = id) = [] := by
      refine List.filter_eq_nil_iff.2 fun pair hpair hnear => ?_
      obtain ⟨arc, hjoins⟩ := h.exists_joins hpair
      have hat : g.At (d.near arc) id := of_decide_eq_true hnear ▸ hjoins.near d
      exact Option.some_ne_none _ (hat.symm.trans hid)
    rw [hnone]
    rfl
  | some place =>
    -- arcs at the place and pairs at the snippet are picked out side by side
    have hends : List.Forall₂ g.At (g.network.neighbours d place)
        ((pairs.filter (d.near · = id)).map d.far) := by
      refine List.rel_map (fun arc pair (hjoins : g.Joins arc pair) => hjoins.far d)
        (List.rel_filter (fun arc pair (hjoins : g.Joins arc pair) => ?_) h.arcs)
      simpa using h.eq_iff_eq (hjoins.near d) hid
    refine congrArg List.reverse ?_
    generalize g.network.neighbours d place = places, (pairs.filter _).map d.far = ids at hends ⊢
    induction hends with
    | nil => rfl
    | cons hat _ ih => rw [List.filterMap_cons_some ((h.places _ _).1 hat), ih]

/-- The newest pair comes first, and each pair stands where it was noted first. -/
theorem draws_after (calls : List (SnippetId × SnippetId)) : (after calls).Draws calls.reverse.dedup := by
  induction calls using List.reverseRecOn with
  | nil => exact ⟨fun _ _ => ⟨nofun, nofun⟩, .nil⟩
  | append_singleton calls call ih =>
    have hadd := ih.add call.1 call.2
    rw [after_concat, List.reverse_concat]
    by_cases hcall : call ∈ calls.reverse
    · rw [List.dedup_cons_of_mem hcall]
      rwa [if_pos (List.mem_dedup.2 hcall)] at hadd
    · rw [List.dedup_cons_of_notMem hcall]
      rwa [if_neg (mt List.mem_dedup.1 hcall)] at hadd

/-! ## The order of the neighbours -/

section Order

variable (calls : List (SnippetId × SnippetId)) (d : Direction) (id : SnippetId)

theorem pairwise_dedup_reverse :
    calls.reverse.dedup.Pairwise fun later earlier => calls.idxOf earlier < calls.idxOf later := by
  induction calls using List.reverseRecOn with
  | nil => exact List.Pairwise.nil
  | append_singleton calls call ih =>
    have hold : calls.reverse.dedup.Pairwise fun later earlier =>
        (calls ++ [call]).idxOf earlier < (calls ++ [call]).idxOf later := by
      refine ih.imp_of_mem fun hlater hearlier hless => ?_
      rw [List.mem_dedup, List.mem_reverse] at hlater hearlier
      rwa [List.idxOf_append_of_mem hlater, List.idxOf_append_of_mem hearlier]
    rw [List.reverse_concat]
    by_cases hcall : call ∈ calls.reverse
    · rwa [List.dedup_cons_of_mem hcall]
    · rw [List.dedup_cons_of_notMem hcall]
      refine List.pairwise_cons.2 ⟨fun earlier hearlier => ?_, hold⟩
      rw [List.mem_dedup, List.mem_reverse] at hearlier
      rw [List.mem_reverse] at hcall
      rw [List.idxOf_append_of_mem hearlier, List.idxOf_append_of_notMem hcall]
      exact (List.idxOf_lt_length_iff.2 hearlier).trans_le (Nat.le_add_right _ _)

theorem mem_neighbours_after {other : SnippetId} :
    other ∈ (after calls).neighbours d id ↔ ∃ call ∈ calls, d.near call = id ∧ d.far call = other := by
  simp [(draws_after calls).neighbours_eq, and_assoc]

theorem pairwise_neighbours_after :
    ((after calls).neighbours d id).Pairwise fun first second =>
      calls.idxOf (d.pair id first) < calls.idxOf (d.pair id second) := by
  have hpair : ∀ call : SnippetId × SnippetId, d.near call = id → d.pair id (d.far call) = call := by
    rintro call rfl
    cases d <;> rfl
  rw [(draws_after calls).neighbours_eq, List.pairwise_reverse, List.pairwise_map]
  refine ((pairwise_dedup_reverse calls).filter _).imp_of_mem fun hlater hearlier hless => ?_
  rw [hpair _ (of_decide_eq_true (List.mem_filter.1 hlater).2),
    hpair _ (of_decide_eq_true (List.mem_filter.1 hearlier).2)]
  exact hless

theorem nodup_neighbours_after : ((after calls).neighbours d id).Nodup :=
  (pairwise_neighbours_after calls d id).imp fun hless heq => (heq ▸ hless).false

theorem edgeCount_after : (after calls).edgeCount = calls.toFinset.card := by
  rw [(draws_after calls).edgeCount_eq, ← List.card_toFinset, List.toFinset_reverse]

end Order

/-! ## The search -/

theorem mem_fresh {seen ids : List SnippetId} {id : SnippetId} :
    id ∈ fresh seen ids ↔ id ∈ ids ∧ id ∉ seen := by
  induction ids generalizing seen with
  | nil => simp [fresh]
  | cons first ids ih =>
    unfold fresh
    by_cases hfirst : first ∈ seen
    · rw [if_pos hfirst, ih, List.mem_cons]
      refine and_congr_left fun hid => (or_iff_right fun heq => ?_).symm
      exact hid (heq ▸ hfirst)
    · rw [if_neg hfirst, List.mem_cons, ih, List.mem_cons, List.mem_cons]
      by_cases hid : id = first
      · simp [hid, hfirst]
      · simp [hid]

theorem nodup_fresh (seen ids : List SnippetId) : (fresh seen ids).Nodup := by
  induction ids generalizing seen with
  | nil => exact List.nodup_nil
  | cons first ids ih =>
    unfold fresh
    split
    · exact ih seen
    · exact List.nodup_cons.2 ⟨fun h => (mem_fresh.1 h).2 List.mem_cons_self, ih _⟩

/-- A snippet outdated another one. -/
def Leads (g : CauseGraph) (cause effect : SnippetId) : Prop := effect ∈ g.effectsOf cause

/-- How far the search for what a snippet affects has come: `found` has been found, `done` has been looked
at, and `queue` is still to be looked at. -/
structure Spreads (g : CauseGraph) (cause : SnippetId) (seen found done queue : List SnippetId) : Prop where
  parts : cause :: found = done ++ queue
  mem_seen : ∀ id, id ∈ seen ↔ id ∈ cause :: found
  nodup : (cause :: found).Nodup
  way : ∀ id ∈ cause :: found, Way g.Leads cause (distance g.Leads cause id) id
  closed : ∀ id ∈ done, ∀ next, g.Leads id next → next ∈ cause :: found
  nearest : (cause :: found).Pairwise fun first second =>
    distance g.Leads cause first ≤ distance g.Leads cause second
  /-- The queue holds two levels at most. -/
  levels : ∀ first ∈ queue, ∀ second ∈ queue,
    distance g.Leads cause second ≤ distance g.Leads cause first + 1

namespace Spreads

variable {cause : SnippetId} {seen found done queue : List SnippetId}

theorem start (g : CauseGraph) (cause : SnippetId) : g.Spreads cause [cause] [] [] [cause] where
  parts := rfl
  mem_seen _ := Iff.rfl
  nodup := List.nodup_singleton cause
  way := by
    intro id hid
    rw [List.mem_singleton.1 hid, distance_start]
    exact .here
  closed := nofun
  nearest := List.pairwise_singleton _ _
  levels := by
    intro first hfirst second hsecond
    rw [List.mem_singleton.1 hfirst, List.mem_singleton.1 hsecond]
    exact Nat.le_succ _

/-- The head of the queue is at least as far as what has been looked at, and the rest of the queue is at
least as far as the head. -/
theorem nearest_head {id : SnippetId} (h : g.Spreads cause seen found done (id :: queue)) :
    (∀ other ∈ done, distance g.Leads cause other ≤ distance g.Leads cause id) ∧
      ∀ other ∈ queue, distance g.Leads cause id ≤ distance g.Leads cause other := by
  have hnearest := h.nearest
  rw [h.parts, List.pairwise_append, List.pairwise_cons] at hnearest
  exact ⟨fun other hother => hnearest.2.2 other hother id List.mem_cons_self, hnearest.2.1.1⟩

/-- What is nearer than the head of the queue has been looked at. -/
theorem mem_done_of_lt {id other : SnippetId} {n : Nat} (h : g.Spreads cause seen found done (id :: queue))
    (way : Way g.Leads cause n other) (hless : distance g.Leads cause other < distance g.Leads cause id) :
    other ∈ done := by
  -- whatever has been found and is nearer than the queue has been looked at
  have hfound : ∀ other, other ∈ cause :: found →
      distance g.Leads cause other < distance g.Leads cause id → other ∈ done := by
    intro other hother hless
    rw [h.parts, List.mem_append, List.mem_cons] at hother
    rcases hother with hdone | rfl | hqueue
    · exact hdone
    · exact absurd hless (Nat.lt_irrefl _)
    · exact absurd (h.nearest_head.2 other hqueue) (Nat.not_le.2 hless)
  -- by the distance: the last step of a shortest way comes from what has been looked at
  induction hlevel : distance g.Leads cause other using Nat.strong_induction_on generalizing other n with
  | _ level ih =>
    by_cases hstart : other = cause
    · exact hfound other (hstart ▸ List.mem_cons_self) hless
    · obtain ⟨via, step, hvia, hnearer⟩ := exists_nearer way hstart
      have hdone := ih (distance g.Leads cause via) (by omega) hvia (by omega) rfl
      exact hfound other (h.closed via hdone other step) hless

/-- What is found next to the head of the queue is one step further than the head. -/
theorem distance_of_mem_fresh {id next : SnippetId} (h : g.Spreads cause seen found done (id :: queue))
    (hnext : next ∈ fresh seen (g.effectsOf id)) :
    Way g.Leads cause (distance g.Leads cause next) next ∧
      distance g.Leads cause next = distance g.Leads cause id + 1 := by
  obtain ⟨hstep, hnew⟩ := mem_fresh.1 hnext
  have hid : id ∈ cause :: found := h.parts ▸ List.mem_append_right done List.mem_cons_self
  have hway := (h.way id hid).on hstep
  have hfar : next ∉ cause :: found := mt (h.mem_seen next).2 hnew
  obtain ⟨via, step, hvia, hnearer⟩ := exists_nearer hway (List.ne_of_not_mem_cons hfar)
  have hless : distance g.Leads cause next ≤ distance g.Leads cause id + 1 := distance_le hway
  -- were it nearer, it would have been found already
  have hmore : distance g.Leads cause id ≤ distance g.Leads cause via := by
    by_contra hlt
    exact hfar (h.closed via (h.mem_done_of_lt hvia (Nat.lt_of_not_le hlt)) next step)
  exact ⟨way_distance hway, by omega⟩

/-- One step of the search looks at the head of the queue. -/
theorem step {id : SnippetId} (h : g.Spreads cause seen found done (id :: queue)) :
    g.Spreads cause (fresh seen (g.effectsOf id) ++ seen) (found ++ fresh seen (g.effectsOf id))
      (done ++ [id]) (queue ++ fresh seen (g.effectsOf id)) := by
  have hnew := fun next (hnext : next ∈ fresh seen (g.effectsOf id)) => h.distance_of_mem_fresh hnext
  obtain ⟨hdone, hqueue⟩ := h.nearest_head
  have hlevel : ∀ other ∈ queue, distance g.Leads cause other ≤ distance g.Leads cause id + 1 :=
    fun other hother => h.levels id List.mem_cons_self other (List.mem_cons_of_mem _ hother)
  refine { parts := ?parts, mem_seen := ?mem_seen, nodup := ?nodup, way := ?way, closed := ?closed,
           nearest := ?nearest, levels := ?levels }
  case parts =>
    rw [← List.cons_append, h.parts]
    simp
  case mem_seen =>
    intro other
    rw [List.mem_append, h.mem_seen, ← List.cons_append, List.mem_append, or_comm]
  case nodup =>
    rw [← List.cons_append]
    refine List.nodup_append'.2 ⟨h.nodup, nodup_fresh _ _, fun other hold hnew => ?_⟩
    exact (mem_fresh.1 hnew).2 ((h.mem_seen other).2 hold)
  case way =>
    intro other hother
    rw [← List.cons_append, List.mem_append] at hother
    rcases hother with hold | hother
    · exact h.way other hold
    · exact (hnew other hother).1
  case closed =>
    intro other hother next hnext
    rw [← List.cons_append, List.mem_append]
    rcases List.mem_append.1 hother with hother | hother
    · exact .inl (h.closed other hother next hnext)
    · -- the head has been looked at now, and whatever is next to it was seen before or is new
      rw [List.mem_singleton.1 hother] at hnext
      rw [← h.mem_seen]
      by_cases hseen : next ∈ seen
      · exact .inl hseen
      · exact .inr (mem_fresh.2 ⟨hnext, hseen⟩)
  case nearest =>
    rw [← List.cons_append, List.pairwise_append]
    refine ⟨h.nearest, List.pairwise_of_forall_mem_list fun first hfirst second hsecond => ?_,
      fun first hfirst second hsecond => ?_⟩
    · rw [(hnew first hfirst).2, (hnew second hsecond).2]
    · -- nothing that has been found is further than the level behind that of the head
      rw [(hnew second hsecond).2]
      rw [h.parts, List.mem_append, List.mem_cons] at hfirst
      rcases hfirst with hfirst | rfl | hfirst
      · exact (hdone first hfirst).trans (Nat.le_succ _)
      · exact Nat.le_succ _
      · exact hlevel first hfirst
  case levels =>
    -- what is left of the queue is on the level of the head or on the next one, and what is new is on the next
    intro first hfirst second hsecond
    have hleast : distance g.Leads cause id ≤ distance g.Leads cause first := by
      rcases List.mem_append.1 hfirst with hfirst | hfirst
      · exact hqueue first hfirst
      · rw [(hnew first hfirst).2]
        exact Nat.le_succ _
    have hmost : distance g.Leads cause second ≤ distance g.Leads cause id + 1 := by
      rcases List.mem_append.1 hsecond with hsecond | hsecond
      · exact hlevel second hsecond
      · exact (hnew second hsecond).2.le
    exact hmost.trans (Nat.succ_le_succ hleast)

theorem run (h : g.Spreads cause seen found done queue) :
    ∃ seen' done', g.Spreads cause seen' (g.spread seen found queue) done' [] := by
  fun_induction CauseGraph.spread g seen found queue generalizing done with
  | case1 seen found => exact ⟨seen, done, h⟩
  | case2 seen found id queue new =>
    rename_i ih
    exact ih h.step

/-- When the queue is empty, everything that can be reached has been found. -/
theorem mem_found (h : g.Spreads cause seen found done []) (id : SnippetId) :
    id ∈ found ↔ id ≠ cause ∧ Relation.TransGen g.Leads cause id := by
  have hdone : cause :: found = done := h.parts.trans (List.append_nil done)
  have hreached : id ∈ cause :: found ↔ Relation.ReflTransGen g.Leads cause id := by
    constructor
    · exact fun hid => exists_way_iff.1 ⟨_, h.way id hid⟩
    · intro hid
      induction hid with
      | refl => exact List.mem_cons_self
      | tail _ hstep ih => exact h.closed _ (hdone ▸ ih) _ hstep
  rw [Relation.reflTransGen_iff_eq_or_transGen, List.mem_cons] at hreached
  constructor
  · intro hid
    have hne : id ≠ cause := fun heq => (List.nodup_cons.1 h.nodup).1 (heq ▸ hid)
    exact ⟨hne, (hreached.1 (.inr hid)).resolve_left hne⟩
  · rintro ⟨hne, hid⟩
    exact (hreached.2 (.inr hid)).resolve_left hne

end Spreads

/-! ## What the graph answers -/

/-- After any pairs have been noted, a cause leads to an effect just if that pair is among them. The causes
of an effect and the effects of a cause come once each, in the order in which they were noted first, and
there are as many edges as there are different pairs. What a snippet affects is what can be reached from it
by one step or more, itself apart, each once and the nearest first. -/
theorem causes_answer_reachability (calls : List (SnippetId × SnippetId)) :
    (∀ cause effect, (effect ∈ (after calls).effectsOf cause ↔ (cause, effect) ∈ calls) ∧
      (cause ∈ (after calls).causesOf effect ↔ (cause, effect) ∈ calls)) ∧
    (∀ cause, ((after calls).effectsOf cause).Nodup ∧
      ((after calls).effectsOf cause).Pairwise fun first second =>
        calls.idxOf (cause, first) < calls.idxOf (cause, second)) ∧
    (∀ effect, ((after calls).causesOf effect).Nodup ∧
      ((after calls).causesOf effect).Pairwise fun first second =>
        calls.idxOf (first, effect) < calls.idxOf (second, effect)) ∧
    (after calls).edgeCount = calls.toFinset.card ∧
    ∀ cause, ((after calls).affectedBy cause).Nodup ∧
      (∀ affected, affected ∈ (after calls).affectedBy cause ↔
        affected ≠ cause ∧ Relation.TransGen (fun a b => (a, b) ∈ calls) cause affected) ∧
      ((after calls).affectedBy cause).Pairwise fun first second =>
        distance (fun a b => (a, b) ∈ calls) cause first ≤ distance (fun a b => (a, b) ∈ calls) cause second := by
  have heffect : ∀ cause effect, effect ∈ (after calls).effectsOf cause ↔ (cause, effect) ∈ calls := by
    intro cause effect
    simp [effectsOf, mem_neighbours_after, Direction.near, Direction.far]
  have hcause : ∀ cause effect, cause ∈ (after calls).causesOf effect ↔ (cause, effect) ∈ calls := by
    intro cause effect
    simp [causesOf, mem_neighbours_after, Direction.near, Direction.far]
  have hleads : (fun a b => (a, b) ∈ calls) = (after calls).Leads :=
    funext fun cause => funext fun effect => propext (heffect cause effect).symm
  refine ⟨fun cause effect => ⟨heffect cause effect, hcause cause effect⟩, fun cause => ?_, fun effect => ?_,
    edgeCount_after calls, fun cause => ?_⟩
  · exact ⟨nodup_neighbours_after calls .forwards cause, pairwise_neighbours_after calls .forwards cause⟩
  · exact ⟨nodup_neighbours_after calls .backwards effect, pairwise_neighbours_after calls .backwards effect⟩
  · obtain ⟨seen, done, hrun⟩ := (Spreads.start (after calls) cause).run
    rw [hleads]
    exact ⟨(List.nodup_cons.1 hrun.nodup).2, hrun.mem_found, (List.pairwise_cons.1 hrun.nearest).2⟩

end CauseGraph

end Notebook

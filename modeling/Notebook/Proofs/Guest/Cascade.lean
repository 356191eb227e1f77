import Notebook.Proofs.Guest.Records
import Notebook.Guest.Binding

/-!
# Looking at declarations again

A cascade looks again at declarations that are in use, one after the other (`recheckDependents_looks`).
It looks at each of them at most once (`nodup_recheckPending`), and it leaves out none that mentions
the name which the cascade is about or the name of a snippet that became defined or undefined on the
way (`not_mentions_of_left_out`).
-/

namespace Notebook

/-- The snippets that events tell of. -/
def snippetsOf (events : List SnippetEvent) : List SnippetId := events.map (·.snippet)

theorem snippetsOf_append (events more : List SnippetEvent) :
    snippetsOf (events ++ more) = snippetsOf events ++ snippetsOf more := List.map_append

/-- The event tells that a snippet became defined or undefined. -/
def SnippetEvent.Flips (e : SnippetEvent) : Prop := e.previous.isDefined ≠ e.status.isDefined

end Notebook

namespace Notebook.Guest

/-- The event that tells of a look at the snippet. -/
def Record.lookedAt (r : Record) (cause id : SnippetId) (status : Status) : SnippetEvent :=
  { snippet := id, kind := r.kind, source := r.source, previous := r.status, status,
    cause := some cause }

namespace Store

/-- Declarations are looked at again one after the other, each of them in use when its turn comes. -/
inductive Looks (cause : SnippetId) : Store → List SnippetEvent → Store → Prop
  | done (s : Store) : Looks cause s [] s
  | look {s s' : Store} {events : List SnippetEvent} {id : SnippetId} {r : Record} {d : Declaration}
      (hr : s.record? id = some r) (hd : r.declaration = some d) (hactive : r.status.isActive = true)
      (hrest : Looks cause (s.update id fun _ => r.rechecked d s.globals) events s') :
      Looks cause s (r.lookedAt cause id (r.rechecked d s.globals).status :: events) s'

/-- The snippet is a declaration in use. -/
def InUse (s : Store) (id : SnippetId) : Prop :=
  ∃ r d, s.record? id = some r ∧ r.declaration = some d ∧ r.status.isActive = true

theorem inUse_of_isDependent {s : Store} {name : String} {id : SnippetId}
    (h : s.isDependent name id = true) : s.InUse id := by
  unfold isDependent at h
  split at h
  · cases h
  · rename_i r hr
    simp only [Bool.and_eq_true, Option.isSome_iff_exists] at h
    obtain ⟨⟨hactive, d, hd⟩, -⟩ := h
    exact ⟨r, d, hr, hd, hactive⟩

theorem inUse_congr {s t : Store} {id : SnippetId} (h : t.record? id = s.record? id) :
    t.InUse id ↔ s.InUse id := by
  unfold InUse
  rw [h]

theorem isDependent_congr {s t : Store} {id : SnippetId} (h : t.record? id = s.record? id)
    (name : String) : t.isDependent name id = s.isDependent name id := by
  unfold isDependent
  rw [h]

/-! ## One look -/

theorem recheck_of_declaration {s : Store} {cause id : SnippetId} {r : Record} {d : Declaration}
    (hr : s.record? id = some r) (hd : r.declaration = some d) :
    s.recheck cause id =
      ([r.lookedAt cause id (r.rechecked d s.globals).status],
        if r.status.isDefined = (r.rechecked d s.globals).status.isDefined then []
        else r.name.toList,
        s.update id fun _ => r.rechecked d s.globals) := by
  unfold recheck
  rw [hr]
  dsimp only
  rw [hd]
  rfl

theorem Looks.append {cause : SnippetId} {s t u : Store} {events more : List SnippetEvent}
    (hst : Looks cause s events t) (htu : Looks cause t more u) : Looks cause s (events ++ more) u := by
  induction hst with
  | done => exact htu
  | look hr hd hactive _ ih => exact .look hr hd hactive (ih htu)

/-- A snippet that is not looked at stays as it is. -/
theorem Looks.record?_of_not_mem {cause : SnippetId} {s s' : Store} {events : List SnippetEvent}
    (h : Looks cause s events s') {id : SnippetId} (hid : id ∉ snippetsOf events) :
    s'.record? id = s.record? id := by
  induction h with
  | done => rfl
  | look hr hd hactive hrest ih =>
    rw [snippetsOf, List.map_cons, List.mem_cons, not_or] at hid
    rw [ih hid.2]
    exact record?_update_of_ne _ _ hid.1

theorem Looks.length {cause : SnippetId} {s s' : Store} {events : List SnippetEvent}
    (h : Looks cause s events s') : s'.records.length = s.records.length := by
  induction h with
  | done => rfl
  | look hr hd hactive hrest ih => rw [ih, length_update]

/-! ## Several looks -/

/-- Each declaration that is looked at is told of, in turn. -/
theorem recheckEach_looks (s : Store) (cause : SnippetId) (ids : List SnippetId) (hids : ids.Nodup)
    (huse : ∀ id ∈ ids, s.InUse id) :
    Looks cause s (s.recheckEach cause ids).1 (s.recheckEach cause ids).2.2 ∧
      snippetsOf (s.recheckEach cause ids).1 = ids := by
  induction ids generalizing s with
  | nil => exact ⟨.done s, rfl⟩
  | cons id ids ih =>
    rw [List.nodup_cons] at hids
    obtain ⟨r, d, hr, hd, hactive⟩ := huse id List.mem_cons_self
    simp only [recheckEach, recheck_of_declaration hr hd]
    have hrest := ih (s.update id fun _ => r.rechecked d s.globals) hids.2 ?_
    · refine ⟨.look hr hd hactive hrest.1, ?_⟩
      exact congrArg (id :: ·) hrest.2
    · intro j hj
      have hne : j ≠ id := fun heq => hids.1 (heq ▸ hj)
      rw [inUse_congr (record?_update_of_ne s _ hne)]
      exact huse j (List.mem_cons_of_mem id hj)

/-- The names that come along are those of the snippets that became defined or undefined. -/
theorem mem_names_recheckEach (s : Store) (cause : SnippetId) (ids : List SnippetId)
    (hids : ids.Nodup) (huse : ∀ id ∈ ids, s.InUse id) {e : SnippetEvent}
    (he : e ∈ (s.recheckEach cause ids).1) (hflips : e.Flips) {r : Record}
    (hr : s.record? e.snippet = some r) {name : String} (hname : r.name = some name) :
    name ∈ (s.recheckEach cause ids).2.1 := by
  induction ids generalizing s with
  | nil => cases he
  | cons id ids ih =>
    rw [List.nodup_cons] at hids
    obtain ⟨r', d, hr', hd, hactive⟩ := huse id List.mem_cons_self
    simp only [recheckEach, recheck_of_declaration hr' hd, List.mem_append] at he ⊢
    have hrest : ∀ j ∈ ids, (s.update id fun _ => r'.rechecked d s.globals).InUse j := by
      intro j hj
      have hne : j ≠ id := fun heq => hids.1 (heq ▸ hj)
      rw [inUse_congr (record?_update_of_ne s _ hne)]
      exact huse j (List.mem_cons_of_mem id hj)
    rcases he with he | he
    · -- the event is the one of this look, and the name comes along since it flips
      rw [List.mem_singleton] at he
      subst he
      have : r = r' := Option.some.inj (hr.symm.trans hr')
      subst this
      left
      have hne : ¬ r.status.isDefined = (r.rechecked d s.globals).status.isDefined := hflips
      rw [if_neg hne, hname]
      exact List.mem_singleton_self name
    · right
      -- the event belongs to a later look at another snippet, which this look has not touched
      refine ih _ hids.2 hrest he ?_
      have hmem : e.snippet ∈ ids := by
        rw [← (recheckEach_looks _ cause ids hids.2 hrest).2]
        exact List.mem_map_of_mem he
      have hne : e.snippet ≠ id := fun heq => hids.1 (heq ▸ hmem)
      rw [record?_update_of_ne s _ hne]
      exact hr

/-! ## A whole cascade -/

theorem inUse_of_mem_dependents {s : Store} {name : String} {left : List SnippetId} {id : SnippetId}
    (h : id ∈ s.dependents name left) : s.InUse id :=
  inUse_of_isDependent (List.mem_filter.1 h).2

theorem recheckPending_looks (s : Store) (cause : SnippetId) (left : List SnippetId)
    (pending : List String) (hleft : left.Nodup) :
    Looks cause s (s.recheckPending cause left pending).1 (s.recheckPending cause left pending).2 ∧
      ∀ id ∈ snippetsOf (s.recheckPending cause left pending).1, id ∈ left := by
  fun_induction recheckPending s cause left pending with
  | case1 s left => exact ⟨.done s, fun _ h => absurd h List.not_mem_nil⟩
  | case2 s left name pending found rest ih =>
    have hfound := recheckEach_looks s cause (s.dependents name left) (hleft.filter _)
      fun _ => inUse_of_mem_dependents
    have hrest := ih (hleft.filter _)
    refine ⟨hfound.1.append hrest.1, fun id hid => ?_⟩
    rw [snippetsOf_append, hfound.2, List.mem_append] at hid
    rcases hid with hid | hid
    · exact (List.mem_filter.1 hid).1
    · exact (List.mem_filter.1 (hrest.2 id hid)).1

/-- No declaration is looked at twice. -/
theorem nodup_recheckPending (s : Store) (cause : SnippetId) (left : List SnippetId)
    (pending : List String) (hleft : left.Nodup) :
    (snippetsOf (s.recheckPending cause left pending).1).Nodup := by
  fun_induction recheckPending s cause left pending with
  | case1 s left => exact List.nodup_nil
  | case2 s left name pending found rest ih =>
    have hfound := recheckEach_looks s cause (s.dependents name left) (hleft.filter _)
      fun _ => inUse_of_mem_dependents
    have hrest := recheckPending_looks found.2.2 cause (s.independents name left)
      (found.2.1.reverse ++ pending) (hleft.filter _)
    rw [snippetsOf_append, hfound.2, List.nodup_append]
    refine ⟨hleft.filter _, ih (hleft.filter _), ?_⟩
    -- what is looked at now depends on the name, and what is kept for later does not
    intro i hi j hj heq
    have hj' := (List.mem_filter.1 (hrest.2 j hj)).2
    rw [← heq, (List.mem_filter.1 hi).2] at hj'
    cases hj'

/-- A declaration that could have been looked at and was not mentions neither a name that was pending
nor the name of a snippet that became defined or undefined. -/
theorem not_mentions_of_left_out (s : Store) (cause : SnippetId) (left : List SnippetId)
    (pending : List String) (hleft : left.Nodup) {id : SnippetId} (hid : id ∈ left)
    (hout : id ∉ snippetsOf (s.recheckPending cause left pending).1) {name : String}
    (hname : s.isDependent name id = true) :
    name ∉ pending ∧ ∀ e ∈ (s.recheckPending cause left pending).1, e.Flips →
      ∀ r, s.record? e.snippet = some r → r.name ≠ some name := by
  fun_induction recheckPending s cause left pending with
  | case1 s left => exact ⟨List.not_mem_nil, fun _ h => absurd h List.not_mem_nil⟩
  | case2 s left first pending found rest ih =>
    have huse : ∀ id ∈ s.dependents first left, s.InUse id := fun _ => inUse_of_mem_dependents
    have hfound := recheckEach_looks s cause (s.dependents first left) (hleft.filter _) huse
    have hrest := recheckPending_looks found.2.2 cause (s.independents first left)
      (found.2.1.reverse ++ pending) (hleft.filter _)
    rw [snippetsOf_append, hfound.2, List.mem_append, not_or] at hout
    -- the declaration does not depend on the first name, or it would have been looked at
    have hfirst : s.isDependent first id = false := by
      by_contra hdep
      rw [Bool.not_eq_false] at hdep
      exact hout.1 (List.mem_filter.2 ⟨hid, hdep⟩)
    have hsame : found.2.2.record? id = s.record? id := by
      refine hfound.1.record?_of_not_mem ?_
      rw [hfound.2]
      exact hout.1
    have hin : id ∈ s.independents first left := by
      refine List.mem_filter.2 ⟨hid, ?_⟩
      rw [hfirst]
      rfl
    -- it is kept for later as it was, and the names that came along are pending then
    obtain ⟨hpending, hflips⟩ := ih (hleft.filter _) hin hout.2
      ((isDependent_congr hsame name).trans hname)
    rw [List.mem_append, not_or, List.mem_reverse] at hpending
    refine ⟨?_, ?_⟩
    · rw [List.mem_cons, not_or]
      refine ⟨?_, hpending.2⟩
      rintro rfl
      rw [hfirst] at hname
      cases hname
    · intro e he hflip r hr heq
      rcases List.mem_append.1 he with he | he
      · exact hpending.1 (mem_names_recheckEach s cause _ (hleft.filter _) huse he hflip hr heq)
      · -- what is looked at later has not been touched before
        refine hflips e he hflip r ?_ heq
        have hmem := (List.mem_filter.1 (hrest.2 e.snippet (List.mem_map_of_mem he))).2
        rw [hfound.1.record?_of_not_mem ?_]
        · exact hr
        · rw [hfound.2]
          intro hdep
          rw [(List.mem_filter.1 hdep).2] at hmem
          cases hmem

theorem nodup_left (s : Store) (cause : SnippetId) :
    ((s.numbered.map (·.1)).filter (· ≠ cause)).Nodup := s.nodup_numbered.filter _

theorem recheckDependents_looks (s : Store) (name : String) (cause : SnippetId) :
    Looks cause s (s.recheckDependents name cause).1 (s.recheckDependents name cause).2 :=
  (recheckPending_looks s cause _ [name] (s.nodup_left cause)).1

theorem nodup_recheckDependents (s : Store) (name : String) (cause : SnippetId) :
    (snippetsOf (s.recheckDependents name cause).1).Nodup :=
  nodup_recheckPending s cause _ [name] (s.nodup_left cause)

/-- The snippet on whose account a cascade runs is not looked at. -/
theorem not_mem_recheckDependents (s : Store) (name : String) (cause : SnippetId) :
    cause ∉ snippetsOf (s.recheckDependents name cause).1 := by
  intro hmem
  have hleft := (recheckPending_looks s cause _ [name] (s.nodup_left cause)).2 cause hmem
  have hne := (List.mem_filter.1 hleft).2
  simp at hne

end Store

end Notebook.Guest

import Notebook.Proofs.Guest.Flaws
import Notebook.Proofs.Guest.Naming
import Notebook.Proofs.Guest.Reached

/-!
# Who is told that a name has changed hands

A snippet that takes a name, or that is dropped and frees its name, brings a cascade about.  A cascade
works a list of pending names off, and it comes to an end after at most one round for each declaration
that it looks at and one more (`worklist_recheckDependents`).  Everything in use that mentions the name,
or the name of something that became defined or undefined on the way, is told of once
(`dependents_told_once`).
-/

namespace Notebook.Guest
open Notebook.Text Notebook.Syntax

/-- The event with which another snippet takes the name of a snippet. -/
def Record.overwrittenBy (r : Record) (cause id : SnippetId) : SnippetEvent :=
  { snippet := id, kind := r.kind, source := r.source, previous := r.status, status := .overwritten,
    cause := some cause }

namespace Store

/-! ## The list of names that are worked off -/

/-- The declarations in use that mention a name and have not been seen. -/
def unseen (s : Store) (seen : List SnippetId) (name : String) : List SnippetId :=
  (s.numbered.map (·.1)).filter fun id => id ∉ seen && s.isDependent name id

/-- Pending names are worked off. In a round, the last name is taken off the list, the declarations in
use that mention it and have not been seen are looked at, and they have been seen from then on. The
names of those that became defined or undefined are pending in turn. -/
inductive Worklist (cause : SnippetId) :
    Store → List SnippetId → List String → Nat → List SnippetEvent → Store → Prop
  | done (s : Store) (seen : List SnippetId) : Worklist cause s seen [] 0 [] s
  | round {s s' : Store} {seen : List SnippetId} {name : String} {pending : List String} {rounds : Nat}
    {events : List SnippetEvent}
    (rest : Worklist cause (s.recheckEach cause (s.unseen seen name)).2.2 (seen ++ s.unseen seen name)
      ((s.recheckEach cause (s.unseen seen name)).2.1.reverse ++ pending) rounds events s') :
    Worklist cause s seen (name :: pending) (rounds + 1)
      ((s.recheckEach cause (s.unseen seen name)).1 ++ events) s'

theorem unseen_eq_dependents (s : Store) (seen : List SnippetId) (name : String) :
    s.unseen seen name = s.dependents name ((s.numbered.map (·.1)).filter (· ∉ seen)) := by
  unfold unseen dependents
  rw [List.filter_filter]
  exact List.filter_congr fun id _ => Bool.and_comm _ _

/-- What is left after a round is what has not been seen then. -/
theorem independents_eq (s : Store) (seen : List SnippetId) (name : String) :
    s.independents name ((s.numbered.map (·.1)).filter (· ∉ seen)) =
      (s.numbered.map (·.1)).filter (· ∉ seen ++ s.unseen seen name) := by
  unfold independents
  rw [List.filter_filter]
  refine List.filter_congr fun id hid => ?_
  have hunseen : id ∈ s.unseen seen name ↔ id ∉ seen ∧ s.isDependent name id = true := by
    simp only [unseen, List.mem_filter, hid, true_and, Bool.and_eq_true, decide_eq_true_eq]
  rw [Bool.eq_iff_iff]
  simp only [Bool.and_eq_true, Bool.not_eq_true', decide_eq_true_eq, List.mem_append, hunseen]
  cases s.isDependent name id <;> simp

/-- A cascade works its list off, in at most one round for each name that is pending and one for each
declaration that it looks at. -/
theorem worklist_recheckPending (s : Store) (cause : SnippetId) (left seen : List SnippetId)
    (pending : List String) (hleft : left = (s.numbered.map (·.1)).filter (· ∉ seen)) :
    ∃ rounds, rounds ≤ pending.length + (s.recheckPending cause left pending).1.length ∧
      Worklist cause s seen pending rounds (s.recheckPending cause left pending).1
        (s.recheckPending cause left pending).2 := by
  fun_induction recheckPending s cause left pending generalizing seen with
  | case1 s left => exact ⟨0, Nat.zero_le _, .done s seen⟩
  | case2 s left name pending found rest ih =>
    have hunseen : s.unseen seen name = s.dependents name left := by
      rw [hleft]
      exact s.unseen_eq_dependents seen name
    have hnodup : left.Nodup := hleft ▸ s.nodup_numbered.filter _
    have hfound := recheckEach_looks s cause (s.dependents name left) (hnodup.filter _)
      fun _ => inUse_of_mem_dependents
    -- there are as many snippets as before, so what has not been seen is counted among the same numbers
    have hsame : found.2.2.numbered.map (·.1) = s.numbered.map (·.1) := by
      rw [numbers_eq, numbers_eq, hfound.1.length]
    have hindependents : s.independents name left =
        (found.2.2.numbered.map (·.1)).filter (· ∉ seen ++ s.unseen seen name) := by
      rw [hsame, hleft]
      exact s.independents_eq seen name
    obtain ⟨rounds, hle, hrest⟩ := ih (seen ++ s.unseen seen name) hindependents
    refine ⟨rounds + 1, ?_, ?_⟩
    · have hnames : found.2.1.length ≤ found.1.length := by
        have hlooked : found.1.length = (s.dependents name left).length := by
          rw [← hfound.2, snippetsOf, List.length_map]
        rw [hlooked]
        exact length_names_recheckEach s cause _
      have hrounds : rounds ≤ (found.2.1.reverse ++ pending).length + rest.1.length := hle
      rw [List.length_append, List.length_reverse] at hrounds
      rw [List.length_append, List.length_cons]
      omega
    · have hround : Worklist cause s seen (name :: pending) (rounds + 1)
          ((s.recheckEach cause (s.unseen seen name)).1 ++ rest.1) rest.2 := by
        refine .round ?_
        rw [hunseen] at hrest ⊢
        exact hrest
      rw [hunseen] at hround
      exact hround

theorem worklist_recheckDependents (s : Store) (name : String) (cause : SnippetId) :
    ∃ rounds, rounds ≤ (s.recheckDependents name cause).1.length + 1 ∧
      Worklist cause s [cause] [name] rounds (s.recheckDependents name cause).1
        (s.recheckDependents name cause).2 := by
  have hleft : (s.numbered.map (·.1)).filter (· ≠ cause) =
      (s.numbered.map (·.1)).filter (· ∉ [cause]) :=
    List.filter_congr fun id _ => by simp
  obtain ⟨rounds, hle, hworklist⟩ := s.worklist_recheckPending cause _ [cause] [name] hleft
  exact ⟨rounds, Nat.add_comm 1 _ ▸ hle, hworklist⟩

/-! ## Who is looked at -/

theorem Looks.inUse_of_mem {cause : SnippetId} {s s' : Store} {events : List SnippetEvent}
    (h : Looks cause s events s') {id : SnippetId} (hid : id ∈ snippetsOf events) : s.InUse id := by
  induction h with
  | done => cases hid
  | @look s s' events j r d hr hd hactive _ ih =>
    by_cases hj : id = j
    · exact hj ▸ ⟨r, d, hr, hd, hactive⟩
    · have hid' : id ∈ snippetsOf events := (List.mem_cons.1 hid).resolve_left hj
      exact (inUse_congr (record?_update_of_ne s _ hj)).1 (ih hid')

/-- What has been looked at is in use afterwards, too. -/
theorem Looks.inUse_after {cause : SnippetId} {s s' : Store} {events : List SnippetEvent}
    (h : Looks cause s events s') {id : SnippetId} (hid : s.InUse id) : s'.InUse id := by
  induction h with
  | done => exact hid
  | @look s s' events j r d hr hd hactive _ ih =>
    refine ih ?_
    by_cases hj : id = j
    · rw [hj]
      refine ⟨_, d, record?_update_self _ hr, ?_, Record.isActive_rechecked r d s.globals⟩
      exact (Record.sameCode_rechecked r d s.globals).declaration.trans hd
    · exact (inUse_congr (record?_update_of_ne s _ hj)).2 hid

/-- What a cascade leaves out mentions what it mentioned before. -/
theorem isDependent_of_left_out {s : Store} {name : String} {cause j : SnippetId}
    (hout : j ∉ snippetsOf (s.recheckDependents name cause).1) (other : String) :
    (s.recheckDependents name cause).2.isDependent other j = s.isDependent other j :=
  isDependent_congr ((recheckDependents_looks s name cause).record?_of_not_mem hout) other

theorem mem_left_of_isDependent {s : Store} {name : String} {cause j : SnippetId} (hj : j ≠ cause)
    (hdep : s.isDependent name j = true) : j ∈ (s.numbered.map (·.1)).filter (· ≠ cause) := by
  obtain ⟨r, -, hr, -⟩ := inUse_of_isDependent hdep
  exact List.mem_filter.2 ⟨mem_numbered_of_record? hr, decide_eq_true hj⟩

/-- Everything in use that mentions the name is looked at, but for the snippet on whose account the
cascade runs. -/
theorem mem_recheckDependents {s : Store} {name : String} {cause j : SnippetId} (hj : j ≠ cause)
    (hdep : s.isDependent name j = true ∨ (s.recheckDependents name cause).2.isDependent name j = true) :
    j ∈ snippetsOf (s.recheckDependents name cause).1 := by
  by_contra hout
  rw [isDependent_of_left_out hout, or_self] at hdep
  have hnot := not_mentions_of_left_out s cause _ [name] (s.nodup_left cause)
    (mem_left_of_isDependent hj hdep) hout hdep
  exact hnot.1 (List.mem_singleton_self name)

/-- So is everything in use that mentions the name of what became defined or undefined. -/
theorem mem_recheckDependents_of_flips {s : Store} {name : String} {cause : SnippetId} {e : SnippetEvent}
    (he : e ∈ (s.recheckDependents name cause).1) (hflips : e.Flips) {r : Record} {other : String}
    (hr : s.record? e.snippet = some r) (hother : r.name = some other) {j : SnippetId} (hj : j ≠ cause)
    (hdep : s.isDependent other j = true ∨
      (s.recheckDependents name cause).2.isDependent other j = true) :
    j ∈ snippetsOf (s.recheckDependents name cause).1 := by
  by_contra hout
  rw [isDependent_of_left_out hout, or_self] at hdep
  have hnot := not_mentions_of_left_out s cause _ [name] (s.nodup_left cause)
    (mem_left_of_isDependent hj hdep) hout hdep
  exact hnot.2 e he hflips r hr hother

/-! ## A name changes hands -/

/-- What is told when a name changes hands on account of the snippet `id`: first what this does to the
snippets that have it, and then the looks at what mentions it. -/
structure Notifies (s : Store) (name : String) (id : SnippetId) (first rechecks : List SnippetEvent)
    (s' : Store) : Prop where
  /-- The looks are those of a list of names that is worked off. -/
  terminates : ∃ t rounds, s.Tells first t ∧ t.bindings = s'.bindings ∧
    rounds ≤ rechecks.length + 1 ∧ Worklist id t [id] [name] rounds rechecks s'
  once : (snippetsOf (first ++ rechecks)).Nodup
  caused : ∀ e ∈ (first ++ rechecks).tail, e.cause = some id
  looked : ∀ e ∈ rechecks, e.snippet ≠ id ∧ s.InUse e.snippet ∧ s'.InUse e.snippet
  statuses : ∀ e ∈ first ++ rechecks, e.previous = s.status e.snippet ∧ e.status = s'.status e.snippet
  users : ∀ j, j ≠ id → s.isDependent name j = true ∨ s'.isDependent name j = true →
    j ∈ snippetsOf (first ++ rechecks)
  /-- What becomes defined or undefined on the way has its users told of in turn. -/
  spreads : ∀ e ∈ rechecks, e.Flips → ∀ r other, s'.record? e.snippet = some r → r.name = some other →
    ∀ j, j ≠ id → s.isDependent other j = true ∨ s'.isDependent other j = true →
      j ∈ snippetsOf (first ++ rechecks)

/-- Two snippets that are the same up to their values mention the same names. -/
theorem isDependent_of_known {s t : Store} {j : SnippetId}
    (h : (t.record? j).map Record.known = (s.record? j).map Record.known) (name : String) :
    t.isDependent name j = s.isDependent name j := by
  have hread (u : Store) : u.isDependent name j = ((u.record? j).map Record.known).any fun r =>
      r.status.isActive && r.declaration.isSome && r.refs.contains name := by
    unfold isDependent
    cases u.record? j <;> rfl
  rw [hread, hread, h]

theorem inUse_of_known {s t : Store} {j : SnippetId}
    (h : (t.record? j).map Record.known = (s.record? j).map Record.known) (ht : t.InUse j) : s.InUse j := by
  obtain ⟨r, d, hr, hd, hactive⟩ := ht
  rw [hr, Option.map_some, eq_comm, Option.map_eq_some_iff] at h
  obtain ⟨r', hr', hknown⟩ := h
  refine ⟨r', d, hr', ?_, ?_⟩
  · rw [← hd, (Record.sameCode_of_known hknown).declaration]
  · rw [← hactive, Record.status_of_known hknown]

/-- A change of the snippets that have a name, and then the cascade that follows. -/
theorem notifies_of_cascade {s t : Store} {name : String} {id : SnippetId} {opening : SnippetEvent}
    {others : List SnippetEvent} (htells : s.Tells (opening :: others) t)
    (hopening : opening.snippet = id) (hnodup : (snippetsOf (opening :: others)).Nodup)
    (hcaused : ∀ e ∈ others, e.cause = some id) (hgone : ∀ e ∈ others, ¬ t.InUse e.snippet)
    (hsame : ∀ j, j ∉ snippetsOf (opening :: others) →
      (t.record? j).map Record.known = (s.record? j).map Record.known) :
    s.Notifies name id (opening :: others) (t.recheckDependents name id).1
      (t.recheckDependents name id).2 := by
  have hlooks := recheckDependents_looks t name id
  have hleft := not_mem_recheckDependents t name id
  -- what is looked at is in use, so it is none of the snippets that have been told of before
  have hapart (j : SnippetId) (hj : j ∈ snippetsOf (t.recheckDependents name id).1) :
      j ∉ snippetsOf (opening :: others) := by
    rw [snippetsOf, List.map_cons, List.mem_cons, not_or, hopening]
    refine ⟨fun heq => hleft (heq ▸ hj), fun hmem => ?_⟩
    obtain ⟨e, he, rfl⟩ := List.mem_map.1 hmem
    exact hgone e he (hlooks.inUse_of_mem hj)
  have honce : (snippetsOf (opening :: others ++ (t.recheckDependents name id).1)).Nodup := by
    rw [snippetsOf_append, List.nodup_append]
    exact ⟨hnodup, nodup_recheckDependents t name id, fun i hi j hj heq => hapart j hj (heq ▸ hi)⟩
  -- what has not been told of mentions the names that it mentioned at first
  have hmentions {j : SnippetId} {other : String}
      (hdep : s.isDependent other j = true ∨
        (t.recheckDependents name id).2.isDependent other j = true) :
      j ∈ snippetsOf (opening :: others) ∨ t.isDependent other j = true ∨
        (t.recheckDependents name id).2.isDependent other j = true := by
    by_cases hj : j ∈ snippetsOf (opening :: others)
    · exact .inl hj
    · rw [isDependent_of_known (hsame j hj)]
      exact .inr hdep
  obtain ⟨rounds, hrounds, hworklist⟩ := worklist_recheckDependents t name id
  refine ⟨⟨t, rounds, htells, hlooks.sameNames.bindings.symm, hrounds, hworklist⟩, honce, ?_, ?_, ?_,
    ?_, ?_⟩
  · intro e he
    rcases List.mem_append.1 he with he | he
    · exact hcaused e he
    · exact hlooks.cause_eq e he
  · intro e he
    have hid : e.snippet ∈ snippetsOf (t.recheckDependents name id).1 := List.mem_map_of_mem he
    have huse := hlooks.inUse_of_mem hid
    exact ⟨fun heq => hleft (heq ▸ hid), inUse_of_known (hsame _ (hapart _ hid)) huse,
      hlooks.inUse_after huse⟩
  · intro e he
    have hleads := (htells.trans hlooks.tells).leads e.snippet
    rw [about_of_mem honce he] at hleads
    exact hleads
  · intro j hj hdep
    rw [snippetsOf_append, List.mem_append]
    exact (hmentions hdep).imp_right (mem_recheckDependents hj)
  · intro e he hflips r other hr hother j hj hdep
    have hid : e.snippet ∈ snippetsOf (t.recheckDependents name id).1 := List.mem_map_of_mem he
    obtain ⟨r', d, hr', -⟩ := hlooks.inUse_of_mem hid
    obtain ⟨r'', hr'', hcode⟩ := hlooks.tells.keeps _ r' hr'
    rw [hr] at hr''
    cases hr''
    rw [snippetsOf_append, List.mem_append]
    exact (hmentions hdep).imp_right
      (mem_recheckDependents_of_flips he hflips hr' (hcode.name.symm.trans hother) hj)

/-- The snippet that has the name, if there is one, is told of once, as overwritten. -/
def Overwrites (s : Store) (name : String) (id : SnippetId) (overwritten : List SnippetEvent) : Prop :=
  (s.binding? name = none ∧ overwritten = []) ∨
    ∃ p r, s.binding? name = some p ∧ s.record? p = some r ∧ overwritten = [r.overwrittenBy id p]

theorem Overwrites.of_known {s t : Store} {name : String} {id : SnippetId}
    {overwritten : List SnippetEvent} (h : t.Overwrites name id overwritten)
    (hbinding : t.binding? name = s.binding? name)
    (hsame : ∀ p, t.binding? name = some p →
      (t.record? p).map Record.known = (s.record? p).map Record.known) :
    s.Overwrites name id overwritten := by
  rcases h with ⟨hnone, hempty⟩ | ⟨p, r, hp, hr, rfl⟩
  · exact .inl ⟨hbinding ▸ hnone, hempty⟩
  · have hrecord := hsame p hp
    rw [hr, Option.map_some, eq_comm, Option.map_eq_some_iff] at hrecord
    obtain ⟨r', hr', hknown⟩ := hrecord
    have hcode := Record.sameCode_of_known hknown
    refine .inr ⟨p, r', hbinding ▸ hp, hr', ?_⟩
    unfold Record.overwrittenBy
    rw [hcode.kind, hcode.source, Record.status_of_known hknown]

/-- The snippet whose name is taken is out of use afterwards, and nothing else is touched. -/
theorem supersede_overwrites {s : Store} (hs : s.Bound) (name : String) {id : SnippetId}
    (hfree : ∀ other, s.binding? other ≠ some id) :
    s.Overwrites name id (s.supersede name id).1 ∧
      (snippetsOf (s.supersede name id).1).Nodup ∧ id ∉ snippetsOf (s.supersede name id).1 ∧
      (∀ e ∈ (s.supersede name id).1, ¬ (s.supersede name id).2.InUse e.snippet) ∧
      ∀ j, j ∉ snippetsOf (s.supersede name id).1 →
        (s.supersede name id).2.record? j = s.record? j := by
  rcases supersede_cases hs name id with ⟨hnone, h⟩ | ⟨p, r, hne, hp, hr, -, -, h⟩
  · rw [h]
    have hfresh : s.binding? name = none := by
      cases hold : s.binding? name with
      | none => rfl
      | some p => exact (hfree name (hnone p hold ▸ hold)).elim
    exact ⟨.inl ⟨hfresh, rfl⟩, List.nodup_nil, List.not_mem_nil, fun _ he => absurd he List.not_mem_nil,
      fun j _ => rfl⟩
  · rw [h]
    refine ⟨.inr ⟨p, r, hp, hr, rfl⟩, List.nodup_singleton p, ?_, List.forall_mem_singleton.2 ?_, ?_⟩
    · exact fun hmem => hne (List.mem_singleton.1 hmem).symm
    · rintro ⟨r', d, hr', -, hactive⟩
      have hself := record?_update_self (s := s.bind name id) (fun r => { r with status := .overwritten }) hr
      rw [hself] at hr'
      cases hr'
      cases hactive
    · exact fun j hj => record?_update_of_ne (s.bind name id) _ fun heq => hj (List.mem_singleton.2 heq)

/-- A snippet that has no status yet is given one and takes its name. -/
theorem notifies_of_finish {s t : Store} (ht : t.Bound) {id : SnippetId} {r : Record}
    (hr : t.record? id = some r) (hnew : r.status = .nonexistent) {name : String}
    (hname : r.name = some name) (htells : s.Tells [] t) (hbindings : t.bindings = s.bindings)
    (hsame : ∀ j, j ≠ id → (t.record? j).map Record.known = (s.record? j).map Record.known)
    (status : Status) (fault : Option FaultReport) :
    ∃ overwritten rechecks,
      (t.finish id status fault true).1 = r.begun id status fault :: (overwritten ++ rechecks) ∧
        s.Overwrites name id overwritten ∧
        s.Notifies name id (r.begun id status fault :: overwritten) rechecks
          (t.finish id status fault true).2 := by
  have hbegun : t.Tells [r.begun id status fault] (t.update id fun r => { r with status }) :=
    tells_update hr ⟨rfl, rfl, rfl, rfl⟩ rfl rfl rfl hnew.symm rfl (.inr ⟨hnew, rfl⟩)
  have hfree := ht.binding?_ne_of_new hr hnew
  have hbound := ht.update_of_unbound hfree fun r => { r with status }
  have hfinish := finish_eq hr status fault true
  rw [if_pos rfl, hname] at hfinish
  dsimp only at hfinish
  rw [bindName_eq] at hfinish
  rw [hfinish]
  generalize hu : (t.update id fun r => { r with status }) = u at *
  have hbinding (other : String) : u.binding? other = s.binding? other := by
    rw [← hu, binding?_update, binding?, binding?, hbindings]
  have hothers (j : SnippetId) (hj : j ≠ id) :
      (u.record? j).map Record.known = (s.record? j).map Record.known := by
    rw [← hu, record?_update_of_ne t _ hj]
    exact hsame j hj
  have hfree' (other : String) : u.binding? other ≠ some id := by
    rw [← hu, binding?_update]
    exact hfree other
  obtain ⟨hoverwrites, hnodup, hnot, hgone, hrest⟩ := supersede_overwrites hbound name hfree'
  refine ⟨(u.supersede name id).1, _, rfl, ?_, ?_⟩
  · exact hoverwrites.of_known (hbinding name) fun p hp => hothers p fun heq => hfree' name (heq ▸ hp)
  · refine notifies_of_cascade ((htells.trans hbegun).trans (tells_supersede hbound name id)) rfl
      (List.nodup_cons.2 ⟨hnot, hnodup⟩) (cause_supersede u name id) hgone fun j hj => ?_
    rw [snippetsOf, List.map_cons, List.mem_cons, not_or] at hj
    rw [hrest j hj.2]
    exact hothers j hj.1

/-- A snippet that is given its status is bound to the name that it is given with it, and to no other. -/
theorem binding?_finish {s : Store} {id : SnippetId} {r : Record} (hr : s.record? id = some r)
    (status : Status) (fault : Option FaultReport) (binds : Bool) (name : String) :
    (s.finish id status fault binds).2.binding? name =
      if (if binds then r.name else none) = some name then some id else s.binding? name := by
  rw [finish_eq hr]
  cases if binds then r.name else none with
  | none => exact binding?_update ..
  | some key =>
    dsimp only
    rw [bindName_eq]
    have hlooks := recheckDependents_looks
      ((s.update id fun r => { r with status }).supersede key id).2 key id
    rw [binding?, hlooks.sameNames.bindings, ← binding?, binding?_supersede_eq, binding?_update]
    simp only [Option.some.injEq]

/-- A statement that binds a name to the snippet that it makes. -/
theorem Makes.notifies {s s' : Store} {events : List SnippetEvent} (hs : s.Bound)
    (h : s.Makes (events, s')) {name : String} {id : SnippetId} (hnew : s.record? id = none)
    (hid : s'.binding? name = some id) :
    ∃ opening overwritten rechecks, events = opening :: (overwritten ++ rechecks) ∧
      opening.snippet = id ∧ opening.previous = .nonexistent ∧ opening.status.isActive = true ∧
      opening.cause = none ∧ s.Overwrites name id overwritten ∧
      s.Notifies name id (opening :: overwritten) rechecks s' := by
  obtain ⟨t, r, status, fault, binds, hbound, htells, -, hr, hstatus, hactive, hbindings, hsame, hfinish⟩ :=
    h.finishes
  have hs' : s' = (t.finish (s.records.length + 1) status fault binds).2 := congrArg Prod.snd hfinish
  rw [hs', binding?_finish hr, binding?, hbindings] at hid
  by_cases hkey : (if binds then r.name else none) = some name
  · rw [if_pos hkey] at hid
    obtain rfl := Option.some.inj hid
    cases binds with
    | false => cases hkey
    | true =>
      obtain ⟨overwritten, rechecks, hevents, hoverwrites, hnotifies⟩ :=
        notifies_of_finish (hbound hs) hr hstatus hkey htells hbindings hsame status fault
      rw [← hfinish] at hevents hnotifies
      exact ⟨_, overwritten, rechecks, hevents, rfl, rfl, hactive rfl, rfl, hoverwrites, hnotifies⟩
  · -- a name that the statement does not bind belongs to a snippet that was there before
    rw [if_neg hkey] at hid
    obtain ⟨r', hr', -⟩ := hs name id hid
    rw [hnew] at hr'
    cases hr'

/-- A snippet that a name is bound to is dropped. -/
theorem notifies_of_drop {s : Store} (hs : s.Bound) {name : String} {id : SnippetId} {r : Record}
    (hid : s.binding? name = some id) (hr : s.record? id = some r) :
    ∃ rechecks, (s.drop id).1 = r.dropped id :: rechecks ∧
      s.Notifies name id [r.dropped id] rechecks (s.drop id).2 := by
  obtain ⟨r', hr', hname, hactive⟩ := hs name id hid
  obtain rfl := Option.some.inj (hr.symm.trans hr')
  rcases drop_cases hs id with h | ⟨r', hr', -, ⟨hfree, -⟩ | ⟨other, t, hother, -, ht, h⟩⟩
  · -- a snippet in use is not left as it is
    have hevents := congrArg Prod.fst h
    unfold drop at hevents
    rw [hr] at hevents
    simp only [hactive, transition_of_record? hr, hname] at hevents
    rw [if_neg (by decide)] at hevents
    split at hevents <;> cases hevents
  · exact (hfree name hid).elim
  · obtain rfl := Option.some.inj (hr.symm.trans hr')
    obtain rfl := Option.some.inj (hname.symm.trans hother)
    rw [h]
    refine ⟨_, rfl, notifies_of_cascade ?_ rfl (List.nodup_singleton id)
      (fun _ he => absurd he List.not_mem_nil) (fun _ he => absurd he List.not_mem_nil) fun j hj => ?_⟩
    · have hr' : (s.unbind name).record? id = some r := hr
      have hunbind : s.Tells [] (s.unbind name) := tells_of_records_eq rfl
      rw [ht]
      exact hunbind.trans (tells_dropped hr' hactive)
    · have hj' : j ≠ id := fun heq => hj (List.mem_singleton.2 heq)
      rw [ht, record?_update_of_ne _ _ hj']
      rfl

end Store

/-- Whoever uses a name is told once that it has changed hands. In every state of an engine, a statement
that binds a name to the snippet that it makes is told of by the beginning of the snippet, then by one
event for the snippet that had the name, if there was one, and then by the looks at what mentions the
name. A cascade ends after finitely many looks, none of its events tells of a snippet twice, and all
that mentions the name is told of, or the name of what becomes defined or undefined on the way. The same
holds if the snippet that a name is bound to is dropped. -/
theorem dependents_told_once {σ : Type} (calls : HostCalls σ) {s : Store} {w : σ}
    (hs : Engine.Reached calls s w) :
    (∀ fuel stmt piece events s' w' name id,
      Engine.outcome (Engine.evaluateStmt calls fuel stmt piece) s w = (.ok events, s', w') →
      s.record? id = none → s'.binding? name = some id →
      ∃ opening overwritten rechecks, events = opening :: (overwritten ++ rechecks) ∧
        opening.snippet = id ∧ opening.previous = .nonexistent ∧ opening.status.isActive = true ∧
        opening.cause = none ∧ s.Overwrites name id overwritten ∧
        s.Notifies name id (opening :: overwritten) rechecks s') ∧
    ∀ name id r, s.binding? name = some id → s.record? id = some r →
      ∃ rechecks, (s.drop id).1 = r.dropped id :: rechecks ∧
        s.Notifies name id [r.dropped id] rechecks (s.drop id).2 := by
  refine ⟨fun fuel stmt piece events s' w' name id h hnew hid => ?_, fun name id r hid hr => ?_⟩
  · have hyields := Engine.evaluateStmt_makes calls fuel s w stmt piece
    rw [h] at hyields
    exact hyields.notifies hs.bound hnew hid
  · exact Store.notifies_of_drop hs.bound hid hr

/-- A struct, another one that its field names, and a function that takes the first one. -/
def usedStructs : List (Request Unit) :=
  [.evaluate 20 "struct A \x7b b: B \x7d".toList, .evaluate 20 "struct B \x7b n: i64 \x7d".toList,
    .evaluate 20 "fn f(a: A) -> i64 \x7b 1 \x7d".toList]

/-- The second struct with a field whose struct is not there. -/
def waitingStruct : List Char := "struct B \x7b c: C \x7d".toList

/-- When the second struct has to wait, the first one becomes undefined, and the function is told. -/
theorem users_of_struct_told_once :
    ∃ s stmt events s' opening overwritten rechecks r dropRechecks,
      Engine.Reached errorCalls s () ∧ parseUnit waitingStruct = .ok [stmt] ∧
      Engine.outcome (Engine.evaluateStmt errorCalls 20 stmt (.whole waitingStruct)) s () =
        (.ok events, s', ()) ∧
      s.record? 4 = none ∧ s'.binding? "B" = some 4 ∧
      events = opening :: (overwritten ++ rechecks) ∧ snippetsOf events = [4, 2, 1, 3] ∧
      s.Overwrites "B" 4 overwritten ∧ s.Notifies "B" 4 (opening :: overwritten) rechecks s' ∧
      s.binding? "B" = some 2 ∧ s.record? 2 = some r ∧ (s.drop 2).1 = r.dropped 2 :: dropRechecks ∧
      s.Notifies "B" 2 [r.dropped 2] dropRechecks (s.drop 2).2 := by
  have hstart : Engine.Reached errorCalls {} () := .start ()
  have hreached := hstart.live usedStructs
  have hruns : (parseUnit waitingStruct).toOption.any (fun stmts => stmts.length == 1 && stmts.all fun stmt =>
      let s := (Engine.live errorCalls usedStructs {} ()).2.1
      let after := Engine.outcome (Engine.evaluateStmt errorCalls 20 stmt (.whole waitingStruct)) s ()
      after.1.toOption.any fun events => decide ((s.record? 4).isNone = true ∧
        after.2.1.binding? "B" = some 4 ∧ snippetsOf events = [4, 2, 1, 3] ∧ s.binding? "B" = some 2 ∧
        (s.record? 2).isSome = true)) = true := by
    decide +kernel
  generalize (Engine.live errorCalls usedStructs {} ()).2 = state at hreached hruns
  obtain ⟨s, w⟩ := state
  obtain ⟨stmts, hparse, hruns⟩ := (Option.any_eq_true _ _).1 hruns
  obtain ⟨hone, hruns⟩ := Bool.and_eq_true_iff.1 hruns
  obtain ⟨stmt, rfl⟩ := List.length_eq_one_iff.1 (eq_of_beq hone)
  have hruns := List.all_eq_true.1 hruns stmt (List.mem_singleton_self _)
  dsimp only at hreached hruns
  rcases hstmt : Engine.outcome (Engine.evaluateStmt errorCalls 20 stmt (.whole waitingStruct)) s () with
    ⟨result, s', w'⟩
  rw [hstmt] at hruns
  obtain ⟨events, hevents, hruns⟩ := (Option.any_eq_true _ _).1 hruns
  obtain rfl := ok_of_toOption_eq_some hevents
  obtain ⟨hnew, hid, hsnippets, hold, hsome⟩ := of_decide_eq_true hruns
  obtain ⟨r, hr⟩ := Option.isSome_iff_exists.1 hsome
  have hnone := Option.isNone_iff_eq_none.1 hnew
  obtain ⟨hbinds, hdrops⟩ := dependents_told_once errorCalls hreached
  obtain ⟨opening, overwritten, rechecks, hopening, -, -, -, -, hoverwrites, hnotifies⟩ :=
    hbinds 20 stmt _ events s' w' "B" 4 hstmt hnone hid
  obtain ⟨dropRechecks, hdrop, hdropped⟩ := hdrops "B" 2 r hold hr
  exact ⟨s, stmt, events, s', opening, overwritten, rechecks, r, dropRechecks, hreached,
    ok_of_toOption_eq_some hparse, hstmt, hnone, hid, hopening, hsnippets, hoverwrites, hnotifies, hold, hr,
    hdrop, hdropped⟩

end Notebook.Guest

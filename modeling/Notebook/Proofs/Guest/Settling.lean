import Notebook.Proofs.Guest.Sound

/-!
# What one operation settles

A statement or a drop looks at some structs and leaves the others alone (`Store.Operation`).  What it
looks at is settled among the names of that moment.  What it leaves alone mentions no name that it
changes, which is what makes a cascade complete.
-/

namespace Notebook

/-- The event begins an operation: it tells of a new snippet or of one that is dropped on demand. -/
def SnippetEvent.opens (e : SnippetEvent) : Bool :=
  e.previous = .nonexistent || e.status = .dropped

theorem SnippetEvent.opens_eq_false {e : SnippetEvent} (hactive : e.previous.isActive = true)
    (hstatus : e.status ≠ .dropped) : e.opens = false := by
  have hprevious : e.previous ≠ .nonexistent := by
    intro hnew
    rw [hnew] at hactive
    cases hactive
  simp [opens, hprevious, hstatus]

theorem about_of_mem {events : List SnippetEvent} (h : (snippetsOf events).Nodup) {e : SnippetEvent}
    (he : e ∈ events) : about e.snippet events = [e] := by
  obtain ⟨before, rest, rfl⟩ := List.append_of_mem he
  rw [snippetsOf_append, List.nodup_append] at h
  obtain ⟨-, hrest, hdisjoint⟩ := h
  have hbefore : e.snippet ∉ snippetsOf before := fun hmem =>
    hdisjoint _ hmem _ List.mem_cons_self rfl
  have hafter : e.snippet ∉ snippetsOf rest := (List.nodup_cons.1 hrest).1
  rw [about_append, about_of_not_mem hbefore, List.nil_append, about,
    List.filter_cons_of_pos (by simp)]
  exact congrArg (e :: ·) (about_of_not_mem hafter)

end Notebook

namespace Notebook.Guest
open Notebook.Syntax

theorem Record.opens_dropped (r : Record) (id : SnippetId) : (r.dropped id).opens = true :=
  Bool.or_true _

namespace Store

/-- The snippet is what a struct is understood to be while some names stand for valid structs: it waits
for the others, and is valid if there are none. -/
structure Settled (s : Store) (id : SnippetId) (d : StructDecl) (has : String → Prop) : Prop where
  mem_unresolved : ∀ name, name ∈ s.unresolved id ↔ name ∈ fieldNames d.fields ∧ ¬ has name
  sorted : (s.unresolved id).Pairwise (· < ·)
  status : s.status id = if (s.unresolved id).isEmpty then .valid else .recoverableUndefined

theorem unresolved_of_record? {s : Store} {id : SnippetId} {r : Record} (h : s.record? id = some r) :
    s.unresolved id = r.unresolved := by
  unfold unresolved
  rw [h]
  rfl

theorem unresolved_congr {s t : Store} {id : SnippetId} (h : t.record? id = s.record? id) :
    t.unresolved id = s.unresolved id := by
  unfold unresolved
  rw [h]

theorem settled_of_missingNames {s m : Store} (hm : m.Sound) {id : SnippetId} {r : Record}
    {d : StructDecl} (hr : s.record? id = some r) (hunresolved : r.unresolved = missingNames m.globals d)
    (hstatus : r.status =
      if (missingNames m.globals d).isEmpty then .valid else .recoverableUndefined) :
    s.Settled id d m.HasStruct := by
  refine ⟨fun name => ?_, ?_, ?_⟩
  · rw [unresolved_of_record? hr, hunresolved, mem_missingNames, ne_eq, hm.globals_eq_struct_iff]
  · rw [unresolved_of_record? hr, hunresolved]
    exact sorted_missingNames _ d
  · rw [status_of_record? hr, unresolved_of_record? hr, hunresolved]
    exact hstatus

/-! ## Structs that a change does not concern -/

/-- A change that concerns no struct of a name. -/
theorem hasStruct_congr {s t : Store} {name : String}
    (h : ∀ id d, d.name = name →
      (s.struct? id = some d ∧ s.status id = .valid ↔ t.struct? id = some d ∧ t.status id = .valid)) :
    s.HasStruct name ↔ t.HasStruct name := by
  constructor
  · rintro ⟨id, d, hd, hname, hvalid⟩
    obtain ⟨hd', hvalid'⟩ := (h id d hname).1 ⟨hd, hvalid⟩
    exact ⟨id, d, hd', hname, hvalid'⟩
  · rintro ⟨id, d, hd, hname, hvalid⟩
    obtain ⟨hd', hvalid'⟩ := (h id d hname).2 ⟨hd, hvalid⟩
    exact ⟨id, d, hd', hname, hvalid'⟩

theorem Keeps.struct? {s t : Store} (h : s.Keeps t) {id : SnippetId} {d : StructDecl}
    (hd : s.struct? id = some d) : t.struct? id = some d := by
  obtain ⟨r, hr, hd⟩ := struct?_eq_some_iff.1 hd
  obtain ⟨r', hr', hsame⟩ := h id r hr
  exact struct?_eq_some_iff.2 ⟨r', hr', hsame.declaration.trans hd⟩

/-- A snippet that has a status has been there before. -/
theorem Keeps.struct?_of_status {s t : Store} (h : s.Keeps t) {id : SnippetId} {d : StructDecl}
    (hd : t.struct? id = some d) (hthere : s.status id ≠ .nonexistent) : s.struct? id = some d := by
  cases hr : s.record? id with
  | none =>
    unfold Store.status at hthere
    rw [hr] at hthere
    exact absurd rfl hthere
  | some r =>
    obtain ⟨r', hr', hsame⟩ := h id r hr
    obtain ⟨r'', hr'', hd⟩ := struct?_eq_some_iff.1 hd
    rw [hr'] at hr''
    cases hr''
    exact struct?_eq_some_iff.2 ⟨r, hr, hsame.declaration.symm.trans hd⟩

/-- What is told by no event concerns no struct. -/
theorem Tells.status_eq {s t : Store} {events : List SnippetEvent} (h : s.Tells events t)
    {id : SnippetId} (hid : id ∉ snippetsOf events) : t.status id = s.status id := by
  have hleads := h.leads id
  rw [about_of_not_mem hid] at hleads
  exact hleads.symm

theorem Tells.hasStruct_iff {s t : Store} (h : s.Tells [] t) (name : String) :
    s.HasStruct name ↔ t.HasStruct name := by
  refine hasStruct_congr fun id d _ => ?_
  have hstatus : t.status id = s.status id := h.status_eq List.not_mem_nil
  constructor
  · rintro ⟨hd, hvalid⟩
    exact ⟨h.keeps.struct? hd, hstatus.trans hvalid⟩
  · rintro ⟨hd, hvalid⟩
    have hvalid' := hstatus.symm.trans hvalid
    refine ⟨h.keeps.struct?_of_status hd ?_, hvalid'⟩
    rw [hvalid']
    exact Status.noConfusion

/-! ## Cascades -/

/-- A struct that is looked at is settled among the names of that moment. -/
theorem Looks.settled {cause : SnippetId} {s s' : Store} {events : List SnippetEvent} (hs : s.Sound)
    (h : Looks cause s events s') (hnodup : (snippetsOf events).Nodup) {id : SnippetId}
    {d : StructDecl} (hd : s.struct? id = some d) (hid : id ∈ snippetsOf events) :
    ∃ before e rest m, events = before ++ e :: rest ∧ e.snippet = id ∧ id ∉ snippetsOf rest ∧
      s.Tells before m ∧ m.Keeps s' ∧ s'.Settled id d m.HasStruct := by
  induction h with
  | done => cases hid
  | @look s s' events j r declaration hr hdeclaration hactive hrest ih =>
    obtain ⟨hj, hnodup⟩ := List.nodup_cons.1 hnodup
    change j ∉ snippetsOf events at hj
    by_cases hjid : id = j
    · subst hjid
      -- the look at the snippet itself: no later one touches it again
      have hlooks := Looks.look hr hdeclaration hactive hrest
      refine ⟨[], _, events, s, rfl, rfl, hj, tells_of_records_eq rfl, hlooks.tells.keeps, ?_⟩
      obtain ⟨r', hr', hd⟩ := struct?_eq_some_iff.1 hd
      rw [hr] at hr'
      cases hr'
      rw [hdeclaration] at hd
      cases hd
      obtain ⟨hgenerics, hreadable⟩ := (hs.fine id r hr).readable d hdeclaration
      obtain ⟨signature, doc, heq⟩ := Record.rechecked_of_struct (r := r) hgenerics hreadable
      have hself : s'.record? id = some (r.rechecked (.struct d) s.globals) := by
        rw [hrest.record?_of_not_mem hj]
        exact record?_update_self _ hr
      refine settled_of_missingNames hs hself ?_ ?_
      · rw [heq]
      · rw [heq]
    · -- the look at another snippet comes before
      have hone : Looks cause s _ (s.update j fun _ => r.rechecked declaration s.globals) :=
        .look hr hdeclaration hactive (.done _)
      have hd' := hone.tells.keeps.struct? hd
      have hid' : id ∈ snippetsOf events := (List.mem_cons.1 hid).resolve_left hjid
      obtain ⟨before, e, rest, m, rfl, heid, hnot, htells, hkeeps, hsettled⟩ :=
        ih (hs.looks hone) hnodup hd' hid'
      exact ⟨_ :: before, e, rest, m, rfl, heid, hnot, hone.tells.trans htells, hkeeps, hsettled⟩

/-- The one event of a snippet leads from the status that it had to the one that it has. -/
theorem Looks.statuses {cause : SnippetId} {s s' : Store} {events : List SnippetEvent}
    (h : Looks cause s events s') (hnodup : (snippetsOf events).Nodup) {e : SnippetEvent}
    (he : e ∈ events) : e.previous = s.status e.snippet ∧ e.status = s'.status e.snippet := by
  have hleads := h.tells.leads e.snippet
  rw [about_of_mem hnodup he] at hleads
  exact hleads

/-- A snippet that is looked at has been there before. -/
theorem Looks.status_ne {cause : SnippetId} {s s' : Store} {events : List SnippetEvent}
    (h : Looks cause s events s') (hnodup : (snippetsOf events).Nodup) {e : SnippetEvent}
    (he : e ∈ events) : s.status e.snippet ≠ .nonexistent := by
  intro hnew
  have hactive := h.previous_isActive e he
  rw [(h.statuses hnodup he).1, hnew] at hactive
  cases hactive

/-- A struct that is looked at and does not become defined or undefined is valid before if and only if it
is valid afterwards. -/
theorem Looks.valid_iff {cause : SnippetId} {s s' : Store} {events : List SnippetEvent}
    (hs : s.Sound) (h : Looks cause s events s') (hnodup : (snippetsOf events).Nodup)
    {e : SnippetEvent} (he : e ∈ events) {d : StructDecl}
    (hflips : s.struct? e.snippet = some d → ¬ e.Flips) :
    s.struct? e.snippet = some d ∧ s.status e.snippet = .valid ↔
      s'.struct? e.snippet = some d ∧ s'.status e.snippet = .valid := by
  obtain ⟨hprevious, hstatus⟩ := h.statuses hnodup he
  have hsame (hd : s.struct? e.snippet = some d) :
      (s.status e.snippet).isDefined = (s'.status e.snippet).isDefined := by
    by_contra hflip
    refine hflips hd ?_
    unfold SnippetEvent.Flips
    rw [hprevious, hstatus]
    exact hflip
  constructor
  · rintro ⟨hd, hvalid⟩
    have hd' := h.tells.keeps.struct? hd
    refine ⟨hd', ((hs.looks h).isDefined_iff hd').1 ?_⟩
    rw [← hsame hd, hvalid]
    rfl
  · rintro ⟨hd', hvalid⟩
    have hd := h.tells.keeps.struct?_of_status hd' (h.status_ne hnodup he)
    refine ⟨hd, (hs.isDefined_iff hd).1 ?_⟩
    rw [hsame hd, hvalid]
    rfl

/-- What a cascade leaves alone mentions no name that the cascade has changed. -/
theorem hasStruct_of_left_out {s : Store} (hs : s.Sound) (first : String) (cause : SnippetId)
    {id : SnippetId} {d : StructDecl} (hd : s.struct? id = some d) (hne : id ≠ cause)
    (hactive : (s.status id).isActive = true)
    (hid : id ∉ snippetsOf (s.recheckDependents first cause).1) {name : String}
    (hname : name ∈ fieldNames d.fields) :
    name ≠ first ∧ (s.HasStruct name ↔ (s.recheckDependents first cause).2.HasStruct name) := by
  have hlooks := recheckDependents_looks s first cause
  have hnodup := nodup_recheckDependents s first cause
  obtain ⟨r, hr, hdeclaration⟩ := struct?_eq_some_iff.1 hd
  have hmentions := (hs.fine id r hr).mentions d hdeclaration name hname
  -- the struct could have been looked at on account of any name that its fields use
  have hdependent : s.isDependent name id = true := by
    rw [status_of_record? hr] at hactive
    unfold isDependent
    rw [hr]
    simp only [hactive, hdeclaration, Option.isSome_some, Bool.and_self, Bool.true_and]
    exact List.contains_iff_mem.2 hmentions
  have hleft : id ∈ (s.numbered.map (·.1)).filter (· ≠ cause) :=
    List.mem_filter.2 ⟨mem_numbered_of_record? hr, by simpa using hne⟩
  obtain ⟨hpending, hflips⟩ := not_mentions_of_left_out s cause _ [first] (s.nodup_left cause) hleft
    hid hdependent
  rw [List.mem_singleton] at hpending
  refine ⟨hpending, hasStruct_congr fun j dj hjname => ?_⟩
  by_cases hj : j ∈ snippetsOf (s.recheckDependents first cause).1
  · -- had a struct of that name become defined or undefined, the name would have been pending
    obtain ⟨e, he, rfl⟩ := List.mem_map.1 hj
    refine hlooks.valid_iff hs hnodup he fun hdj hflip => ?_
    obtain ⟨rj, hrj, hdecl⟩ := struct?_eq_some_iff.1 hdj
    refine hflips e he hflip rj hrj ?_
    rw [(hs.fine _ rj hrj).named _ hdecl, ← hjname]
    rfl
  · have hrecord := hlooks.record?_of_not_mem hj
    rw [struct?_congr hrecord, status_congr hrecord]

/-- What a cascade does to a struct other than the one that it is about. -/
theorem cascade_settles {s : Store} (hs : s.Sound) (first : String) (cause : SnippetId)
    {id : SnippetId} {d : StructDecl} (hne : id ≠ cause)
    (hd : (s.recheckDependents first cause).2.struct? id = some d)
    (hactive : ((s.recheckDependents first cause).2.status id).isActive = true) :
    (id ∉ snippetsOf (s.recheckDependents first cause).1 ∧
        (s.recheckDependents first cause).2.record? id = s.record? id ∧
        ∀ name ∈ fieldNames d.fields, name ≠ first ∧
          (s.HasStruct name ↔ (s.recheckDependents first cause).2.HasStruct name)) ∨
      ∃ before e rest m, (s.recheckDependents first cause).1 = before ++ e :: rest ∧
        e.snippet = id ∧ id ∉ snippetsOf rest ∧ s.Tells before m ∧
        m.Keeps (s.recheckDependents first cause).2 ∧
        (s.recheckDependents first cause).2.Settled id d m.HasStruct := by
  have hlooks := recheckDependents_looks s first cause
  have hnodup := nodup_recheckDependents s first cause
  by_cases hid : id ∈ snippetsOf (s.recheckDependents first cause).1
  · right
    refine hlooks.settled hs hnodup ?_ hid
    obtain ⟨e, he, rfl⟩ := List.mem_map.1 hid
    exact hlooks.tells.keeps.struct?_of_status hd (hlooks.status_ne hnodup he)
  · left
    have hrecord := hlooks.record?_of_not_mem hid
    rw [struct?_congr hrecord] at hd
    rw [status_congr hrecord] at hactive
    exact ⟨hid, hrecord, fun name hname => hasStruct_of_left_out hs first cause hd hne hactive hid hname⟩

/-! ## Operations -/

/-- The struct is not looked at, and nothing that it mentions changes. -/
def LeavesAlone (s : Store) (events : List SnippetEvent) (s' : Store) (id : SnippetId)
    (d : StructDecl) : Prop :=
  id ∉ snippetsOf events ∧ s.struct? id = some d ∧ s'.status id = s.status id ∧
    s'.unresolved id = s.unresolved id ∧
    ∀ name ∈ fieldNames d.fields, s.HasStruct name ↔ s'.HasStruct name

/-- The struct is looked at, for the last time when its last event is told. -/
def LooksAt (s : Store) (events : List SnippetEvent) (s' : Store) (id : SnippetId)
    (d : StructDecl) : Prop :=
  ∃ before e rest m, events = before ++ e :: rest ∧ e.snippet = id ∧ id ∉ snippetsOf rest ∧
    s.Tells before m ∧ m.Keeps s' ∧ s'.Settled id d m.HasStruct

/-- What a statement or a drop does: only the first of its events opens an operation, and each struct
that takes part in the session afterwards has been looked at or left alone. -/
structure Operation (s : Store) (events : List SnippetEvent) (s' : Store) : Prop where
  sound : s'.Sound
  tells : s.Tells events s'
  first : ∀ e ∈ events.head?, e.opens = true
  later : ∀ e ∈ events.tail, e.opens = false
  structs : ∀ id d, s'.struct? id = some d → (s'.status id).isActive = true →
    s.LeavesAlone events s' id d ∨ s.LooksAt events s' id d

theorem Looks.not_opens {cause : SnippetId} {s s' : Store} {events : List SnippetEvent}
    (h : Looks cause s events s') : ∀ e ∈ events, e.opens = false := by
  induction h with
  | done => exact fun _ h => absurd h List.not_mem_nil
  | @look s s' events id r d hr hd hactive _ ih =>
    intro e he
    rcases List.mem_cons.1 he with rfl | he
    · refine SnippetEvent.opens_eq_false hactive fun hdropped => ?_
      have hactive' := Record.isActive_rechecked r d s.globals
      rw [show (r.rechecked d s.globals).status = .dropped from hdropped] at hactive'
      cases hactive'
    · exact ih e he

/-- A change that is not told of and leaves what snippets wait for as it is. -/
structure Quiet (s t : Store) : Prop where
  tells : s.Tells [] t
  unresolved : ∀ id r, s.record? id = some r → t.unresolved id = s.unresolved id

theorem Quiet.trans {s t u : Store} (hst : s.Quiet t) (htu : t.Quiet u) : s.Quiet u := by
  refine ⟨hst.tells.trans htu.tells, fun id r hr => ?_⟩
  obtain ⟨r', hr', -⟩ := hst.tells.keeps id r hr
  exact (htu.unresolved id r' hr').trans (hst.unresolved id r hr)

theorem Quiet.leavesAlone {s t : Store} (h : s.Quiet t) {id : SnippetId} {d : StructDecl}
    (hd : t.struct? id = some d) (hactive : (t.status id).isActive = true) :
    s.LeavesAlone [] t id d := by
  have hstatus : t.status id = s.status id := h.tells.status_eq List.not_mem_nil
  have hd' := h.tells.keeps.struct?_of_status hd fun hnew => by
    rw [hstatus, hnew] at hactive
    cases hactive
  obtain ⟨r, hr, -⟩ := struct?_eq_some_iff.1 hd'
  exact ⟨List.not_mem_nil, hd', hstatus, h.unresolved id r hr,
    fun name _ => h.tells.hasStruct_iff name⟩

theorem Quiet.operation {s t : Store} (h : s.Quiet t) (ht : t.Sound) : s.Operation [] t :=
  ⟨ht, h.tells, fun _ he => (Option.not_mem_none _ he).elim, fun _ he => absurd he List.not_mem_nil,
    fun _ _ hd hactive => .inl (h.leavesAlone hd hactive)⟩

/-- An operation before which something quiet has been done. -/
theorem Operation.after_quiet {s t s' : Store} {events : List SnippetEvent} (h : s.Quiet t)
    (ht : t.Operation events s') : s.Operation events s' := by
  refine ⟨ht.sound, h.tells.trans ht.tells, ht.first, ht.later, fun id d hd hactive => ?_⟩
  rcases ht.structs id d hd hactive with ⟨hid, hd', hstatus, hunresolved, hnames⟩ |
    ⟨before, e, rest, m, hevents, he, hrest, htells, hkeeps, hsettled⟩
  · obtain ⟨-, hd'', hstatus', hunresolved', -⟩ := h.leavesAlone hd' (hstatus ▸ hactive)
    exact .inl ⟨hid, hd'', hstatus.trans hstatus', hunresolved.trans hunresolved',
      fun name hname => (h.tells.hasStruct_iff name).trans (hnames name hname)⟩
  · exact .inr ⟨before, e, rest, m, hevents, he, hrest, h.tells.trans htells, hkeeps, hsettled⟩

/-- A struct of another name is not concerned when a snippet of some name changes. -/
theorem hasStruct_with_status {s : Store} (hs : ∀ id r, s.record? id = some r → r.Fine)
    {id : SnippetId} {r : Record} (hr : s.record? id = some r) {name other : String}
    (hname : r.name = some name) (hne : other ≠ name) (status : Status) :
    s.HasStruct other ↔ (s.update id fun r => { r with status }).HasStruct other := by
  have hself := record?_update_self (fun r => { r with status }) hr
  refine hasStruct_congr fun j d hd => ?_
  by_cases hj : j = id
  · subst hj
    -- the snippet that changes is no struct of the other name
    have hnot (hstruct : r.declaration = some (.struct d)) : False := by
      have hnamed := (hs j r hr).named _ hstruct
      rw [hname] at hnamed
      exact hne (hd.symm.trans (Option.some.inj hnamed).symm)
    constructor
    · rintro ⟨hstruct, -⟩
      obtain ⟨r', hr', hstruct⟩ := struct?_eq_some_iff.1 hstruct
      rw [hr] at hr'
      cases hr'
      exact (hnot hstruct).elim
    · rintro ⟨hstruct, -⟩
      obtain ⟨r', hr', hstruct⟩ := struct?_eq_some_iff.1 hstruct
      rw [hself] at hr'
      cases hr'
      exact (hnot hstruct).elim
  · have hrecord := record?_update_of_ne s (fun r => { r with status }) hj
    rw [struct?_congr hrecord, status_congr hrecord]

/-- What a new snippet is, if it is a struct: settled among the names that were there before it. -/
def NewSettled (s : Store) (r : Record) (status : Status) : Prop :=
  ∀ d, r.declaration = some (.struct d) →
    (∀ name, name ∈ r.unresolved ↔ name ∈ fieldNames d.fields ∧ ¬ s.HasStruct name) ∧
      r.unresolved.Pairwise (· < ·) ∧
      status = if r.unresolved.isEmpty then .valid else .recoverableUndefined

/-- What superseding a name does to the snippets, once a new one has been given its status. -/
theorem supersede_settles {s : Store} (hs : s.Sound) {id : SnippetId} {r : Record}
    (hr : s.record? id = some r) (hnew : r.status = .nonexistent) {name : String}
    (hname : r.name = some name) {status : Status}
    (hstatus : ∀ d, r.declaration = some (.struct d) → status ≠ .recoverableDefined)
    {t : Store} (ht : t = s.update id fun r => { r with status }) :
    (t.supersede name id).2.record? id = some { r with status } ∧
      id ∉ snippetsOf (t.supersede name id).1 ∧
      (∀ e ∈ (t.supersede name id).1, e.opens = false) ∧
      (∀ j, j ≠ id → ((t.supersede name id).2.status j).isActive = true →
        (t.supersede name id).2.record? j = s.record? j ∧ j ∉ snippetsOf (t.supersede name id).1) ∧
      ∀ other, other ≠ name → (s.HasStruct other ↔ (t.supersede name id).2.HasStruct other) := by
  have hbound : t.Bound := ht ▸ hs.bound.update_of_unbound (hs.bound.binding?_ne_of_new hr hnew) _
  have hself : t.record? id = some { r with status } := ht ▸ record?_update_self _ hr
  have hother (j : SnippetId) (hj : j ≠ id) : t.record? j = s.record? j :=
    ht ▸ record?_update_of_ne s _ hj
  have hfine : ∀ j r', t.record? j = some r' → r'.Fine := by
    rw [ht]
    refine Sound.fine_with_status hs.fine fun r' d hr' hd => ?_
    rw [hr] at hr'
    cases hr'
    exact hstatus d hd
  have hnames (other : String) (hne : other ≠ name) : s.HasStruct other ↔ t.HasStruct other :=
    ht ▸ hasStruct_with_status hs.fine hr hname hne status
  rcases supersede_cases hbound name id with ⟨-, h⟩ | ⟨p, rp, hp, -, hrp, hpname, hpactive, h⟩
  · rw [h]
    exact ⟨hself, List.not_mem_nil, fun _ he => absurd he List.not_mem_nil,
      fun j hj _ => ⟨hother j hj, List.not_mem_nil⟩, hnames⟩
  · rw [h]
    have hrp' : (t.bind name id).record? p = some rp := hrp
    have hfine' : ∀ j r', (t.bind name id).record? j = some r' → r'.Fine := hfine
    -- the snippet that is overwritten is out of the session, so only others are left to be concerned
    have hdead : ((t.bind name id).update p fun r => { r with status := .overwritten }).status p =
        .overwritten := status_of_record? (record?_update_self _ hrp')
    refine ⟨?_, ?_, ?_, fun j hj hjactive => ?_, fun o hne => ?_⟩
    · exact (record?_update_of_ne _ _ (Ne.symm hp)).trans hself
    · exact fun hmem => hp (List.mem_singleton.1 hmem).symm
    · intro e he
      rw [List.mem_singleton.1 he]
      exact SnippetEvent.opens_eq_false hpactive Status.noConfusion
    · have hjp : j ≠ p := by
        rintro rfl
        dsimp only at hjactive
        rw [hdead] at hjactive
        cases hjactive
      refine ⟨(record?_update_of_ne _ _ hjp).trans (hother j hj), ?_⟩
      exact fun hmem => hjp (List.mem_singleton.1 hmem)
    · have hbind : t.HasStruct o ↔ (t.bind name id).HasStruct o := Iff.rfl
      exact ((hnames o hne).trans hbind).trans
        (hasStruct_with_status hfine' hrp' hpname hne .overwritten)

/-- A change of a snippet and its name, and then the cascade that follows: a struct other than the snippet
is looked at by the cascade or left alone by both. -/
theorem settles_with_cascade {s t : Store} (ht : t.Sound) {events : List SnippetEvent}
    (htells : s.Tells events t) {name : String} {id : SnippetId}
    (hothers : ∀ j, j ≠ id → (t.status j).isActive = true →
      t.record? j = s.record? j ∧ j ∉ snippetsOf events)
    (hnames : ∀ other, other ≠ name → (s.HasStruct other ↔ t.HasStruct other))
    {j : SnippetId} {d : StructDecl} (hj : j ≠ id)
    (hd : (t.recheckDependents name id).2.struct? j = some d)
    (hactive : ((t.recheckDependents name id).2.status j).isActive = true) :
    s.LeavesAlone (events ++ (t.recheckDependents name id).1) (t.recheckDependents name id).2 j d ∨
      s.LooksAt (events ++ (t.recheckDependents name id).1) (t.recheckDependents name id).2 j d := by
  rcases cascade_settles ht name id hj hd hactive with ⟨hnot, hrecord, hkept⟩ |
    ⟨before, e, rest, m, hevents, he, hrest, htells', hkeeps, hsettled⟩
  · left
    rw [struct?_congr hrecord] at hd
    rw [status_congr hrecord] at hactive
    obtain ⟨hsame, hnotj⟩ := hothers j hj hactive
    have hsame' := hrecord.trans hsame
    refine ⟨?_, (struct?_congr hsame).symm.trans hd, status_congr hsame', unresolved_congr hsame',
      fun n hn => (hnames n (hkept n hn).1).trans (hkept n hn).2⟩
    rw [snippetsOf_append, List.mem_append, not_or]
    exact ⟨hnotj, hnot⟩
  · right
    refine ⟨events ++ before, e, rest, m, ?_, he, hrest, htells.trans htells', hkeeps, hsettled⟩
    rw [hevents, List.append_assoc]

/-- A snippet without a status takes its place under its name. -/
theorem operation_of_finish_named {s : Store} (hs : s.Sound) {id : SnippetId} {r : Record}
    (hr : s.record? id = some r) (hnew : r.status = .nonexistent) {name : String}
    (hname : r.name = some name) {status : Status} (hactive : status.isActive = true)
    (hsettled : s.NewSettled r status) (fault : Option FaultReport) :
    s.Operation (s.finish id status fault true).1 (s.finish id status fault true).2 := by
  have hstatus : ∀ d, r.declaration = some (.struct d) → status ≠ .recoverableDefined := by
    intro d hd
    rw [(hsettled d hd).2.2]
    split <;> exact Status.noConfusion
  have hsound := hs.supersede hr hnew hname hactive hstatus
  have hbegun : s.Tells [r.begun id status fault] (s.update id fun r => { r with status }) :=
    tells_update hr ⟨rfl, rfl, rfl, rfl⟩ rfl rfl rfl hnew.symm rfl (.inr ⟨hnew, rfl⟩)
  have hbound := hs.bound.update_of_unbound (hs.bound.binding?_ne_of_new hr hnew)
    fun r => { r with status }
  have hfinish := finish_eq hr status fault true
  rw [if_pos rfl, hname] at hfinish
  dsimp only at hfinish
  rw [bindName_eq] at hfinish
  rw [hfinish]
  -- three stores after each other: the status is given, the name is taken over, the cascade has run
  generalize ht : (s.update id fun r => { r with status }) = t at hsound hbegun hbound ⊢
  obtain ⟨hself, hnotid, hclosed, hothers, hnames⟩ :=
    supersede_settles hs hr hnew hname hstatus ht.symm
  have hsupersede := hbegun.trans (tells_supersede hbound name id)
  generalize (t.supersede name id).1 = overwritten at hnotid hclosed hothers hsupersede ⊢
  generalize (t.supersede name id).2 = u at hsound hself hothers hnames hsupersede ⊢
  have hlooks := recheckDependents_looks u name id
  have hleft := not_mem_recheckDependents u name id
  have htells := hsupersede.trans hlooks.tells
  refine ⟨hsound.looks hlooks, htells, ?_, ?_, fun j d hd hjactive => ?_⟩
  · intro e he
    cases he
    rfl
  · intro e he
    rcases List.mem_append.1 he with he | he
    · exact hclosed e he
    · exact hlooks.not_opens e he
  · by_cases hj : j = id
    · -- the new snippet itself is not looked at again
      right
      subst hj
      have hrecord := (hlooks.record?_of_not_mem hleft).trans hself
      obtain ⟨r', hr', hstruct⟩ := struct?_eq_some_iff.1 hd
      dsimp only at hr'
      rw [hrecord] at hr'
      cases hr'
      obtain ⟨hmem, hsorted, hstatus'⟩ := hsettled d hstruct
      refine ⟨[], _, _, s, rfl, rfl, ?_, tells_of_records_eq rfl, htells.keeps, ?_, ?_, ?_⟩
      · rw [snippetsOf_append, List.mem_append, not_or]
        exact ⟨hnotid, hleft⟩
      · rw [unresolved_of_record? hrecord]
        exact hmem
      · rw [unresolved_of_record? hrecord]
        exact hsorted
      · rw [unresolved_of_record? hrecord, status_of_record? hrecord]
        exact hstatus'
    · refine settles_with_cascade hsound hsupersede (fun k hk hkactive => ?_) hnames hj hd hjactive
      obtain ⟨hsame, hnotk⟩ := hothers k hk hkactive
      exact ⟨hsame, fun hmem => (List.mem_cons.1 hmem).elim hk hnotk⟩

/-- What is not a struct is left out of account. -/
theorem leavesAlone_of_ne {s : Store} {id : SnippetId} {r : Record} (hr : s.record? id = some r)
    (hplain : ∀ d, r.declaration ≠ some (.struct d)) {status : Status} {e : SnippetEvent}
    (he : e.snippet = id) {j : SnippetId} {d : StructDecl}
    (hd : (s.update id fun r => { r with status }).struct? j = some d) :
    s.LeavesAlone [e] (s.update id fun r => { r with status }) j d := by
  -- the snippet is no struct, neither before nor after the change
  have hnot (d : StructDecl) : (s.update id fun r => { r with status }).struct? id ≠ some d := by
    intro hstruct
    obtain ⟨r', hr', hstruct⟩ := struct?_eq_some_iff.1 hstruct
    rw [record?_update_self _ hr] at hr'
    cases hr'
    exact hplain d hstruct
  have hnot' (d : StructDecl) : s.struct? id ≠ some d := by
    intro hstruct
    obtain ⟨r', hr', hstruct⟩ := struct?_eq_some_iff.1 hstruct
    rw [hr] at hr'
    cases hr'
    exact hplain d hstruct
  have hj : j ≠ id := fun heq => hnot d (heq ▸ hd)
  have hrecord := record?_update_of_ne s (fun r => { r with status }) hj
  refine ⟨fun hmem => hj ((List.mem_singleton.1 hmem).trans he), (struct?_congr hrecord).symm.trans hd,
    status_congr hrecord, unresolved_congr hrecord, fun name _ => hasStruct_congr fun k dk _ => ?_⟩
  by_cases hk : k = id
  · subst hk
    exact ⟨fun h => (hnot' dk h.1).elim, fun h => (hnot dk h.1).elim⟩
  · have hrecord := record?_update_of_ne s (fun r => { r with status }) hk
    rw [struct?_congr hrecord, status_congr hrecord]

/-- A snippet without a status that is no declaration is given one, and no name. -/
theorem operation_of_finish_unnamed {s : Store} (hs : s.Sound) {id : SnippetId} {r : Record}
    (hr : s.record? id = some r) (hnew : r.status = .nonexistent) (hplain : r.declaration = none)
    (status : Status) (fault : Option FaultReport) (binds : Bool)
    (hbinds : (if binds then r.name else none) = none) :
    s.Operation (s.finish id status fault binds).1 (s.finish id status fault binds).2 := by
  have hbegun : s.Tells [r.begun id status fault] (s.update id fun r => { r with status }) :=
    tells_update hr ⟨rfl, rfl, rfl, rfl⟩ rfl rfl rfl hnew.symm rfl (.inr ⟨hnew, rfl⟩)
  have hnone (d : StructDecl) : r.declaration ≠ some (.struct d) := by
    rw [hplain]
    intro heq
    cases heq
  rw [finish_eq hr, hbinds]
  refine ⟨hs.finish_unnamed hr hnew hplain status, hbegun, ?_, fun _ h => absurd h List.not_mem_nil,
    fun j d hd _ => .inl (leavesAlone_of_ne hr hnone rfl hd)⟩
  intro e he
  cases he
  rfl

theorem quiet_allocate {s : Store} {r : Record} (hr : r.status = .nonexistent) :
    s.Quiet (s.allocate r).2 := by
  refine ⟨tells_allocate hr, fun id r' hr' => unresolved_congr ?_⟩
  rw [record?_allocate, if_neg]
  exact Nat.ne_of_lt (Nat.lt_succ_of_le (le_length_of_record? hr'))

theorem SameBut.quiet {s t : Store} (h : s.SameBut t) : s.Quiet t := by
  refine ⟨h.tells, fun id r hr => ?_⟩
  obtain ⟨r', hr', hknown⟩ := h.of_record? hr
  have hunresolved := congrArg Record.unresolved hknown
  rw [unresolved_of_record? hr, unresolved_of_record? hr']
  exact hunresolved

theorem quiet_update {s : Store} {id : SnippetId} {f : Record → Record}
    (hf : ∀ r, Record.Fills r (f r)) : s.Quiet (s.update id f) := by
  refine ⟨tells_update_quiet (fun r => Record.sameCode_of_fills (hf r)) fun r => ?_, fun j r hr => ?_⟩
  · obtain ⟨definition, refs, heq, -⟩ := hf r
    rw [heq]
  · by_cases hj : j = id
    · subst hj
      rw [unresolved_of_record? hr, unresolved_of_record? (record?_update_self f hr)]
      obtain ⟨definition, refs, heq, -⟩ := hf r
      rw [heq]
    · exact unresolved_congr (record?_update_of_ne s f hj)

theorem quiet_of_records_eq {s s' : Store} (h : s'.records = s.records) : s.Quiet s' := by
  refine ⟨tells_of_records_eq h, fun id _ _ => unresolved_congr ?_⟩
  unfold record?
  rw [h]

theorem Sound.of_records_eq {s s' : Store} (hs : s.Sound) (h : s'.records = s.records)
    (hbindings : s'.bindings = s.bindings) : s'.Sound := by
  have hrecord (id : SnippetId) : s'.record? id = s.record? id := by
    unfold record?
    rw [h]
  refine hs.of_eq hbindings (hs.bound.of_eq hbindings fun id r hr hactive => ?_) (fun id r hr => ?_)
    fun id r d hr hd hactive => ?_
  · exact ⟨r, (hrecord id).trans hr, rfl, hactive⟩
  · exact hs.fine id r ((hrecord id).symm.trans hr)
  · exact ⟨r, (hrecord id).symm.trans hr, hd, hactive⟩

/-- A new snippet without a status that is no declaration, whose code has run. -/
theorem quiet_ran {s t : Store} (hs : s.Sound) {nextValue : Nat} {r : Record} (hnew : r.Plain)
    (hruns : ({ s with nextValue }.allocate r).2.Runs t) : s.Quiet t ∧ t.Sound := by
  have hcounted : ({ s with nextValue } : Store).Sound := hs.of_records_eq rfl rfl
  have hquiet : s.Quiet { s with nextValue } := quiet_of_records_eq rfl
  exact ⟨(hquiet.trans (quiet_allocate hnew.status)).trans hruns.sameBut.quiet,
    (hcounted.allocate hnew.fine hnew.status).sameBut hruns.sameBut⟩

theorem operation_of_breaks {s s' : Store} (hs : s.Sound) (h : s.Breaks s') : s.Operation [] s' := by
  obtain ⟨nextValue, r, hnew, hruns⟩ := h
  obtain ⟨hquiet, hsound⟩ := quiet_ran hs hnew hruns
  exact hquiet.operation hsound

/-- A declaration that has been understood is settled among the names that it was understood by. -/
theorem newSettled_made {s : Store} (hs : s.Sound) {d : Declaration} {a : Analysis} (piece : Slice)
    (ha : d.analyze s.globals = .ok a) {t : Store} (ht : s.Tells [] t) :
    t.NewSettled (d.made a piece) a.status := by
  intro sd hsd
  cases hsd
  obtain ⟨hgenerics, hreadable⟩ := readable_of_analyzeStruct ha
  obtain ⟨signature, doc, heq⟩ := analyzeStruct_eq hgenerics hreadable
  obtain rfl := Except.ok.inj ((heq s.globals).symm.trans ha)
  refine ⟨fun name => ?_, sorted_missingNames _ sd, rfl⟩
  change name ∈ missingNames s.globals sd ↔ _
  rw [mem_missingNames, ne_eq, hs.globals_eq_struct_iff, ht.hasStruct_iff]

theorem operation_of_makes {s : Store} (hs : s.Sound) {made : List SnippetEvent × Store}
    (h : s.Makes made) : s.Operation made.1 made.2 := by
  have hself (s : Store) (r : Record) :
      (s.allocate r).2.record? (s.records.length + 1) = some r := by
    rw [record?_allocate, if_pos rfl]
  cases h with
  | refuses kind source origin d =>
    have hplain : Record.Plain
        { kind, source, name := none, origin, diagnostics := [d] } := ⟨rfl, rfl, rfl⟩
    exact (operation_of_finish_unnamed (hs.allocate hplain.fine rfl) (hself s _) rfl rfl .rejected none
      false rfl).after_quiet (quiet_allocate rfl)
  | declares d a piece ha =>
    have hquiet := quiet_allocate (s := s) (r := d.made a piece) rfl
    exact (operation_of_finish_named (hs.allocate (Declaration.fine_made ha piece) rfl) (hself s _) rfl
      rfl (isActive_of_analyze ha) (newSettled_made hs piece ha hquiet.tells) none).after_quiet hquiet
  | runs nextValue r t f fault binds hnew hruns hf =>
    obtain ⟨hquiet, ht⟩ := quiet_ran hs hnew hruns
    obtain ⟨r', hr', hknown⟩ := hruns.sameBut.of_record? (hself _ r)
    have hstatus := Record.status_of_known hknown
    have hsame := Record.sameCode_of_known hknown
    have hplain : r'.declaration = none := hsame.declaration.trans hnew.declaration
    have hfills := hf r'
    have hsame' := Record.sameCode_of_fills hfills
    have hstatus' : (f r').status = r'.status := by
      obtain ⟨definition, refs, heq, -⟩ := hfills
      rw [heq]
    have hnew' : (f r').status = .nonexistent := (hstatus'.trans hstatus).trans hnew.status
    have hplain' : (f r').declaration = none := hsame'.declaration.trans hplain
    have hsound := ht.update hr' ((hnew.fine.of_known hknown).of_fills hplain hfills) hsame'
      (congrArg Status.isActive hstatus')
    have hquiet' : s.Quiet (t.update (s.records.length + 1) f) := hquiet.trans (quiet_update hf)
    have hrecord := record?_update_self f hr'
    cases hbinds : (if binds then (f r').name else none) with
    -- without a name of its own the snippet changes nothing that a struct could mention
    | none =>
      exact (operation_of_finish_unnamed hsound hrecord hnew' hplain' .valid fault binds hbinds).after_quiet
        hquiet'
    | some name =>
      cases binds with
      | false => cases hbinds
      | true =>
        refine (operation_of_finish_named hsound hrecord hnew' hbinds rfl ?_ fault).after_quiet hquiet'
        intro d hd
        rw [hplain'] at hd
        cases hd

/-- Dropping a snippet that takes part in the session frees its name. -/
theorem operation_of_drop {s : Store} (hs : s.Sound) (id : SnippetId) :
    s.Operation (s.drop id).1 (s.drop id).2 := by
  rcases drop_cases hs.bound id with h | ⟨r, hr, hactive, ⟨hfree, h⟩ | ⟨name, t, hname, hid, ht, h⟩⟩
  · rw [h]
    exact (quiet_of_records_eq rfl).operation hs
  · -- no name is bound to the snippet, so it is no declaration
    rw [h]
    have hplain (d : StructDecl) : r.declaration ≠ some (.struct d) := fun hd =>
      hfree _ (hs.inUse id r _ hr hd hactive)
    refine ⟨hs.dropped_unnamed hfree, tells_dropped hr hactive, ?_, fun _ h => absurd h List.not_mem_nil,
      fun j d hd _ => .inl (leavesAlone_of_ne hr hplain rfl hd)⟩
    intro e he
    cases he
    exact r.opens_dropped id
  · rw [h]
    have hr' : (s.unbind name).record? id = some r := hr
    have hunbind : s.Tells [] (s.unbind name) := tells_of_records_eq rfl
    have hdropped := hunbind.trans (tells_dropped hr' hactive)
    have hsound := hs.dropped hr hname hid
    have hdead := status_of_record?
      (record?_update_self (fun r => { r with status := .dropped }) hr')
    have hothers (j : SnippetId) (hj : j ≠ id) := record?_update_of_ne (s.unbind name)
      (fun r => { r with status := .dropped }) hj
    have hnames (n : String) (hn : n ≠ name) := hasStruct_with_status (s := s.unbind name) hs.fine hr'
      hname hn .dropped
    rw [← ht] at hdropped hsound hdead hothers hnames
    have hlooks := recheckDependents_looks t name id
    have hleft := not_mem_recheckDependents t name id
    refine ⟨hsound.looks hlooks, hdropped.trans hlooks.tells, ?_, hlooks.not_opens,
      fun j d hd hjactive => ?_⟩
    · intro e he
      cases he
      exact r.opens_dropped id
    · -- the dropped snippet takes no part in the session any more, and all others go through the cascade
      have hj : j ≠ id := by
        rintro rfl
        dsimp only at hjactive
        rw [status_congr (hlooks.record?_of_not_mem hleft), hdead] at hjactive
        cases hjactive
      refine settles_with_cascade hsound hdropped (fun k hk _ => ⟨hothers k hk, ?_⟩) hnames hj hd hjactive
      exact fun hmem => hk (List.mem_singleton.1 hmem)

end Store

end Notebook.Guest

import Notebook.Proofs.Guest.Cascade
import Notebook.Proofs.Guest.Declared
import Notebook.Proofs.Guest.Statement

/-!
# Events as the history of the store

The events of a snippet lead from the status that it had to the one that it has, whatever was done in
between (`Store.Tells`).  What carries this through a cascade is that a name is only ever bound to a
snippet that takes part in the session and has that name (`Store.Bound`).
-/

namespace Notebook

/-- The events that tell of one snippet. -/
def about (id : SnippetId) (events : List SnippetEvent) : List SnippetEvent :=
  events.filter (·.snippet = id)

/-- The events lead from a status to another: each starts where the one before it ended. -/
def Leads : Status → List SnippetEvent → Status → Prop
  | a, [], b => a = b
  | a, e :: events, b => e.previous = a ∧ Leads e.status events b

/-- The snippets whose beginning is told of. -/
def created (events : List SnippetEvent) : List SnippetId :=
  snippetsOf (events.filter (·.previous = .nonexistent))

theorem leads_append {a b c : Status} {events more : List SnippetEvent} (hab : Leads a events b)
    (hbc : Leads b more c) : Leads a (events ++ more) c := by
  induction events generalizing a with
  | nil =>
    cases hab
    exact hbc
  | cons e events ih => exact ⟨hab.1, ih hab.2⟩

theorem about_append (id : SnippetId) (events more : List SnippetEvent) :
    about id (events ++ more) = about id events ++ about id more := List.filter_append ..

theorem about_of_not_mem {id : SnippetId} {events : List SnippetEvent}
    (h : id ∉ snippetsOf events) : about id events = [] := by
  rw [about, List.filter_eq_nil_iff]
  intro e he heq
  rw [decide_eq_true_eq] at heq
  exact h (heq ▸ List.mem_map_of_mem he)

theorem created_append (events more : List SnippetEvent) :
    created (events ++ more) = created events ++ created more := by
  unfold created
  rw [List.filter_append, snippetsOf_append]

theorem created_eq_nil {events : List SnippetEvent} (h : ∀ e ∈ events, e.previous.isActive = true) :
    created events = [] := by
  unfold created
  rw [List.filter_eq_nil_iff.2, snippetsOf, List.map_nil]
  intro e he heq
  rw [decide_eq_true_eq] at heq
  -- what takes part in the session has begun before
  have hactive := h e he
  rw [heq] at hactive
  cases hactive

end Notebook

namespace Notebook.Guest

/-- The second snippet is the first one at another time: what it was made from is the same. -/
structure Record.SameCode (r r' : Record) : Prop where
  kind : r'.kind = r.kind
  source : r'.source = r.source
  name : r'.name = r.name
  declaration : r'.declaration = r.declaration

theorem Record.SameCode.refl (r : Record) : r.SameCode r := ⟨rfl, rfl, rfl, rfl⟩

theorem Record.SameCode.trans {r r' r'' : Record} (h : r.SameCode r') (h' : r'.SameCode r'') :
    r.SameCode r'' :=
  ⟨h'.kind.trans h.kind, h'.source.trans h.source, h'.name.trans h.name,
    h'.declaration.trans h.declaration⟩

theorem Record.sameCode_of_known {r r' : Record} (h : r'.known = r.known) : r.SameCode r' := by
  have hkind := congrArg Record.kind h
  have hsource := congrArg Record.source h
  have hname := congrArg Record.name h
  have hdeclaration := congrArg Record.declaration h
  exact ⟨hkind, hsource, hname, hdeclaration⟩

theorem Record.status_of_known {r r' : Record} (h : r'.known = r.known) : r'.status = r.status := by
  have hstatus := congrArg Record.status h
  exact hstatus

theorem Record.sameCode_of_fills {r r' : Record} (h : r.Fills r') : r.SameCode r' := by
  obtain ⟨definition, refs, rfl, -⟩ := h
  exact ⟨rfl, rfl, rfl, rfl⟩

theorem Record.sameCode_rechecked (r : Record) (d : Declaration) (g : Globals) :
    r.SameCode (r.rechecked d g) := by
  unfold Record.rechecked
  split <;> exact ⟨rfl, rfl, rfl, rfl⟩

theorem Record.isActive_rechecked (r : Record) (d : Declaration) (g : Globals) :
    (r.rechecked d g).status.isActive = true := by
  unfold Record.rechecked
  split
  · cases d <;> rfl
  · rename_i a ha
    exact isActive_of_analyze ha

/-- The event with which a new snippet begins. -/
def Record.begun (r : Record) (id : SnippetId) (status : Status) (fault : Option FaultReport) :
    SnippetEvent :=
  { snippet := id, kind := r.kind, source := r.source, previous := .nonexistent, status, fault }

/-- The event with which a snippet leaves the session on demand. -/
def Record.dropped (r : Record) (id : SnippetId) : SnippetEvent :=
  { snippet := id, kind := r.kind, source := r.source, previous := r.status, status := .dropped }

namespace Store

/-- The status of a snippet. One that is not there has no status yet. -/
def status (s : Store) (id : SnippetId) : Status :=
  ((s.record? id).map Record.status).getD .nonexistent

/-- The snippets of the first store are all there in the second one. -/
def Keeps (s s' : Store) : Prop :=
  ∀ id r, s.record? id = some r → ∃ r', s'.record? id = some r' ∧ r.SameCode r'

/-- The events tell how the second store came about from the first one. -/
structure Tells (s : Store) (events : List SnippetEvent) (s' : Store) : Prop where
  leads : ∀ id, Leads (s.status id) (about id events) (s'.status id)
  keeps : s.Keeps s'
  /-- An event is the beginning of a snippet or concerns one that takes part in the session. -/
  starts : ∀ e ∈ events, e.previous.isActive = true ∨ e.previous = .nonexistent ∧ e.cause = none
  describes : ∀ e ∈ events, ∃ r, s'.record? e.snippet = some r ∧ e.kind = r.kind ∧ e.source = r.source

/-- A name is bound to a snippet of that name which takes part in the session. -/
def Bound (s : Store) : Prop :=
  ∀ name id, s.binding? name = some id →
    ∃ r, s.record? id = some r ∧ r.name = some name ∧ r.status.isActive = true

theorem status_of_record? {s : Store} {id : SnippetId} {r : Record} (h : s.record? id = some r) :
    s.status id = r.status := by
  unfold status
  rw [h]
  rfl

theorem status_congr {s t : Store} {id : SnippetId} (h : t.record? id = s.record? id) :
    t.status id = s.status id := by
  unfold status
  rw [h]

/-! ## Putting histories together -/

theorem Keeps.refl (s : Store) : s.Keeps s := fun _ r hr => ⟨r, hr, .refl r⟩

theorem Keeps.trans {s t u : Store} (hst : s.Keeps t) (htu : t.Keeps u) : s.Keeps u := by
  intro id r hr
  obtain ⟨r', hr', hsame⟩ := hst id r hr
  obtain ⟨r'', hr'', hsame'⟩ := htu id r' hr'
  exact ⟨r'', hr'', hsame.trans hsame'⟩

theorem Tells.trans {s t u : Store} {events more : List SnippetEvent} (hst : s.Tells events t)
    (htu : t.Tells more u) : s.Tells (events ++ more) u := by
  refine ⟨fun id => ?_, hst.keeps.trans htu.keeps, fun e he => ?_, fun e he => ?_⟩
  · rw [about_append]
    exact leads_append (hst.leads id) (htu.leads id)
  · rcases List.mem_append.1 he with he | he
    · exact hst.starts e he
    · exact htu.starts e he
  · rcases List.mem_append.1 he with he | he
    · obtain ⟨r, hr, hkind, hsource⟩ := hst.describes e he
      obtain ⟨r', hr', hsame⟩ := htu.keeps _ r hr
      exact ⟨r', hr', hkind.trans hsame.kind.symm, hsource.trans hsame.source.symm⟩
    · exact htu.describes e he

/-- A change of which nothing has to be told. -/
theorem tells_nil {s s' : Store} (hstatus : ∀ id, s'.status id = s.status id) (hkeeps : s.Keeps s') :
    s.Tells [] s' :=
  ⟨fun id => (hstatus id).symm, hkeeps, fun _ h => absurd h List.not_mem_nil,
    fun _ h => absurd h List.not_mem_nil⟩

theorem tells_of_records_eq {s s' : Store} (h : s'.records = s.records) : s.Tells [] s' := by
  have hrecord (id : SnippetId) : s'.record? id = s.record? id := by
    unfold record?
    rw [h]
  exact tells_nil (fun id => status_congr (hrecord id))
    fun id r hr => ⟨r, (hrecord id).trans hr, .refl r⟩

theorem keeps_update {s : Store} {id : SnippetId} {r : Record} {f : Record → Record}
    (hr : s.record? id = some r) (hf : r.SameCode (f r)) : s.Keeps (s.update id f) := by
  intro j r' hr'
  by_cases hj : j = id
  · subst hj
    rw [hr] at hr'
    cases hr'
    exact ⟨f r, record?_update_self f hr, hf⟩
  · exact ⟨r', (record?_update_of_ne s f hj).trans hr', .refl r'⟩

/-- A change of one snippet's status is told of by one event. -/
theorem tells_update {s : Store} {id : SnippetId} {r : Record} {f : Record → Record}
    {e : SnippetEvent} (hr : s.record? id = some r) (hf : r.SameCode (f r)) (hid : e.snippet = id)
    (hkind : e.kind = r.kind) (hsource : e.source = r.source) (hprevious : e.previous = r.status)
    (hstatus : e.status = (f r).status)
    (hstarts : r.status.isActive = true ∨ r.status = .nonexistent ∧ e.cause = none) :
    s.Tells [e] (s.update id f) := by
  have hself := record?_update_self f hr
  refine ⟨fun j => ?_, keeps_update hr hf, fun e' he => ?_, fun e' he => ?_⟩
  · by_cases hj : j = id
    · subst hj
      have habout : about j [e] = [e] := by
        unfold about
        rw [List.filter_cons_of_pos (by simpa using hid), List.filter_nil]
      rw [habout, status_of_record? hr, status_of_record? hself]
      exact ⟨hprevious, hstatus⟩
    · have habout : about j [e] = [] := by
        refine about_of_not_mem ?_
        rw [snippetsOf, List.map_singleton, List.mem_singleton, hid]
        exact hj
      rw [habout]
      exact (status_congr (record?_update_of_ne s f hj)).symm
  · rw [List.mem_singleton.1 he, hprevious]
    exact hstarts
  · rw [List.mem_singleton.1 he, hid]
    exact ⟨f r, hself, hkind.trans hf.kind.symm, hsource.trans hf.source.symm⟩

/-- A change of a snippet that leaves its status as it is. -/
theorem tells_update_quiet {s : Store} {id : SnippetId} {f : Record → Record}
    (hf : ∀ r, Record.SameCode r (f r)) (hstatus : ∀ r, (f r).status = r.status) :
    s.Tells [] (s.update id f) := by
  refine tells_nil (fun j => ?_) fun j r hr => ?_
  · unfold status
    rw [record?_update]
    split
    · have hcomp : Record.status ∘ f = Record.status := funext hstatus
      rw [Option.map_map, hcomp]
    · rfl
  · by_cases hj : j = id
    · exact ⟨f r, hj ▸ record?_update_self f (hj ▸ hr), hf r⟩
    · exact ⟨r, (record?_update_of_ne s f hj).trans hr, .refl r⟩

theorem tells_allocate {s : Store} {r : Record} (hr : r.status = .nonexistent) :
    s.Tells [] (s.allocate r).2 := by
  have hnew : s.record? (s.records.length + 1) = none :=
    s.record?_eq_none _ (Nat.lt_succ_self _)
  refine tells_nil (fun id => ?_) fun id r' hr' => ⟨r', ?_, .refl r'⟩
  · unfold status
    rw [record?_allocate]
    split
    · rename_i hid
      rw [hid, hnew]
      exact hr
    · rfl
  · rw [record?_allocate, if_neg]
    · exact hr'
    · rintro rfl
      rw [hnew] at hr'
      cases hr'

theorem SameBut.tells {s t : Store} (h : s.SameBut t) : s.Tells [] t := by
  refine tells_nil (fun id => ?_) fun id r hr => ?_
  · unfold status
    have hmap := congrArg (Option.map Record.status) (h.record? id)
    rw [Option.map_map, Option.map_map] at hmap
    exact congrArg (Option.getD · .nonexistent) hmap
  · obtain ⟨r', hr', hknown⟩ := h.of_record? hr
    exact ⟨r', hr', Record.sameCode_of_known hknown⟩

theorem Looks.previous_isActive {cause : SnippetId} {s s' : Store} {events : List SnippetEvent}
    (h : Looks cause s events s') : ∀ e ∈ events, e.previous.isActive = true := by
  induction h with
  | done => exact fun _ h => absurd h List.not_mem_nil
  | look hr hd hactive _ ih =>
    intro e he
    rcases List.mem_cons.1 he with rfl | he
    · exact hactive
    · exact ih e he

theorem Looks.tells {cause : SnippetId} {s s' : Store} {events : List SnippetEvent}
    (h : Looks cause s events s') : s.Tells events s' := by
  induction h with
  | done s => exact tells_of_records_eq rfl
  | @look s s' events id r d hr hd hactive _ ih =>
    have hone : s.Tells [r.lookedAt cause id (r.rechecked d s.globals).status]
        (s.update id fun _ => r.rechecked d s.globals) :=
      tells_update hr (Record.sameCode_rechecked r d _) rfl rfl rfl rfl rfl (.inl hactive)
    exact hone.trans ih

/-! ## Names and the snippets that they are bound to -/

theorem binding?_bind (s : Store) (name other : String) (id : SnippetId) :
    (s.bind name id).binding? other = if name = other then some id else s.binding? other :=
  Table.get?_put s.bindings name other id

theorem binding?_unbind (s : Store) (name other : String) :
    (s.unbind name).binding? other = if name = other then none else s.binding? other :=
  Table.get?_erase s.bindings name other

theorem Bound.of_eq {s s' : Store} (h : s.Bound) (hbindings : s'.bindings = s.bindings)
    (hrecords : ∀ id r, s.record? id = some r → r.status.isActive = true →
      ∃ r', s'.record? id = some r' ∧ r'.name = r.name ∧ r'.status.isActive = true) : s'.Bound := by
  intro name id hid
  have hid' : s.binding? name = some id := by
    rw [← hid, binding?, binding?, hbindings]
  obtain ⟨r, hr, hname, hactive⟩ := h name id hid'
  obtain ⟨r', hr', hname', hactive'⟩ := hrecords id r hr hactive
  exact ⟨r', hr', hname'.trans hname, hactive'⟩

theorem Bound.bind {s : Store} (h : s.Bound) {id : SnippetId} {r : Record} {name : String}
    (hr : s.record? id = some r) (hname : r.name = some name) (hactive : r.status.isActive = true) :
    (s.bind name id).Bound := by
  intro other j hj
  rw [binding?_bind] at hj
  split at hj
  · rename_i heq
    cases hj
    exact ⟨r, hr, heq ▸ hname, hactive⟩
  · exact h other j hj

theorem Bound.unbind {s : Store} (h : s.Bound) (name : String) : (s.unbind name).Bound := by
  intro other j hj
  rw [binding?_unbind] at hj
  split at hj
  · cases hj
  · exact h other j hj

/-- A change of a snippet that no name is bound to. -/
theorem Bound.update_of_unbound {s : Store} (h : s.Bound) {id : SnippetId}
    (hid : ∀ name, s.binding? name ≠ some id) (f : Record → Record) : (s.update id f).Bound := by
  intro name j hj
  have hj' : s.binding? name = some j := by
    rw [← hj, binding?, binding?, bindings_update]
  have hne : j ≠ id := fun heq => hid name (heq ▸ hj')
  rw [record?_update_of_ne s f hne]
  exact h name j hj'

theorem Bound.update {s : Store} (h : s.Bound) {id : SnippetId} {r : Record} {f : Record → Record}
    (hr : s.record? id = some r) (hname : (f r).name = r.name)
    (hactive : r.status.isActive = true → (f r).status.isActive = true) : (s.update id f).Bound := by
  refine h.of_eq (bindings_update ..) fun j r' hr' hactive' => ?_
  by_cases hj : j = id
  · subst hj
    rw [hr] at hr'
    cases hr'
    exact ⟨f r, record?_update_self f hr, hname, hactive hactive'⟩
  · exact ⟨r', (record?_update_of_ne s f hj).trans hr', rfl, hactive'⟩

/-- No name is bound to a snippet that has no status yet. -/
theorem Bound.binding?_ne_of_new {s : Store} (hs : s.Bound) {id : SnippetId} {r : Record}
    (hr : s.record? id = some r) (hnew : r.status = .nonexistent) (name : String) :
    s.binding? name ≠ some id := by
  intro hid
  obtain ⟨r', hr', -, hactive⟩ := hs name id hid
  rw [hr] at hr'
  cases hr'
  rw [hnew] at hactive
  cases hactive

theorem Bound.looks {cause : SnippetId} {s s' : Store} {events : List SnippetEvent} (hs : s.Bound)
    (h : Looks cause s events s') : s'.Bound := by
  induction h with
  | done => exact hs
  | @look s s' events id r d hr hd hactive _ ih =>
    exact ih (hs.update hr (Record.sameCode_rechecked r d _).name
      fun _ => Record.isActive_rechecked r d _)

theorem Bound.allocate {s : Store} (h : s.Bound) (r : Record) : (s.allocate r).2.Bound := by
  refine h.of_eq rfl fun id r' hr' hactive => ⟨r', ?_, rfl, hactive⟩
  rw [record?_allocate, if_neg]
  · exact hr'
  · have hlt := Nat.lt_succ_of_le (le_length_of_record? hr')
    exact Nat.ne_of_lt hlt

theorem Bound.sameBut {s t : Store} (hs : s.Bound) (h : s.SameBut t) : t.Bound := by
  refine hs.of_eq h.bindings fun id r hr hactive => ?_
  obtain ⟨r', hr', hknown⟩ := h.of_record? hr
  exact ⟨r', hr', (Record.sameCode_of_known hknown).name, Record.status_of_known hknown ▸ hactive⟩

/-! ## A snippet takes its place -/

theorem transition_of_record? {s : Store} {id : SnippetId} {r : Record}
    (hr : s.record? id = some r) (status : Status) (cause : Option SnippetId) :
    s.transition id status cause =
      ([{ snippet := id, kind := r.kind, source := r.source, previous := r.status, status, cause }],
        s.update id fun r => { r with status }) := by
  unfold transition
  rw [hr]

/-- A name is bound to another snippet, and the one that had it is overwritten. -/
def supersede (s : Store) (name : String) (id : SnippetId) : List SnippetEvent × Store :=
  match s.binding? name with
  | some p =>
    if p ≠ id then (s.bind name id).transition p .overwritten (some id) else ([], s.bind name id)
  | none => ([], s.bind name id)

theorem bindName_eq (s : Store) (name : String) (id : SnippetId) :
    s.bindName name id =
      ((s.supersede name id).1 ++ ((s.supersede name id).2.recheckDependents name id).1,
        ((s.supersede name id).2.recheckDependents name id).2) := by
  unfold bindName supersede
  cases s.binding? name <;> rfl

/-- What is superseded takes part in the session until then. -/
theorem supersede_cases {s : Store} (hs : s.Bound) (name : String) (id : SnippetId) :
    (∀ p, s.binding? name = some p → p = id) ∧ s.supersede name id = ([], s.bind name id) ∨
      ∃ p r, p ≠ id ∧ s.binding? name = some p ∧ s.record? p = some r ∧ r.name = some name ∧
        r.status.isActive = true ∧
        s.supersede name id =
          ([⟨p, r.kind, r.source, r.status, .overwritten, some id, none⟩],
            (s.bind name id).update p fun r => { r with status := .overwritten }) := by
  unfold supersede
  cases hold : s.binding? name with
  | none => exact .inl ⟨fun p hp => (Option.some_ne_none p hp.symm).elim, rfl⟩
  | some p =>
    dsimp only
    split
    · rename_i hp
      obtain ⟨r, hr, hname, hactive⟩ := hs name p hold
      have hr' : (s.bind name id).record? p = some r := hr
      exact .inr ⟨p, r, hp, rfl, hr, hname, hactive, transition_of_record? hr' _ _⟩
    · rename_i hp
      refine .inl ⟨fun q hq => ?_, rfl⟩
      cases hq
      exact Decidable.not_not.1 hp

theorem length_supersede (s : Store) (name : String) (id : SnippetId) :
    (s.supersede name id).2.records.length = s.records.length := by
  unfold supersede
  cases s.binding? name with
  | none => rfl
  | some p =>
    dsimp only
    split
    · unfold transition
      split
      · rfl
      · exact length_update ..
    · rfl

theorem previous_isActive_supersede {s : Store} (hs : s.Bound) (name : String) (id : SnippetId) :
    ∀ e ∈ (s.supersede name id).1, e.previous.isActive = true := by
  intro e he
  rcases supersede_cases hs name id with ⟨-, h⟩ | ⟨p, r, -, -, -, -, hactive, h⟩
  · rw [h] at he
    cases he
  · rw [h] at he
    rw [List.mem_singleton.1 he]
    exact hactive

theorem tells_supersede {s : Store} (hs : s.Bound) (name : String) (id : SnippetId) :
    s.Tells (s.supersede name id).1 (s.supersede name id).2 := by
  have hbind : s.Tells [] (s.bind name id) := tells_of_records_eq rfl
  rcases supersede_cases hs name id with ⟨-, h⟩ | ⟨p, r, -, -, hr, -, hactive, h⟩
  · rw [h]
    exact hbind
  · rw [h]
    have hr' : (s.bind name id).record? p = some r := hr
    exact hbind.trans (tells_update hr' ⟨rfl, rfl, rfl, rfl⟩ rfl rfl rfl rfl rfl (.inl hactive))

theorem bound_supersede {s : Store} (hs : s.Bound) {id : SnippetId} {r : Record} {name : String}
    (hr : s.record? id = some r) (hname : r.name = some name) (hactive : r.status.isActive = true) :
    (s.supersede name id).2.Bound := by
  have hbind := hs.bind hr hname hactive
  rcases supersede_cases hs name id with ⟨-, h⟩ | ⟨p, rp, hp, -, hrp, hpname, -, h⟩
  · rw [h]
    exact hbind
  · rw [h]
    -- the snippet that is overwritten had this one name, which now belongs to the new snippet
    refine hbind.update_of_unbound (fun other hother => ?_) _
    rw [binding?_bind] at hother
    split at hother
    · cases hother
      exact hp rfl
    · rename_i hne
      obtain ⟨r', hr', hname', -⟩ := hs other p hother
      rw [hrp] at hr'
      cases hr'
      rw [hpname] at hname'
      exact hne (Option.some.inj hname')

theorem finish_eq {s : Store} {id : SnippetId} {r : Record} (hr : s.record? id = some r)
    (status : Status) (fault : Option FaultReport) (binds : Bool) :
    s.finish id status fault binds =
      match if binds then r.name else none with
      | none => ([r.begun id status fault], s.update id fun r => { r with status })
      | some name =>
        (r.begun id status fault :: ((s.update id fun r => { r with status }).bindName name id).1,
          ((s.update id fun r => { r with status }).bindName name id).2) := by
  unfold finish
  rw [hr]
  rfl

/-- A snippet without a status is given one, and its name if it is to have it. -/
theorem told_finish {s : Store} (hs : s.Bound) {id : SnippetId} {r : Record}
    (hr : s.record? id = some r) (hnew : r.status = .nonexistent) (status : Status)
    (fault : Option FaultReport) (binds : Bool) (hstatus : binds = true → status.isActive = true) :
    (s.finish id status fault binds).2.Bound ∧
      s.Tells (s.finish id status fault binds).1 (s.finish id status fault binds).2 ∧
      created (s.finish id status fault binds).1 = [id] ∧
      (s.finish id status fault binds).2.records.length = s.records.length := by
  have hbegun : s.Tells [r.begun id status fault] (s.update id fun r => { r with status }) :=
    tells_update hr ⟨rfl, rfl, rfl, rfl⟩ rfl rfl rfl hnew.symm rfl (.inr ⟨hnew, rfl⟩)
  have hself := record?_update_self (fun r => { r with status }) hr
  have hbound := hs.update_of_unbound (hs.binding?_ne_of_new hr hnew) fun r => { r with status }
  rw [finish_eq hr]
  cases hbinds : (if binds then r.name else none) with
  | none => exact ⟨hbound, hbegun, rfl, length_update ..⟩
  | some name =>
    have hname : r.name = some name := by
      cases binds
      · cases hbinds
      · exact hbinds
    have hactive : status.isActive = true := by
      cases binds
      · cases hbinds
      · exact hstatus rfl
    dsimp only
    rw [bindName_eq]
    have hlooks := recheckDependents_looks ((s.update id fun r => { r with status }).supersede name id).2
      name id
    have hsupersede := tells_supersede hbound name id
    refine ⟨?_, ?_, ?_, ?_⟩
    · exact (bound_supersede hbound hself hname hactive).looks hlooks
    · exact hbegun.trans (hsupersede.trans hlooks.tells)
    · -- all events but the first are about snippets that took part in the session before
      have hrest := (created_append _ _).trans (congrArg₂ (· ++ ·)
        (created_eq_nil (previous_isActive_supersede hbound name id))
        (created_eq_nil hlooks.previous_isActive))
      exact congrArg (id :: ·) hrest
    · rw [hlooks.length, length_supersede, length_update]

/-! ## A snippet is dropped -/

theorem unbind_update (s : Store) (name : String) (id : SnippetId) (f : Record → Record) :
    (s.update id f).unbind name = (s.unbind name).update id f := by
  unfold update
  split <;> rfl

/-- Only a snippet that takes part in the session can be dropped. If it has a name, then the name is
freed and what mentions it is looked at again. -/
theorem drop_cases {s : Store} (hs : s.Bound) (id : SnippetId) :
    s.drop id = ([], s) ∨
      ∃ r, s.record? id = some r ∧ r.status.isActive = true ∧
        ((∀ name, s.binding? name ≠ some id) ∧
            s.drop id = ([r.dropped id], s.update id fun r => { r with status := .dropped }) ∨
          ∃ name t, r.name = some name ∧ s.binding? name = some id ∧
            t = (s.unbind name).update id (fun r => { r with status := .dropped }) ∧
            s.drop id =
              (r.dropped id :: (t.recheckDependents name id).1, (t.recheckDependents name id).2)) := by
  unfold drop
  cases hr : s.record? id with
  | none => exact .inl rfl
  | some r =>
    dsimp only
    split
    · exact .inl rfl
    · rename_i hactive
      rw [Bool.not_eq_true', Bool.not_eq_false] at hactive
      -- a name that is bound to the snippet is its own one
      have hnamed (name : String) (hid : s.binding? name = some id) : r.name = some name := by
        obtain ⟨r', hr', hname, -⟩ := hs name id hid
        rw [hr] at hr'
        cases hr'
        exact hname
      refine .inr ⟨r, rfl, hactive, ?_⟩
      rw [transition_of_record? hr]
      dsimp only
      cases hname : r.name with
      | none =>
        refine .inl ⟨fun name hid => ?_, rfl⟩
        rw [hnamed name hid] at hname
        cases hname
      | some name =>
        dsimp only
        have hbinding : (s.update id fun r => { r with status := .dropped }).binding? name =
            s.binding? name := by
          rw [binding?, binding?, bindings_update]
        rw [hbinding]
        split
        · rename_i hid
          refine .inr ⟨name, _, rfl, hid, rfl, ?_⟩
          rw [unbind_update]
          rfl
        · rename_i hid
          -- its name belongs to another snippet, so no name is bound to it at all
          refine .inl ⟨fun other hother => hid ?_, rfl⟩
          rw [hnamed other hother] at hname
          cases hname
          exact hother

theorem bound_dropped {s : Store} (hs : s.Bound) {id : SnippetId} {r : Record} {name : String}
    (hr : s.record? id = some r) (hname : r.name = some name) :
    ((s.unbind name).update id fun r => { r with status := .dropped }).Bound := by
  refine (hs.unbind name).update_of_unbound (fun other hother => ?_) _
  rw [binding?_unbind] at hother
  split at hother
  · cases hother
  · rename_i hne
    obtain ⟨r', hr', hname', -⟩ := hs other id hother
    rw [hr] at hr'
    cases hr'
    rw [hname] at hname'
    exact hne (Option.some.inj hname')

theorem tells_dropped {s : Store} {id : SnippetId} {r : Record} (hr : s.record? id = some r)
    (hactive : r.status.isActive = true) :
    s.Tells [r.dropped id] (s.update id fun r => { r with status := .dropped }) :=
  tells_update hr ⟨rfl, rfl, rfl, rfl⟩ rfl rfl rfl rfl rfl (.inl hactive)

end Store

end Notebook.Guest

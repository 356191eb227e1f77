import Notebook.Proofs.Guest.History
import Notebook.Proofs.Syntax.Names

/-!
# Names and the snippets that have them

Whether a snippet has a name is said twice: by the snippet, which keeps its name while it takes part in the
session, and by the bindings.  The two agree but for expressions that failed (`Store.Named`).  A snippet
that takes a name takes it from the one that had it (`Store.Named.finish_named`), and one that leaves the
session gives it back (`Store.Named.drop`).

The names of values that nobody has named are counted, so a new one is no other snippet's name.
-/

namespace Notebook

/-- The events tell of an expression that failed. -/
def Failed (events : List SnippetEvent) (id : SnippetId) : Prop :=
  ∃ e ∈ events, e.snippet = id ∧ e.kind = .expression ∧ e.fault.isSome = true

theorem not_failed_of_fault_none {events : List SnippetEvent} (h : ∀ e ∈ events, e.fault = none)
    (id : SnippetId) : ¬ Failed events id := by
  rintro ⟨e, he, -, -, hfault⟩
  rw [h e he] at hfault
  cases hfault

theorem failed_append {events more : List SnippetEvent} {id : SnippetId} :
    Failed (events ++ more) id ↔ Failed events id ∨ Failed more id := by
  unfold Failed
  simp only [List.mem_append, or_and_right, exists_or]

end Notebook

namespace Notebook.Guest
open Notebook.Syntax

/-- The name of the value with a number. -/
def valueName (k : Nat) : String := "$" ++ String.ofList (Decimal.natText k)

theorem toList_valueName (k : Nat) : (valueName k).toList = '$' :: Decimal.natText k := by
  unfold valueName
  rw [String.toList_append, String.toList_ofList, String.toList_ofList]
  rfl

theorem isMadeUp_valueName (k : Nat) : IsMadeUp (valueName k) := by
  unfold IsMadeUp
  rw [toList_valueName, List.head?_cons]

theorem valueName_injective {k k' : Nat} (h : valueName k = valueName k') : k = k' := by
  have hlist := congrArg String.toList h
  rw [toList_valueName, toList_valueName, List.cons_eq_cons] at hlist
  -- the digits of a number read back as the number
  have hread := congrArg (Nat.ofDigitChars 10 · 0) hlist.2
  unfold Decimal.natText at hread
  simp only [Nat.ofDigitChars_ten_toDigits] at hread
  exact hread

namespace Store

/-- The snippet takes part in the session under the name. -/
def Carries (s : Store) (id : SnippetId) (name : String) : Prop :=
  ∃ r, s.record? id = some r ∧ r.name = some name ∧ r.status.isActive = true

/-- How the names of a store and its snippets belong together, once events have told of `events`. -/
structure Named (events : List SnippetEvent) (s : Store) : Prop where
  nodup : (s.bindings.map (·.1)).Nodup
  bound : s.Bound
  unique : ∀ i j name, s.Carries i name → s.Carries j name → i = j
  held : s.stopped = false → ∀ id name, s.Carries id name →
    s.binding? name = some id ∨ Failed events id
  unbound : ∀ id name, Failed events id → s.binding? name ≠ some id
  there : ∀ id, Failed events id → id ≤ s.records.length
  /-- Only an expression without a name of its own can fail and keep its name unbound. -/
  madeUp : ∀ id name, Failed events id → s.Carries id name → IsMadeUp name
  counted : ∀ id name, s.Carries id name → IsMadeUp name → ∃ k < s.nextValue, name = valueName k

/-- The names mean the same in the second store, although it may have new snippets without a status and
may have counted on. -/
structure SameNames (s t : Store) : Prop where
  bindings : t.bindings = s.bindings
  stopped : t.stopped = s.stopped
  nextValue : s.nextValue ≤ t.nextValue
  length : s.records.length ≤ t.records.length
  carries : ∀ id name, t.Carries id name ↔ s.Carries id name

variable {s t u : Store} {events more : List SnippetEvent} {id : SnippetId} {r : Record} {name : String}

/-! ## Changes that concern no names -/

theorem carries_congr (h : t.record? id = s.record? id) : t.Carries id name ↔ s.Carries id name := by
  unfold Carries
  rw [h]

theorem Carries.status {name : String} (h : s.Carries id name) (hr : s.record? id = some r) :
    r.status.isActive = true := by
  obtain ⟨r', hr', -, hactive⟩ := h
  rw [hr] at hr'
  cases hr'
  exact hactive

/-- A snippet without a status has no name yet. -/
theorem not_carries_of_new (hr : s.record? id = some r) (hnew : r.status = .nonexistent) :
    ¬ s.Carries id name := by
  intro h
  have hactive := h.status hr
  rw [hnew] at hactive
  cases hactive

theorem SameNames.refl (s : Store) : s.SameNames s :=
  ⟨rfl, rfl, Nat.le_refl _, Nat.le_refl _, fun _ _ => Iff.rfl⟩

theorem SameNames.trans (hst : s.SameNames t) (htu : t.SameNames u) : s.SameNames u :=
  ⟨htu.bindings.trans hst.bindings, htu.stopped.trans hst.stopped, hst.nextValue.trans htu.nextValue,
    hst.length.trans htu.length, fun id name => (htu.carries id name).trans (hst.carries id name)⟩

theorem SameNames.binding? (h : s.SameNames t) (name : String) : t.binding? name = s.binding? name := by
  unfold Store.binding?
  rw [h.bindings]

theorem sameNames_of_eq (hrecords : t.records = s.records) (hbindings : t.bindings = s.bindings)
    (hstopped : t.stopped = s.stopped) (hnext : s.nextValue ≤ t.nextValue) : s.SameNames t := by
  refine ⟨hbindings, hstopped, hnext, Nat.le_of_eq (congrArg List.length hrecords).symm, fun id name => ?_⟩
  apply carries_congr
  unfold record?
  rw [hrecords]

theorem sameNames_allocate (hnew : r.status = .nonexistent) : s.SameNames (s.allocate r).2 := by
  refine ⟨rfl, rfl, Nat.le_refl _, ?_, fun id name => ?_⟩
  · rw [length_allocate]
    omega
  · by_cases hid : id = s.records.length + 1
    · -- the new snippet has no name yet, and there was none of its number before
      have hself : (s.allocate r).2.record? id = some r := by
        rw [record?_allocate, if_pos hid]
      refine iff_of_false (not_carries_of_new hself hnew) ?_
      rintro ⟨r', hr', -⟩
      have hle := le_length_of_record? hr'
      rw [hid] at hle
      exact Nat.not_succ_le_self _ hle
    · apply carries_congr
      rw [record?_allocate, if_neg hid]

@[simp] theorem nextValue_update (s : Store) (id : SnippetId) (f : Record → Record) :
    (s.update id f).nextValue = s.nextValue := by
  unfold update
  split <;> rfl

@[simp] theorem stopped_update (s : Store) (id : SnippetId) (f : Record → Record) :
    (s.update id f).stopped = s.stopped := by
  unfold update
  split <;> rfl

theorem binding?_update (s : Store) (id : SnippetId) (f : Record → Record) (name : String) :
    (s.update id f).binding? name = s.binding? name := by
  unfold binding?
  rw [bindings_update]

theorem carries_update_of_ne {f : Record → Record} {j : SnippetId} (hj : j ≠ id) :
    (s.update id f).Carries j name ↔ s.Carries j name :=
  carries_congr (record?_update_of_ne s f hj)

theorem carries_update_self {f : Record → Record} (hr : s.record? id = some r) :
    (s.update id f).Carries id name ↔ (f r).name = some name ∧ (f r).status.isActive = true := by
  have hself := record?_update_self f hr
  constructor
  · rintro ⟨r', hr', h⟩
    rw [hself] at hr'
    cases hr'
    exact h
  · exact fun h => ⟨f r, hself, h⟩

/-- A change of one snippet that leaves it the name that it has in the session, if any. -/
theorem sameNames_update {f : Record → Record} (hr : s.record? id = some r)
    (hf : ∀ name, (f r).name = some name ∧ (f r).status.isActive = true ↔
      r.name = some name ∧ r.status.isActive = true) : s.SameNames (s.update id f) := by
  refine ⟨bindings_update .., stopped_update .., ?_, ?_, fun j name => ?_⟩
  · rw [nextValue_update]
  · rw [length_update]
  · by_cases hj : j = id
    · subst hj
      rw [carries_update_self hr, hf]
      constructor
      · exact fun h => ⟨r, hr, h⟩
      · rintro ⟨r', hr', h⟩
        rw [hr] at hr'
        cases hr'
        exact h
    · exact carries_update_of_ne hj

theorem nextValue_write {v : Value} (h : s.write? name v = some t) : t.nextValue = s.nextValue := by
  simp only [write?, Option.bind_eq_bind, Option.bind_eq_some_iff] at h
  obtain ⟨id, -, r, -, h⟩ := h
  split at h
  · cases h
    exact nextValue_update ..
  · cases h

/-- Code that runs gives out no names. -/
theorem Runs.nextValue (h : s.Runs t) : t.nextValue = s.nextValue := by
  induction h with
  | refl => rfl
  | print text _ ih => exact ih
  | write _ hwrite ih => exact (nextValue_write hwrite).trans ih

theorem SameBut.carries_of_carries (h : s.SameBut t) (hs : s.Carries id name) : t.Carries id name := by
  obtain ⟨r, hr, hname, hactive⟩ := hs
  obtain ⟨r', hr', hknown⟩ := h.of_record? hr
  refine ⟨r', hr', (Record.sameCode_of_known hknown).name.trans hname, ?_⟩
  rw [Record.status_of_known hknown]
  exact hactive

theorem Runs.sameNames (h : s.Runs t) : s.SameNames t := by
  have hsame := h.sameBut
  refine ⟨hsame.bindings, hsame.stopped, Nat.le_of_eq h.nextValue.symm, Nat.le_of_eq hsame.length.symm,
    fun id name => ⟨?_, ?_⟩⟩
  · exact hsame.symm.carries_of_carries
  · exact hsame.carries_of_carries

theorem Looks.sameNames {cause : SnippetId} (h : Looks cause s events t) : s.SameNames t := by
  induction h with
  | done => exact .refl _
  | @look s t events id r d hr hd hactive _ ih =>
    have hname := (Record.sameCode_rechecked r d s.globals).name
    have hactive' := Record.isActive_rechecked r d s.globals
    refine (sameNames_update hr fun name => ?_).trans ih
    rw [hname, hactive', hactive]

theorem Looks.fault_none {cause : SnippetId} (h : Looks cause s events t) :
    ∀ e ∈ events, e.fault = none := by
  induction h with
  | done => exact fun _ he => absurd he List.not_mem_nil
  | look _ _ _ _ ih => exact List.forall_mem_cons.2 ⟨rfl, ih⟩

theorem Named.of_sameNames (hs : s.Named events) (h : s.SameNames t) : t.Named events := by
  refine ⟨?_, ?_, ?_, ?_, ?_, ?_, ?_, ?_⟩
  · rw [h.bindings]
    exact hs.nodup
  · intro name id hid
    rw [h.binding?] at hid
    exact (h.carries id name).2 (hs.bound name id hid)
  · intro i j name hi hj
    rw [h.carries] at hi hj
    exact hs.unique i j name hi hj
  · intro hstopped id name hid
    rw [h.stopped] at hstopped
    rw [h.carries] at hid
    rw [h.binding?]
    exact hs.held hstopped id name hid
  · intro id name hid
    rw [h.binding?]
    exact hs.unbound id name hid
  · intro id hid
    exact (hs.there id hid).trans h.length
  · intro id name hid hname
    rw [h.carries] at hname
    exact hs.madeUp id name hid hname
  · intro id name hname hmade
    rw [h.carries] at hname
    obtain ⟨k, hk, heq⟩ := hs.counted id name hname hmade
    exact ⟨k, Nat.lt_of_lt_of_le hk h.nextValue, heq⟩

/-- What else is told makes no difference as long as no expression fails. -/
theorem Named.append (hs : s.Named events) (hmore : ∀ id, ¬ Failed more id) :
    s.Named (events ++ more) := by
  have hfailed (id : SnippetId) : Failed (events ++ more) id ↔ Failed events id := by
    rw [failed_append, or_iff_left (hmore id)]
  exact ⟨hs.nodup, hs.bound, hs.unique,
    fun hstopped id name hid => (hs.held hstopped id name hid).imp_right (hfailed id).2,
    fun id name hid => hs.unbound id name ((hfailed id).1 hid),
    fun id hid => hs.there id ((hfailed id).1 hid),
    fun id name hid => hs.madeUp id name ((hfailed id).1 hid), hs.counted⟩

/-! ## A new snippet -/

/-- The name can be given to a new snippet: if it is made up, then it has been counted, and no other
snippet has it. -/
def Free (s : Store) (name : String) : Prop :=
  IsMadeUp name → (∃ k < s.nextValue, name = valueName k) ∧ ∀ id, ¬ s.Carries id name

theorem free_of_not_isMadeUp (h : ¬ IsMadeUp name) : s.Free name := fun hmade => absurd hmade h

/-- The next name that is counted is free. -/
theorem Named.free_valueName (hs : s.Named events) :
    Store.Free { s with nextValue := s.nextValue + 1 } (valueName s.nextValue) := by
  intro hmade
  refine ⟨⟨s.nextValue, Nat.lt_succ_self _, rfl⟩, fun id hid => ?_⟩
  have hid' : s.Carries id (valueName s.nextValue) := hid
  obtain ⟨k, hk, heq⟩ := hs.counted id _ hid' hmade
  have hsame := valueName_injective heq
  omega

theorem Free.of_sameNames (hs : s.Free name) (h : s.SameNames t) : t.Free name := by
  intro hmade
  obtain ⟨⟨k, hk, heq⟩, hfree⟩ := hs hmade
  refine ⟨⟨k, Nat.lt_of_lt_of_le hk h.nextValue, heq⟩, fun id hid => hfree id ?_⟩
  exact (h.carries id name).1 hid

/-- The second store is the first one with a snippet that has no status yet. -/
structure Begins (s : Store) (r : Record) (t : Store) : Prop where
  names : s.SameNames t
  record : ∃ r', t.record? (s.records.length + 1) = some r' ∧ r.SameCode r' ∧ r'.status = .nonexistent

theorem begins_allocate (hnew : r.status = .nonexistent) : s.Begins r (s.allocate r).2 := by
  refine ⟨sameNames_allocate hnew, r, ?_, .refl r, hnew⟩
  rw [record?_allocate, if_pos rfl]

theorem Begins.runs (h : s.Begins r t) (hruns : t.Runs u) : s.Begins r u := by
  obtain ⟨r', hr', hcode, hnew⟩ := h.record
  obtain ⟨r'', hr'', hknown⟩ := hruns.sameBut.of_record? hr'
  refine ⟨h.names.trans hruns.sameNames, r'', hr'', hcode.trans (Record.sameCode_of_known hknown), ?_⟩
  rw [Record.status_of_known hknown]
  exact hnew

theorem Begins.fill (h : s.Begins r t) {f : Record → Record} (hf : ∀ r, Record.Fills r (f r)) :
    s.Begins r (t.update (s.records.length + 1) f) := by
  obtain ⟨r', hr', hcode, hnew⟩ := h.record
  have hcode' := Record.sameCode_of_fills (hf r')
  have hstatus : (f r').status = r'.status := by
    obtain ⟨definition, refs, heq, -⟩ := hf r'
    rw [heq]
  refine ⟨h.names.trans (sameNames_update hr' fun name => ?_), f r', record?_update_self f hr',
    hcode.trans hcode', ?_⟩
  · rw [hcode'.name, hstatus]
  · rw [hstatus]
    exact hnew

/-- No event has told of a snippet that is still to come. -/
theorem Named.not_failed_next (hs : s.Named events) : ¬ Failed events (s.records.length + 1) := by
  intro hfailed
  exact Nat.not_succ_le_self _ (hs.there _ hfailed)

/-! ## A snippet takes its name -/

/-- A snippet that takes a name has it afterwards, and the one that had it has left the session. -/
theorem carries_supersede (hs : s.Bound) (hr : s.record? id = some r) (hnew : r.status = .nonexistent)
    (hname : r.name = some name) {status : Status} (hstatus : status.isActive = true) (j : SnippetId)
    (other : String) :
    ((s.update id fun r => { r with status }).supersede name id).2.Carries j other ↔
      j = id ∧ other = name ∨ s.Carries j other ∧ s.binding? name ≠ some j := by
  have hunbound := hs.binding?_ne_of_new hr hnew
  have hs' := hs.update_of_unbound hunbound fun r => { r with status }
  have hbinding := s.binding?_update id (fun r => { r with status }) name
  -- what the new snippet has, once it has its status
  have hself : (s.update id fun r => { r with status }).Carries id other ↔ other = name := by
    rw [carries_update_self hr]
    simp only [hname, hstatus, and_true, Option.some_inj]
    exact eq_comm
  have hnot : ¬ s.Carries id other := not_carries_of_new hr hnew
  rcases supersede_cases hs' name id with ⟨hfree, h⟩ | ⟨p, rp, hp, hold, hrp, -, -, h⟩
  · rw [h]
    change (s.update id fun r => { r with status }).Carries j other ↔ _
    by_cases hj : j = id
    · subst hj
      rw [hself]
      simp [hnot]
    · rw [carries_update_of_ne hj]
      have hne : s.binding? name ≠ some j := fun heq => hj (hfree j (hbinding.trans heq))
      simp [hj, hne]
  · rw [h]
    have hold' : s.binding? name = some p := hbinding.symm.trans hold
    by_cases hj : j = p
    · -- the snippet that had the name is overwritten
      subst hj
      have hrp' : ((s.update id fun r => { r with status }).bind name id).record? j = some rp := hrp
      rw [carries_update_self hrp', hold']
      simp [hp, Status.isActive]
    · rw [carries_update_of_ne hj]
      change (s.update id fun r => { r with status }).Carries j other ↔ _
      have hne : s.binding? name ≠ some j := by
        rw [hold']
        exact fun heq => hj (Option.some.inj heq).symm
      by_cases hid : j = id
      · subst hid
        rw [hself]
        simp [hnot]
      · rw [carries_update_of_ne hid]
        simp [hid, hne]

/-- But for the binding, one snippet at most is changed. -/
theorem exists_supersede_eq (s : Store) (name : String) (id : SnippetId) :
    ∃ j f, (s.supersede name id).2 = (s.bind name id).update j f := by
  have hsame : s.bind name id = (s.bind name id).update id fun r => r := (update_id ..).symm
  unfold supersede
  cases s.binding? name with
  | none => exact ⟨_, _, hsame⟩
  | some p =>
    dsimp only
    split
    · unfold transition
      split
      · exact ⟨_, _, hsame⟩
      · exact ⟨_, _, rfl⟩
    · exact ⟨_, _, hsame⟩

theorem bindings_supersede (s : Store) (name : String) (id : SnippetId) :
    (s.supersede name id).2.bindings = s.bindings.put name id := by
  obtain ⟨j, f, h⟩ := s.exists_supersede_eq name id
  rw [h, bindings_update]
  rfl

theorem binding?_supersede_eq (s : Store) (name : String) (id : SnippetId) (other : String) :
    (s.supersede name id).2.binding? other = if name = other then some id else s.binding? other := by
  unfold binding?
  rw [bindings_supersede]
  exact Table.get?_put s.bindings name other id

theorem stopped_supersede (s : Store) (name : String) (id : SnippetId) :
    (s.supersede name id).2.stopped = s.stopped := by
  obtain ⟨j, f, h⟩ := s.exists_supersede_eq name id
  rw [h, stopped_update]
  rfl

theorem nextValue_supersede (s : Store) (name : String) (id : SnippetId) :
    (s.supersede name id).2.nextValue = s.nextValue := by
  obtain ⟨j, f, h⟩ := s.exists_supersede_eq name id
  rw [h, nextValue_update]
  rfl

theorem fault_none_supersede (s : Store) (name : String) (id : SnippetId) :
    ∀ e ∈ (s.supersede name id).1, e.fault = none := by
  unfold supersede
  cases s.binding? name with
  | none => exact fun _ he => absurd he List.not_mem_nil
  | some p =>
    dsimp only
    split
    · unfold transition
      split
      · exact fun _ he => absurd he List.not_mem_nil
      · exact List.forall_mem_singleton.2 rfl
    · exact fun _ he => absurd he List.not_mem_nil

theorem length_update_supersede (s : Store) (f : Record → Record) (name : String) (id : SnippetId) :
    ((s.update id f).supersede name id).2.records.length = s.records.length := by
  rw [length_supersede, length_update]

/-- A snippet that has no status yet is given one, and its name. -/
theorem Named.take (hs : s.Named events) (hrunning : s.stopped = false) (hr : s.record? id = some r)
    (hnew : r.status = .nonexistent) (hname : r.name = some name) (hfailed : ¬ Failed events id)
    (hfree : s.Free name) {status : Status} (hstatus : status.isActive = true) :
    ((s.update id fun r => { r with status }).supersede name id).2.Named events := by
  have hcarries := carries_supersede hs.bound hr hnew hname hstatus
  have hbinding := (s.update id fun r => { r with status }).binding?_supersede_eq name id
  simp only [binding?_update] at hbinding
  -- what had the name before loses it, as no expression that failed has it
  have hlost (j : SnippetId) (hj : s.Carries j name) : s.binding? name = some j := by
    rcases hs.held hrunning j name hj with hbound | hfailed'
    · exact hbound
    · exact absurd hj ((hfree (hs.madeUp j name hfailed' hj)).2 j)
  refine ⟨?_, ?_, ?_, ?_, ?_, ?_, ?_, ?_⟩
  · rw [bindings_supersede, bindings_update]
    exact Table.nodup_keys_put hs.nodup name id
  · have hunbound := hs.bound.binding?_ne_of_new hr hnew
    exact bound_supersede (hs.bound.update_of_unbound hunbound _) (record?_update_self _ hr) hname hstatus
  · intro i j other hi hj
    rw [hcarries] at hi hj
    rcases hi with ⟨rfl, rfl⟩ | ⟨hi, hine⟩
    · rcases hj with ⟨rfl, -⟩ | ⟨hj, hjne⟩
      · rfl
      · exact absurd (hlost j hj) hjne
    · rcases hj with ⟨rfl, rfl⟩ | ⟨hj, -⟩
      · exact absurd (hlost i hi) hine
      · exact hs.unique i j other hi hj
  · intro _ j other hj
    rw [hcarries] at hj
    rw [hbinding]
    rcases hj with ⟨rfl, rfl⟩ | ⟨hj, hjne⟩
    · exact .inl (if_pos rfl)
    · refine (hs.held hrunning j other hj).imp_left fun hbound => ?_
      rw [if_neg]
      · exact hbound
      · rintro rfl
        exact hjne hbound
  · intro j other hj hbound
    rw [hbinding] at hbound
    split at hbound
    · cases hbound
      exact hfailed hj
    · exact hs.unbound j other hj hbound
  · intro j hj
    rw [length_update_supersede]
    exact hs.there j hj
  · intro j other hj hcarried
    rw [hcarries] at hcarried
    rcases hcarried with ⟨rfl, -⟩ | ⟨hcarried, -⟩
    · exact absurd hj hfailed
    · exact hs.madeUp j other hj hcarried
  · intro j other hcarried hmade
    rw [hcarries] at hcarried
    rw [nextValue_supersede, nextValue_update]
    rcases hcarried with ⟨-, rfl⟩ | ⟨hcarried, -⟩
    · exact (hfree hmade).1
    · exact hs.counted j other hcarried hmade

/-- An expression that failed takes part in the session with its name, but the name is not bound. -/
theorem Named.fail (hs : s.Named events) (hr : s.record? id = some r) (hnew : r.status = .nonexistent)
    (hname : r.name = some name) (hmade : IsMadeUp name) (hfree : s.Free name)
    (hfailed : ∀ j, Failed more j ↔ j = id) {status : Status} (hstatus : status.isActive = true) :
    (s.update id fun r => { r with status }).Named (events ++ more) := by
  obtain ⟨hcounted, hunused⟩ := hfree hmade
  have hunbound := hs.bound.binding?_ne_of_new hr hnew
  have hall (j : SnippetId) : Failed (events ++ more) j ↔ Failed events j ∨ j = id := by
    rw [failed_append, hfailed]
  have hcarries (j : SnippetId) (other : String) :
      (s.update id fun r => { r with status }).Carries j other ↔
        j = id ∧ other = name ∨ s.Carries j other := by
    by_cases hj : j = id
    · subst hj
      rw [carries_update_self hr]
      simp only [hname, hstatus, and_true, true_and, Option.some_inj,
        or_iff_left (not_carries_of_new hr hnew)]
      exact eq_comm
    · rw [carries_update_of_ne hj]
      simp [hj]
  refine ⟨?_, hs.bound.update_of_unbound hunbound _, ?_, ?_, ?_, ?_, ?_, ?_⟩
  · rw [bindings_update]
    exact hs.nodup
  · intro i j other hi hj
    rw [hcarries] at hi hj
    rcases hi with ⟨rfl, rfl⟩ | hi
    · rcases hj with ⟨rfl, -⟩ | hj
      · rfl
      · exact absurd hj (hunused j)
    · rcases hj with ⟨rfl, rfl⟩ | hj
      · exact absurd hi (hunused i)
      · exact hs.unique i j other hi hj
  · intro hrunning j other hj
    rw [stopped_update] at hrunning
    rw [hcarries] at hj
    rw [binding?_update, hall]
    rcases hj with ⟨hid, -⟩ | hj
    · exact .inr (.inr hid)
    · exact (hs.held hrunning j other hj).imp_right .inl
  · intro j other hj
    rw [hall] at hj
    rw [binding?_update]
    rcases hj with hj | rfl
    · exact hs.unbound j other hj
    · exact hunbound other
  · intro j hj
    rw [hall] at hj
    rw [length_update]
    rcases hj with hj | rfl
    · exact hs.there j hj
    · exact le_length_of_record? hr
  · intro j other hj hcarried
    rw [hcarries] at hcarried
    rw [hall] at hj
    rcases hcarried with ⟨-, rfl⟩ | hcarried
    · exact hmade
    · rcases hj with hj | rfl
      · exact hs.madeUp j other hj hcarried
      · exact absurd hcarried (not_carries_of_new hr hnew)
  · intro j other hcarried hmade'
    rw [hcarries] at hcarried
    rw [nextValue_update]
    rcases hcarried with ⟨-, rfl⟩ | hcarried
    · exact hcounted
    · exact hs.counted j other hcarried hmade'

/-! ## A snippet takes its place -/

/-- Names and snippets belong together, and the session goes on. -/
structure Working (events : List SnippetEvent) (s : Store) : Prop where
  named : s.Named events
  running : s.stopped = false

theorem Working.of_sameNames (hs : s.Working events) (h : s.SameNames t) : t.Working events :=
  ⟨hs.named.of_sameNames h, h.stopped.trans hs.running⟩

/-- The beginning of a snippet tells of no expression that failed, if its code is none or has not failed. -/
theorem not_failed_begun {r r' : Record} (hcode : r.SameCode r') {status : Status}
    {fault : Option FaultReport} (hfault : r.kind = .expression → fault = none) (j : SnippetId) :
    ¬ Failed [r'.begun id status fault] j := by
  rintro ⟨e, he, -, hkind, hsome⟩
  rw [List.mem_singleton.1 he] at hkind hsome
  have hkind' : r.kind = .expression := hcode.kind.symm.trans hkind
  have hsome' : fault.isSome = true := hsome
  rw [hfault hkind'] at hsome'
  cases hsome'

/-- A new snippet takes its place under its name. -/
theorem Working.finish_named (hs : s.Working events) (hbegins : s.Begins r t) (hname : r.name = some name)
    (hfree : s.Free name) {status : Status} (hstatus : status.isActive = true)
    {fault : Option FaultReport} (hfault : r.kind = .expression → fault = none) :
    (t.finish (s.records.length + 1) status fault true).2.Working
      (events ++ (t.finish (s.records.length + 1) status fault true).1) := by
  have ht := hs.of_sameNames hbegins.names
  obtain ⟨r', hr', hcode, hnew⟩ := hbegins.record
  have hname' : r'.name = some name := hcode.name.trans hname
  have htake := ht.named.take ht.running hr' hnew hname' hs.named.not_failed_next
    (hfree.of_sameNames hbegins.names) hstatus
  have hlooks := recheckDependents_looks ((t.update (s.records.length + 1) fun r =>
    { r with status }).supersede name (s.records.length + 1)).2 name (s.records.length + 1)
  rw [finish_eq hr', if_pos rfl, hname']
  dsimp only
  rw [bindName_eq]
  refine ⟨Named.append (htake.of_sameNames hlooks.sameNames) fun j => ?_, ?_⟩
  · -- nothing but the code of the snippet itself can have failed
    rw [← List.singleton_append, failed_append, failed_append]
    refine not_or.2 ⟨not_failed_begun hcode hfault j, not_or.2 ⟨?_, ?_⟩⟩
    · exact not_failed_of_fault_none (fault_none_supersede _ _ _) j
    · exact not_failed_of_fault_none hlooks.fault_none j
  · rw [hlooks.sameNames.stopped, stopped_supersede, stopped_update]
    exact ht.running

/-- A new snippet without a name takes its place, or is refused. -/
theorem Working.finish_unnamed (hs : s.Working events) (hbegins : s.Begins r t) (hname : r.name = none)
    (status : Status) {fault : Option FaultReport} (hfault : r.kind = .expression → fault = none) :
    (t.finish (s.records.length + 1) status fault false).2.Working
      (events ++ (t.finish (s.records.length + 1) status fault false).1) := by
  have ht := hs.of_sameNames hbegins.names
  obtain ⟨r', hr', hcode, -⟩ := hbegins.record
  have hname' : r'.name = none := hcode.name.trans hname
  have hsame : t.SameNames (t.update (s.records.length + 1) fun r => { r with status }) := by
    refine sameNames_update hr' fun name => ?_
    simp [hname']
  rw [finish_eq hr', if_neg Bool.false_ne_true]
  have ht' := ht.of_sameNames hsame
  exact ⟨ht'.named.append (not_failed_begun hcode hfault), ht'.running⟩

/-- An expression that failed takes its place without its name. -/
theorem Working.finish_failed (hs : s.Working events) (hbegins : s.Begins r t) (hname : r.name = some name)
    (hmade : IsMadeUp name) (hfree : s.Free name) (hkind : r.kind = .expression) (f : FaultReport) :
    (t.finish (s.records.length + 1) .valid (some f) false).2.Working
      (events ++ (t.finish (s.records.length + 1) .valid (some f) false).1) := by
  have ht := hs.of_sameNames hbegins.names
  obtain ⟨r', hr', hcode, hnew⟩ := hbegins.record
  have hname' : r'.name = some name := hcode.name.trans hname
  rw [finish_eq hr', if_neg Bool.false_ne_true]
  refine ⟨ht.named.fail hr' hnew hname' hmade (hfree.of_sameNames hbegins.names) (fun j => ?_) rfl, ?_⟩
  · constructor
    · rintro ⟨e, he, rfl, -⟩
      rw [List.mem_singleton.1 he]
      rfl
    · rintro rfl
      exact ⟨_, List.mem_singleton_self _, rfl, hcode.kind.trans hkind, rfl⟩
  · rw [stopped_update]
    exact ht.running

/-! ## A snippet leaves the session -/

theorem carries_dropped (hr : s.record? id = some r) (j : SnippetId) (name : String) :
    (s.update id fun r => { r with status := .dropped }).Carries j name ↔ j ≠ id ∧ s.Carries j name := by
  by_cases hj : j = id
  · subst hj
    rw [carries_update_self hr]
    simp [Status.isActive]
  · rw [carries_update_of_ne hj]
    simp [hj]

/-- Names and snippets still belong together when one snippet is gone and no other has lost its name. -/
theorem Named.without (hs : s.Named events) (hnodup : (t.bindings.map (·.1)).Nodup) (hbound : t.Bound)
    (hcarries : ∀ j name, t.Carries j name ↔ j ≠ id ∧ s.Carries j name)
    (hkeeps : ∀ j name, j ≠ id → s.binding? name = some j → t.binding? name = some j)
    (honly : ∀ j name, t.binding? name = some j → s.binding? name = some j)
    (hstopped : t.stopped = s.stopped) (hnext : t.nextValue = s.nextValue)
    (hlength : t.records.length = s.records.length) : t.Named events := by
  refine ⟨hnodup, hbound, ?_, ?_, ?_, ?_, ?_, ?_⟩
  · intro i j name hi hj
    exact hs.unique i j name ((hcarries i name).1 hi).2 ((hcarries j name).1 hj).2
  · intro hrunning j name hj
    obtain ⟨hne, hcarried⟩ := (hcarries j name).1 hj
    exact (hs.held (hstopped ▸ hrunning) j name hcarried).imp_left (hkeeps j name hne)
  · exact fun j name hj hid => hs.unbound j name hj (honly j name hid)
  · intro j hj
    rw [hlength]
    exact hs.there j hj
  · exact fun j name hj hcarried => hs.madeUp j name hj ((hcarries j name).1 hcarried).2
  · intro j name hcarried hmade
    rw [hnext]
    exact hs.counted j name ((hcarries j name).1 hcarried).2 hmade

theorem Named.drop (hs : s.Named events) (id : SnippetId) :
    (s.drop id).2.Named (events ++ (s.drop id).1) := by
  rcases drop_cases hs.bound id with h | ⟨r, hr, hactive, ⟨hunbound, h⟩ | ⟨name, t, hname, hid, rfl, h⟩⟩
  · rw [h]
    exact hs.append fun j => not_failed_of_fault_none (fun _ he => absurd he List.not_mem_nil) j
  · rw [h]
    refine Named.append ?_ fun j => not_failed_of_fault_none (List.forall_mem_singleton.2 rfl) j
    refine hs.without ?_ (hs.bound.update_of_unbound hunbound _) (carries_dropped hr) ?_ ?_
      (stopped_update ..) (nextValue_update ..) (length_update ..)
    · rw [bindings_update]
      exact hs.nodup
    · intro j other _ hj
      rw [binding?_update]
      exact hj
    · intro j other hj
      rw [binding?_update] at hj
      exact hj
  · rw [h]
    have hlooks := recheckDependents_looks
      ((s.unbind name).update id fun r => { r with status := .dropped }) name id
    have hfault : ∀ e ∈ r.dropped id :: (((s.unbind name).update id fun r =>
        { r with status := .dropped }).recheckDependents name id).1, e.fault = none :=
      List.forall_mem_cons.2 ⟨rfl, hlooks.fault_none⟩
    refine Named.append (Named.of_sameNames ?_ hlooks.sameNames) (not_failed_of_fault_none hfault)
    have hunbind : (s.unbind name).record? id = some r := hr
    refine hs.without ?_ (bound_dropped hs.bound hr hname) (carries_dropped hunbind) ?_ ?_
      (stopped_update ..) (nextValue_update ..) (length_update ..)
    · rw [bindings_update]
      exact Table.nodup_keys_erase hs.nodup name
    · -- the name that is freed was the dropped snippet's, so every other one stays
      intro j other hj hother
      rw [binding?_update, binding?_unbind, if_neg]
      · exact hother
      · rintro rfl
        rw [hid] at hother
        exact hj (Option.some.inj hother).symm
    · intro j other hj
      rw [binding?_update, binding?_unbind] at hj
      split at hj
      · cases hj
      · exact hj

/-- When the session ends, no name is bound any more. -/
theorem Named.stop (hs : s.Named events) : s.stop.Named events := by
  refine ⟨List.nodup_nil, ?_, hs.unique, ?_, ?_, hs.there, hs.madeUp, hs.counted⟩
  · intro name id hid
    cases hid
  · intro hrunning
    cases hrunning
  · intro id name _ hid
    cases hid

end Store

end Notebook.Guest

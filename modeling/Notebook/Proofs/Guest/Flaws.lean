import Notebook.Proofs.Guest.History

/-!
# What a snippet still lacks

A snippet lacks something if a name is missing that it needs, or if there is a complaint about it.  What a
declaration lacks after some events is what the last look at it has found (`Judges`).  So a snippet that
waits when its statement is done lacks nothing at the end of its unit if and only if a later statement of
the unit has cured it (`Engine.judged_evaluate`).
-/

namespace Notebook

/-- The snippet waits for something. -/
def Status.isWaiting : Status → Bool
  | .recoverableDefined | .recoverableUndefined => true
  | _ => false

/-- The event tells of a look at an earlier snippet. -/
def SnippetEvent.isLook (e : SnippetEvent) : Bool :=
  e.cause.isSome && e.status ≠ .overwritten && e.status ≠ .dropped

/-- What the last look at a snippet has found, if there was one. -/
def lastLook? (id : SnippetId) (events : List SnippetEvent) : Option Status :=
  (events.findRev? fun e => e.isLook && e.snippet = id).map (·.status)

theorem lastLook?_append (id : SnippetId) (events more : List SnippetEvent) :
    lastLook? id (events ++ more) = (lastLook? id more).or (lastLook? id events) := by
  unfold lastLook?
  rw [List.findRev?_eq_find?_reverse, List.reverse_append, List.find?_append,
    List.findRev?_eq_find?_reverse, List.findRev?_eq_find?_reverse]
  cases more.reverse.find? fun e => e.isLook && e.snippet = id <;> rfl

theorem lastLook?_of_not_mem {id : SnippetId} {events : List SnippetEvent}
    (h : ∀ e ∈ events, e.isLook = true → e.snippet ≠ id) : lastLook? id events = none := by
  unfold lastLook?
  rw [List.findRev?_eq_find?_reverse, Option.map_eq_none_iff, List.find?_eq_none]
  intro e he hlook
  rw [Bool.and_eq_true, decide_eq_true_eq] at hlook
  exact h e (List.mem_reverse.1 he) hlook.1 hlook.2

theorem lastLook?_singleton (id : SnippetId) (e : SnippetEvent) :
    lastLook? id [e] = if e.isLook && e.snippet = id then some e.status else none := by
  unfold lastLook?
  rw [List.findRev?_eq_find?_reverse, List.reverse_singleton, List.find?_singleton]
  split <;> rfl

end Notebook

namespace Notebook.Guest
open Notebook.Text Notebook.Syntax

/-- A name is missing that the snippet needs, or there is a complaint about it. -/
def Record.lacks (r : Record) : Bool := !r.unresolved.isEmpty || !r.diagnostics.isEmpty

/-- A declaration that is understood waits if and only if a name is missing that it needs. -/
theorem isWaiting_of_analyze {d : Declaration} {g : Globals} {a : Analysis}
    (h : d.analyze g = .ok a) : a.status.isWaiting = !a.unresolved.isEmpty := by
  cases d with
  | function header body =>
    change analyzeFunction g header body = .ok a at h
    unfold analyzeFunction at h
    cases hgenerics : header.generics with
    | some span =>
      rw [hgenerics] at h
      cases h
    | none =>
      rw [hgenerics] at h
      obtain ⟨⟨⟨params, shown, result, resultShown⟩, mentions⟩, -, h⟩ := exists_of_bind_ok h
      obtain ⟨state, -, h⟩ := exists_of_bind_ok h
      obtain rfl := Except.ok.inj h
      dsimp only
      generalize state.missing.foldl (fun names n => insertOrdered n names) mentions.missing = missing
      cases missing <;> rfl
  | struct d =>
    obtain ⟨hgenerics, hfields⟩ := readable_of_analyzeStruct h
    obtain ⟨signature, doc, heq⟩ := analyzeStruct_eq hgenerics hfields
    obtain rfl := Except.ok.inj ((heq g).symm.trans h)
    dsimp only
    cases missingNames g d <;> rfl

theorem Record.lacks_rechecked (r : Record) (d : Declaration) (g : Globals) :
    (r.rechecked d g).lacks = (r.rechecked d g).status.isWaiting := by
  unfold Record.rechecked
  split
  · cases d <;> rfl
  · rename_i a ha
    unfold Record.lacks
    dsimp only
    rw [isWaiting_of_analyze ha]
    exact Bool.or_false _

namespace Store

/-! ## Looks at earlier snippets -/

/-- What a declaration lacks at the end is what the last look at it has found, and what it has lacked
before if there was none.  All that is told of are snippets that are there. -/
structure Judges (s : Store) (events : List SnippetEvent) (s' : Store) : Prop where
  length : s.records.length ≤ s'.records.length
  there : ∀ e ∈ events, e.snippet ≤ s'.records.length
  lacks : ∀ id r, s.record? id = some r → r.declaration.isSome = true →
    ∃ r', s'.record? id = some r' ∧ r'.declaration.isSome = true ∧
      r'.lacks = ((lastLook? id events).map Status.isWaiting).getD r.lacks

theorem Judges.trans {s t u : Store} {events more : List SnippetEvent} (hst : s.Judges events t)
    (htu : t.Judges more u) : s.Judges (events ++ more) u := by
  refine ⟨hst.length.trans htu.length, fun e he => ?_, fun id r hr hdeclared => ?_⟩
  · rcases List.mem_append.1 he with he | he
    · exact (hst.there e he).trans htu.length
    · exact htu.there e he
  · obtain ⟨r', hr', hdeclared', hlacks⟩ := hst.lacks id r hr hdeclared
    obtain ⟨r'', hr'', hdeclared'', hlacks'⟩ := htu.lacks id r' hr' hdeclared'
    refine ⟨r'', hr'', hdeclared'', ?_⟩
    rw [hlacks', hlacks, lastLook?_append]
    cases lastLook? id more <;> rfl

/-- A change in which no declaration comes to lack something or lacks it no more. -/
theorem judges_nil {s s' : Store} (hlength : s.records.length ≤ s'.records.length)
    (hlacks : ∀ id r, s.record? id = some r → r.declaration.isSome = true →
      ∃ r', s'.record? id = some r' ∧ r'.declaration.isSome = true ∧ r'.lacks = r.lacks) :
    s.Judges [] s' :=
  ⟨hlength, fun _ he => absurd he List.not_mem_nil, hlacks⟩

theorem judges_of_records_eq {s s' : Store} (h : s'.records = s.records) : s.Judges [] s' := by
  refine judges_nil (Nat.le_of_eq (congrArg _ h.symm)) fun id r hr hdeclared => ⟨r, ?_, hdeclared, rfl⟩
  unfold record?
  rw [h]
  exact hr

theorem judges_allocate (s : Store) (r : Record) : s.Judges [] (s.allocate r).2 := by
  refine judges_nil (by rw [length_allocate]; exact Nat.le_succ _) fun id r' hr' hdeclared =>
    ⟨r', ?_, hdeclared, rfl⟩
  rw [record?_allocate, if_neg]
  · exact hr'
  · rintro rfl
    exact Nat.not_succ_le_self _ (le_length_of_record? hr')

theorem SameBut.judges {s t : Store} (h : s.SameBut t) : s.Judges [] t := by
  refine judges_nil (Nat.le_of_eq h.length.symm) fun id r hr hdeclared => ?_
  obtain ⟨r', hr', hknown⟩ := h.of_record? hr
  have hdeclaration : r'.known.declaration = r.known.declaration := congrArg Record.declaration hknown
  have hunresolved : r'.known.unresolved = r.known.unresolved := congrArg Record.unresolved hknown
  have hdiagnostics : r'.known.diagnostics = r.known.diagnostics := congrArg Record.diagnostics hknown
  refine ⟨r', hr', (congrArg Option.isSome hdeclaration).trans hdeclared, ?_⟩
  exact congrArg₂ (fun names ds => !names.isEmpty || !ds.isEmpty) hunresolved hdiagnostics

/-- A change of one snippet that is told of by an event, which tells of no look at it. -/
theorem judges_update {s : Store} {id : SnippetId} {r : Record} {f : Record → Record}
    {events : List SnippetEvent} (hr : s.record? id = some r)
    (hdeclaration : (f r).declaration = r.declaration)
    (hlacks : r.declaration.isSome = true →
      (f r).lacks = ((lastLook? id events).map Status.isWaiting).getD r.lacks)
    (habout : ∀ e ∈ events, e.snippet = id) : s.Judges events (s.update id f) := by
  refine ⟨Nat.le_of_eq (length_update ..).symm, fun e he => ?_, fun j r' hr' hdeclared => ?_⟩
  · rw [length_update, habout e he]
    exact le_length_of_record? hr
  · by_cases hj : j = id
    · subst hj
      rw [hr] at hr'
      cases hr'
      exact ⟨f r, record?_update_self f hr, hdeclaration ▸ hdeclared, hlacks hdeclared⟩
    · have hnone : lastLook? j events = none :=
        lastLook?_of_not_mem fun e he _ heq => hj (heq.symm.trans (habout e he))
      exact ⟨r', (record?_update_of_ne s f hj).trans hr', hdeclared, by rw [hnone]; rfl⟩

theorem Looks.judges {cause : SnippetId} {s s' : Store} {events : List SnippetEvent}
    (h : Looks cause s events s') : s.Judges events s' := by
  induction h with
  | done s => exact judges_of_records_eq rfl
  | @look s s' events id r d hr hd hactive _ ih =>
    have hlook : (r.lookedAt cause id (r.rechecked d s.globals).status).isLook = true := by
      have hactive {status : Status} (h : status.isActive = true) :
          (decide (status ≠ .overwritten) && decide (status ≠ .dropped)) = true := by
        revert h
        cases status <;> decide
      exact hactive (Record.isActive_rechecked r d s.globals)
    have hone : s.Judges [r.lookedAt cause id (r.rechecked d s.globals).status]
        (s.update id fun _ => r.rechecked d s.globals) := by
      refine judges_update hr (Record.sameCode_rechecked r d _).declaration (fun _ => ?_) fun e he => ?_
      · have hid : (r.lookedAt cause id (r.rechecked d s.globals).status).snippet = id := rfl
        rw [lastLook?_singleton, hlook, hid, Bool.true_and, if_pos (decide_eq_true rfl),
          Record.lacks_rechecked]
        rfl
      · rw [List.mem_singleton.1 he]
        rfl
    exact hone.trans ih

theorem Looks.cause_eq {cause : SnippetId} {s s' : Store} {events : List SnippetEvent}
    (h : Looks cause s events s') : ∀ e ∈ events, e.cause = some cause := by
  induction h with
  | done => exact fun _ he => absurd he List.not_mem_nil
  | look hr hd hactive _ ih => exact List.forall_mem_cons.2 ⟨rfl, ih⟩

theorem cause_supersede (s : Store) (name : String) (id : SnippetId) :
    ∀ e ∈ (s.supersede name id).1, e.cause = some id := by
  have htransition (t : Store) (p : SnippetId) :
      ∀ e ∈ (t.transition p .overwritten (some id)).1, e.cause = some id := by
    unfold transition
    cases t.record? p with
    | none => exact fun _ he => absurd he List.not_mem_nil
    | some r => exact List.forall_mem_singleton.2 rfl
  unfold supersede
  cases s.binding? name with
  | none => exact fun _ he => absurd he List.not_mem_nil
  | some p =>
    dsimp only
    split
    · exact htransition _ p
    · exact fun _ he => absurd he List.not_mem_nil

theorem judges_supersede (s : Store) (name : String) (id : SnippetId) :
    s.Judges (s.supersede name id).1 (s.supersede name id).2 := by
  have hbind : s.Judges [] (s.bind name id) := judges_of_records_eq rfl
  unfold supersede
  cases s.binding? name with
  | none => exact hbind
  | some p =>
    dsimp only
    split
    · cases hr : (s.bind name id).record? p with
      | none =>
        unfold transition
        rw [hr]
        exact hbind
      | some r =>
        -- a snippet that is overwritten lacks what it has lacked before
        rw [transition_of_record? hr]
        refine hbind.trans (judges_update hr rfl (fun _ => ?_) fun e he => ?_)
        · rw [lastLook?_singleton]
          rfl
        · rw [List.mem_singleton.1 he]
    · exact hbind

/-! ## Statements -/

/-- A new snippet gets its status, and its name if it is to have it. -/
theorem judges_finish {s : Store} {id : SnippetId} {r : Record} (hr : s.record? id = some r)
    (status : Status) (fault : Option FaultReport) (binds : Bool) :
    s.Judges (s.finish id status fault binds).1 (s.finish id status fault binds).2 ∧
      ∃ more, (s.finish id status fault binds).1 = r.begun id status fault :: more ∧
        ∀ e ∈ more, e.cause = some id := by
  have hbegun : s.Judges [r.begun id status fault] (s.update id fun r => { r with status }) := by
    refine judges_update hr rfl (fun _ => ?_) fun e he => ?_
    · rw [lastLook?_singleton]
      rfl
    · rw [List.mem_singleton.1 he]
      rfl
  rw [finish_eq hr]
  cases (if binds then r.name else none) with
  | none => exact ⟨hbegun, [], rfl, fun _ he => absurd he List.not_mem_nil⟩
  | some name =>
    dsimp only
    rw [bindName_eq]
    have hlooks := recheckDependents_looks ((s.update id fun r => { r with status }).supersede name id).2
      name id
    refine ⟨hbegun.trans ((judges_supersede _ name id).trans hlooks.judges), _, rfl, fun e he => ?_⟩
    exact (List.mem_append.1 he).elim (cause_supersede _ name id e) (hlooks.cause_eq e)

/-- What an event says that tells of a new snippet: the snippet is valid, it is refused, or it waits.  If
it waits, it still lacks something at the end, unless the last look at it has found that it does not. -/
structure Judged (s' : Store) (events : List SnippetEvent) (e : SnippetEvent) : Prop where
  status : e.status = .valid ∨ e.status = .rejected ∨ e.status.isWaiting = true
  waits : e.status.isWaiting = true → ∃ r, s'.record? e.snippet = some r ∧ r.declaration.isSome = true ∧
    r.lacks = ((lastLook? e.snippet events).map Status.isWaiting).getD true

theorem Judged.append {t u : Store} {events more : List SnippetEvent} {e : SnippetEvent}
    (h : Judged t events e) (hmore : t.Judges more u) : Judged u (events ++ more) e := by
  refine ⟨h.status, fun hwaits => ?_⟩
  obtain ⟨r, hr, hdeclared, hlacks⟩ := h.waits hwaits
  obtain ⟨r', hr', hdeclared', hlacks'⟩ := hmore.lacks _ r hr hdeclared
  refine ⟨r', hr', hdeclared', ?_⟩
  rw [hlacks', hlacks, lastLook?_append]
  cases lastLook? e.snippet more <;> rfl

/-- What was told of before a snippet was there does not concern it. -/
theorem Judged.after {u : Store} {events more : List SnippetEvent} {e : SnippetEvent}
    (h : Judged u more e) (hthere : ∀ e' ∈ events, e'.snippet < e.snippet) :
    Judged u (events ++ more) e := by
  have hnone : lastLook? e.snippet events = none :=
    lastLook?_of_not_mem fun e' he' _ => Nat.ne_of_lt (hthere e' he')
  refine ⟨h.status, fun hwaits => ?_⟩
  rw [lastLook?_append, hnone, Option.or_none]
  exact h.waits hwaits

/-- The first of the events tells of a new snippet, and the others of what it has brought about. -/
structure Announces (s : Store) (events : List SnippetEvent) (s' : Store) : Prop where
  judges : s.Judges events s'
  begins : ∃ e more, events = e :: more ∧ (∀ e' ∈ more, e'.cause ≠ none) ∧
    s.records.length < e.snippet ∧ Judged s' events e

theorem announces_finish {s t : Store} {r : Record} (hst : s.Judges [] t)
    (hr : t.record? (s.records.length + 1) = some r) {status : Status}
    (hstatus : status = .valid ∨ status = .rejected ∨ status.isWaiting = true)
    (hwaits : status.isWaiting = true → r.declaration.isSome = true ∧ r.lacks = true)
    (fault : Option FaultReport) (binds : Bool) :
    s.Announces (t.finish (s.records.length + 1) status fault binds).1
      (t.finish (s.records.length + 1) status fault binds).2 := by
  obtain ⟨hjudges, more, hevents, hcause⟩ := judges_finish hr status fault binds
  refine ⟨hst.trans hjudges, _, more, hevents, fun e he hnone => ?_, Nat.lt_succ_self _, hstatus,
    fun hwaiting => ?_⟩
  · rw [hcause e he] at hnone
    cases hnone
  · obtain ⟨hdeclared, hlacks⟩ := hwaits hwaiting
    obtain ⟨r', hr', hdeclared', hlacks'⟩ := hjudges.lacks _ r hr hdeclared
    exact ⟨r', hr', hdeclared', hlacks ▸ hlacks'⟩

/-- A statement begins what it tells with its own snippet. -/
theorem announces_of_makes {s s' : Store} {events : List SnippetEvent} (h : s.Makes (events, s')) :
    s.Announces events s' := by
  have hself (s : Store) (r : Record) : (s.allocate r).2.record? (s.records.length + 1) = some r := by
    rw [record?_allocate, if_pos rfl]
  generalize hmade : (events, s') = made at h
  cases h with
  | refuses kind source origin d =>
    have hbegins := announces_finish (s.judges_allocate
      { kind, source, name := none, origin, diagnostics := [d] }) (hself s _) (.inr (.inl rfl)) nofun none
      false
    unfold reject at hmade
    dsimp only at hmade
    obtain ⟨rfl, rfl⟩ := Prod.mk.inj hmade
    exact hbegins
  | declares d a piece ha =>
    have hwaits := isWaiting_of_analyze ha
    obtain ⟨rfl, rfl⟩ := Prod.mk.inj hmade
    refine announces_finish (s.judges_allocate _) (hself s _) ?_ (fun hwaiting => ⟨rfl, ?_⟩) none true
    · have hactive := isActive_of_analyze ha
      revert hactive
      cases a.status <;> decide
    · unfold Record.lacks Declaration.made
      dsimp only
      rw [← hwaits, hwaiting]
      rfl
  | runs nextValue r t f fault binds hnew hruns hf =>
    obtain ⟨rfl, rfl⟩ := Prod.mk.inj hmade
    have hsame := hruns.sameBut
    obtain ⟨r', hr', -⟩ := hsame.of_record? (hself { s with nextValue } r)
    have hfills : (f r').declaration = r'.declaration ∧ (f r').lacks = r'.lacks := by
      obtain ⟨definition, refs, heq, -⟩ := hf r'
      rw [heq]
      exact ⟨rfl, rfl⟩
    have hcounted : s.Judges [] { s with nextValue } := judges_of_records_eq rfl
    have hran : s.Judges [] t := hcounted.trans ((judges_allocate _ r).trans hsame.judges)
    have hfilled : t.Judges [] (t.update (s.records.length + 1) f) :=
      judges_update hr' hfills.1 (fun _ => hfills.2) fun _ he => absurd he List.not_mem_nil
    exact announces_finish (hran.trans hfilled) (record?_update_self f hr') (.inl rfl) nofun fault binds

end Store

namespace Engine

variable {σ : Type}

/-- What the events of new snippets say at the end of their unit. -/
def JudgedAll (s : Store) (events : List SnippetEvent) (s' : Store) : Prop :=
  s.Judges events s' ∧
    ∀ e ∈ events, e.cause = none → s.records.length < e.snippet ∧ Store.Judged s' events e

theorem judgedAll_makes {s s' : Store} {events : List SnippetEvent} (h : s.Makes (events, s')) :
    JudgedAll s events s' := by
  obtain ⟨hjudges, e, more, rfl, hmore, hnew, hjudged⟩ := Store.announces_of_makes h
  refine ⟨hjudges, fun e' he' hcause => ?_⟩
  rcases List.mem_cons.1 he' with rfl | he'
  · exact ⟨hnew, hjudged⟩
  · exact absurd hcause (hmore e' he')

theorem judged_evaluateStmts (calls : HostCalls σ) (fuel : Nat) (stmts : List (Stmt × Slice))
    {s s' : Store} {w w' : σ} {events : List SnippetEvent}
    (h : outcome (evaluateStmts calls fuel stmts) s w = (.ok events, s', w')) :
    JudgedAll s events s' := by
  induction stmts generalizing s w events with
  | nil =>
    cases h
    exact ⟨Store.judges_of_records_eq rfl, fun _ he => absurd he List.not_mem_nil⟩
  | cons first stmts ih =>
    obtain ⟨stmt, piece⟩ := first
    obtain ⟨one, t, v, hstmt, h⟩ := outcome_of_bind_ok h
    obtain ⟨more, t', v', hrest, h⟩ := outcome_of_bind_ok h
    cases h
    have hmakes := evaluateStmt_makes calls fuel s w stmt piece
    rw [hstmt] at hmakes
    obtain ⟨hone, hjudged⟩ := judgedAll_makes hmakes
    obtain ⟨hmore, hlater⟩ := ih hrest
    refine ⟨hone.trans hmore, fun e he hcause => ?_⟩
    rcases List.mem_append.1 he with he | he
    · obtain ⟨hnew, hfound⟩ := hjudged e he hcause
      exact ⟨hnew, hfound.append hmore⟩
    · obtain ⟨hnew, hfound⟩ := hlater e he hcause
      exact ⟨Nat.lt_of_le_of_lt hone.length hnew,
        hfound.after fun e' he' => Nat.lt_of_le_of_lt (hone.there e' he') hnew⟩

/-- A new snippet is valid, refused or waiting when its statement is done.  If it waits, it lacks something
at the end of its unit as well, unless a later statement of the unit has cured it. -/
theorem judged_evaluate (calls : HostCalls σ) (fuel : Nat) (unit : List Char) {s s' : Store} {w w' : σ}
    {events : List SnippetEvent}
    (h : outcome (evaluate calls fuel unit) s w = (.ok events, s', w')) : JudgedAll s events s' := by
  have hrejected {kind : SnippetKind} {piece : Slice} {e : CheckError}
      (hreject : outcome (reject kind piece e) s w = (.ok events, s', w')) : JudgedAll s events s' := by
    have hyields := yields_reject s w kind piece e
    rw [hreject] at hyields
    exact judgedAll_makes hyields
  unfold evaluate at h
  obtain ⟨_, _, _, hstore, h⟩ := outcome_of_bind_ok h
  cases hstore
  dsimp only at h
  split at h
  · cases h
    exact ⟨Store.judges_of_records_eq rfl, fun _ he => absurd he List.not_mem_nil⟩
  · split at h
    · exact hrejected h
    · split at h
      · exact hrejected h
      · exact judged_evaluateStmts calls fuel _ h

end Engine

end Notebook.Guest

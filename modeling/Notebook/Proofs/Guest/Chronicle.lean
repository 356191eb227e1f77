import Notebook.Proofs.Guest.History

/-!
# The events of a whole session

The engine is asked for one thing after the other.  As long as nothing breaks an evaluation off, the
events that it gives are a complete history of its snippets (`events_are_history`): they can be replayed
snippet by snippet, and a snippet that has left the session is never told of again.
-/

namespace Notebook

/-- The snippet has left the session, or it never took part in it. -/
def Status.isFinal : Status → Bool
  | .rejected | .overwritten | .dropped => true
  | _ => false

end Notebook

namespace Notebook.Guest
open Notebook.Text Notebook.Syntax

/-- What an engine can be asked for, and what its host can do in between. -/
inductive Request (σ : Type)
  | evaluate (fuel : Nat) (unit : List Char)
  | drop (id : SnippetId)
  | bindHost (name : String) (object : HostObject)
  | addLibrary (path : List Char)
  | takeOutput
  | stop
  /-- The host's own state changes. -/
  | host (change : σ → σ)

namespace Engine

variable {σ : Type}

/-- Does what is asked for. The events that it gives come along. -/
def perform (calls : HostCalls σ) : Request σ → Engine σ (List SnippetEvent)
  | .evaluate fuel unit => evaluate calls fuel unit
  | .drop id => onStore fun s => s.drop id
  | .bindHost name object => onStore fun s =>
    match s.bindHost name object with
    | .ok s' => ([], s')
    | .error _ => ([], s)
  | .addLibrary path => onStore fun s => ([], s.addLibrary path)
  | .takeOutput => onStore fun s => ([], s.takeOutput.2)
  | .stop => onStore fun s => ([], s.stop)
  | .host change => do
    let (s, world) ← get
    set (s, change world)
    return []

/-- Does one thing after the other. -/
def performAll (calls : HostCalls σ) : List (Request σ) → Engine σ (List SnippetEvent)
  | [] => return []
  | request :: requests => do
    let events ← perform calls request
    let more ← performAll calls requests
    return events ++ more

end Engine

namespace Store

/-- From the first store to the second one, the events are the whole story: they tell what became of
every snippet, and the snippets that they begin with are the next ones by number. -/
structure Told (s : Store) (events : List SnippetEvent) (s' : Store) : Prop where
  bound : s'.Bound
  tells : s.Tells events s'
  numbered : List.range' 1 s.records.length ++ created events = List.range' 1 s'.records.length

theorem Told.trans {s t u : Store} {events more : List SnippetEvent} (hst : s.Told events t)
    (htu : t.Told more u) : s.Told (events ++ more) u := by
  refine ⟨htu.bound, hst.tells.trans htu.tells, ?_⟩
  rw [created_append, ← List.append_assoc, hst.numbered, htu.numbered]

/-! ## Statements -/

/-- A statement makes a snippet without a status and then gives it its place. Until then it binds no
name and changes no other snippet but in the value that it may have. -/
theorem Makes.finishes {s : Store} {made : List SnippetEvent × Store} (h : s.Makes made) :
    ∃ t r status fault binds, (s.Bound → t.Bound) ∧ s.Tells [] t ∧
      t.records.length = s.records.length + 1 ∧ t.record? (s.records.length + 1) = some r ∧
      r.status = .nonexistent ∧ (binds = true → status.isActive = true) ∧ t.bindings = s.bindings ∧
      (∀ j, j ≠ s.records.length + 1 →
        (t.record? j).map Record.known = (s.record? j).map Record.known) ∧
      made = t.finish (s.records.length + 1) status fault binds := by
  have hself (r : Record) : (s.allocate r).2.record? (s.records.length + 1) = some r := by
    rw [record?_allocate, if_pos rfl]
  have hothers (r : Record) (j : SnippetId) (hj : j ≠ s.records.length + 1) :
      (s.allocate r).2.record? j = s.record? j := by
    rw [record?_allocate, if_neg hj]
  cases h with
  | refuses kind source origin d =>
    exact ⟨_, _, .rejected, none, false, fun hs => hs.allocate _, tells_allocate rfl, length_allocate ..,
      hself _, rfl, fun h => (Bool.false_ne_true h).elim, rfl,
      fun j hj => congrArg (Option.map _) (hothers _ j hj), rfl⟩
  | declares d a piece ha =>
    exact ⟨_, _, a.status, none, true, fun hs => hs.allocate _, tells_allocate rfl, length_allocate ..,
      hself _, rfl, fun _ => isActive_of_analyze ha, rfl,
      fun j hj => congrArg (Option.map _) (hothers _ j hj), rfl⟩
  | runs nextValue r t f fault binds hnew hruns hf =>
    -- the code runs between the allocation and the finish, and touches nothing but values
    have hsame := hruns.sameBut
    have hmade : ({ s with nextValue }.allocate r).2.record? (s.records.length + 1) = some r := by
      rw [record?_allocate]
      exact if_pos rfl
    obtain ⟨r', hr', hknown⟩ := hsame.of_record? hmade
    have hstatus : (f r').status = .nonexistent := by
      obtain ⟨definition, refs, heq, -⟩ := hf r'
      rw [heq]
      exact (Record.status_of_known hknown).trans hnew.status
    have htells : s.Tells [] (t.update (s.records.length + 1) f) := by
      have hallocate : s.Tells [] ({ s with nextValue }.allocate r).2 := by
        have hcounted : s.Tells [] { s with nextValue } := tells_of_records_eq rfl
        exact hcounted.trans (tells_allocate hnew.status)
      refine (hallocate.trans hsame.tells).trans (tells_update_quiet ?_ ?_)
      · exact fun r => Record.sameCode_of_fills (hf r)
      · intro r
        obtain ⟨definition, refs, heq, -⟩ := hf r
        rw [heq]
    refine ⟨_, f r', .valid, fault, binds, fun hs => ?_, htells, ?_, record?_update_self f hr', hstatus,
      fun _ => rfl, ?_, fun j hj => ?_, rfl⟩
    · have hs' : ({ s with nextValue } : Store).Bound := hs
      refine ((hs'.allocate r).sameBut hsame).update hr' (Record.sameCode_of_fills (hf r')).name ?_
      intro hactive
      rw [Record.status_of_known hknown, hnew.status] at hactive
      cases hactive
    · rw [length_update, hsame.length, length_allocate]
    · rw [bindings_update, hsame.bindings]
      rfl
    · rw [record?_update_of_ne t f hj, hsame.record? j]
      exact congrArg (Option.map _) (hothers r j hj)

theorem told_of_makes {s : Store} (hs : s.Bound) {events : List SnippetEvent} {s' : Store}
    (h : s.Makes (events, s')) : s.Told events s' := by
  obtain ⟨t, r, status, fault, binds, hbound, htells, hlength, hr, hnew, hstatus, -, -, hfinish⟩ :=
    h.finishes
  obtain ⟨hbound', htells', hcreated, hlength'⟩ := told_finish (hbound hs) hr hnew status fault binds hstatus
  rw [← hfinish] at hbound' htells' hcreated hlength'
  refine ⟨hbound', htells.trans htells', ?_⟩
  rw [hcreated, hlength', hlength, List.range'_concat, Nat.one_mul, Nat.add_comm 1]

/-- What is not told of, and binds no names, belongs to every history. -/
theorem told_nil {s s' : Store} (hs : s.Bound) (hrecords : s'.records = s.records)
    (hbindings : s'.bindings = s.bindings ∨ s'.bindings = []) : s.Told [] s' := by
  have hrecord (id : SnippetId) : s'.record? id = s.record? id := by
    unfold record?
    rw [hrecords]
  refine ⟨?_, tells_of_records_eq hrecords, ?_⟩
  · rcases hbindings with h | h
    · exact hs.of_eq h fun id r hr hactive => ⟨r, (hrecord id).trans hr, rfl, hactive⟩
    · intro name id hid
      rw [binding?, h] at hid
      cases hid
  · rw [hrecords]
    exact List.append_nil _

/-- What tells only of snippets that take part in the session begins none. -/
theorem told_of_active {s s' : Store} {events : List SnippetEvent} (hbound : s'.Bound)
    (htells : s.Tells events s') (hactive : ∀ e ∈ events, e.previous.isActive = true)
    (hlength : s'.records.length = s.records.length) : s.Told events s' := by
  refine ⟨hbound, htells, ?_⟩
  rw [created_eq_nil hactive, List.append_nil, hlength]

theorem told_drop {s : Store} (hs : s.Bound) (id : SnippetId) :
    s.Told (s.drop id).1 (s.drop id).2 := by
  rcases drop_cases hs id with h | ⟨r, hr, hactive, ⟨hfree, h⟩ | ⟨name, t, hname, hid, rfl, h⟩⟩
  · rw [h]
    exact told_nil hs rfl (.inl rfl)
  · rw [h]
    refine told_of_active (hs.update_of_unbound hfree _) (tells_dropped hr hactive) ?_
      (length_update ..)
    intro e he
    rw [List.mem_singleton.1 he]
    exact hactive
  · rw [h]
    have hr' : (s.unbind name).record? id = some r := hr
    have hunbind : s.Tells [] (s.unbind name) := tells_of_records_eq rfl
    have hlooks := recheckDependents_looks
      ((s.unbind name).update id fun r => { r with status := .dropped }) name id
    refine told_of_active ((bound_dropped hs hr hname).looks hlooks)
      (hunbind.trans ((tells_dropped hr' hactive).trans hlooks.tells)) ?_ ?_
    · intro e he
      rcases List.mem_cons.1 he with rfl | he
      · exact hactive
      · exact hlooks.previous_isActive e he
    · rw [hlooks.length, length_update]
      rfl

end Store

namespace Engine

variable {σ : Type} {calls : HostCalls σ}

theorem told_evaluateStmts (calls : HostCalls σ) (fuel : Nat) (stmts : List (Stmt × Slice))
    {s s' : Store} {w w' : σ} {events : List SnippetEvent} (hs : s.Bound)
    (h : outcome (evaluateStmts calls fuel stmts) s w = (.ok events, s', w')) :
    s.Told events s' := by
  induction stmts generalizing s w events with
  | nil =>
    cases h
    exact Store.told_nil hs rfl (.inl rfl)
  | cons first stmts ih =>
    obtain ⟨stmt, piece⟩ := first
    obtain ⟨one, t, v, hstmt, h⟩ := outcome_of_bind_ok h
    obtain ⟨more, t', v', hrest, h⟩ := outcome_of_bind_ok h
    cases h
    have hmakes := evaluateStmt_makes calls fuel s w stmt piece
    rw [hstmt] at hmakes
    have htold := Store.told_of_makes hs hmakes
    exact htold.trans (ih htold.bound hrest)

theorem told_reject {kind : SnippetKind} {piece : Slice} {e : CheckError} {s s' : Store} {w w' : σ}
    {events : List SnippetEvent} (hs : s.Bound)
    (h : outcome (reject kind piece e) s w = (.ok events, s', w')) : s.Told events s' := by
  have hmakes := yields_reject s w kind piece e
  rw [h] at hmakes
  exact Store.told_of_makes hs hmakes

theorem told_evaluate (calls : HostCalls σ) (fuel : Nat) (unit : List Char) {s s' : Store} {w w' : σ}
    {events : List SnippetEvent} (hs : s.Bound)
    (h : outcome (evaluate calls fuel unit) s w = (.ok events, s', w')) : s.Told events s' := by
  unfold evaluate at h
  obtain ⟨_, _, _, hstore, h⟩ := outcome_of_bind_ok h
  cases hstore
  dsimp only at h
  split at h
  · cases h
    exact Store.told_nil hs rfl (.inl rfl)
  · split at h
    · exact told_reject hs h
    · split at h
      · exact told_reject hs h
      · exact told_evaluateStmts calls fuel _ hs h

theorem told_perform (calls : HostCalls σ) (request : Request σ) {s s' : Store} {w w' : σ}
    {events : List SnippetEvent} (hs : s.Bound)
    (h : outcome (perform calls request) s w = (.ok events, s', w')) : s.Told events s' := by
  cases request with
  | evaluate fuel unit => exact told_evaluate calls fuel unit hs h
  | drop id =>
    cases h
    exact Store.told_drop hs id
  | bindHost name object =>
    unfold perform at h
    rw [outcome_onStore] at h
    unfold Store.bindHost at h
    split at h
    · rename_i hbind
      split at hbind
      · cases hbind
        cases h
        exact Store.told_nil hs rfl (.inl rfl)
      · cases hbind
    · cases h
      exact Store.told_nil hs rfl (.inl rfl)
  | addLibrary path =>
    cases h
    refine Store.told_nil hs ?_ (.inl ?_)
    · unfold Store.addLibrary
      split <;> rfl
    · unfold Store.addLibrary
      split <;> rfl
  | takeOutput =>
    cases h
    exact Store.told_nil hs rfl (.inl rfl)
  | stop =>
    cases h
    exact Store.told_nil hs rfl (.inr rfl)
  | host change =>
    cases h
    exact Store.told_nil hs rfl (.inl rfl)

theorem told_performAll (calls : HostCalls σ) (requests : List (Request σ)) {s s' : Store} {w w' : σ}
    {events : List SnippetEvent} (hs : s.Bound)
    (h : outcome (performAll calls requests) s w = (.ok events, s', w')) : s.Told events s' := by
  induction requests generalizing s w events with
  | nil =>
    cases h
    exact Store.told_nil hs rfl (.inl rfl)
  | cons request requests ih =>
    obtain ⟨one, t, v, hone, h⟩ := outcome_of_bind_ok h
    obtain ⟨more, t', v', hrest, h⟩ := outcome_of_bind_ok h
    cases h
    have htold := told_perform calls request hs hone
    exact htold.trans (ih htold.bound hrest)

end Engine

/-! ## The history of a session -/

theorem status_empty (id : SnippetId) : ({} : Store).status id = .nonexistent := by
  unfold Store.status
  rw [Store.record?_empty]
  rfl

theorem bound_empty : ({} : Store).Bound := by
  intro name id hid
  cases hid

theorem isChain_of_leads {a b : Status} {events : List SnippetEvent} (h : Leads a events b) :
    List.IsChain (fun e e' => e'.previous = e.status) events := by
  induction events generalizing a with
  | nil => exact .nil
  | cons e events ih =>
    cases events with
    | nil => exact .singleton e
    | cons e' events => exact .cons_cons h.2.1 (ih h.2)

theorem previous_of_leads {a b : Status} {events : List SnippetEvent} (h : Leads a events b) :
    ∀ e ∈ events.head?, e.previous = a := by
  cases events with
  | nil => exact fun _ he => (Option.not_mem_none _ he).elim
  | cons e events =>
    intro e' he'
    cases he'
    exact h.1

theorem getLast?_of_leads {a b : Status} {e : SnippetEvent} {events : List SnippetEvent}
    (h : Leads a (e :: events) b) : (e :: events).getLast?.map (·.status) = some b := by
  induction events generalizing a e with
  | nil => exact congrArg some h.2
  | cons e' events ih =>
    rw [List.getLast?_cons_cons]
    exact ih h.2

/-- No event tells of a snippet that has left the session. -/
theorem Store.Tells.previous_not_isFinal {s s' : Store} {events : List SnippetEvent}
    (h : s.Tells events s') : ∀ e ∈ events, e.previous.isFinal = false := by
  intro e he
  rcases h.starts e he with hactive | ⟨hnew, -⟩
  · revert hactive
    cases e.previous <;> decide
  · rw [hnew]
    rfl

theorem Store.Tells.about_of_isFinal {s s' : Store} {events : List SnippetEvent}
    (h : s.Tells events s') {id : SnippetId} (hfinal : (s.status id).isFinal = true) :
    about id events = [] := by
  have hleads := h.leads id
  cases habout : about id events with
  | nil => rfl
  | cons e rest =>
    -- the first event of the snippet would go on from its status, and none goes on from a final one
    have hmem : e ∈ events := (List.mem_filter.1 (habout ▸ List.mem_cons_self)).1
    rw [habout] at hleads
    rw [← hleads.1, h.previous_not_isFinal e hmem] at hfinal
    cases hfinal

/-- The snippets that there are, are those whose beginning has been told of. -/
theorem Store.Told.isSome_info? {s : Store} {events : List SnippetEvent}
    (h : ({} : Store).Told events s) (id : SnippetId) :
    (s.info? id).isSome = true ↔ id ∈ created events := by
  have hcreated : created events = List.range' 1 s.records.length := h.numbered
  rw [hcreated, List.mem_range'_1, Nat.add_comm 1, Nat.lt_succ_iff, ← s.isSome_record?, info?,
    Option.isSome_map]

/-- The last event of a snippet leads to the status that the snippet has, and there is one if and only
if there is the snippet. -/
theorem Store.Told.getLast?_about {s : Store} {events : List SnippetEvent}
    (h : ({} : Store).Told events s) (id : SnippetId) :
    (about id events).getLast?.map (·.status) = (s.info? id).map (·.status) := by
  have hleads := h.tells.leads id
  cases habout : about id events with
  | nil =>
    cases hinfo : s.info? id with
    | none => rfl
    | some i =>
      -- a snippet that is there has been begun, and its beginning is one of its events
      have hmem : id ∈ created events := by
        rw [← h.isSome_info?, hinfo]
        rfl
      obtain ⟨e, he, heq⟩ := List.mem_map.1 hmem
      have hin : e ∈ about id events :=
        List.mem_filter.2 ⟨(List.mem_filter.1 he).1, decide_eq_true heq⟩
      rw [habout] at hin
      cases hin
  | cons e rest =>
    have hin : e ∈ about id events := habout ▸ List.mem_cons_self
    obtain ⟨hmem, hid⟩ := List.mem_filter.1 hin
    obtain ⟨r, hr, -⟩ := h.tells.describes e hmem
    rw [of_decide_eq_true hid] at hr
    rw [habout] at hleads
    rw [getLast?_of_leads hleads, Store.status_of_record? hr, info?, hr]
    rfl

/-- The events that an engine gives are the history of its snippets, as long as nothing breaks an
evaluation off.  Snippets are numbered in the order of their beginnings.  The events of a snippet start
from nothing, each goes on from the status that the one before it led to, and the last one leads to the
status that the snippet has.  What a snippet is made from stays as it is, and once a snippet is
rejected, overwritten or dropped, no event goes on from there and no request changes it. -/
theorem events_are_history {σ : Type} (calls : HostCalls σ) (earlier later : List (Request σ))
    {w w' w'' : σ} {s s' : Store} {events more : List SnippetEvent}
    (hearlier : Engine.outcome (Engine.performAll calls earlier) {} w = (.ok events, s, w'))
    (hlater : Engine.outcome (Engine.performAll calls later) s w' = (.ok more, s', w'')) :
    created events = List.range' 1 s.records.length ∧
      (∀ id, (s.info? id).isSome ↔ id ∈ created events) ∧
      ∀ id,
        (∀ e ∈ (about id events).head?, e.previous = .nonexistent ∧ e.cause = none) ∧
        List.IsChain (fun e e' => e'.previous = e.status) (about id events) ∧
        (about id events).getLast?.map (·.status) = (s.info? id).map (·.status) ∧
        (∀ e ∈ about id events, e.previous.isFinal = false) ∧
        ∀ i, s.info? id = some i →
          ∃ i', s'.info? id = some i' ∧ i'.kind = i.kind ∧ i'.source = i.source ∧ i'.name = i.name ∧
            (i.status.isFinal = true → i'.status = i.status ∧ about id more = []) := by
  have htold := Engine.told_performAll calls earlier bound_empty hearlier
  have htold' := Engine.told_performAll calls later htold.bound hlater
  have hcreated : created events = List.range' 1 s.records.length := htold.numbered
  refine ⟨hcreated, htold.isSome_info?, fun id => ?_⟩
  have hleads := htold.tells.leads id
  rw [status_empty] at hleads
  refine ⟨?_, isChain_of_leads hleads, htold.getLast?_about id, ?_, ?_⟩
  · intro e he
    have hprevious := previous_of_leads hleads e he
    have hmem : e ∈ events := (List.mem_filter.1 (List.mem_of_mem_head? he)).1
    rcases htold.tells.starts e hmem with hactive | hnew
    · rw [hprevious] at hactive
      cases hactive
    · exact hnew
  · intro e he
    exact htold.tells.previous_not_isFinal e (List.mem_filter.1 he).1
  · intro i hi
    obtain ⟨r, hr, hinfo⟩ := Option.map_eq_some_iff.1 hi
    obtain ⟨r', hr', hsame⟩ := htold'.tells.keeps id r hr
    subst hinfo
    refine ⟨_, congrArg (Option.map _) hr', hsame.kind, hsame.source, hsame.name, fun hfinal => ?_⟩
    -- no event is told of a snippet that has left the session, so its status stays
    have habout : about id more = [] := by
      refine htold'.tells.about_of_isFinal ?_
      rw [Store.status_of_record? hr]
      exact hfinal
    refine ⟨?_, habout⟩
    have hstatus := htold'.tells.leads id
    rw [habout, Store.status_of_record? hr, Store.status_of_record? hr'] at hstatus
    exact hstatus.symm

/-- A host whose objects answer every call with an error. -/
def errorCalls : HostCalls Unit := ⟨fun _ _ _ world => (.error "no answer", world)⟩

/-- A function waits for another one, becomes valid with it, and is dropped. -/
def waitingAndDropped : List (Request Unit) :=
  [.evaluate 20 "fn f() -> i64 \x7b g() \x7d".toList, .evaluate 20 "let a = 1; let a = b;".toList,
    .evaluate 20 "fn g() -> i64 \x7b 2 \x7d".toList, .drop 1]

/-- What comes after it: its name is used, and the session ends. -/
def usedAndStopped : List (Request Unit) := [.evaluate 20 "let a = f();".toList, .stop]

theorem events_of_waitingAndDropped :
    ∃ events s more s',
      Engine.outcome (Engine.performAll errorCalls waitingAndDropped) {} () = (.ok events, s, ()) ∧
      Engine.outcome (Engine.performAll errorCalls usedAndStopped) s () = (.ok more, s', ()) ∧
      created events = [1, 2, 3, 4] ∧
      (about 1 events).map (·.status) = [.recoverableDefined, .valid, .dropped] ∧
      about 1 more = [] := by
  have hruns : (match Engine.outcome (Engine.performAll errorCalls waitingAndDropped) {} () with
      | (.ok events, s, _) =>
        decide ((about 1 events).map (·.status) = [.recoverableDefined, .valid, .dropped] ∧
          s.records.length = 4 ∧ (s.info? 1).map (·.status) = some .dropped ∧
          (Engine.outcome (Engine.performAll errorCalls usedAndStopped) s ()).1.isOk = true)
      | (.error _, _, _) => false) = true := by
    decide +kernel
  rcases hearlier : Engine.outcome (Engine.performAll errorCalls waitingAndDropped) {} () with
    ⟨i | events, s, world⟩
  · rw [hearlier] at hruns
    cases hruns
  · rw [hearlier] at hruns
    obtain ⟨habout, hlength, hdropped, hok⟩ := of_decide_eq_true hruns
    rcases hlater : Engine.outcome (Engine.performAll errorCalls usedAndStopped) s () with
      ⟨i | more, s', world'⟩
    · rw [hlater] at hok
      cases hok
    · obtain ⟨hcreated, -, hhistory⟩ := events_are_history errorCalls _ _ hearlier hlater
      obtain ⟨i, hi, hstatus⟩ := Option.map_eq_some_iff.1 hdropped
      obtain ⟨_, -, -, -, -, hfinal⟩ := (hhistory 1).2.2.2.2 i hi
      refine ⟨events, s, more, s', rfl, hlater, ?_, habout, (hfinal ?_).2⟩
      · rw [hcreated, hlength]
        rfl
      · rw [hstatus]
        rfl

end Notebook.Guest

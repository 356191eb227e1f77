import Notebook.Proofs.Guest.Chronicle
import Notebook.Proofs.Segment.Resplit
import Notebook.Session.Kernel

/-!
# Evaluating a text unit by unit

Evaluating a text is the same as evaluating its units one after the other, each as a text of its own
(`evaluate_eq_evaluateEach`).  The value that is shown is the one of the last unit that has made a
snippet, which need not be the last unit (`value_of_blank_unit`).
-/

namespace Notebook
open Notebook.Text Notebook.Guest Notebook.Capability

/-! ## Units that make no snippet -/

namespace Guest

variable {σ : Type}

/-- A statement begins what it tells with the snippet that it makes. -/
theorem Store.Makes.begins {s s' : Store} {events : List SnippetEvent} (h : s.Makes (events, s')) :
    ∃ e rest, events = e :: rest ∧ e.cause = none := by
  obtain ⟨t, r, status, fault, binds, -, -, -, hr, -, -, -, -, hfinish⟩ := h.finishes
  rw [Store.finish_eq hr] at hfinish
  split at hfinish
  · exact ⟨_, _, congrArg Prod.fst hfinish, rfl⟩
  · exact ⟨_, _, congrArg Prod.fst hfinish, rfl⟩

/-- No snippet has been made. -/
def MakesNone (events : List SnippetEvent) : Prop := ∀ e ∈ events, e.cause ≠ none

theorem Store.Makes.not_makesNone {s s' : Store} {events : List SnippetEvent}
    (h : s.Makes (events, s')) : ¬ MakesNone events := by
  obtain ⟨e, rest, rfl, hcause⟩ := h.begins
  exact fun hnone => hnone e List.mem_cons_self hcause

theorem Engine.evaluateStmts_makesNone {calls : HostCalls σ} {fuel : Nat}
    {stmts : List (Syntax.Stmt × Slice)} {s s' : Store} {w w' : σ} {events : List SnippetEvent}
    (h : outcome (evaluateStmts calls fuel stmts) s w = (.ok events, s', w'))
    (hnone : MakesNone events) : s' = s := by
  cases stmts with
  | nil =>
    cases h
    rfl
  | cons first stmts =>
    obtain ⟨stmt, piece⟩ := first
    obtain ⟨made, t, v, hmade, hrest⟩ := outcome_of_bind_ok h
    obtain ⟨more, t', v', -, hall⟩ := outcome_of_bind_ok hrest
    cases hall
    have hyields := evaluateStmt_makes calls fuel s w stmt piece
    rw [hmade] at hyields
    exact (hyields.not_makesNone fun e he => hnone e (List.mem_append_left more he)).elim

/-- A unit that makes no snippet leaves the store as it is. -/
theorem Engine.evaluate_makesNone {calls : HostCalls σ} {fuel : Nat} {unit : List Char}
    {s s' : Store} {w w' : σ} {events : List SnippetEvent}
    (h : outcome (evaluate calls fuel unit) s w = (.ok events, s', w')) (hnone : MakesNone events) :
    s' = s := by
  have rejected {kind : SnippetKind} {piece : Slice} {e : CheckError}
      (hreject : outcome (reject kind piece e) s w = (.ok events, s', w')) : s' = s := by
    have hyields := yields_reject s w kind piece e
    rw [hreject] at hyields
    exact (hyields.not_makesNone hnone).elim
  unfold evaluate at h
  rw [outcome_bind, outcome_store] at h
  dsimp only at h
  split at h
  · cases h
    rfl
  · split at h
    · exact rejected h
    · split at h
      · exact rejected h
      · exact evaluateStmts_makesNone h hnone

end Guest

/-! ## Results that are put together -/

namespace EvaluationResult

/-- What two evaluations came to, one after the other, as far as it is collected unit by unit. -/
def followedBy (r q : EvaluationResult) : EvaluationResult :=
  { r with
    direct := r.direct ++ q.direct
    outdated := r.outdated ++ q.outdated
    problems := r.problems ++ q.problems
    displays := r.displays ++ q.displays
    stdout := r.stdout ++ q.stdout }

/-- What evaluations came to, one after the other, with a rest that is left over at the end. -/
def joined (r : EvaluationResult) (rs : List EvaluationResult) (incomplete : Option (List Char)) :
    EvaluationResult :=
  { r with
    direct := r.direct ++ rs.flatMap (·.direct)
    outdated := r.outdated ++ rs.flatMap (·.outdated)
    problems := r.problems ++ rs.flatMap (·.problems)
    displays := r.displays ++ rs.flatMap (·.displays)
    stdout := r.stdout ++ rs.flatMap (·.stdout)
    incomplete }

/-- What is answered for what was collected: whether it is a success, and the value that is shown. -/
def answered (r : EvaluationResult) (s : Store) : EvaluationResult :=
  match r.classify.trailingExpression? with
  | some id => { r.classify with value := s.valueOf? id }
  | none => r.classify

/-- The last evaluation that has made a snippet. -/
def lastMaking (rs : List EvaluationResult) : Option EvaluationResult :=
  rs.findRev? fun q => !q.direct.isEmpty

/-- What a text came to is what its units came to, put together. A rest that is left over stands in the
way of a success, and the value is the one of the last unit that has made a snippet. -/
structure PutTogether (r : EvaluationResult) (rs : List EvaluationResult) (rest : Option Segment) :
    Prop where
  direct : r.direct = rs.flatMap (·.direct)
  outdated : r.outdated = rs.flatMap (·.outdated)
  problems : r.problems = rs.flatMap (·.problems)
  displays : r.displays = rs.flatMap (·.displays)
  stdout : r.stdout = rs.flatMap (·.stdout)
  incomplete : r.incomplete = rest.map (·.text)
  success : r.success = true ↔ (∀ q ∈ rs, q.success = true) ∧ rest = none
  value : r.success = true → r.value = (lastMaking rs).bind (·.value)

theorem joined_nil (r : EvaluationResult) (incomplete : Option (List Char)) :
    r.joined [] incomplete = { r with incomplete } := by
  simp [joined]

theorem joined_followedBy (r q : EvaluationResult) (rs : List EvaluationResult)
    (incomplete : Option (List Char)) :
    (r.followedBy q).joined rs incomplete = r.joined (q :: rs) incomplete := by
  simp [joined, followedBy]

theorem answered_eq (r : EvaluationResult) (s : Store) :
    ∃ value, r.answered s = { r.classify with value } := by
  unfold answered
  cases r.classify.trailingExpression? with
  | none => exact ⟨r.value, rfl⟩
  | some id => exact ⟨s.valueOf? id, rfl⟩

/-- What is collected of a unit is what is answered for it on its own. -/
theorem followedBy_answered (r q : EvaluationResult) (s : Store) :
    r.followedBy ((followedBy {} q).answered s) = r.followedBy q := by
  obtain ⟨value, h⟩ := (followedBy {} q).answered_eq s
  rw [h]
  simp [followedBy, classify]

theorem trailingExpression?_congr {r q : EvaluationResult}
    (hdirect : r.direct.getLast? = q.direct.getLast?) (hsuccess : r.success = q.success) :
    r.trailingExpression? = q.trailingExpression? := by
  unfold trailingExpression?
  rw [hdirect, hsuccess]

theorem trailingExpression?_of_none {r : EvaluationResult} (h : r.direct.getLast? = none) :
    r.trailingExpression? = none := by
  unfold trailingExpression?
  rw [h]

theorem value_answered {r : EvaluationResult} (hvalue : r.value = none) (s : Store) :
    (r.answered s).value = (r.answered s).trailingExpression?.bind s.valueOf? := by
  obtain ⟨value, h⟩ := r.answered_eq s
  have htrailing : (r.answered s).trailingExpression? = r.classify.trailingExpression? := by
    rw [h]
    rfl
  rw [htrailing]
  unfold answered
  cases r.classify.trailingExpression? with
  | none => exact hvalue
  | some id => rfl

theorem lastMaking_cons (q : EvaluationResult) (rs : List EvaluationResult) :
    lastMaking (q :: rs) = (lastMaking rs).or (if q.direct.isEmpty then none else some q) := by
  unfold lastMaking
  rw [List.findRev?]
  cases rs.findRev? fun q => !q.direct.isEmpty with
  | some last => rfl
  | none => cases q.direct.isEmpty <;> rfl

theorem lastMaking_eq_none {rs : List EvaluationResult} (h : lastMaking rs = none) :
    ∀ q ∈ rs, q.direct = [] := by
  unfold lastMaking at h
  rw [List.findRev?_eq_find?_reverse, List.find?_eq_none] at h
  intro q hq
  have hempty := h q (List.mem_reverse.2 hq)
  simpa using hempty

theorem of_lastMaking_eq_some {rs : List EvaluationResult} {q : EvaluationResult}
    (h : lastMaking rs = some q) : q ∈ rs ∧ q.direct ≠ [] := by
  unfold lastMaking at h
  rw [List.findRev?_eq_find?_reverse] at h
  have hmakes := List.find?_some h
  exact ⟨List.mem_reverse.1 (List.mem_of_find?_eq_some h), by simpa using hmakes⟩

/-- The last snippet that is made is the last one of the last evaluation that has made one. -/
theorem getLast?_flatMap_direct (rs : List EvaluationResult) :
    (rs.flatMap (·.direct)).getLast? = (lastMaking rs).bind (·.direct.getLast?) := by
  induction rs with
  | nil => rfl
  | cons q rs ih =>
    rw [List.flatMap_cons, List.getLast?_append, ih, lastMaking_cons]
    cases hlast : lastMaking rs with
    | some last =>
      obtain ⟨-, hmakes⟩ := of_lastMaking_eq_some hlast
      simp [List.getLast?_eq_some_getLast hmakes]
    | none => cases hdirect : q.direct <;> simp [hdirect]

end EvaluationResult

namespace Kernel

/-! ## What work comes to -/

/-- What work comes to in a workspace, and what it makes of the workspace. -/
def outcome {α : Type} (t : Task α) (w : Workspace) : Except Failure α × Workspace :=
  (ExceptT.run t : StateM Workspace _).run w

theorem outcome_bind {α β : Type} (t : Task α) (f : α → Task β) (w : Workspace) :
    outcome (t >>= f) w =
      match outcome t w with
      | (.ok a, w') => outcome (f a) w'
      | (.error e, w') => (.error e, w') := by
  unfold outcome
  rw [run_bind]
  rcases (ExceptT.run t : StateM Workspace _).run w with ⟨e | a, w'⟩
  · rfl
  · rfl

theorem outcome_engine {α : Type} (e : Engine Host α) (w : Workspace) :
    outcome (engine e) w =
      match Engine.outcome e w.kernel.store w.kernel.host with
      | (.ok a, store, host) => (.ok a, { w with kernel := { w.kernel with store, host } })
      | (.error i, store, host) =>
        (.error (interrupted i), { w with kernel := { w.kernel with store, host } }) := by
  unfold engine
  rw [outcome_bind]
  change outcome _ w = _
  dsimp only
  rw [show StateT.run (ExceptT.run e) (w.kernel.store, w.kernel.host) =
    Engine.outcome e w.kernel.store w.kernel.host from rfl]
  rcases Engine.outcome e w.kernel.store w.kernel.host with ⟨i | a, store, host⟩
  · rfl
  · rfl

theorem outcome_bindName (f : Factory) (name : String) (object : HostObject) (w : Workspace) :
    outcome (Kernel.bind f name object) w =
      if Store.isHostName name then
        (.ok (), { w with kernel := { w.kernel with store :=
          { w.kernel.store with hosts := putOrdered name object w.kernel.store.hosts } } })
      else (.error (.activation f.name (ticked name ++ " is not a valid identifier")),
        { w with registry := w.registry.remove w.kernel.session f.kind }) := by
  unfold Kernel.bind
  rw [outcome_bind]
  change outcome _ w = _
  dsimp only
  unfold Store.bindHost
  cases Store.isHostName name <;> rfl

/-- What the events of a unit come to, and the kernel once demands have been met and the output has been
taken. -/
def collected (k : Kernel) (events : List SnippetEvent) : EvaluationResult × Kernel :=
  let events := events.map (·.trimmed k.config.bridgeFrame k.config.maxStackFrames)
  let (stdout, store) := (k.host.demands.foldl meetDemand k.store).takeOutput
  ({ EvaluationResult.absorb {} events with
      problems := problemsOf k.store events
      displays := k.host.demands.filterMap Demand.output?
      stdout },
    { k with store, host := k.host.takeDemands.2 })

/-- What a unit comes to, and what it makes of the kernel. -/
def afterUnit (fuel : Nat) (unit : List Char) (k : Kernel) : Except Failure EvaluationResult × Kernel :=
  match Engine.outcome (Engine.evaluate Host.calls fuel unit) k.store k.host with
  | (.ok events, store, host) =>
    (.ok (collected { k with store, host } events).1, (collected { k with store, host } events).2)
  | (.error i, store, host) => (.error (interrupted i), { k with store, host })

theorem outcome_evaluateUnit (fuel : Nat) (unit : List Char) (r : EvaluationResult) (w : Workspace) :
    outcome (evaluateUnit fuel unit r) w =
      match afterUnit fuel unit w.kernel with
      | (.ok q, kernel) => (.ok (r.followedBy q), { w with kernel })
      | (.error e, kernel) => (.error e, { w with kernel }) := by
  unfold evaluateUnit afterUnit
  rw [outcome_bind, outcome_engine]
  rcases Engine.outcome (Engine.evaluate Host.calls fuel unit) w.kernel.store w.kernel.host with
    ⟨i | events, store, host⟩
  · rfl
  · rfl

theorem records_meetDemand (s : Store) (d : Demand) : (meetDemand s d).records = s.records := by
  cases d with
  | display output => rfl
  | library path =>
    unfold meetDemand Store.addLibrary
    dsimp only
    split <;> rfl

theorem records_collected (k : Kernel) (events : List SnippetEvent) :
    (k.collected events).2.store.records = k.store.records := by
  have hmeet (demands : List Demand) (s : Store) :
      (demands.foldl meetDemand s).records = s.records := by
    induction demands generalizing s with
    | nil => rfl
    | cons d demands ih => exact (ih (meetDemand s d)).trans (records_meetDemand s d)
  exact hmeet k.host.demands k.store

theorem cause_trimmed (bridge : List Char) (limit : Nat) (e : SnippetEvent) :
    (e.trimmed bridge limit).cause = e.cause := by
  unfold SnippetEvent.trimmed
  split <;> rfl

/-- A unit that makes no snippet leaves the snippets as they are. -/
theorem records_afterUnit {fuel : Nat} {unit : List Char} {k k' : Kernel} {q : EvaluationResult}
    (h : afterUnit fuel unit k = (.ok q, k')) (hnone : q.direct = []) :
    k'.store.records = k.store.records := by
  unfold afterUnit at h
  rcases hevaluate : Engine.outcome (Engine.evaluate Host.calls fuel unit) k.store k.host with
    ⟨i | events, store, host⟩
  · rw [hevaluate] at h
    cases h
  · rw [hevaluate] at h
    cases h
    rw [records_collected]
    -- an event without a cause would be among the direct ones
    refine congrArg Store.records (Engine.evaluate_makesNone hevaluate fun e he hcause => ?_)
    have hmem := List.filter_eq_nil_iff.1 hnone _ (List.mem_map_of_mem he)
    rw [cause_trimmed, hcause] at hmem
    exact hmem rfl

/-! ## One text -/

/-- Answers what was collected, in the store that it has led to. -/
def answer (result : Except Failure EvaluationResult × Workspace) :
    Except Failure EvaluationResult × Workspace :=
  (result.1.map (·.answered result.2.kernel.store), result.2)

theorem outcome_evaluate (fuel : Nat) (source : List Char) (w : Workspace) :
    outcome (evaluate fuel source) w =
      answer (outcome (evaluateFrom fuel source 0 {}) { w with evaluations := w.evaluations + 1 }) := by
  unfold evaluate
  rw [outcome_bind]
  change outcome _ { w with evaluations := w.evaluations + 1 } = _
  rw [outcome_bind]
  rcases outcome (evaluateFrom fuel source 0 {}) { w with evaluations := w.evaluations + 1 } with
    ⟨e | r, w'⟩
  · rfl
  · unfold answer Except.map EvaluationResult.answered
    dsimp only
    cases r.classify.trailingExpression? with
    | none => rfl
    | some id => rfl

variable {source : List Char} {start : Nat}

theorem evaluateFrom_unit {u : Segment} (h : Segment.next Scan.completeness source start = .unit u)
    (fuel : Nat) (r : EvaluationResult) :
    evaluateFrom fuel source start r =
      evaluateUnit fuel u.text r >>= evaluateFrom fuel source u.stop := by
  rw [evaluateFrom]
  split <;> simp_all

theorem evaluateFrom_done (h : Segment.next Scan.completeness source start = .done) (fuel : Nat)
    (r : EvaluationResult) : evaluateFrom fuel source start r = pure r := by
  rw [evaluateFrom]
  split <;> simp_all

theorem evaluateFrom_incomplete {rest : Segment}
    (h : Segment.next Scan.completeness source start = .incomplete rest) (fuel : Nat)
    (r : EvaluationResult) :
    evaluateFrom fuel source start r = pure { r with incomplete := some rest.text } := by
  rw [evaluateFrom]
  split <;> simp_all

/-- A unit that was cut out of a text is evaluated on its own as it is evaluated in the text. -/
theorem outcome_evaluate_unit {u : Segment}
    (h : Segment.next Scan.completeness source start = .unit u) (fuel : Nat) (w : Workspace) :
    outcome (evaluate fuel u.text) w =
      match afterUnit fuel u.text w.kernel with
      | (.ok q, kernel) =>
        (.ok ((EvaluationResult.followedBy {} q).answered kernel.store),
          { w with kernel, evaluations := w.evaluations + 1 })
      | (.error e, kernel) => (.error e, { w with kernel, evaluations := w.evaluations + 1 }) := by
  obtain ⟨hne, htrim, hunit⟩ := Segment.unit_of_next h
  have hstop : Segment.stop ⟨0, u.text⟩ = width u.text := Nat.zero_add _
  -- the unit takes up all of its own text, so nothing is left to evaluate behind it
  rw [outcome_evaluate, evaluateFrom_unit (Segment.next_zero hne htrim hunit), outcome_bind,
    outcome_evaluateUnit]
  dsimp only
  rcases afterUnit fuel u.text w.kernel with ⟨e | q, kernel⟩
  · rfl
  · dsimp only
    rw [hstop, evaluateFrom_done (Segment.next_width u.text)]
    rfl

/-! ## Units one after the other -/

/-- Evaluates texts one after the other. -/
def evaluateEach (fuel : Nat) : List (List Char) → Task (List EvaluationResult)
  | [] => return []
  | text :: texts => do
    let r ← evaluate fuel text
    let rs ← evaluateEach fuel texts
    return r :: rs

/-- The results are what evaluations have been answered that came to the store. -/
structure Answers (rs : List EvaluationResult) (s : Store) : Prop where
  success : ∀ q ∈ rs, q.success = !q.direct.any EvaluationResult.failed
  incomplete : ∀ q ∈ rs, q.incomplete = none
  value : ∀ q, EvaluationResult.lastMaking rs = some q →
    q.value = q.trailingExpression?.bind s.valueOf?

theorem valueOf?_congr {s s' : Store} (h : s'.records = s.records) :
    s'.valueOf? = s.valueOf? := by
  funext id
  unfold Store.valueOf? Store.record?
  rw [h]

theorem answers_nil (s : Store) : Answers [] s := by
  refine ⟨?_, ?_, ?_⟩
  · exact fun _ h => (List.not_mem_nil h).elim
  · exact fun _ h => (List.not_mem_nil h).elim
  · exact fun _ h => (Option.some_ne_none _ h.symm).elim

theorem Answers.cons {q : EvaluationResult} {rs : List EvaluationResult} {s s' : Store}
    (hsuccess : q.success = !q.direct.any EvaluationResult.failed) (hincomplete : q.incomplete = none)
    (hvalue : q.value = q.trailingExpression?.bind s.valueOf?) (hrest : Answers rs s')
    (hquiet : (∀ q ∈ rs, q.direct = []) → s'.records = s.records) : Answers (q :: rs) s' := by
  refine ⟨?_, ?_, fun q' hq' => ?_⟩
  · exact List.forall_mem_cons.2 ⟨hsuccess, hrest.success⟩
  · exact List.forall_mem_cons.2 ⟨hincomplete, hrest.incomplete⟩
  · rw [EvaluationResult.lastMaking_cons] at hq'
    cases hlast : EvaluationResult.lastMaking rs with
    | some last =>
      rw [hlast] at hq'
      cases hq'
      exact hrest.value _ hlast
    -- no later unit has made a snippet, so the value can be looked up in the store at the end as well
    | none =>
      rw [hlast, Option.none_or] at hq'
      split at hq'
      · cases hq'
      · cases hq'
        rw [valueOf?_congr (hquiet (EvaluationResult.lastMaking_eq_none hlast))]
        exact hvalue

end Kernel

/-- The workspaces differ at most in how many evaluations have begun. -/
def Workspace.Alike (v w : Workspace) : Prop := v.kernel = w.kernel ∧ v.registry = w.registry

namespace Kernel
open EvaluationResult

/-- Two pieces of work fail in the same way, or they both come to something, and they leave the same
behind. -/
def Agree {α β : Type} (holds : α → β → Store → Prop) :
    Except Failure α × Workspace → Except Failure β × Workspace → Prop
  | (.ok a, v), (.ok b, w) => v.Alike w ∧ holds a b w.kernel.store
  | (.error e, v), (.error e', w) => e = e' ∧ v.Alike w
  | _, _ => False

theorem Agree.mono {α β : Type} {holds holds' : α → β → Store → Prop}
    {x : Except Failure α × Workspace} {y : Except Failure β × Workspace} (h : Agree holds x y)
    (himp : ∀ a b s, holds a b s → holds' a b s) : Agree holds' x y := by
  rcases x with ⟨e | a, v⟩ <;> rcases y with ⟨e' | b, w⟩
  · exact h
  · exact h
  · exact h
  · exact ⟨h.1, himp a b _ h.2⟩

theorem Agree.of_bind_pure {α α' β : Type} {holds : α' → β → Store → Prop} {t : Task α} {f : α → α'}
    {v : Workspace} {y : Except Failure β × Workspace}
    (h : Agree (fun a b s => holds (f a) b s) (outcome t v) y) :
    Agree holds (outcome (t >>= fun a => pure (f a)) v) y := by
  rw [outcome_bind]
  rcases ht : outcome t v with ⟨e | a, v'⟩ <;> rw [ht] at h <;> rcases y with ⟨e' | b, w⟩ <;> exact h

theorem Agree.answer {α : Type} {holds : α → EvaluationResult → Store → Prop}
    {x : Except Failure α × Workspace} {y : Except Failure EvaluationResult × Workspace}
    (h : Agree (fun a r s => holds a (r.answered s) s) x y) : Agree holds x (answer y) := by
  rcases x with ⟨e | a, v⟩ <;> rcases y with ⟨e' | r, w⟩ <;> exact h

/-- The units of a text from an offset on, evaluated on their own and evaluated in the text. -/
theorem evaluateEach_agree_evaluateFrom (fuel : Nat) (source : List Char) (start : Nat)
    (r : EvaluationResult) {v w : Workspace} (h : v.Alike w) :
    Agree
      (fun rs r' s =>
        r' = r.joined rs
            (((splitFrom Scan.completeness source start).remainder.map (·.text)).or r.incomplete) ∧
          Answers rs s ∧ ((∀ q ∈ rs, q.direct = []) → s.records = w.kernel.store.records))
      (outcome (evaluateEach fuel
        ((splitFrom Scan.completeness source start).units.map (·.text))) v)
      (outcome (evaluateFrom fuel source start r) w) := by
  -- the induction is on what is left of the text, with the result collected so far left open: evaluating
  -- in one go starts from it, and evaluating unit by unit is joined to it
  cases hnext : Segment.next Scan.completeness source start with
  | done =>
    rw [splitFrom_done hnext, evaluateFrom_done hnext]
    exact ⟨h, (r.joined_nil _).symm, answers_nil _, fun _ => rfl⟩
  | incomplete rest =>
    rw [splitFrom_incomplete hnext, evaluateFrom_incomplete hnext]
    exact ⟨h, (r.joined_nil _).symm, answers_nil _, fun _ => rfl⟩
  | unit u =>
    have hstop := Segment.lt_stop_of_next hnext
    rw [splitFrom_unit hnext, evaluateFrom_unit hnext]
    dsimp only
    rw [List.map_cons, evaluateEach, outcome_bind, outcome_evaluate_unit hnext, outcome_bind,
      outcome_evaluateUnit, h.1]
    -- both sides do the same with the unit, and both are broken off if it is
    rcases hafter : afterUnit fuel u.text w.kernel with ⟨e | q, kernel⟩
    · exact ⟨rfl, rfl, h.2⟩
    · have hlater := evaluateEach_agree_evaluateFrom fuel source u.stop (r.followedBy q)
        (v := { v with kernel, evaluations := v.evaluations + 1 }) (w := { w with kernel })
        ⟨rfl, h.2⟩
      refine Agree.of_bind_pure (hlater.mono fun rs r' s => ?_)
      rintro ⟨hr', hanswers, hquiet⟩
      have hquiet' : (∀ q ∈ rs, q.direct = []) → s.records = kernel.store.records := hquiet
      obtain ⟨value, hanswer⟩ := (followedBy {} q).answered_eq kernel.store
      refine ⟨?_, hanswers.cons ?_ ?_ (value_answered rfl _) hquiet', fun hnone => ?_⟩
      · rw [hr', ← joined_followedBy, followedBy_answered]
        rfl
      · rw [hanswer]
        rfl
      · rw [hanswer]
        rfl
      · obtain ⟨hdirect, hrest⟩ := List.forall_mem_cons.1 hnone
        rw [hanswer] at hdirect
        exact (hquiet' hrest).trans (records_afterUnit hafter hdirect)
termination_by width source - start
decreasing_by omega

/-- The answer for what units have been answered, put together. -/
theorem putTogether_answered {rs : List EvaluationResult} {s : Store} (h : Answers rs s)
    (rest : Option Segment) :
    ((joined {} rs (rest.map (·.text))).answered s).PutTogether rs rest := by
  have hvalue := value_answered (r := joined {} rs (rest.map (·.text))) rfl s
  obtain ⟨value, hanswer⟩ := (joined {} rs (rest.map (·.text))).answered_eq s
  rw [hanswer] at hvalue ⊢
  have hsuccess : ((rest.map (·.text)).isNone && !(rs.flatMap (·.direct)).any failed) = true ↔
      (∀ q ∈ rs, q.success = true) ∧ rest = none := by
    have hfailed : (rs.flatMap (·.direct)).any failed = false ↔ ∀ q ∈ rs, q.success = true := by
      rw [List.any_flatMap, List.any_eq_false]
      refine forall₂_congr fun q hq => ?_
      rw [h.success q hq, Bool.not_eq_true, Bool.not_eq_true']
    rw [Bool.and_eq_true, Bool.not_eq_true', hfailed, Option.isNone_map, Option.isNone_iff_eq_none,
      and_comm]
  refine ⟨rfl, rfl, rfl, rfl, rfl, rfl, hsuccess, fun hok => hvalue.trans ?_⟩
  -- the last event of all is the last one of the last unit that has made a snippet
  have hlast := getLast?_flatMap_direct rs
  cases hmaking : lastMaking rs with
  | none =>
    rw [hmaking] at hlast
    have hnone := trailingExpression?_of_none
      (r := { (joined {} rs (rest.map (·.text))).classify with value }) hlast
    rw [hnone]
    rfl
  | some q =>
    rw [hmaking] at hlast
    have hq := (hsuccess.1 hok).1 q (of_lastMaking_eq_some hmaking).1
    rw [Option.bind_some, h.value q hmaking, trailingExpression?_congr hlast (hok.trans hq.symm)]

/-- Evaluating a text is evaluating its units one after the other, each as a text of its own: it leaves
the same kernel behind, and what it comes to is what they come to, put together.  If it is broken off,
it is broken off as they are. -/
theorem evaluate_eq_evaluateEach (fuel : Nat) (source : List Char) (w : Workspace) :
    Agree (fun rs r _ => r.PutTogether rs (split Scan.completeness source).remainder)
      (outcome (evaluateEach fuel ((split Scan.completeness source).units.map (·.text))) w)
      (outcome (evaluate fuel source) w) := by
  rw [outcome_evaluate]
  refine Agree.answer (Agree.mono (evaluateEach_agree_evaluateFrom fuel source 0 {}
    (v := w) (w := { w with evaluations := w.evaluations + 1 }) ⟨rfl, rfl⟩) ?_)
  rintro rs r s ⟨rfl, hanswers, -⟩
  rw [Option.or_none]
  exact putTogether_answered hanswers _

/-- A workspace in which nothing has happened yet. -/
def emptyWorkspace : Workspace := { kernel := { session := 0, config := {} }, registry := [] }

/-- A number, and a mark that separates nothing but is no code either. -/
def numberAndMark : List Char := "7;\u200e".toList

theorem eq_ok_of_toOption {α : Type} {x : Except Failure α × Workspace} {a : α}
    (h : x.1.toOption = some a) : x = (.ok a, x.2) := by
  rcases x with ⟨e | b, w⟩
  · cases h
  · cases h
    rfl

/-- The value of a text can be the one of a unit that is not the last one. -/
theorem value_of_blank_unit :
    ∃ rs r v w, outcome (evaluateEach 20 ((split Scan.completeness numberAndMark).units.map (·.text)))
        emptyWorkspace = (.ok rs, v) ∧
      outcome (evaluate 20 numberAndMark) emptyWorkspace = (.ok r, w) ∧
      r.success = true ∧ r.value = some ("7".toList, "i64") ∧
      rs.length = 2 ∧ rs.getLast?.bind (·.value) = none := by
  have heach : (outcome (evaluateEach 20
      ((split Scan.completeness numberAndMark).units.map (·.text))) emptyWorkspace).1.toOption.map
        (fun rs => (rs.length, rs.getLast?.bind (·.value))) = some (2, none) := by
    decide +kernel
  have hwhole : (outcome (evaluate 20 numberAndMark) emptyWorkspace).1.toOption.map
      (fun r => (r.success, r.value)) = some (true, some ("7".toList, "i64")) := by
    decide +kernel
  obtain ⟨rs, hrs, hlast⟩ := Option.map_eq_some_iff.1 heach
  obtain ⟨r, hr, hvalue⟩ := Option.map_eq_some_iff.1 hwhole
  obtain ⟨hlength, hlast⟩ := Prod.mk.inj hlast
  obtain ⟨hsuccess, hvalue⟩ := Prod.mk.inj hvalue
  exact ⟨rs, r, _, _, eq_ok_of_toOption hrs, eq_ok_of_toOption hr, hsuccess, hvalue, hlength, hlast⟩

end Kernel

end Notebook

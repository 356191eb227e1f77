import Notebook.Proofs.Guest.Flaws
import Notebook.Proofs.Session.Units

/-!
# Failures and their problems

What has gone wrong with a snippet is looked up when its unit is done, and whether the snippet has failed
stands in the event that tells of it.  In between, a later statement of the same unit may have cured it, and
then it has failed without a problem.  All other snippets that fail have one, and no other snippets have
(`problems_are_failures`).
-/

namespace Notebook
open Notebook.Text Notebook.Guest Notebook.Capability

namespace EvaluationResult

/-- The snippet of an event waited for something, and at the end of its unit it waits no more.  The result
is the one of the unit. -/
def cures (q : EvaluationResult) (e : SnippetEvent) : Bool :=
  e.fault.isNone && e.status.isWaiting && (lastLook? e.snippet q.outdated).any (!·.isWaiting)

/-- The snippet of an event has failed, and has not been cured in its unit. -/
def fails (q : EvaluationResult) (e : SnippetEvent) : Bool := failed e && !q.cures e

end EvaluationResult

/-- The snippet that an event tells of, with the source it is told with. -/
def SnippetEvent.place (e : SnippetEvent) : SnippetId × List Char := (e.snippet, e.source)

/-- The snippet that has a problem, with the source it is told with. -/
def SnippetProblem.place (p : SnippetProblem) : SnippetId × List Char := (p.snippet, p.source)

/-! ## The problem of one snippet -/

theorem place_problemsOf (s : Store) (events : List SnippetEvent) :
    (problemsOf s events).map (·.place) =
      ((events.filter (·.cause.isNone)).filter fun e => (problem? s e).isSome).map (·.place) := by
  unfold problemsOf
  induction events.filter (·.cause.isNone) with
  | nil => rfl
  | cons e events ih =>
    rw [List.filterMap_cons, List.filter_cons]
    cases problem? s e with
    | none => exact ih
    | some problem => exact congrArg (e.place :: ·) ih

/-- A snippet that waits has a problem if it lacks something. -/
theorem isSome_problem?_of_waiting {s : Store} {e : SnippetEvent} {r : Record}
    (hr : s.record? e.snippet = some r) (hfault : e.fault = none) (hwaits : e.status.isWaiting = true) :
    (problem? s e).isSome = r.lacks := by
  have hunresolved : s.unresolved e.snippet = r.unresolved := by
    unfold Store.unresolved
    rw [hr]
    rfl
  have hdiagnostics : s.diagnostics e.snippet = r.diagnostics := by
    unfold Store.diagnostics
    rw [hr]
    rfl
  have hproblem : problem? s e =
      if !r.unresolved.isEmpty then some (.unresolved r.unresolved)
      else if !r.diagnostics.isEmpty then some (.rejected r.diagnostics) else none := by
    unfold problem?
    rw [hfault, hunresolved, hdiagnostics]
    revert hwaits
    cases e.status <;> simp [Status.isWaiting]
  rw [hproblem]
  unfold Record.lacks
  cases r.unresolved.isEmpty <;> cases r.diagnostics.isEmpty <;> rfl

/-- The snippet of an event has a problem if and only if it has failed and has not been cured. -/
theorem isSome_problem? {s : Store} {events : List SnippetEvent} {e : SnippetEvent}
    (h : Store.Judged s events e) :
    (problem? s e).isSome = (EvaluationResult.failed e &&
      !(e.fault.isNone && e.status.isWaiting && (lastLook? e.snippet events).any (!·.isWaiting))) := by
  cases hfault : e.fault with
  | some f =>
    unfold problem? EvaluationResult.failed
    rw [hfault]
    rfl
  | none =>
    rcases h.status with hvalid | hrejected | hwaiting
    · unfold problem? EvaluationResult.failed
      rw [hfault, hvalid]
      rfl
    · unfold problem? EvaluationResult.failed
      rw [hfault, hrejected]
      rfl
    · obtain ⟨r, hr, -, hlacks⟩ := h.waits hwaiting
      have hfailed : EvaluationResult.failed e = true := by
        unfold EvaluationResult.failed
        revert hwaiting
        cases e.status <;> simp [Status.isWaiting]
      rw [isSome_problem?_of_waiting hr hfault hwaiting, hlacks, hfailed, hwaiting]
      cases lastLook? e.snippet events with
      | none => rfl
      | some status => cases hstatus : status.isWaiting <;> simp [hstatus]

/-! ## The problems of a unit -/

theorem lastLook?_filter (id : SnippetId) (events : List SnippetEvent) :
    lastLook? id (events.filter (·.cause.isSome)) = lastLook? id events := by
  unfold lastLook?
  rw [List.findRev?_eq_find?_reverse, List.findRev?_eq_find?_reverse, ← List.filter_reverse,
    List.find?_filter]
  congr 2
  funext e
  unfold SnippetEvent.isLook
  cases e.cause.isSome <;> simp

theorem trimmed_eq (bridge : List Char) (limit : Nat) (e : SnippetEvent) :
    ∃ fault, e.trimmed bridge limit = { e with fault } ∧ fault.isSome = e.fault.isSome := by
  unfold SnippetEvent.trimmed
  split
  · exact ⟨_, rfl, Option.isSome_map⟩
  · exact ⟨e.fault, rfl, rfl⟩

theorem lastLook?_trimmed (id : SnippetId) (bridge : List Char) (limit : Nat)
    (events : List SnippetEvent) :
    lastLook? id (events.map (·.trimmed bridge limit)) = lastLook? id events := by
  have hlook (e : SnippetEvent) : (e.trimmed bridge limit).isLook = e.isLook ∧
      (e.trimmed bridge limit).snippet = e.snippet ∧ (e.trimmed bridge limit).status = e.status := by
    obtain ⟨fault, heq, -⟩ := trimmed_eq bridge limit e
    rw [heq]
    exact ⟨rfl, rfl, rfl⟩
  unfold lastLook?
  rw [List.findRev?_eq_find?_reverse, List.findRev?_eq_find?_reverse, ← List.map_reverse, List.find?_map,
    Option.map_map]
  congr 1
  · funext e
    exact (hlook e).2.2
  · congr 1
    funext e
    rw [Function.comp_apply, (hlook e).1, (hlook e).2.1]

theorem judged_trimmed {s : Store} {events : List SnippetEvent} {e : SnippetEvent}
    (h : Store.Judged s events e) (bridge : List Char) (limit : Nat) :
    Store.Judged s (events.map (·.trimmed bridge limit)) (e.trimmed bridge limit) := by
  obtain ⟨fault, heq, -⟩ := trimmed_eq bridge limit e
  rw [heq]
  refine ⟨h.status, fun hwaits => ?_⟩
  rw [lastLook?_trimmed]
  exact h.waits hwaits

/-- The problems that are told are those of the snippets that fail. -/
theorem place_problems_absorbed {s : Store} {events : List SnippetEvent}
    (h : ∀ e ∈ events, e.cause = none → Store.Judged s events e) :
    (problemsOf s events).map (·.place) =
      ((EvaluationResult.absorb {} events).direct.filter (EvaluationResult.absorb {} events).fails).map
        (·.place) := by
  rw [place_problemsOf]
  refine congrArg _ (List.filter_congr fun e he => ?_)
  obtain ⟨hmem, hcause⟩ := List.mem_filter.1 he
  rw [isSome_problem? (h e hmem (Option.isNone_iff_eq_none.1 hcause)), ← lastLook?_filter]
  rfl

namespace Kernel
open EvaluationResult

/-- A unit has a problem for every snippet that fails in it, and no other ones. -/
theorem problems_afterUnit {fuel : Nat} {unit : List Char} {k k' : Kernel} {q : EvaluationResult}
    (h : afterUnit fuel unit k = (.ok q, k')) :
    q.problems.map (·.place) = (q.direct.filter q.fails).map (·.place) := by
  unfold afterUnit at h
  rcases hevaluate : Engine.outcome (Engine.evaluate Host.calls fuel unit) k.store k.host with
    ⟨i | events, store, host⟩
  · rw [hevaluate] at h
    cases h
  · rw [hevaluate] at h
    cases h
    obtain ⟨-, hjudged⟩ := Engine.judged_evaluate Host.calls fuel unit hevaluate
    refine place_problems_absorbed fun e' he' hcause => ?_
    obtain ⟨e, he, rfl⟩ := List.mem_map.1 he'
    rw [cause_trimmed] at hcause
    exact judged_trimmed (hjudged e he hcause).2 _ _

/-! ## The problems of a text -/

/-- Every unit of a text that is evaluated on its own has a problem for every snippet that fails. -/
theorem problems_evaluateEach (fuel : Nat) (source : List Char) (start : Nat) {w w' : Workspace}
    {rs : List EvaluationResult}
    (h : outcome (evaluateEach fuel
      ((splitFrom Scan.completeness source start).units.map (·.text))) w = (.ok rs, w')) :
    ∀ q ∈ rs, q.problems.map (·.place) = (q.direct.filter q.fails).map (·.place) := by
  cases hnext : Segment.next Scan.completeness source start with
  | done =>
    rw [splitFrom_done hnext] at h
    cases h
    exact fun q hq => absurd hq List.not_mem_nil
  | incomplete rest =>
    rw [splitFrom_incomplete hnext] at h
    cases h
    exact fun q hq => absurd hq List.not_mem_nil
  | unit u =>
    have hstop := Segment.lt_stop_of_next hnext
    rw [splitFrom_unit hnext] at h
    dsimp only at h
    rw [List.map_cons, evaluateEach, outcome_bind, outcome_evaluate_unit hnext] at h
    rcases hafter : afterUnit fuel u.text w.kernel with ⟨e | q, kernel⟩
    · rw [hafter] at h
      cases h
    · rw [hafter] at h
      dsimp only at h
      rw [outcome_bind] at h
      rcases hlater : outcome (evaluateEach fuel
          ((splitFrom Scan.completeness source u.stop).units.map (·.text)))
          { w with kernel, evaluations := w.evaluations + 1 } with ⟨e | more, w''⟩
      · rw [hlater] at h
        cases h
      · rw [hlater] at h
        cases h
        have hunit := problems_afterUnit hafter
        obtain ⟨value, hanswer⟩ := (followedBy {} q).answered_eq kernel.store
        refine List.forall_mem_cons.2 ⟨?_, problems_evaluateEach fuel source u.stop hlater⟩
        rw [hanswer]
        exact hunit
termination_by width source - start
decreasing_by omega

/-- A text is a success if and only if nothing is left over and no snippet has failed. -/
theorem success_evaluate {fuel : Nat} {source : List Char} {w w' : Workspace} {r : EvaluationResult}
    (h : outcome (evaluate fuel source) w = (.ok r, w')) :
    r.success = true ↔ r.incomplete = none ∧ ∀ e ∈ r.direct, failed e = false := by
  rw [outcome_evaluate] at h
  rcases hfrom : outcome (evaluateFrom fuel source 0 {}) { w with evaluations := w.evaluations + 1 } with
    ⟨e | collected, w''⟩ <;> rw [hfrom] at h
  · cases h
  · obtain ⟨value, hanswer⟩ := collected.answered_eq w''.kernel.store
    cases h
    dsimp only
    rw [hanswer]
    change (collected.incomplete.isNone && !collected.direct.any failed) = true ↔ _
    rw [Bool.and_eq_true, Option.isNone_iff_eq_none, Bool.not_eq_true', List.any_eq_false]
    exact and_congr_right fun _ => forall₂_congr fun e _ => iff_of_eq (Bool.not_eq_true _)

/-- The problems of a text that is evaluated are, in order, those of its units, and each unit has one for
every snippet that has failed in it and that no later statement of the unit has cured.  So as long as no
unit cures a snippet of its own, the snippets with a problem are exactly those that fail, and a text fails
if and only if it has a problem or a rest that is left over.  A text that succeeds has no problem in any
case. -/
theorem problems_are_failures {fuel : Nat} {source : List Char} {w w' : Workspace} {r : EvaluationResult}
    (h : outcome (evaluate fuel source) w = (.ok r, w')) :
    ∃ rs v, outcome (evaluateEach fuel ((split Scan.completeness source).units.map (·.text))) w = (.ok rs, v) ∧
      r.direct = rs.flatMap (·.direct) ∧
      r.problems.map (·.place) = rs.flatMap (fun q => (q.direct.filter q.fails).map (·.place)) ∧
      (r.success = true ↔ r.incomplete = none ∧ ∀ e ∈ r.direct, failed e = false) ∧
      (r.success = true → r.problems = []) ∧
      ((∀ q ∈ rs, ∀ e ∈ q.direct, q.cures e = false) →
        r.problems.map (·.place) = (r.direct.filter failed).map (·.place) ∧
        (r.success = false ↔ r.incomplete ≠ none ∨ r.problems ≠ [])) := by
  have hagree := evaluate_eq_evaluateEach fuel source w
  rw [h] at hagree
  rcases heach : outcome (evaluateEach fuel ((split Scan.completeness source).units.map (·.text))) w with
    ⟨e | rs, v⟩
  · rw [heach] at hagree
    cases hagree
  · rw [heach] at hagree
    obtain ⟨-, htogether⟩ := hagree
    have hunits := problems_evaluateEach fuel source 0 heach
    have hplaces : r.problems.map (·.place) =
        rs.flatMap fun q => (q.direct.filter q.fails).map (·.place) := by
      rw [htogether.problems, List.map_flatMap]
      exact List.flatMap_congr hunits
    have hsuccess := success_evaluate h
    refine ⟨rs, v, heach, htogether.direct, hplaces, hsuccess, fun hok => ?_, fun huncured => ?_⟩
    · -- where nothing has failed, there is nothing that has a problem
      rw [← List.map_eq_nil_iff, hplaces, List.flatMap_eq_nil_iff]
      intro q hq
      rw [List.map_eq_nil_iff, List.filter_eq_nil_iff]
      intro e he hfails
      have hfine := (hsuccess.1 hok).2 e (htogether.direct ▸ List.mem_flatMap.2 ⟨q, hq, he⟩)
      unfold fails at hfails
      rw [hfine] at hfails
      cases hfails
    · have hall : r.problems.map (·.place) = (r.direct.filter failed).map (·.place) := by
        rw [hplaces, htogether.direct, List.filter_flatMap, List.map_flatMap]
        refine List.flatMap_congr fun q hq => congrArg _ (List.filter_congr fun e he => ?_)
        unfold fails
        rw [huncured q hq e he]
        exact Bool.and_true _
      refine ⟨hall, ?_⟩
      have hnone : r.problems = [] ↔ ∀ e ∈ r.direct, failed e = false := by
        rw [← List.map_eq_nil_iff, hall, List.map_eq_nil_iff, List.filter_eq_nil_iff]
        exact forall₂_congr fun e _ => iff_of_eq (Bool.not_eq_true _)
      rw [← Bool.not_eq_true, hsuccess, ← hnone, not_and_or]

/-- A function that calls one that is not there. -/
def waitingFunction : List Char := "fn f() -> i64 \x7b g() \x7d".toList

theorem waitingFunction_has_problem :
    ∃ r w', outcome (evaluate 20 waitingFunction) emptyWorkspace = (.ok r, w') ∧ r.success = false ∧
      r.problems.map (·.place) = (r.direct.filter failed).map (·.place) ∧ r.problems ≠ [] := by
  have hevaluate : (outcome (evaluate 20 waitingFunction) emptyWorkspace).1.toOption.map
      (fun r => (r.success, r.incomplete)) = some (false, none) := by
    decide +kernel
  have heach : (outcome (evaluateEach 20
      ((split Scan.completeness waitingFunction).units.map (·.text))) emptyWorkspace).1.toOption.map
        (fun rs => rs.all fun q => q.direct.all fun e => !q.cures e) = some true := by
    decide +kernel
  obtain ⟨r, hr, hpair⟩ := Option.map_eq_some_iff.1 hevaluate
  obtain ⟨hfailure, hincomplete⟩ := Prod.mk.inj hpair
  obtain ⟨rs, v, hrs, -, -, -, -, hproblems⟩ := problems_are_failures (eq_ok_of_toOption hr)
  rw [hrs] at heach
  have huncured : ∀ q ∈ rs, ∀ e ∈ q.direct, q.cures e = false := by
    intro q hq e he
    have hall := List.all_eq_true.1 (Option.some.inj heach) q hq
    simpa using List.all_eq_true.1 hall e he
  obtain ⟨hplaces, hiff⟩ := hproblems huncured
  exact ⟨r, _, eq_ok_of_toOption hr, hfailure, hplaces,
    (hiff.1 hfailure).resolve_left fun h => h hincomplete⟩

/-- A unit of three statements. The first one lets the unit go on behind the braces of the second one, which
waits for the third. -/
def curedFunction : List Char := "println! \x7b\x7d fn f() -> i64 \x7b g() \x7d fn g() -> i64 \x7b 1 \x7d".toList

/-- A text fails without a problem, since its unit has cured the function that had to wait. -/
theorem curedFunction_fails_without_problem :
    ∃ r w', outcome (evaluate 20 curedFunction) emptyWorkspace = (.ok r, w') ∧ r.success = false ∧
      r.incomplete = none ∧ (r.direct.filter failed).map (·.snippet) = [2] ∧ r.problems = [] := by
  have hevaluate : (outcome (evaluate 20 curedFunction) emptyWorkspace).1.toOption.map
      (fun r => (r.success, r.incomplete, (r.direct.filter failed).map (·.snippet), r.problems)) =
        some (false, none, [2], []) := by
    decide +kernel
  obtain ⟨r, hr, hvalues⟩ := Option.map_eq_some_iff.1 hevaluate
  obtain ⟨hfailure, hvalues⟩ := Prod.mk.inj hvalues
  obtain ⟨hincomplete, hvalues⟩ := Prod.mk.inj hvalues
  obtain ⟨hfailed, hproblems⟩ := Prod.mk.inj hvalues
  exact ⟨r, _, eq_ok_of_toOption hr, hfailure, hincomplete, hfailed, hproblems⟩

end Kernel

end Notebook

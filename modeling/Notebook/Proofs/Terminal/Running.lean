import Notebook.Proofs.Session.Asking
import Notebook.Proofs.Session.Problems
import Notebook.Proofs.Staleness.History
import Notebook.Terminal.Run

/-!
# Running a sheet tells what goes stale

Cells are told apart by their names when a sheet is run. As long as the names differ, the report on a cell
names an earlier one exactly if it is the first to touch a snippet that the earlier one has made
(`Terminal.stale_cells_are_named`). A cell with the name of an earlier one is taken for that one, evaluated
again, and makes nothing stale that is its own (`Terminal.twins_are_not_named`).

Snippets are numbered, and no number is used twice in a session. So what a cell has made is not made again by a
later one, and belongs to the cell until another one of its name is evaluated.
-/

namespace Notebook
open Notebook.Text Notebook.Guest Notebook.Capability

/-! ## Numbers of new snippets -/

/-- The snippets that an evaluation has made are numbered on from those that were there. -/
structure EvaluationResult.Numbers (r : EvaluationResult) (w w' : Workspace) : Prop where
  mono : w.kernel.store.records.length ≤ w'.kernel.store.records.length
  new : ∀ id ∈ r.made, w.kernel.store.records.length < id
  there : ∀ id ∈ r.made, id ≤ w'.kernel.store.records.length

namespace Kernel

theorem made_collected (k : Kernel) (events : List SnippetEvent) :
    (k.collected events).1.made = (events.filter (·.cause.isNone)).map (·.snippet) := by
  let bridge := k.config.bridgeFrame
  let limit := k.config.maxStackFrames
  have hcause : ((·.cause.isNone) ∘ (·.trimmed bridge limit)) = fun e : SnippetEvent => e.cause.isNone := by
    funext e
    rw [Function.comp_apply, cause_trimmed]
  have hsnippet : ((·.snippet) ∘ (·.trimmed bridge limit)) = fun e : SnippetEvent => e.snippet := by
    funext e
    obtain ⟨fault, heq, -⟩ := trimmed_eq bridge limit e
    rw [Function.comp_apply, heq]
  show (([] : List SnippetEvent) ++ (events.map (·.trimmed bridge limit)).filter (·.cause.isNone)).map _ = _
  rw [List.nil_append, List.filter_map, List.map_map, hcause, hsnippet]

theorem numbers_afterUnit {fuel : Nat} {unit : List Char} {w : Workspace} {k' : Kernel} {q : EvaluationResult}
    (h : afterUnit fuel unit w.kernel = (.ok q, k')) : q.Numbers w { w with kernel := k' } := by
  unfold afterUnit at h
  rcases hevaluate : Engine.outcome (Engine.evaluate Host.calls fuel unit) w.kernel.store w.kernel.host with
    ⟨i | events, store, host⟩
  · rw [hevaluate] at h
    cases h
  · rw [hevaluate] at h
    cases h
    obtain ⟨hjudges, hnew⟩ := Engine.judged_evaluate Host.calls fuel unit hevaluate
    -- what a unit has made are the snippets of the events without a cause
    have hmade {id : SnippetId} (hid : id ∈ ({ w.kernel with store, host }.collected events).1.made) :
        ∃ e ∈ events, e.cause = none ∧ e.snippet = id := by
      rw [made_collected] at hid
      obtain ⟨e, he, rfl⟩ := List.mem_map.1 hid
      obtain ⟨he, hcause⟩ := List.mem_filter.1 he
      exact ⟨e, he, Option.isNone_iff_eq_none.1 hcause, rfl⟩
    refine ⟨?_, fun id hid => ?_, fun id hid => ?_⟩
    · dsimp only
      rw [records_collected]
      exact hjudges.length
    · obtain ⟨e, he, hcause, rfl⟩ := hmade hid
      exact (hnew e he hcause).1
    · obtain ⟨e, he, -, rfl⟩ := hmade hid
      dsimp only
      rw [records_collected]
      exact hjudges.there e he

/-- What is made of a text from an offset on is made by its units, one after the other. -/
theorem numbers_evaluateFrom {fuel : Nat} {source : List Char} {start : Nat} {r r' : EvaluationResult}
    {v w w' : Workspace} (hr : r.Numbers v w)
    (h : outcome (evaluateFrom fuel source start r) w = (.ok r', w')) : r'.Numbers v w' := by
  fun_induction evaluateFrom fuel source start r generalizing w with
  | case1 start r hdone =>
    cases h
    exact hr
  | case2 start r rest hincomplete =>
    cases h
    exact ⟨hr.mono, hr.new, hr.there⟩
  | case3 start r unit hunit ih =>
    rw [outcome_bind, outcome_evaluateUnit] at h
    rcases hafter : afterUnit fuel unit.text w.kernel with ⟨e | q, k'⟩
    · rw [hafter] at h
      cases h
    · rw [hafter] at h
      have hq := numbers_afterUnit hafter
      have hmade : (r.followedBy q).made = r.made ++ q.made := List.map_append
      refine ih (r.followedBy q) ⟨hr.mono.trans hq.mono, fun id hid => ?_, fun id hid => ?_⟩ h
      · rw [hmade] at hid
        rcases List.mem_append.1 hid with hid | hid
        · exact hr.new id hid
        · exact Nat.lt_of_le_of_lt hr.mono (hq.new id hid)
      · rw [hmade] at hid
        rcases List.mem_append.1 hid with hid | hid
        · exact (hr.there id hid).trans hq.mono
        · exact hq.there id hid

theorem numbers_evaluate {fuel : Nat} {source : List Char} {r : EvaluationResult} {w w' : Workspace}
    (h : outcome (evaluate fuel source) w = (.ok r, w')) : r.Numbers w w' := by
  rw [outcome_evaluate] at h
  rcases hfrom : outcome (evaluateFrom fuel source 0 {}) { w with evaluations := w.evaluations + 1 } with
    ⟨e | collected, w''⟩
  · rw [hfrom] at h
    cases h
  · rw [hfrom] at h
    have hempty : EvaluationResult.Numbers {} w { w with evaluations := w.evaluations + 1 } :=
      ⟨Nat.le_refl _, nofun, nofun⟩
    have hcollected := numbers_evaluateFrom hempty hfrom
    obtain ⟨value, hanswered⟩ := collected.answered_eq w''.kernel.store
    have hmade : (collected.answered w''.kernel.store).made = collected.made := by
      rw [hanswered]
      rfl
    cases h
    exact ⟨hcollected.mono, hmade ▸ hcollected.new, hmade ▸ hcollected.there⟩

end Kernel

namespace Terminal

/-! ## Cells one after the other -/

/-- Evaluates cells where a session has been left, and tells what came of each. -/
def evaluateCells (fuel : Nat) (w : Workspace) : List Cell → Series (Cell × EvaluationResult)
  | [] => .ok []
  | c :: cs =>
    match Kernel.outcome (Kernel.evaluate fuel c.source) w with
    | (.error e, _) => .error ([], e)
    | (.ok r, w') => Series.cons (c, r) (evaluateCells fuel { w' with evaluations := 0 } cs)

/-- The reports on what came of cells. -/
def reportAll (t : Tracker String) : List (Cell × EvaluationResult) → List CellReport
  | [] => []
  | (c, r) :: rest => ⟨c.name, c.line, (t.record c.name r).1, r⟩ :: reportAll (t.record c.name r).2 rest

theorem reportCells_cons (m : Manager) (session : SessionId) (t : Tracker String) (c : Cell) (cs : List Cell) :
    reportCells m session t (c :: cs) =
      let asked := m.ask session (.evaluate (.ok ()) c.source)
      match asked.1 with
      | .error e => .error ([], e)
      | .ok (.evaluation r) =>
        Series.cons ⟨c.name, c.line, (t.record c.name r).1, r⟩ (reportCells asked.2 session (t.record c.name r).2 cs)
      | .ok _ => reportCells asked.2 session t cs := by
  rw [reportCells]
  rcases m.ask session (.evaluate (.ok ()) c.source) with ⟨e | a, m'⟩
  · rfl
  · cases a <;> rfl

/-- The cells of a session are evaluated where it has been left. There are reports on all of them if and only if
every evaluation ends. -/
theorem reportCells_eq {m : Manager} {session : SessionId} (t : Tracker String) (cs : List Cell) {w : Workspace}
    (hattends : m.Attends session) (hw : (m.settle session).workspace? session = some w)
    (hends : m.enginesStart = true ∨ ∃ reports, reportCells m session t cs = .ok reports) :
    reportCells m session t cs =
      ((evaluateCells m.fuel w cs).map (reportAll t)).mapError (Prod.map (reportAll t) id) := by
  induction cs generalizing m t w with
  | nil => rfl
  | cons c cs ih =>
    have hcons := reportCells_cons m session t c cs
    dsimp only at hcons
    have hstarts : m.Starts session := by
      rcases hends with hengines | ⟨reports, hreports⟩
      · exact fun _ _ _ => hengines
      · -- an engine that does not start evaluates nothing, and there would be no report
        rw [hcons] at hreports
        rcases hask : (m.ask session (.evaluate (.ok ()) c.source)).1 with e | a
        · rw [hask] at hreports
          cases hreports
        · exact Manager.starts_of_ask hattends hask
    obtain ⟨v, hv, hasked⟩ := Manager.ask_evaluate hattends hstarts c.source
    cases hw.symm.trans hv
    rw [evaluateCells]
    rcases houtcome : Kernel.outcome (Kernel.evaluate m.fuel c.source) w with ⟨e | r, w'⟩
    · rw [houtcome] at hasked
      rw [hcons, hasked]
      rfl
    · rw [houtcome] at hasked
      rw [hasked.reply] at hcons
      dsimp only at hcons ⊢
      have hrest := ih hasked.attends hasked.after (t := (t.record c.name r).2) <| by
        rcases hends with hengines | ⟨reports, hreports⟩
        · exact .inl (hasked.enginesStart.trans hengines)
        · rw [hcons] at hreports
          cases hreport : reportCells (m.ask session (.evaluate (.ok ()) c.source)).2 session
            (t.record c.name r).2 cs with
          | error e =>
            rw [hreport] at hreports
            cases hreports
          | ok rest => exact .inr ⟨rest, rfl⟩
      rw [hcons, hrest, hasked.fuel]
      cases evaluateCells m.fuel { w' with evaluations := 0 } cs <;> rfl

/-- Two evaluations of a session do not make the same snippet. -/
theorem pairwise_evaluateCells {fuel : Nat} {cs : List Cell} {w : Workspace}
    {results : List (Cell × EvaluationResult)} (h : evaluateCells fuel w cs = .ok results) :
    results.map (·.1) = cs ∧
      (∀ q ∈ results, ∀ id ∈ q.2.made, w.kernel.store.records.length < id) ∧
      results.Pairwise fun a b => ∀ id ∈ a.2.made, id ∉ b.2.made := by
  induction cs generalizing w results with
  | nil =>
    cases h
    exact ⟨rfl, nofun, .nil⟩
  | cons c cs ih =>
    rw [evaluateCells] at h
    rcases houtcome : Kernel.outcome (Kernel.evaluate fuel c.source) w with ⟨e | r, w'⟩
    · rw [houtcome] at h
      cases h
    · rw [houtcome] at h
      dsimp only at h
      cases hrest : evaluateCells fuel { w' with evaluations := 0 } cs with
      | error e =>
        rw [hrest] at h
        cases h
      | ok rest =>
        rw [hrest] at h
        cases h
        obtain ⟨hcells, hnew, hpairwise⟩ := ih hrest
        have hnumbers := Kernel.numbers_evaluate houtcome
        refine ⟨congrArg (c :: ·) hcells, ?_, List.pairwise_cons.2 ⟨?_, hpairwise⟩⟩
        · rw [List.forall_mem_cons]
          exact ⟨hnumbers.new, fun q hq id hid => Nat.lt_of_le_of_lt hnumbers.mono (hnew q hq id hid)⟩
        · intro q hq id hid hagain
          have hthere : id ≤ w'.kernel.store.records.length := hnumbers.there id hid
          have hlater : w'.kernel.store.records.length < id := hnew q hq id hagain
          exact Nat.lt_irrefl _ (Nat.lt_of_lt_of_le hlater hthere)

/-! ## Reports and what is noted -/

/-- What is noted of a cell that is reported on. -/
def CellReport.note (r : CellReport) : Note String := .evaluated r.name r.result

/-- The evaluation of a cell has touched a snippet that the evaluation of another one has made. -/
def CellReport.Outdates (b a : CellReport) : Prop := ∃ id ∈ b.result.touched, id ∈ a.result.made

theorem map_reportAll (t : Tracker String) (results : List (Cell × EvaluationResult)) :
    (reportAll t results).map (fun r => (r.name, r.line, r.result)) =
      results.map fun q => (q.1.name, q.1.line, q.2) := by
  induction results generalizing t with
  | nil => rfl
  | cons q results ih => rw [reportAll, List.map_cons, List.map_cons, ih]

/-- The cells that a report tells of are those that go stale as it is noted. -/
theorem stale_eq_newly (history : List (Note String)) {results : List (Cell × EvaluationResult)}
    {front back : List CellReport} {b : CellReport}
    (h : reportAll (Tracker.after history) results = front ++ b :: back) :
    b.stale = (Tracker.after (history ++ front.map (·.note))).newly b.note := by
  induction results generalizing history front with
  | nil =>
    rw [reportAll] at h
    exact absurd h (by simp)
  | cons q results ih =>
    rw [reportAll] at h
    cases front with
    | nil =>
      obtain ⟨rfl, -⟩ := List.cons.inj h
      rw [List.map_nil, List.append_nil]
      rfl
    | cons first front =>
      obtain ⟨rfl, hrest⟩ := List.cons.inj h
      have hafter : ((Tracker.after history).record q.1.name q.2).2 =
          Tracker.after (history ++ [.evaluated q.1.name q.2]) := by
        rw [Tracker.after_concat]
        rfl
      rw [hafter] at hrest
      rw [ih _ hrest, List.map_cons, List.append_assoc]
      rfl

/-- What is known of a cell once cells of other names have been evaluated behind it: it owns what it has made,
and it is stale if one of them has touched any of that. -/
structure Stands (t : Tracker String) (a : CellReport) (between : List CellReport) : Prop where
  owns : ∀ id, t.cellOf? id = some a.name ↔ id ∈ a.result.made
  stale : a.name ∈ t.stale ↔ ∃ r ∈ between, r.Outdates a

theorem stands_self (history : List (Note String)) (a : CellReport) :
    Stands (Tracker.after (history ++ [a.note])) a [] := by
  rw [Tracker.after_concat]
  refine ⟨fun id => ?_, ?_⟩
  · show ((Tracker.after history).record a.name a.result).2.cellOf? id = some a.name ↔ _
    rw [Tracker.cellOf?_record (Tracker.owned_after history)]
    split
    · rename_i hmade
      exact iff_of_true rfl hmade
    · rename_i hmade
      refine iff_of_false (fun howner => ?_) hmade
      split at howner
      · cases howner
      · exact absurd howner ‹_›
  · rw [Tracker.mem_stale_noted]
    exact iff_of_false (fun hstale => hstale.1 rfl) (by simp)

namespace Stands

variable {t : Tracker String} {a : CellReport} {between : List CellReport}

theorem outdates_iff (h : Stands t a between) {b : CellReport}
    (hnew : ∀ id ∈ a.result.made, id ∉ b.result.made) : t.Outdates b.result a.name ↔ b.Outdates a := by
  constructor
  · rintro ⟨id, htouched, -, howner⟩
    exact ⟨id, htouched, (h.owns id).1 howner⟩
  · rintro ⟨id, htouched, hmade⟩
    exact ⟨id, htouched, hnew id hmade, (h.owns id).2 hmade⟩

theorem noted (h : Stands t a between) (ht : t.Owned) {r : CellReport} (hname : r.name ≠ a.name)
    (hnew : ∀ id ∈ a.result.made, id ∉ r.result.made) : Stands (t.noted r.note) a (between ++ [r]) := by
  refine ⟨fun id => ?_, ?_⟩
  · show (t.record r.name r.result).2.cellOf? id = some a.name ↔ _
    rw [Tracker.cellOf?_record ht]
    split
    · rename_i hmade
      exact iff_of_false (fun heq => hname (Option.some.inj heq)) fun hid => hnew id hid hmade
    · split
      · rename_i howner
        refine iff_of_false nofun fun hid => ?_
        rw [(h.owns id).2 hid] at howner
        exact hname (Option.some.inj howner).symm
      · exact h.owns id
  · have hbetween : (∃ q ∈ between ++ [r], q.Outdates a) ↔ (∃ q ∈ between, q.Outdates a) ∨ r.Outdates a := by
      simp only [List.mem_append, List.mem_singleton, or_and_right, exists_or, exists_eq_left]
    rw [Tracker.mem_stale_noted, hbetween, h.stale, ← h.outdates_iff hnew]
    constructor
    · rintro ⟨-, hbefore | ⟨_, _, hnote, houtdates⟩⟩
      · exact .inl hbefore
      · cases hnote
        exact .inr houtdates
    · rintro (hbefore | houtdates)
      · exact ⟨hname, .inl hbefore⟩
      · exact ⟨hname, .inr ⟨r.name, r.result, rfl, houtdates⟩⟩

/-- A report names the cell if it is the first to touch any of what the cell has made. -/
theorem mem_newly_iff (h : Stands t a between) {b : CellReport} (hname : b.name ≠ a.name)
    (hnew : ∀ id ∈ a.result.made, id ∉ b.result.made) :
    a.name ∈ t.newly b.note ↔ b.Outdates a ∧ ∀ r ∈ between, ¬ r.Outdates a := by
  unfold CellReport.note
  rw [Tracker.mem_newly_evaluated, h.stale, h.outdates_iff hnew]
  constructor
  · rintro ⟨-, hbefore, houtdates⟩
    exact ⟨houtdates, fun r hr hor => hbefore ⟨r, hr, hor⟩⟩
  · rintro ⟨houtdates, hbefore⟩
    exact ⟨hname.symm, fun ⟨r, hr, hor⟩ => hbefore r hr hor, houtdates⟩

end Stands

theorem stands_after (history : List (Note String)) {a : CellReport} {between : List CellReport}
    (hnames : ∀ r ∈ between, r.name ≠ a.name)
    (hnew : ∀ r ∈ between, ∀ id ∈ a.result.made, id ∉ r.result.made) :
    Stands (Tracker.after (history ++ a.note :: between.map (·.note))) a between := by
  induction between using List.reverseRecOn with
  | nil => exact stands_self history a
  | append_singleton between r ih =>
    rw [List.forall_mem_append, List.forall_mem_singleton] at hnames hnew
    rw [List.map_append, List.map_singleton, ← List.cons_append, ← List.append_assoc, Tracker.after_concat]
    exact (ih hnames.1 hnew.1).noted (Tracker.owned_after _) hnames.2 hnew.2

/-! ## Sheets of two cells -/

/-- What a report says of staleness. -/
structure Outline where
  name : String
  stale : List String
  made : List SnippetId
  touched : List SnippetId
  deriving DecidableEq

def CellReport.outline (r : CellReport) : Outline := ⟨r.name, r.stale, r.result.made, r.result.touched⟩

/-- A sheet of two cells that is run in the first session of a manager without capabilities. -/
theorem exists_reports (sheet : List Char) (first second : Outline)
    (h : (evaluateCells 20 Kernel.emptyWorkspace (cells sheet)).toOption.map
      (fun results => (reportAll {} results).map (·.outline)) = some [first, second]) :
    ∃ a b, runCells { catalog := [], fuel := 20 } (cells sheet) = .ok [a, b] ∧
      a.outline = first ∧ b.outline = second := by
  have hrun := reportCells_eq {} (cells sheet)
    (Manager.attends_create { catalog := [], fuel := 20 }) (Manager.workspace?_first 20) (.inl rfl)
  have hfuel : (Manager.create { catalog := [], fuel := 20 }).2.fuel = 20 := rfl
  rw [hfuel] at hrun
  obtain ⟨results, hresults, houtlines⟩ := Option.map_eq_some_iff.1 h
  obtain ⟨a, rest, hreports, ha, hrest⟩ := List.map_eq_cons_iff.1 houtlines
  obtain ⟨b, rest, rfl, hb, hnil⟩ := List.map_eq_cons_iff.1 hrest
  obtain rfl := List.map_eq_nil_iff.1 hnil
  refine ⟨a, b, ?_, ha, hb⟩
  cases hevaluated : evaluateCells 20 Kernel.emptyWorkspace (cells sheet) with
  | error e =>
    rw [hevaluated] at hresults
    cases hresults
  | ok found =>
    rw [hevaluated] at hresults hrun
    cases hresults
    rw [← hreports]
    exact hrun

/-! ## A run -/

/-- The reports of a run are on its cells in order, and no two of them tell that the same snippet was made. Each
names the cells that have gone stale as it was noted. -/
theorem of_runCells {m : Manager} {cs : List Cell} {reports : List CellReport} (h : runCells m cs = .ok reports) :
    reports.map (fun r => (r.name, r.line)) = cs.map (fun c => (c.name, c.line)) ∧
      (reports.Pairwise fun a b => ∀ id ∈ a.result.made, id ∉ b.result.made) ∧
      ∀ front b back, reports = front ++ b :: back →
        b.stale = (Tracker.after (front.map (·.note))).newly b.note := by
  obtain ⟨w, hw⟩ := m.attends_create.exists_workspace
  have heq := reportCells_eq {} cs m.attends_create hw (.inr ⟨reports, h⟩)
  unfold runCells at h
  dsimp only at h
  rw [heq] at h
  cases hresults : evaluateCells m.create.2.fuel w cs with
  | error e =>
    rw [hresults] at h
    cases h
  | ok results =>
    rw [hresults] at h
    obtain rfl : reportAll {} results = reports := Except.ok.inj h
    obtain ⟨hcells, -, hpairwise⟩ := pairwise_evaluateCells hresults
    have hmap := map_reportAll {} results
    refine ⟨?_, ?_, fun front b back hsplit => ?_⟩
    · have hnames := congrArg (List.map fun q : String × Nat × EvaluationResult => (q.1, q.2.1)) hmap
      rw [List.map_map, List.map_map] at hnames
      rw [← hcells, List.map_map]
      exact hnames
    · have hmade := congrArg (List.map fun q : String × Nat × EvaluationResult => q.2.2) hmap
      rw [List.map_map, List.map_map] at hmade
      have hdistinct : (results.map (·.2)).Pairwise fun q r => ∀ id ∈ q.made, id ∉ r.made :=
        List.pairwise_map.2 hpairwise
      have hsame : (reportAll {} results).map (·.result) = results.map (·.2) := hmade
      rw [← hsame] at hdistinct
      exact List.pairwise_map.1 hdistinct
    · exact stale_eq_newly [] hsplit

theorem notMem_made_of_pairwise {first between later : List CellReport} {a b : CellReport}
    (h : (first ++ a :: between ++ b :: later).Pairwise fun a b => ∀ id ∈ a.result.made, id ∉ b.result.made) :
    ∀ r ∈ between ++ [b], ∀ id ∈ a.result.made, id ∉ r.result.made := by
  rw [List.append_assoc, List.cons_append] at h
  obtain ⟨-, hback, -⟩ := List.pairwise_append.1 h
  obtain ⟨hnew, -⟩ := List.pairwise_cons.1 hback
  intro r hr
  apply hnew
  rcases List.mem_append.1 hr with hr | hr
  · exact List.mem_append_left _ hr
  · rw [List.mem_singleton.1 hr]
    exact List.mem_append_right _ List.mem_cons_self

/-- Whatever cells are run, the reports are on them in order. If no cell behind one, up to a later one, has the
name of that one, the report on the later cell names it exactly if the evaluation of the later cell has touched a
snippet that its evaluation has made, and that of no cell between has. No report names anything else: a name in
it, of which there is one, is that of an earlier cell, the last one of the name, with a snippet that has been
touched. If engines can be made, there are reports if and only if every evaluation ends. -/
theorem stale_cells_are_named (m : Manager) (cs : List Cell) :
    (∀ reports, runCells m cs = .ok reports →
      reports.map (fun r => (r.name, r.line)) = cs.map (fun c => (c.name, c.line)) ∧
      (∀ first a between b later, reports = first ++ a :: between ++ b :: later →
        (∀ r ∈ between ++ [b], r.name ≠ a.name) →
          (a.name ∈ b.stale ↔ b.Outdates a ∧ ∀ r ∈ between, ¬ r.Outdates a)) ∧
      ∀ front b later, reports = front ++ b :: later → b.stale.Nodup ∧
        ∀ name ∈ b.stale, ∃ first a between, front = first ++ a :: between ∧ a.name = name ∧
          (∀ r ∈ between ++ [b], r.name ≠ name) ∧ b.Outdates a) ∧
    (m.enginesStart = true → ∃ w, (m.create.2.settle m.create.1).workspace? m.create.1 = some w ∧
      ((∃ reports, runCells m cs = .ok reports) ↔ ∃ results, evaluateCells m.fuel w cs = .ok results)) := by
  refine ⟨fun reports h => ?_, fun hengines => ?_⟩
  · obtain ⟨hcells, hpairwise, hstale⟩ := of_runCells h
    have hnamed : ∀ first a between b later, reports = first ++ a :: between ++ b :: later →
        (∀ r ∈ between ++ [b], r.name ≠ a.name) →
          (a.name ∈ b.stale ↔ b.Outdates a ∧ ∀ r ∈ between, ¬ r.Outdates a) := by
      intro first a between b later hsplit hnames
      have hnew : ∀ r ∈ between ++ [b], ∀ id ∈ a.result.made, id ∉ r.result.made :=
        notMem_made_of_pairwise (hsplit ▸ hpairwise)
      rw [List.forall_mem_append, List.forall_mem_singleton] at hnames hnew
      have hstands := stands_after (first.map (·.note)) hnames.1 hnew.1
      rw [hstale (first ++ a :: between) b later hsplit, List.map_append, List.map_cons]
      exact hstands.mem_newly_iff hnames.2 hnew.2
    refine ⟨hcells, hnamed, fun front b later hsplit => ⟨?_, fun name hname => ?_⟩⟩
    · rw [hstale front b later hsplit]
      exact Tracker.nodup_newly _ _
    · have hnewly := hname
      rw [hstale front b later hsplit] at hnewly
      obtain ⟨hne, -, id, -, -, howner⟩ := (Tracker.mem_newly_evaluated _ _ _ _).1 hnewly
      -- the snippet belongs to the last cell of the name
      obtain ⟨before, r, rest, hnotes, hrest⟩ := Tracker.exists_evaluated_of_cellOf? howner
      obtain ⟨first, back, rfl, -, hback⟩ := List.map_eq_append_iff.1 hnotes
      obtain ⟨a, between, rfl, hnote, rfl⟩ := List.map_eq_cons_iff.1 hback
      obtain rfl : a.name = name := congrArg Note.cell hnote
      have hnames : ∀ r ∈ between ++ [b], r.name ≠ a.name := by
        rw [List.forall_mem_append, List.forall_mem_singleton]
        exact ⟨fun r hr => hrest r.note (List.mem_map_of_mem hr), hne.symm⟩
      exact ⟨first, a, between, rfl, rfl, hnames, ((hnamed first a between b later hsplit hnames).1 hname).1⟩
  · obtain ⟨w, hw⟩ := m.attends_create.exists_workspace
    have heq := reportCells_eq {} cs m.attends_create hw (.inl hengines)
    refine ⟨w, hw, ?_⟩
    unfold runCells
    dsimp only
    rw [heq]
    cases hresults : evaluateCells m.create.2.fuel w cs with
    | error e => exact iff_of_false nofun fun ⟨_, hok⟩ => by cases hok.symm.trans hresults
    | ok results => exact iff_of_true ⟨_, rfl⟩ ⟨results, hresults⟩

/-- Two cells, of which the second one defines what the first one has defined. -/
def replacingSheet : List Char := "// %% first\nlet x = 1;\n// %% second\nlet x = 2;\n".toList

/-- The report on the second cell names the first one. -/
theorem replacingSheet_names_first :
    ∃ a b, runCells { catalog := [], fuel := 20 } (cells replacingSheet) = .ok [a, b] ∧
      (∀ r ∈ [b], r.name ≠ a.name) ∧ b.Outdates a ∧ a.name ∈ b.stale := by
  obtain ⟨a, b, hrun, ha, hb⟩ := exists_reports replacingSheet ⟨"first", [], [1], []⟩
    ⟨"second", ["first"], [2], [1]⟩ (by decide +kernel)
  have hnames : ∀ r ∈ [b], r.name ≠ a.name := by
    have hfirst : a.name = "first" := congrArg Outline.name ha
    have hsecond : b.name = "second" := congrArg Outline.name hb
    rw [List.forall_mem_singleton, hfirst, hsecond]
    decide
  have houtdates : b.Outdates a := by
    have hmade : a.result.made = [1] := congrArg Outline.made ha
    have htouched : b.result.touched = [1] := congrArg Outline.touched hb
    exact ⟨1, htouched ▸ List.mem_cons_self, hmade ▸ List.mem_cons_self⟩
  obtain ⟨hreports, -⟩ := stale_cells_are_named { catalog := [], fuel := 20 } (cells replacingSheet)
  obtain ⟨-, hnamed, -⟩ := hreports [a, b] hrun
  exact ⟨a, b, hrun, hnames, houtdates, (hnamed [] a [] b [] rfl hnames).2 ⟨houtdates, nofun⟩⟩

/-- Two cells of one name, of which the second one defines what the first one has defined. -/
def twinSheet : List Char := "// %% a\nlet x = 1;\n// %% a\nlet x = 2;\n".toList

/-- The second cell overwrites what the first one has made, and its report does not say so. -/
theorem twins_are_not_named :
    ∃ a b, runCells { catalog := [], fuel := 20 } (cells twinSheet) = .ok [a, b] ∧
      b.Outdates a ∧ a.name ∉ b.stale := by
  obtain ⟨a, b, hrun, ha, hb⟩ := exists_reports twinSheet ⟨"a", [], [1], []⟩ ⟨"a", [], [2], [1]⟩
    (by decide +kernel)
  have hmade : a.result.made = [1] := congrArg Outline.made ha
  have htouched : b.result.touched = [1] := congrArg Outline.touched hb
  have hstale : b.stale = [] := congrArg Outline.stale hb
  refine ⟨a, b, hrun, ⟨1, ?_, ?_⟩, ?_⟩
  · rw [htouched]
    exact List.mem_cons_self
  · rw [hmade]
    exact List.mem_cons_self
  · rw [hstale]
    exact List.not_mem_nil

end Terminal

end Notebook

import Mathlib.Data.List.Induction
import Notebook.Proofs.Guest.Inherited
import Notebook.Proofs.Session.Opening

/-!
# Whose output is shown

What is printed and what is to be shown is kept aside until the unit that is running has come to its end,
and then it is taken.  A unit that is broken off leaves it behind, and the next unit that comes to its end
takes it along: it is shown in front of what that unit has printed itself, and changes nothing else
(`output_is_own`).
-/

namespace Notebook
open Notebook.Text Notebook.Guest Notebook.Capability

/-- What was printed and not taken, and what is to be shown and has not been shown. -/
structure Pending where
  printed : List Char := []
  shown : List DisplayOutput := []
  deriving DecidableEq

/-- What is pending from before, and then what is pending since. -/
def Pending.append (p q : Pending) : Pending := ⟨p.printed ++ q.printed, p.shown ++ q.shown⟩

/-- A result that shows what was pending from before in front of its own output. -/
def EvaluationResult.behind (p : Pending) (r : EvaluationResult) : EvaluationResult :=
  { r with displays := p.shown ++ r.displays, stdout := p.printed ++ r.stdout }

/-- The work was broken off, because the host failed or the fuel ran out. -/
def Failure.breaksOff : Failure → Bool
  | .kernelFault _ | .unfinished => true
  | _ => false

/-- The demand is for something else than to show something. -/
def Capability.Demand.isSilent (d : Demand) : Bool := (Demand.output? d).isNone

namespace Kernel

/-- What is pending in a session. -/
def pending (k : Kernel) : Pending := ⟨k.store.output, k.host.demands.filterMap Demand.output?⟩

/-- The kernel with nothing pending. -/
def hushed (k : Kernel) : Kernel :=
  { k with
    store := k.store.takeOutput.2
    host := { k.host with demands := k.host.demands.filter Demand.isSilent } }

end Kernel

/-! ## Hosts -/

/-- The second host is the first one, but that demands were left in it before. Those that are not for
something to be shown are in both of them. -/
def Capability.Host.Inherits (left : List Demand) (h h' : Host) : Prop :=
  ∃ new, h.demands = left.filter Demand.isSilent ++ new ∧ h' = { h with demands := left ++ new }

theorem Capability.Host.Inherits.demand {left : List Demand} {h h' : Host} (hinherits : h.Inherits left h')
    (ds : List Demand) : (h.demand ds).Inherits left (h'.demand ds) := by
  obtain ⟨new, hdemands, rfl⟩ := hinherits
  refine ⟨new ++ ds, ?_, ?_⟩
  · unfold Host.demand
    rw [hdemands, List.append_assoc]
  · unfold Host.demand
    rw [List.append_assoc]

/-- Instances do not look at the demands that are left. -/
theorem Capability.Host.respects_calls (left : List Demand) :
    Host.calls.Respects (Host.Inherits left) := by
  intro object method args h h' hinherits
  have hinherits' := hinherits
  obtain ⟨new, hdemands, rfl⟩ := hinherits'
  change (call object method args { h with demands := left ++ new }).1 = (call object method args h).1 ∧
    Host.Inherits left (call object method args h).2 (call object method args { h with demands := left ++ new }).2
  unfold call
  dsimp only
  cases h.services[object.identity]? with
  | none => exact ⟨rfl, hinherits⟩
  | some service =>
    cases service with
    | display renderers =>
      dsimp only
      cases Showing.output renderers method args with
      | ok output => exact ⟨rfl, hinherits.demand [.display output]⟩
      | error message => exact ⟨rfl, hinherits⟩
    | dependencies resolve =>
      have hadded : addedBy { h with demands := left ++ new } object.identity = h.addedBy object.identity := rfl
      dsimp only
      rw [hadded]
      cases Adding.answer resolve (h.addedBy object.identity) method args with
      | ok answer =>
        refine ⟨rfl, Host.Inherits.demand ?_ _⟩
        exact ⟨new, hdemands, rfl⟩
      | error message => exact ⟨rfl, hinherits⟩
    | custom answer => exact ⟨rfl, hinherits⟩

/-! ## Demands -/

theorem meetDemand_inheriting (s : Store) (text : List Char) (d : Demand) :
    meetDemand (s.inheriting text) d = (meetDemand s d).inheriting text := by
  cases d with
  | display output => rfl
  | library path =>
    unfold meetDemand Store.addLibrary
    dsimp only
    split <;> rfl

theorem foldl_meetDemand_inheriting (s : Store) (text : List Char) (demands : List Demand) :
    demands.foldl meetDemand (s.inheriting text) = (demands.foldl meetDemand s).inheriting text := by
  induction demands generalizing s with
  | nil => rfl
  | cons d demands ih =>
    rw [List.foldl_cons, List.foldl_cons, meetDemand_inheriting]
    exact ih _

/-- Demands for something to be shown are nothing to the store. -/
theorem foldl_meetDemand_silent (s : Store) (demands : List Demand) :
    (demands.filter Demand.isSilent).foldl meetDemand s = demands.foldl meetDemand s := by
  induction demands generalizing s with
  | nil => rfl
  | cons d demands ih =>
    cases d with
    | display output =>
      rw [List.filter_cons_of_neg Bool.false_ne_true, ih]
      rfl
    | library path =>
      rw [List.filter_cons_of_pos rfl]
      exact ih _

theorem filterMap_silent (demands : List Demand) :
    (demands.filter Demand.isSilent).filterMap Demand.output? = [] := by
  rw [List.filterMap_eq_nil_iff]
  intro d hd
  exact Option.isNone_iff_eq_none.1 (List.mem_filter.1 hd).2

/-! ## One unit -/

section

variable (text : List Char) (left : List Demand)

/-- The output that is pending if a text was printed and demands were left. -/
def pendingOf : Pending := ⟨text, left.filterMap Demand.output?⟩

/-- The second kernel is the first one, but that a text was printed before and demands were left. -/
def Kernel.Inherits (k k' : Kernel) : Prop :=
  ∃ host, k.host.Inherits left host ∧ k' = { k with store := k.store.inheriting text, host }

namespace Kernel

variable {text left}

theorem Inherits.collected {k k' : Kernel} (h : k.Inherits text left k') (events : List SnippetEvent) :
    k'.collected events =
      ((k.collected events).1.behind (pendingOf text left), (k.collected events).2) := by
  obtain ⟨_, ⟨new, hdemands, rfl⟩, rfl⟩ := h
  have hmet : (left ++ new).foldl meetDemand (k.store.inheriting text) =
      (k.host.demands.foldl meetDemand k.store).inheriting text := by
    rw [foldl_meetDemand_inheriting, hdemands, List.foldl_append, List.foldl_append, foldl_meetDemand_silent]
  have hshown : (left ++ new).filterMap Demand.output? =
      left.filterMap Demand.output? ++ k.host.demands.filterMap Demand.output? := by
    rw [hdemands, List.filterMap_append, List.filterMap_append, filterMap_silent, List.nil_append]
  unfold Kernel.collected
  dsimp only
  rw [hmet, hshown]
  rfl

/-- A unit that comes to its end shows what was pending in front of its own output, and nothing is pending
any more.  One that is broken off takes nothing. -/
theorem Inherits.afterUnit {k k' : Kernel} (h : k.Inherits text left k') (fuel : Nat) (unit : List Char) :
    (∃ q k₁, afterUnit fuel unit k = (.ok q, k₁) ∧
        afterUnit fuel unit k' = (.ok (q.behind (pendingOf text left)), k₁)) ∨
      ∃ e k₁ k₁', afterUnit fuel unit k = (.error e, k₁) ∧ afterUnit fuel unit k' = (.error e, k₁') ∧
        k₁.Inherits text left k₁' := by
  obtain ⟨host, hhost, rfl⟩ := h
  have hsame : Engine.Same text (Host.Inherits left) _ _ :=
    Engine.ignores_evaluate (Host.respects_calls left) fuel unit k.store k.host host hhost
  unfold Kernel.afterUnit
  dsimp only
  rcases hrun : Engine.outcome (Engine.evaluate Host.calls fuel unit) k.store k.host with
    ⟨result, store, host₁⟩
  rcases hrun' : Engine.outcome (Engine.evaluate Host.calls fuel unit) (k.store.inheriting text) host with
    ⟨result', store', host₁'⟩
  rw [hrun, hrun'] at hsame
  obtain ⟨hresult, hstore, hlike⟩ := hsame
  dsimp only at hresult hstore hlike
  subst hresult hstore
  have hleft : Kernel.Inherits text left { k with store, host := host₁ }
      { k with store := store.inheriting text, host := host₁' } := ⟨host₁', hlike, rfl⟩
  cases result' with
  | ok events =>
    have hcollected := hleft.collected events
    refine .inl ⟨_, _, rfl, ?_⟩
    dsimp only
    rw [hcollected]
  | error i => exact .inr ⟨_, _, _, rfl, rfl, hleft⟩

/-- Once a unit has come to its end, nothing is pending. -/
theorem pending_afterUnit {fuel : Nat} {unit : List Char} {k k₁ : Kernel} {q : EvaluationResult}
    (h : afterUnit fuel unit k = (.ok q, k₁)) : k₁.pending = {} := by
  unfold Kernel.afterUnit at h
  rcases hrun : Engine.outcome (Engine.evaluate Host.calls fuel unit) k.store k.host with
    ⟨i | events, store, host⟩ <;> rw [hrun] at h
  · cases h
  · cases h
    rfl

theorem breaksOff_afterUnit {fuel : Nat} {unit : List Char} {k k₁ : Kernel} {e : Failure}
    (h : afterUnit fuel unit k = (.error e, k₁)) : e.breaksOff = true := by
  unfold Kernel.afterUnit at h
  rcases hrun : Engine.outcome (Engine.evaluate Host.calls fuel unit) k.store k.host with
    ⟨i | events, store, host⟩ <;> rw [hrun] at h
  · cases h
    cases i <;> rfl
  · cases h

end Kernel

/-! ## Work on a session -/

namespace Workspace

/-- What is pending in the session. -/
def pending (w : Workspace) : Pending := w.kernel.pending

/-- The workspace with nothing pending in the session. -/
def hushed (w : Workspace) : Workspace := { w with kernel := w.kernel.hushed }

/-- The second workspace is the first one, but that a text was printed before and demands were left. -/
def Inherits (w w' : Workspace) : Prop :=
  ∃ kernel, w.kernel.Inherits text left kernel ∧ w' = { w with kernel }

theorem inherits_hushed (w : Workspace) :
    w.hushed.Inherits w.kernel.store.output w.kernel.host.demands w := by
  refine ⟨w.kernel, ⟨w.kernel.host, ⟨[], (List.append_nil _).symm, ?_⟩, ?_⟩, rfl⟩
  · rw [List.append_nil]
    rfl
  · unfold hushed Kernel.hushed Store.inheriting Store.takeOutput
    dsimp only
    rw [List.append_nil]
    rfl

variable {text left} {w w' : Workspace}

theorem Inherits.pending (h : w.Inherits text left w') :
    w'.pending = (pendingOf text left).append w.pending := by
  obtain ⟨_, ⟨_, ⟨new, hdemands, rfl⟩, rfl⟩, rfl⟩ := h
  have hshown : (left ++ new).filterMap Demand.output? =
      left.filterMap Demand.output? ++ w.kernel.host.demands.filterMap Demand.output? := by
    rw [hdemands, List.filterMap_append, List.filterMap_append, filterMap_silent, List.nil_append]
  exact congrArg (Pending.mk _) hshown

theorem Inherits.hushed (h : w.Inherits text left w') : w'.hushed = w.hushed := by
  obtain ⟨_, ⟨_, ⟨new, hdemands, rfl⟩, rfl⟩, rfl⟩ := h
  have hsilent : (left ++ new).filter Demand.isSilent = w.kernel.host.demands.filter Demand.isSilent := by
    rw [hdemands, List.filter_append, List.filter_append, List.filter_filter]
    simp only [Bool.and_self]
  unfold Workspace.hushed Kernel.hushed Store.inheriting Store.takeOutput
  dsimp only
  rw [hsilent]
  rfl

end Workspace

end

namespace Kernel

variable {α β : Type}

/-- Work that does the same whatever is pending, and takes nothing of it and leaves nothing. -/
structure Passes (t : Task α) : Prop where
  same : ∀ text left w w', w.Inherits text left w' →
    (outcome t w').1 = (outcome t w).1 ∧ (outcome t w).2.Inherits text left (outcome t w').2
  quiet : ∀ w, w.pending = {} → (outcome t w).2.pending = {}

/-- Work that does the same whatever is pending, and takes either nothing of it or all of it; how that shows
in its result is told by `f`. It leaves nothing unless it is broken off. -/
structure Takes (f : Pending → α → α) (t : Task α) : Prop where
  same : ∀ text left w w', w.Inherits text left w' →
    (outcome t w').1 = (outcome t w).1 ∧ (outcome t w).2.Inherits text left (outcome t w').2 ∨
      (outcome t w').1 = (outcome t w).1.map (f (pendingOf text left)) ∧ (outcome t w').2 = (outcome t w).2
  quiet : ∀ w, w.pending = {} →
    (outcome t w).2.pending = {} ∨ ∃ e, (outcome t w).1 = .error e ∧ e.breaksOff = true

theorem Passes.takes {t : Task α} (h : Passes t) (f : Pending → α → α) : Takes f t where
  same text left w w' hw := .inl (h.same text left w w' hw)
  quiet w hw := .inl (h.quiet w hw)

theorem passes_pure (a : α) : Passes (pure a : Task α) := ⟨fun _ _ _ _ h => ⟨rfl, h⟩, fun _ h => h⟩

theorem passes_throw (e : Failure) : Passes (throw e : Task α) := ⟨fun _ _ _ _ h => ⟨rfl, h⟩, fun _ h => h⟩

/-- Work that takes nothing, and then work that may take something. -/
theorem Passes.bind_takes {t : Task α} {g : α → Task β} {f : Pending → β → β} (ht : Passes t)
    (hg : ∀ a, Takes f (g a)) : Takes f (t >>= g) := by
  constructor
  · intro text left w w' h
    obtain ⟨hresult, hafter⟩ := ht.same text left w w' h
    rw [outcome_bind, outcome_bind]
    rcases hrun : outcome t w with ⟨e | a, w₁⟩ <;> rcases hrun' : outcome t w' with ⟨result', w₁'⟩ <;>
      rw [hrun, hrun'] at hresult hafter <;> dsimp only at hresult hafter <;> subst hresult
    · exact .inl ⟨rfl, hafter⟩
    · exact (hg a).same text left w₁ w₁' hafter
  · intro w h
    have hafter := ht.quiet w h
    rw [outcome_bind]
    rcases hrun : outcome t w with ⟨e | a, w₁⟩ <;> rw [hrun] at hafter
    · exact .inl hafter
    · exact (hg a).quiet w₁ hafter

/-- Work that may take something, and then work that takes nothing and does the same with what was taken. -/
theorem Takes.bind_passes {t : Task α} {g : α → Task β} {f : Pending → α → α} {f' : Pending → β → β}
    (ht : Takes f t) (hg : ∀ a, Passes (g a))
    (hsame : ∀ p a w, outcome (g (f p a)) w = ((outcome (g a) w).1.map (f' p), (outcome (g a) w).2)) :
    Takes f' (t >>= g) := by
  constructor
  · intro text left w w' h
    rw [outcome_bind, outcome_bind]
    rcases ht.same text left w w' h with ⟨hresult, hafter⟩ | ⟨hresult, hafter⟩
    · rcases hrun : outcome t w with ⟨e | a, w₁⟩ <;> rcases hrun' : outcome t w' with ⟨result', w₁'⟩ <;>
        rw [hrun, hrun'] at hresult hafter <;> dsimp only at hresult hafter <;> subst hresult
      · exact .inl ⟨rfl, hafter⟩
      · exact .inl ((hg a).same text left w₁ w₁' hafter)
    · rcases hrun : outcome t w with ⟨e | a, w₁⟩ <;> rcases hrun' : outcome t w' with ⟨result', w₁'⟩ <;>
        rw [hrun, hrun'] at hresult hafter <;> dsimp only [Except.map] at hresult hafter <;>
        subst hresult hafter
      · exact .inr ⟨rfl, rfl⟩
      · dsimp only
        rw [hsame]
        exact .inr ⟨rfl, rfl⟩
  · intro w h
    rw [outcome_bind]
    rcases hrun : outcome t w with ⟨e | a, w₁⟩
    · have hafter := ht.quiet w h
      rw [hrun] at hafter
      rcases hafter with hafter | ⟨e', he, hbreaks⟩
      · exact .inl hafter
      · cases he
        exact .inr ⟨e, rfl, hbreaks⟩
    · have hafter := ht.quiet w h
      rw [hrun] at hafter
      rcases hafter with hafter | ⟨e', he, -⟩
      · exact .inl ((hg a).quiet w₁ hafter)
      · cases he

/-! ## Evaluating a text -/

/-- What was collected before is put in front of what a text comes to. -/
theorem evaluateFrom_behind (fuel : Nat) (source : List Char) (start : Nat) (p : Pending)
    (r : EvaluationResult) (w : Workspace) :
    outcome (evaluateFrom fuel source start (r.behind p)) w =
      ((outcome (evaluateFrom fuel source start r) w).1.map (·.behind p),
        (outcome (evaluateFrom fuel source start r) w).2) := by
  cases hnext : Segment.next Scan.completeness source start with
  | done =>
    rw [evaluateFrom_done hnext, evaluateFrom_done hnext]
    rfl
  | incomplete rest =>
    rw [evaluateFrom_incomplete hnext, evaluateFrom_incomplete hnext]
    rfl
  | unit u =>
    have hstop := Segment.lt_stop_of_next hnext
    have hbehind (q : EvaluationResult) : (r.behind p).followedBy q = (r.followedBy q).behind p := by
      unfold EvaluationResult.followedBy EvaluationResult.behind
      dsimp only
      rw [List.append_assoc, List.append_assoc]
    rw [evaluateFrom_unit hnext, evaluateFrom_unit hnext, outcome_bind, outcome_bind, outcome_evaluateUnit,
      outcome_evaluateUnit]
    rcases afterUnit fuel u.text w.kernel with ⟨e | q, kernel⟩
    · rfl
    · dsimp only
      rw [hbehind]
      exact evaluateFrom_behind fuel source u.stop p (r.followedBy q) { w with kernel }
termination_by width source - start
decreasing_by omega

/-- Nothing is pending once a unit of a text has come to its end, unless a later one is broken off. -/
theorem quiet_evaluateFrom (fuel : Nat) (source : List Char) (start : Nat) (r : EvaluationResult)
    {w : Workspace} (h : w.pending = {}) :
    (outcome (evaluateFrom fuel source start r) w).2.pending = {} ∨
      ∃ e, (outcome (evaluateFrom fuel source start r) w).1 = .error e ∧ e.breaksOff = true := by
  cases hnext : Segment.next Scan.completeness source start with
  | done =>
    rw [evaluateFrom_done hnext]
    exact .inl h
  | incomplete rest =>
    rw [evaluateFrom_incomplete hnext]
    exact .inl h
  | unit u =>
    have hstop := Segment.lt_stop_of_next hnext
    rw [evaluateFrom_unit hnext, outcome_bind, outcome_evaluateUnit]
    rcases hafter : afterUnit fuel u.text w.kernel with ⟨e | q, kernel⟩
    · exact .inr ⟨e, rfl, breaksOff_afterUnit hafter⟩
    · exact quiet_evaluateFrom fuel source u.stop (r.followedBy q) (pending_afterUnit hafter)
termination_by width source - start
decreasing_by omega

/-- What is pending is shown with the first unit that comes to its end. -/
theorem takes_evaluateFrom (fuel : Nat) (source : List Char) (start : Nat) :
    Takes (fun p r => r.behind p) (evaluateFrom fuel source start {}) := by
  refine ⟨fun text left w w' h => ?_, fun w h => quiet_evaluateFrom fuel source start {} h⟩
  cases hnext : Segment.next Scan.completeness source start with
  | done =>
    rw [evaluateFrom_done hnext]
    exact .inl ⟨rfl, h⟩
  | incomplete rest =>
    rw [evaluateFrom_incomplete hnext]
    exact .inl ⟨rfl, h⟩
  | unit u =>
    obtain ⟨kernel, hkernel, rfl⟩ := h
    rw [evaluateFrom_unit hnext, outcome_bind, outcome_bind, outcome_evaluateUnit, outcome_evaluateUnit]
    rcases hkernel.afterUnit fuel u.text with ⟨q, k, hrun, hrun'⟩ | ⟨e, k, k', hrun, hrun', hafter⟩
    · dsimp only
      rw [hrun, hrun']
      -- from here on the two are the same, but for what has been collected
      exact .inr (Prod.ext_iff.1 (evaluateFrom_behind fuel source u.stop (pendingOf text left)
        (({} : EvaluationResult).followedBy q) { w with kernel := k }))
    · dsimp only
      rw [hrun, hrun']
      exact .inl ⟨rfl, k', hafter, rfl⟩

theorem answered_behind (p : Pending) (r : EvaluationResult) (s : Store) :
    (r.behind p).answered s = (r.answered s).behind p := by
  have htrailing : (r.behind p).classify.trailingExpression? = r.classify.trailingExpression? := rfl
  unfold EvaluationResult.answered
  rw [htrailing]
  cases r.classify.trailingExpression? with
  | none => rfl
  | some id => rfl

theorem answered_inheriting (r : EvaluationResult) (s : Store) (text : List Char) :
    r.answered (s.inheriting text) = r.answered s := by
  unfold EvaluationResult.answered
  cases r.classify.trailingExpression? with
  | none => rfl
  | some id => rfl

theorem takes_evaluate (fuel : Nat) (source : List Char) :
    Takes (fun p r => r.behind p) (evaluate fuel source) := by
  have hfrom := takes_evaluateFrom fuel source 0
  constructor
  · intro text left w w' h
    rw [outcome_evaluate, outcome_evaluate]
    have hbegun : Workspace.Inherits text left { w with evaluations := w.evaluations + 1 }
        { w' with evaluations := w'.evaluations + 1 } := by
      obtain ⟨kernel, hkernel, rfl⟩ := h
      exact ⟨kernel, hkernel, rfl⟩
    have hsame := hfrom.same text left _ _ hbegun
    unfold answer
    dsimp only
    rcases hsame with ⟨hresult, hafter⟩ | ⟨hresult, hafter⟩
    · refine .inl ⟨?_, hafter⟩
      obtain ⟨_, ⟨_, -, rfl⟩, hafter⟩ := hafter
      rw [hresult, hafter]
      simp only [answered_inheriting]
    · refine .inr ⟨?_, hafter⟩
      rw [hresult, hafter]
      cases (outcome (evaluateFrom fuel source 0 {}) { w with evaluations := w.evaluations + 1 }).1 with
      | error e => rfl
      | ok r => exact congrArg Except.ok (answered_behind _ r _)
  · intro w h
    rw [outcome_evaluate]
    unfold answer
    dsimp only
    rcases hfrom.quiet { w with evaluations := w.evaluations + 1 } h with hafter | ⟨e, he, hbreaks⟩
    · exact .inl hafter
    · refine .inr ⟨e, ?_, hbreaks⟩
      rw [he]
      rfl

/-! ## The jobs of a worker -/

/-- Work that looks at the workspace first, but not at what is pending. -/
theorem takes_get_bind {g : Workspace → Task β} {f : Pending → β → β}
    (hsame : ∀ (w : Workspace) text host,
      g { w with kernel := { w.kernel with store := w.kernel.store.inheriting text, host } } = g w)
    (hg : ∀ w, Takes f (g w)) : Takes f (get >>= g) := by
  constructor
  · rintro text left w w' ⟨_, ⟨host, hhost, rfl⟩, rfl⟩
    have hget (w : Workspace) : outcome (get >>= g) w = outcome (g w) w := rfl
    rw [hget, hget, hsame]
    exact (hg w).same text left w _ ⟨_, ⟨host, hhost, rfl⟩, rfl⟩
  · exact fun w h => (hg w).quiet w h

theorem passes_drop (id : SnippetId) : Passes (drop id) := by
  have hdrop (w : Workspace) : outcome (drop id) w =
      (.ok { EvaluationResult.absorb {} (w.kernel.store.drop id).1 with
          success := (w.kernel.store.drop id).1.head?.any fun e => e.snippet = id && e.status = .dropped },
        { w with kernel := { w.kernel with store := (w.kernel.store.drop id).2 } }) := rfl
  have hsilent : Store.Silent fun s => s.drop id := fun s text => s.drop_withOutput text id
  constructor
  · rintro text left w _ ⟨_, ⟨host, hhost, rfl⟩, rfl⟩
    rw [hdrop, hdrop]
    dsimp only
    rw [hsilent.inheriting]
    exact ⟨rfl, _, ⟨host, hhost, rfl⟩, rfl⟩
  · intro w h
    have hprinted := hsilent.output w.kernel.store
    unfold Workspace.pending Kernel.pending at h ⊢
    rw [hdrop]
    dsimp only
    rw [hprinted]
    exact h

theorem passes_make (f : Factory) : Passes (make f) := by
  unfold make
  split
  · constructor
    · rintro text left w _ ⟨_, ⟨_, ⟨new, hdemands, rfl⟩, rfl⟩, rfl⟩
      exact ⟨rfl, _, ⟨_, ⟨new, hdemands, rfl⟩, rfl⟩, rfl⟩
    · exact fun w h => h
  · exact passes_throw _
  · exact passes_throw _

theorem passes_register (f : Factory) (object : HostObject) : Passes (register f object) := by
  constructor
  · rintro text left w _ ⟨_, ⟨host, hhost, rfl⟩, rfl⟩
    exact ⟨rfl, _, ⟨host, hhost, rfl⟩, rfl⟩
  · exact fun w h => h

theorem passes_bindName (f : Factory) (name : String) (object : HostObject) :
    Passes (Kernel.bind f name object) := by
  constructor
  · rintro text left w _ ⟨_, ⟨host, hhost, rfl⟩, rfl⟩
    rw [outcome_bindName, outcome_bindName]
    split
    · exact ⟨rfl, _, ⟨host, hhost, rfl⟩, rfl⟩
    · exact ⟨rfl, _, ⟨host, hhost, rfl⟩, rfl⟩
  · intro w h
    rw [outcome_bindName]
    split
    · exact h
    · exact h

theorem takes_activate (fuel : Nat) (f : Factory) : Takes (fun _ object => object) (activate fuel f) := by
  have hcode (code : List Char) (object : HostObject) : Takes (fun _ object => object) (do
      let r ← evaluate fuel code
      if !r.success then throw (.activation f.name "init code failed")
      return object : Task HostObject) := by
    refine (takes_evaluate fuel code).bind_passes (fun r => ?_) fun p r w => ?_
    · split
      · exact passes_throw _
      · exact passes_pure _
    · have hsuccess : (r.behind p).success = r.success := rfl
      rw [hsuccess]
      split <;> rfl
  unfold activate
  refine takes_get_bind (fun w text host => rfl) fun w => ?_
  split
  · exact (passes_pure _).takes _
  · refine (passes_make f).bind_takes fun made => (passes_register f made).bind_takes fun object => ?_
    dsimp only
    -- the object may get a name before the code is run
    split
    · refine (passes_bindName f _ object).bind_takes fun _ => ?_
      split
      · exact hcode _ object
      · exact (passes_pure _).takes _
    · split
      · exact hcode _ object
      · exact (passes_pure _).takes _

theorem takes_activateNamed (fuel : Nat) (name : String) (found : Option Factory) :
    Takes (fun _ object => object) (activateNamed fuel name found) := by
  unfold activateNamed
  split
  · exact (passes_throw _).takes _
  · split
    · exact takes_activate fuel _
    · exact (passes_throw _).takes _

theorem passes_runAction (action : Except String Unit) : Passes (runAction action) := by
  unfold runAction
  split
  · exact passes_pure _
  · exact passes_throw _

end Kernel

/-- A response that shows what was pending in front of the output of an evaluation. -/
def Response.behind (p : Pending) : Response → Response
  | .evaluation r => .evaluation (r.behind p)
  | response => response

theorem Response.behind_empty : Response.behind {} = id := by
  funext response
  cases response <;> rfl

open Kernel in
theorem Request.takes_perform (fuel : Nat) (r : Request) : Takes Response.behind (r.perform fuel) := by
  -- what looks at the kernel does not look at its output
  have hlook (g : Kernel → Response)
      (hsame : ∀ (k : Kernel) text host, g { k with store := k.store.inheriting text, host } = g k) :
      Takes Response.behind (do return g (← current)) :=
    takes_get_bind (g := fun w => pure (g w.kernel)) (fun w text host => congrArg pure (hsame w.kernel text host))
      fun w => (passes_pure _).takes _
  cases r with
  | evaluate before source =>
    refine (passes_runAction before).bind_takes fun _ => (takes_evaluate fuel source).bind_passes ?_ ?_
    · exact fun r => passes_pure _
    · exact fun p r w => rfl
  | complete text caret => exact hlook (fun k => .completion (k.complete text caret)) fun k _ _ => rfl
  | documentation text caret => exact hlook (fun k => .documentation (k.documentation text caret)) fun k _ _ => rfl
  | snippet id => exact hlook (fun k => .snippet (k.store.info? id)) fun k _ _ => rfl
  | highlight => exact (passes_pure _).takes _
  | drop id => exact (passes_drop id).bind_takes fun _ => (passes_pure _).takes _
  | activate f =>
    exact (takes_activate fuel f).bind_passes (fun _ => passes_pure _) fun p object w => rfl
  | activateNamed name found =>
    exact (takes_activateNamed fuel name found).bind_passes (fun _ => passes_pure _) fun p object w => rfl
  | act action => exact (passes_runAction action).bind_takes fun _ => (passes_pure _).takes _

namespace Job

/-- A job is work that takes either nothing of what is pending or all of it, or it only lets the session be
ready. -/
theorem perform_cases (fuel : Nat) (job : Job) :
    (∃ t : Task Response, Kernel.Takes Response.behind t ∧ ∀ w, job.perform fuel w =
        (((Kernel.outcome t { w with evaluations := 0 }).1,
            Touch.ofEvaluations (Kernel.outcome t { w with evaluations := 0 }).2.evaluations),
          (Kernel.outcome t { w with evaluations := 0 }).2)) ∨
      ∀ w, job.perform fuel w = ((.ok .none, [.becomeReady]), w) := by
  cases job with
  | activateSystem f =>
    refine .inl ⟨do return .capability (← Kernel.activate fuel f), ?_, fun w => rfl⟩
    exact (Kernel.takes_activate fuel f).bind_passes (fun _ => Kernel.passes_pure _) fun p object w => rfl
  | becomeReady => exact .inr fun w => rfl
  | request r => exact .inl ⟨r.perform fuel, r.takes_perform fuel, fun w => rfl⟩

/-- A job does the same whatever is pending. Either it takes nothing of it, and what it leaves itself comes
behind it, or it shows all of it in front of its own output. -/
theorem perform_hushed (fuel : Nat) (job : Job) (w : Workspace) :
    (job.perform fuel w).1.2 = (job.perform fuel w.hushed).1.2 ∧
      (job.perform fuel w).2.hushed = (job.perform fuel w.hushed).2.hushed ∧
      ((job.perform fuel w).1.1 = (job.perform fuel w.hushed).1.1 ∧
          (job.perform fuel w).2.pending = w.pending.append (job.perform fuel w.hushed).2.pending ∨
        (job.perform fuel w).1.1 = (job.perform fuel w.hushed).1.1.map (·.behind w.pending) ∧
          (job.perform fuel w).2.pending = (job.perform fuel w.hushed).2.pending) := by
  rcases job.perform_cases fuel with ⟨t, ht, hperform⟩ | hperform
  · rw [hperform w, hperform w.hushed]
    have hinherits : Workspace.Inherits w.kernel.store.output w.kernel.host.demands
        { w.hushed with evaluations := 0 } { w with evaluations := 0 } :=
      Workspace.inherits_hushed { w with evaluations := 0 }
    rcases ht.same _ _ _ _ hinherits with ⟨hreply, hafter⟩ | ⟨hreply, hafter⟩
    · refine ⟨congrArg Touch.ofEvaluations ?_, hafter.hushed, .inl ⟨hreply, hafter.pending⟩⟩
      obtain ⟨_, -, hafter⟩ := hafter
      rw [hafter]
    · dsimp only
      rw [hafter]
      exact ⟨rfl, rfl, .inr ⟨hreply, rfl⟩⟩
  · rw [hperform w, hperform w.hushed]
    exact ⟨rfl, w.inherits_hushed.hushed, .inl ⟨rfl, w.inherits_hushed.pending⟩⟩

/-- A job that finds nothing pending leaves nothing pending, unless it is broken off. -/
theorem quiet_perform (fuel : Nat) (job : Job) {w : Workspace} (h : w.pending = {}) :
    (job.perform fuel w).2.pending = {} ∨
      ∃ e, (job.perform fuel w).1.1 = .error e ∧ e.breaksOff = true := by
  rcases job.perform_cases fuel with ⟨t, ht, hperform⟩ | hperform
  · rw [hperform]
    exact ht.quiet { w with evaluations := 0 } h
  · rw [hperform]
    exact .inl h

end Job

/-! ## The jobs of a session, one after the other -/

namespace Session

section

variable {W J α : Type} {duties : Duties W J α}

/-- A step of the worker does the job that it begins with, if there is one, and changes nothing else about
the workspace, or it is the one with which the worker stops.  The worker does not start again. -/
theorem workspace_of_work? {s s' : Session J α} {w w' : W} (h : work? duties s w = some (s', w')) :
    (w' = (s.begins?.map fun job => (duties.perform job w).2).getD w ∨
      s'.worker.hasStopped = true ∧ w' = duties.stop w) ∧
      (s.worker.hasStopped = true → s'.worker.hasStopped = true) := by
  rcases s with ⟨stage, queue, accepting, worker, calls, next, answers, closings⟩
  unfold work? at h
  cases worker with
  | starting =>
    dsimp only at h
    split at h
    · cases h
      exact ⟨.inl rfl, nofun⟩
    · cases h
      exact ⟨.inl rfl, nofun⟩
  | waiting =>
    cases queue with
    | nil => cases h
    | cons c rest =>
      cases h
      exact ⟨.inl rfl, nofun⟩
  | holding c =>
    cases c with
    | run t job =>
      unfold begins?
      dsimp only at h ⊢
      split at h
      · rename_i hclosing
        cases h
        rw [if_pos hclosing]
        exact ⟨.inl rfl, nofun⟩
      · rename_i hopen
        cases h
        rw [if_neg hopen]
        exact ⟨.inl rfl, nofun⟩
    | shutdown t =>
      cases h
      exact ⟨.inl rfl, nofun⟩
  | running t entered touches result =>
    cases touches <;> cases h <;> exact ⟨.inl rfl, nofun⟩
  | closing t =>
    cases queue with
    | nil =>
      cases h
      exact ⟨.inr ⟨rfl, rfl⟩, nofun⟩
    | cons c rest =>
      cases h
      cases c <;> exact ⟨.inl rfl, nofun⟩
  | leaving t =>
    cases h
    exact ⟨.inl rfl, fun _ => rfl⟩
  | broken =>
    cases h
    exact ⟨.inl rfl, fun _ => rfl⟩
  | abandoning =>
    cases queue with
    | nil =>
      cases h
      exact ⟨.inl rfl, fun _ => rfl⟩
    | cons c rest =>
      cases h
      cases c <;> exact ⟨.inl rfl, fun _ => rfl⟩
  | ended => cases h

/-- Only the worker changes the workspace. -/
theorem workspace_of_step (duties : Duties W J α) (s : Session J α) (w : W) (move : Move J) :
    ((s.step duties w move).2 = afterJobs duties w (s.beginning w move) ∨
      (s.step duties w move).1.worker.hasStopped = true ∧ (s.step duties w move).2 = duties.stop w) ∧
      (s.worker.hasStopped = true → (s.step duties w move).1.worker.hasStopped = true) := by
  cases move with
  | submit job => exact ⟨.inl rfl, fun h => h⟩
  | shutdown => exact ⟨.inl rfl, fun h => h ▸ congrArg Worker.hasStopped (worker_beginShutdown s)⟩
  | finish ticket => exact ⟨.inl rfl, fun h => h ▸ congrArg Worker.hasStopped (worker_finishCall s ticket)⟩
  | work =>
    unfold Session.step beginning
    cases hwork : work? duties s w with
    | none =>
      refine ⟨.inl ?_, fun h => h⟩
      cases hbegins : s.begins? with
      | none => rfl
      | some job =>
        -- a worker that is about to begin with a job does so
        obtain ⟨hopen, t, hworker⟩ := begins?_eq_some hbegins
        unfold work? at hwork
        rw [hworker] at hwork
        dsimp only at hwork
        rw [hopen] at hwork
        cases hwork
    | some next =>
      obtain ⟨hworkspace, hstays⟩ := workspace_of_work? hwork
      refine ⟨hworkspace.imp_left fun heq => heq.trans ?_, hstays⟩
      cases s.begins? <;> rfl

theorem beginning_cases (s : Session J α) (w : W) (move : Move J) :
    s.beginning w move = [] ∨
      ∃ job, s.begins? = some job ∧ s.beginning w move = [⟨job, s.stage, w⟩] := by
  cases move with
  | work =>
    unfold beginning
    cases s.begins? with
    | none => exact .inl rfl
    | some job => exact .inr ⟨job, rfl, rfl⟩
  | submit | shutdown | finish => exact .inl rfl

/-- A worker that has stopped begins with nothing. -/
theorem beginning_of_hasStopped {s : Session J α} (w : W) (h : s.worker.hasStopped = true) (move : Move J) :
    s.beginning w move = [] := by
  cases move with
  | work =>
    unfold beginning begins?
    cases hworker : s.worker <;> rw [hworker] at h <;> first | rfl | cases h
  | submit | shutdown | finish => rfl

/-- A worker that has stopped begins with nothing any more. -/
theorem beginnings_of_hasStopped (moves : List (Move J)) {s : Session J α} (w : W)
    (h : s.worker.hasStopped = true) : beginnings duties moves s w = [] := by
  induction moves generalizing s w with
  | nil => rfl
  | cons move moves ih =>
    rw [beginnings, beginning_of_hasStopped w h, ih _ ((workspace_of_step duties s w move).2 h)]
    rfl

/-- A job finds the workspace as the jobs before it have left it. -/
theorem workspace_of_beginnings (moves : List (Move J)) (s : Session J α) (w : W)
    {before later : List (Beginning W J)} {b : Beginning W J}
    (h : beginnings duties moves s w = before ++ b :: later) : b.workspace = afterJobs duties w before := by
  induction moves generalizing s w before with
  | nil => cases before <;> cases h
  | cons move moves ih =>
    rw [beginnings] at h
    obtain ⟨hworkspace, -⟩ := workspace_of_step duties s w move
    -- after a step with which the worker stops, nothing is begun
    have hlater {before : List (Beginning W J)} (h : beginnings duties moves (s.step duties w move).1
        (s.step duties w move).2 = before ++ b :: later) :
        b.workspace = afterJobs duties (afterJobs duties w (s.beginning w move)) before := by
      rcases hworkspace with hworkspace | ⟨hstopped, -⟩
      · rw [← hworkspace]
        exact ih _ _ h
      · rw [beginnings_of_hasStopped moves _ hstopped] at h
        cases before <;> cases h
    rcases beginning_cases s w move with hnone | ⟨job, -, hone⟩
    · rw [hnone] at h hlater
      exact hlater h
    · rw [hone, List.singleton_append] at h
      rw [hone] at hlater
      cases before with
      | nil =>
        cases h
        rfl
      | cons c before =>
        rw [List.cons_append] at h
        obtain ⟨rfl, hnext⟩ := List.cons.inj h
        exact hlater hnext

end

end Session

namespace Beginning

variable (fuel : Nat) (b : Beginning Workspace Job)

/-- What comes of a job. -/
def reply : Reply := (b.job.perform fuel b.workspace).1.1

/-- What would come of a job if nothing had been pending when it began. -/
def ownReply : Reply := (b.job.perform fuel b.workspace.hushed).1.1

/-- What is pending when a job has been done. -/
def leaves : Pending := (b.job.perform fuel b.workspace).2.pending

/-- A job was broken off, and it has left something pending. -/
def leaks : Bool :=
  match b.reply fuel with
  | .error e => e.breaksOff && b.leaves fuel ≠ {}
  | .ok _ => false

variable {fuel b}

theorem leaves_of_not_leaks (h : b.leaks fuel = false) (hquiet : b.workspace.pending = {}) :
    b.leaves fuel = {} := by
  rcases b.job.quiet_perform fuel hquiet with hleaves | ⟨e, he, hbreaks⟩
  · exact hleaves
  · have hreply : b.reply fuel = .error e := he
    unfold leaks at h
    rw [hreply] at h
    dsimp only at h
    rw [hbreaks, Bool.true_and, decide_eq_false_iff_not, not_not] at h
    exact h

end Beginning

namespace Session

/-- What a job finds pending is what the job before it has left. -/
theorem pending_of_beginnings {starts : Bool} {fuel : Nat} {moves : List (Move Job)}
    {s : Session Job Reply} {w : Workspace} {prior later : List (Beginning Workspace Job)}
    {c b : Beginning Workspace Job}
    (h : beginnings (duties starts fuel) moves s w = prior ++ [c] ++ b :: later) :
    b.workspace.pending = c.leaves fuel := by
  have hb := workspace_of_beginnings moves s w h
  rw [List.append_assoc] at h
  have hc := workspace_of_beginnings moves s w h
  unfold Beginning.leaves
  rw [hb, hc]
  unfold afterJobs
  rw [List.foldl_append]
  rfl

/-- Nothing is pending as long as no job has leaked. -/
theorem quiet_of_beginnings (starts : Bool) (fuel : Nat) (moves : List (Move Job)) {w₀ : Workspace}
    (h₀ : w₀.pending = {}) (prior : List (Beginning Workspace Job)) {b : Beginning Workspace Job}
    {later : List (Beginning Workspace Job)}
    (h : beginnings (duties starts fuel) moves {} w₀ = prior ++ b :: later)
    (hclean : ∀ c ∈ prior, c.leaks fuel = false) : b.workspace.pending = {} := by
  induction prior using List.reverseRecOn generalizing b later with
  | nil =>
    rw [workspace_of_beginnings moves {} w₀ h]
    exact h₀
  | append_singleton prior c ih =>
    have hpending := pending_of_beginnings h
    rw [List.append_assoc] at h
    have hc := ih h fun d hd => hclean d (List.mem_append_left _ hd)
    rw [hpending]
    exact Beginning.leaves_of_not_leaks (hclean c (List.mem_append_right _ List.mem_cons_self)) hc

/-- What comes of a job is what would come of it if nothing had been pending when it began, or it shows what
was pending in front of that, and it shows nothing else that is not its own.  What is pending was left by the job
before.  As long as no job is broken off that has printed something, or has wanted something to be shown, since
the last unit came to its end, nothing is pending, and all that a job shows is its own. -/
theorem output_is_own (starts : Bool) (fuel : Nat) (moves : List (Move Job)) (w₀ : Workspace)
    (h₀ : w₀.pending = {}) (prior later : List (Beginning Workspace Job)) (b : Beginning Workspace Job)
    (h : beginnings (duties starts fuel) moves {} w₀ = prior ++ b :: later) :
    (b.reply fuel = b.ownReply fuel ∨
        b.reply fuel = (b.ownReply fuel).map (·.behind b.workspace.pending)) ∧
      b.workspace.pending = (prior.getLast?.map (·.leaves fuel)).getD {} ∧
      ((∀ c ∈ prior, c.leaks fuel = false) →
        b.workspace.pending = {} ∧ b.reply fuel = b.ownReply fuel) := by
  obtain ⟨-, -, hreply⟩ := b.job.perform_hushed fuel b.workspace
  have hown : b.reply fuel = b.ownReply fuel ∨
      b.reply fuel = (b.ownReply fuel).map (·.behind b.workspace.pending) :=
    hreply.imp And.left And.left
  refine ⟨hown, ?_, fun hclean => ?_⟩
  · rcases List.eq_nil_or_concat prior with rfl | ⟨prior, c, rfl⟩
    · rw [workspace_of_beginnings moves {} w₀ h]
      exact h₀
    · rw [List.concat_eq_append] at h ⊢
      rw [pending_of_beginnings h, List.getLast?_concat]
      rfl
  · have hpending := quiet_of_beginnings starts fuel moves h₀ prior h hclean
    refine ⟨hpending, hown.elim id fun hbehind => ?_⟩
    rw [hbehind, hpending, Response.behind_empty]
    exact congrFun Except.map_id _

/-- A capability whose instance panics when it is called. -/
def luckless : Factory where
  name := "probe"
  mode := .system
  kind := .custom 0
  variableName := some "probe"
  create := .made "Probe" [] (.custom fun _ _ => .panic "out of luck")

/-- A text that prints something, and then one that calls the luckless instance after it has printed, and
then one that prints nothing. -/
def lucklessMoves : List (Move Job) :=
  openingMoves [.activateSystem luckless,
    .request (.evaluate (.ok ()) "println!(\"first\")".toList),
    .request (.evaluate (.ok ()) "\x7b println!(\"second\"); probe.boom() \x7d".toList),
    .request (.evaluate (.ok ()) "1".toList)] ++ List.replicate 20 .work

/-- The text that a job evaluates for a client. -/
def evaluated? : Job → Option (List Char)
  | .request (.evaluate _ source) => some source
  | _ => none

/-- What has been printed, as a reply tells it. -/
def printed? : Reply → Option (List Char)
  | .ok (.evaluation r) => some r.stdout
  | _ => none

theorem first_output_is_own :
    ∃ activation b later, beginnings (duties true 20) lucklessMoves {} Kernel.emptyWorkspace =
        activation :: b :: later ∧
      printed? (b.reply 20) = some "first\n".toList ∧ b.reply 20 = b.ownReply 20 := by
  have hall : (beginnings (duties true 20) lucklessMoves {} Kernel.emptyWorkspace).map
      (fun b => (printed? (b.reply 20), b.leaks 20)) =
        [(none, false), (some "first\n".toList, false), (none, true), (some "second\n".toList, false)] := by
    decide +kernel
  obtain ⟨activation, rest, hbeginnings, hactivation, hrest⟩ := List.map_eq_cons_iff.1 hall
  obtain ⟨b, later, rfl, hb, -⟩ := List.map_eq_cons_iff.1 hrest
  obtain ⟨-, -, hown⟩ := output_is_own true 20 lucklessMoves Kernel.emptyWorkspace rfl [activation] later b
    hbeginnings
  refine ⟨activation, b, later, hbeginnings, congrArg Prod.fst hb, (hown ?_).2⟩
  intro c hc
  rw [List.mem_singleton.1 hc]
  exact congrArg Prod.snd hactivation

/-- The text that prints nothing is told to have printed what another one has that was broken off. -/
theorem lucklessMoves_leak :
    ∃ prior b, beginnings (duties true 20) lucklessMoves {} Kernel.emptyWorkspace = prior ++ [b] ∧
      evaluated? b.job = some "1".toList ∧ printed? (b.ownReply 20) = some [] ∧
        printed? (b.reply 20) = some "second\n".toList := by
  have hlast : (beginnings (duties true 20) lucklessMoves {} Kernel.emptyWorkspace).getLast?.map
      (fun b => (evaluated? b.job, printed? (b.ownReply 20), printed? (b.reply 20))) =
        some (some "1".toList, some [], some "second\n".toList) := by
    decide +kernel
  obtain ⟨b, hb, hprinted⟩ := Option.map_eq_some_iff.1 hlast
  obtain ⟨prior, hprior⟩ := List.getLast?_eq_some_iff.1 hb
  obtain ⟨hjob, hprinted⟩ := Prod.mk.inj hprinted
  obtain ⟨hown, hreply⟩ := Prod.mk.inj hprinted
  exact ⟨prior, b, hprior, hjob, hown, hreply⟩

end Session

end Notebook

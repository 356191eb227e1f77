import Notebook.Proofs.Guest.Lasting
import Notebook.Proofs.Guest.Soundness
import Notebook.Proofs.Guest.Standing

/-!
# Stored types are true

The type that is stored with a variable is that of its value (`stored_types_are_true`), as long as the
check takes nothing on trust in what runs.  It does so wherever a value has a type that is not known, which
is let through in place of any type.
-/

namespace Notebook.Guest
open Notebook.Text Notebook.Syntax

/-! ## Snippets and what they hold -/

/-- The parts of a snippet tell the truth about each other: its name is that of what it declares, and its
value is of its type.  A snippet with a value waits for nothing. -/
structure Record.Truthful (r : Record) : Prop where
  named : ∀ d, r.declaration = some d → r.name = some d.name
  function : ∀ f, r.definition = .function f → r.name = some f.name
  holds : ∀ ty v, r.definition = .variable ty v →
    ty.Fits .truth v ∧ r.declaration = none ∧ r.status ≠ .recoverableUndefined

/-- A declaration gives its name no value, and a function knows its name. -/
theorem definition_of_analyze {d : Declaration} {g : Globals} {a : Analysis} (h : d.analyze g = .ok a) :
    (∀ ty v, a.definition ≠ .variable ty v) ∧ ∀ f, a.definition = .function f → f.name = d.name := by
  cases d with
  | function header body =>
    obtain ⟨-, found, mentions, st, -, -, rfl⟩ := understood_of_analyzeFunction h
    refine ⟨fun _ _ => Definition.noConfusion, fun f hf => ?_⟩
    cases hf
    rfl
  | struct d =>
    obtain ⟨hgenerics, hreadable⟩ := readable_of_analyzeStruct h
    obtain ⟨signature, doc, heq⟩ := analyzeStruct_eq hgenerics hreadable
    obtain rfl := Except.ok.inj ((heq g).symm.trans h)
    exact ⟨fun _ _ => Definition.noConfusion, fun _ => Definition.noConfusion⟩

theorem Record.Truthful.rechecked {r : Record} (hr : r.Truthful) {d : Declaration}
    (hd : r.declaration = some d) (g : Globals) : (r.rechecked d g).Truthful := by
  unfold Record.rechecked
  split
  · -- what is refused keeps its definition, which is none of a variable
    refine ⟨hr.named, hr.function, fun ty v hdefinition => ?_⟩
    cases hd.symm.trans (hr.holds ty v hdefinition).2.1
  · rename_i a ha
    obtain ⟨hvariable, hfunction⟩ := definition_of_analyze ha
    refine ⟨hr.named, fun f hf => ?_, fun ty v hdefinition => absurd hdefinition (hvariable ty v)⟩
    rw [hfunction f hf]
    exact hr.named d hd

theorem Record.Truthful.with_status {r : Record} (hr : r.Truthful) {status : Status}
    (h : status ≠ .recoverableUndefined ∨ ∀ ty v, r.definition ≠ .variable ty v) :
    ({ r with status } : Record).Truthful := by
  refine ⟨hr.named, hr.function, fun ty v hdefinition => ?_⟩
  obtain ⟨hfits, hnone, -⟩ := hr.holds ty v hdefinition
  exact ⟨hfits, hnone, h.resolve_right fun h => h ty v hdefinition⟩

/-- A snippet that holds nothing and declares nothing. -/
theorem truthful_of_empty {r : Record} (hplain : r.declaration = none)
    (h : r.definition = .none ∨ r.definition = .imports) : r.Truthful := by
  refine ⟨fun d hd => ?_, fun f hf => ?_, fun ty v hv => ?_⟩
  · cases hplain.symm.trans hd
  · rcases h with h | h <;> cases h.symm.trans hf
  · rcases h with h | h <;> cases h.symm.trans hv

theorem lasting_truthful : Record.Lasting Record.Truthful :=
  ⟨fun _ _ g hr hd => hr.rechecked hd g, fun _ hr => hr.with_status (.inl Status.noConfusion),
    fun _ hr => hr.with_status (.inl Status.noConfusion)⟩

/-- What running its code gives a snippet. -/
theorem Record.Truthful.of_fills {r r' : Record} (hr : r.Truthful) (hplain : r.declaration = none)
    (hstatus : r.status = .nonexistent) (h : r.Fills r')
    (hfits : ∀ ty v, r'.definition = .variable ty v → ty.Fits .truth v) : r'.Truthful := by
  obtain ⟨definition, refs, rfl, hdefinition⟩ := h
  refine ⟨hr.named, fun f hf => ?_, fun ty v hv => ⟨hfits ty v hv, hplain, ?_⟩⟩
  · rcases hdefinition with rfl | ⟨ty, v, rfl⟩
    · exact hr.function f hf
    · cases hf
  · rw [hstatus]
    exact Status.noConfusion

theorem isDefined_of_isActive {status : Status} (hactive : status.isActive = true)
    (hwaits : status ≠ .recoverableUndefined) : status.isDefined = true := by
  cases status <;> first | rfl | exact absurd rfl hwaits | cases hactive

/-! ## Stores -/

namespace Store

/-- Code that runs changes no snippet that no name stands for. -/
theorem Runs.record?_eq {s t : Store} (h : s.Runs t) {id : SnippetId}
    (hid : ∀ n, s.binding? n ≠ some id) : t.record? id = s.record? id := by
  induction h with
  | refl => rfl
  | print text _ ih => exact ih
  | @write t u n v hruns hwrite ih =>
    rw [← ih]
    simp only [Store.write?, Option.bind_eq_bind, Option.bind_eq_some_iff] at hwrite
    obtain ⟨j, hj, r, hr, hwrite⟩ := hwrite
    have hbinding : s.binding? n = some j := by
      rw [← hj]
      exact congrArg (Table.get? · n) hruns.sameBut.bindings.symm
    split at hwrite
    · cases hwrite
      refine record?_update_of_ne t _ ?_
      rintro rfl
      exact hid n hbinding
    · cases hwrite

theorem Each.holds {s : Store} (hs : s.Each Record.Truthful) : s.Holds .truth :=
  fun _ id r ty v _ hr _ hdefinition => ((hs id r hr).holds ty v hdefinition).1

/-- What code leaves that runs among true types, if it gives no name a wrong value. -/
theorem Each.runs {s t : Store} (hs : s.Each Record.Truthful) (hbound : s.Bound) (hruns : s.Runs t)
    (hholds : t.Holds .truth) : t.Each Record.Truthful := by
  intro id r hr
  obtain ⟨r₀, hr₀, hknown⟩ := hruns.sameBut.symm.of_record? hr
  have htruthful := hs id r₀ hr₀
  have hsame := Record.sameCode_of_known hknown
  have hstatus := Record.status_of_known hknown
  have hdefinition : r₀.definition.known = r.definition.known := congrArg Record.definition hknown
  refine ⟨?_, fun f hf => ?_, fun ty v hv => ?_⟩
  · rw [← hsame.declaration, ← hsame.name]
    exact htruthful.named
  · rw [hf] at hdefinition
    rw [← hsame.name]
    exact htruthful.function f (Definition.eq_of_known hdefinition)
  · rw [hv] at hdefinition
    obtain ⟨v₀, hv₀⟩ : ∃ v₀, r₀.definition = .variable ty v₀ := by
      cases hd : r₀.definition <;> rw [hd] at hdefinition <;> cases hdefinition
      exact ⟨_, rfl⟩
    obtain ⟨-, hplain, hwaits⟩ := htruthful.holds ty v₀ hv₀
    rw [← hsame.declaration, ← hstatus]
    refine ⟨?_, hplain, hwaits⟩
    -- the code can have written to a variable only by its name
    by_cases hnamed : ∃ n, s.binding? n = some id
    · obtain ⟨n, hn⟩ := hnamed
      obtain ⟨r', hr', -, hactive⟩ := hbound n id hn
      cases hr₀.symm.trans hr'
      refine hholds n id r ty v ?_ hr ?_ hv
      · rw [← hn]
        exact congrArg (Table.get? · n) hruns.sameBut.bindings
      · rw [← hstatus]
        exact isDefined_of_isActive hactive hwaits
    · rw [hruns.record?_eq fun n hn => hnamed ⟨n, hn⟩, hr₀] at hr
      cases hr
      exact (htruthful.holds ty v hv).1

/-- A function that can be called knows the name by which it is called. -/
theorem Each.name_of_ready {s : Store} (hs : s.Each Record.Truthful) (hbound : s.Bound) {n : String}
    {f : Function} {id : SnippetId} (h : s.callee? n = some (.ready f id)) : f.name = n := by
  obtain ⟨j, r, hj, hr, hcallee⟩ := callee?_eq_some_iff.1 h
  obtain ⟨r', hr', hname, -⟩ := hbound n j hj
  cases hr.symm.trans hr'
  unfold Record.callee? at hcallee
  split at hcallee
  · rename_i g hdefinition _
    cases hcallee
    exact Option.some.inj (((hs _ r hr).function _ hdefinition).symm.trans hname)
  · cases hcallee
  · cases hcallee

theorem Bound.callee?_allocate {s : Store} (hs : s.Bound) (r : Record) (n : String) :
    (s.allocate r).2.callee? n = s.callee? n := by
  have hrecord (id : SnippetId) (hid : s.binding? n = some id) :
      (s.allocate r).2.record? id = s.record? id := by
    obtain ⟨r', hr', -⟩ := hs n id hid
    rw [record?_allocate, if_neg]
    exact Nat.ne_of_lt (Nat.lt_succ_of_le (le_length_of_record? hr'))
  ext callee
  simp only [callee?_eq_some_iff]
  refine exists_congr fun id => exists_congr fun r' => and_congr_right fun hid => ?_
  rw [hrecord id hid]

/-- The check takes nothing on trust where the type of a variable is to be had, nor in the functions that
are called on the way. -/
def TrustsNothing (s : Store) (annotated : Option TypeExpr) (e : Expr) : Prop :=
  ∀ ty refs, checkStrictly s (checkInitial annotated e) = .ok (ty, refs) →
    ¬ (Site.outermost e).Strays s.outside ty ∧
      ∃ called : String → Prop,
        (∀ n f id, called n → s.callee? n = some (.ready f id) → f.Sharp s.globals called) ∧
          (Site.outermost e).All s.outside fun q =>
            q.Sharp s.outside ∧ ∀ n ∈ q.function? s.outside, called n

end Store

/-! ## Looking for trust

What the check has taken on trust can be looked for, if one says which functions are called. -/

section

variable (c : CheckContext) (names : List String) (depth : Nat)

def Site.sharp (q : Site) : Bool := decide (q.Sharp c) && (q.function? c).all names.contains

variable {c names depth} in
theorem Site.all_of_sharp {p : Site} (h : Site.all c (Site.sharp c names) depth p = true) :
    p.All c fun q => q.Sharp c ∧ ∀ n ∈ q.function? c, n ∈ names := by
  refine (Site.all_of_all h).mono fun q hq => ?_
  obtain ⟨hsharp, hcalled⟩ := Bool.and_eq_true_iff.1 hq
  refine ⟨of_decide_eq_true hsharp, fun n hn => ?_⟩
  rw [hn] at hcalled
  exact List.contains_iff_mem.1 hcalled

def Function.sharp (g : Globals) (f : Function) : Bool :=
  let c : CheckContext := ⟨g, some f.type⟩
  (f.site.type? c).isSome && decide (¬ f.site.Strays c f.result) &&
    Site.all c (Site.sharp c names) depth f.site

def Store.trustsNothing (s : Store) (annotated : Option TypeExpr) (e : Expr) : Bool :=
  match checkStrictly s (checkInitial annotated e) with
  | .error _ => true
  | .ok (ty, _) =>
    decide (¬ (Site.outermost e).Strays s.outside ty) &&
      names.all (fun n => match s.callee? n with
        | some (.ready f _) => f.sharp names depth s.globals
        | _ => true) &&
      Site.all s.outside (Site.sharp s.outside names) depth (Site.outermost e)

end

theorem Function.sharp_of_sharp {f : Function} {g : Globals} {names : List String} {depth : Nat}
    (h : f.sharp names depth g = true) : f.Sharp g (· ∈ names) := by
  obtain ⟨h, hbody⟩ := Bool.and_eq_true_iff.1 h
  obtain ⟨hchecks, hresult⟩ := Bool.and_eq_true_iff.1 h
  exact ⟨hchecks, of_decide_eq_true hresult, Site.all_of_sharp hbody⟩

theorem Store.trustsNothing_of_trustsNothing {s : Store} {names : List String} {depth : Nat}
    {annotated : Option TypeExpr} {e : Expr} (h : s.trustsNothing names depth annotated e = true) :
    s.TrustsNothing annotated e := by
  intro ty refs hcheck
  unfold trustsNothing at h
  rw [hcheck] at h
  obtain ⟨h, hsites⟩ := Bool.and_eq_true_iff.1 h
  obtain ⟨hstrays, hfunctions⟩ := Bool.and_eq_true_iff.1 h
  refine ⟨of_decide_eq_true hstrays, (· ∈ names), fun n f id hn hready => ?_, Site.all_of_sharp hsites⟩
  have hn := List.all_eq_true.1 hfunctions n hn
  rw [hready] at hn
  exact Function.sharp_of_sharp hn

/-- The expression that a statement evaluates outside of functions, and the type that is written with
it. -/
def outermost? : Stmt → Option (Option TypeExpr × Expr)
  | .bind p (some e) _ _ =>
    match bindingOf p with
    | .ok (_, annotated) => some (annotated, e)
    | .error _ => none
  | .item (.constant _ type value) _ => some (some type, value)
  | .expr e _ _ => some (none, e)
  | _ => none

/-! ## Statements -/

theorem fits_default (aim : Aim) (ty : Ty) : ty.Fits aim ty.defaultValue := by
  cases ty with
  | unknown => exact fits_unknown _
  | host | struct => exact .inr (.inr (.inl ⟨rfl, rfl⟩))
  | _ => exact .inr (.inl rfl)

theorem fits_settled {aim : Aim} {ty : Ty} {v : Value} (h : ty.Fits aim v) : (settledType ty v).Fits aim v := by
  unfold settledType
  split
  · exact fits_ofValue v
  · exact h

theorem checkInitial_none (e : Expr) : checkInitial none e = fun c => Check.expr c false e :=
  funext fun c => bind_pure (Check.expr c false e)

/-- What a checked initial value is known to be. -/
theorem exists_of_checkInitial {s : Store} {annotated : Option TypeExpr} {e : Expr} {ty : Ty}
    {refs : List String} (h : checkStrictly s (checkInitial annotated e) = .ok (ty, refs)) :
    ∃ found, (Site.outermost e).type? s.outside = some found := by
  obtain ⟨Γ, hgives⟩ := Check.gives_of_answer? (answer?_of_checkStrictly h)
  obtain ⟨found, Γ', hfound, -⟩ := hgives.bind
  exact ⟨found, (Site.gives_expr (p := Site.outermost e) hfound).1⟩

/-- What code comes to that runs for a new snippet, where the check takes nothing on trust. -/
theorem Store.TrustsNothing.topLevel {σ : Type} {s : Store} {annotated : Option TypeExpr} {e : Expr}
    (h : s.TrustsNothing annotated e) {ty : Ty} {refs : List String}
    (hcheck : checkStrictly s (checkInitial annotated e) = .ok (ty, refs)) {b : Store}
    (hglobals : b.globals = s.globals) (hcallee : ∀ n, b.callee? n = s.callee? n) (hbound : b.Bound)
    (heach : b.Each Record.Truthful) {calls : HostCalls σ} {fuel : Nat} {frame : Frame} {w w' : σ}
    {ending : Run.Ending} {t : Store} (hrun : Run.topLevel calls fuel frame e b w = (ending, t, w')) :
    t.Each Record.Truthful ∧ ∀ v, ending = .value v → ty.Fits .truth v := by
  obtain ⟨hstrays, called, hfunctions, hsites⟩ := h ty refs hcheck
  obtain ⟨found, hfound⟩ := exists_of_checkInitial hcheck
  -- the code runs where the new snippet is there already, which changes no meaning
  let S : Setting := { aim := .truth, base := b, called }
  have hcontext : S.context = s.outside := by
    change (⟨b.globals, none⟩ : CheckContext) = _
    rw [hglobals]
    rfl
  have hproper : S.Proper := by
    refine ⟨fun haim => (by cases haim), fun _ h => (by cases h), fun n f id hn hready => ?_⟩
    refine ⟨heach.name_of_ready hbound hready, ?_⟩
    change f.Sharp b.globals called
    rw [hglobals]
    exact hfunctions n f id hn ((hcallee n).symm.trans hready)
  rw [← hcontext] at hstrays hsites hfound
  have hall : S.AllFine (Site.outermost e) := hsites.mono fun q hq => ⟨hq.2, hq.1⟩
  have heval := Setting.evaluates_eval calls fuel hproper
  have hkeeps : S.Keeps false [[]] (ty.Fits .truth) (Run.eval calls fuel e) :=
    Setting.keeps_as heval (p := Site.outermost e) hall hfound (fun _ => hstrays) fun haim => nomatch haim
  obtain ⟨-, hholds, hvalue, -⟩ := hkeeps.topLevel rfl heach.holds hrun
  have hruns := Run.topLevel_runs calls fuel frame e b w
  rw [hrun] at hruns
  exact ⟨heach.runs hbound hruns hholds, hvalue⟩

namespace Engine

variable {σ : Type}

theorem each_rejected {s : Store} (heach : s.Each Record.Truthful) (kind : SnippetKind)
    (source : List Char) (origin : Position) (d : Diagnostic) :
    (s.reject kind source origin d).2.Each Record.Truthful := by
  have hnew : Record.Truthful { kind, source, name := none, origin, diagnostics := [d] } :=
    truthful_of_empty rfl (.inl rfl)
  have hallocated := heach.allocate hnew
  exact hallocated.finish lasting_truthful
    (fun r hr => (hallocated _ r hr).with_status (.inl Status.noConfusion)) none false

theorem each_reject {s : Store} (heach : s.Each Record.Truthful) (w : σ) (kind : SnippetKind)
    (piece : Slice) (e : CheckError) :
    (outcome (reject kind piece e) s w).2.1.Each Record.Truthful :=
  each_rejected heach kind piece.source piece.origin (e.diagnostic piece.origin)

theorem each_declare {s : Store} (heach : s.Each Record.Truthful) (w : σ) (d : Declaration)
    (piece : Slice) : (outcome (declare d piece) s w).2.1.Each Record.Truthful := by
  unfold declare
  rw [outcome_bind, outcome_store]
  dsimp only
  cases hd : d.analyze s.globals with
  | error e => exact each_reject heach w .declaration piece e
  | ok a =>
    obtain ⟨hvariable, hfunction⟩ := definition_of_analyze hd
    have hnew : (d.made a piece).Truthful := by
      refine ⟨fun d' hd' => ?_, fun f hf => congrArg some (hfunction f hf).symm,
        fun ty v hv => absurd hv (hvariable ty v)⟩
      cases hd'
      rfl
    have hallocated := heach.allocate hnew
    refine hallocated.finish lasting_truthful (fun r hr => (hallocated _ r hr).with_status (.inr ?_)) none true
    rw [Store.record?_allocate, if_pos rfl] at hr
    cases hr
    exact hvariable

theorem each_importTree {s : Store} (heach : s.Each Record.Truthful) (w : σ) (t : ImportTree)
    (piece : Slice) : (outcome (importTree t piece) s w).2.1.Each Record.Truthful := by
  unfold importTree
  rw [outcome_bind, outcome_store]
  dsimp only
  split
  · have hallocated := heach.allocate (r := {
        kind := .imports, source := piece.source, origin := piece.origin, definition := .imports
        name := some ("use " ++ String.ofList (compactTokens t.text)) })
      (truthful_of_empty rfl (.inr rfl))
    exact hallocated.finish lasting_truthful
      (fun r hr => (hallocated _ r hr).with_status (.inl Status.noConfusion)) none true
  · exact each_reject heach w .imports piece _

section

variable {s : Store} (hs : s.Sound) (heach : s.Each Record.Truthful) (calls : HostCalls σ) (fuel : Nat) (w : σ)

include hs heach

/-- A snippet whose code runs, and which then takes its place with what the code has given it. -/
theorem each_run (nextValue : Nat) {r : Record} (hr : r.Plain) (htruthful : r.Truthful) {begun : Store}
    (hbegun : begun = ({ s with nextValue }.allocate r).2) {annotated : Option TypeExpr} {e : Expr}
    (htrusts : s.TrustsNothing annotated e) {ty : Ty} {refs : List String}
    (hcheck : checkStrictly s (checkInitial annotated e) = .ok (ty, refs)) (frame : Frame)
    {next : Except Fault Value → Engine σ (List SnippetEvent)}
    (hnext : ∀ result, (∀ v, result = .ok v → ty.Fits .truth v) → ∃ f fault binds,
      (∀ r, Record.Fills r (f r)) ∧
      (∀ r ty' v, (f r).definition = .variable ty' v →
        r.definition = .variable ty' v ∨ ty'.Fits .truth v) ∧
      ∀ t w', outcome (next result) t w' =
        (.ok ((t.update (s.records.length + 1) f).finish (s.records.length + 1) .valid fault binds).1,
          ((t.update (s.records.length + 1) f).finish (s.records.length + 1) .valid fault binds).2,
          w')) :
    (outcome (Engine.run calls fuel frame e >>= next) begun w).2.1.Each Record.Truthful := by
  have hcounted : ({ s with nextValue } : Store).Sound := hs.of_records_eq rfl rfl
  have hbegunSound : begun.Sound := by
    rw [hbegun]
    exact hcounted.allocate hr.fine hr.status
  have hbegunEach : begun.Each Record.Truthful := by
    rw [hbegun]
    exact Store.Each.allocate (heach.of_records_eq rfl) htruthful
  have hglobals : begun.globals = s.globals := by
    rw [hbegun]
    exact hcounted.bound.globals_allocate r
  have hcallee (n : String) : begun.callee? n = s.callee? n := by
    rw [hbegun]
    exact hcounted.bound.callee?_allocate r n
  have hself : begun.record? (s.records.length + 1) = some r := by
    rw [hbegun, Store.record?_allocate, if_pos rfl]
  rw [outcome_bind, outcome_run_eq]
  rcases htop : Run.topLevel calls fuel frame e begun w with ⟨ending, t, w'⟩
  obtain ⟨ht, hvalue⟩ := htrusts.topLevel hcheck hglobals hcallee hbegunSound.bound hbegunEach htop
  have hruns := Run.topLevel_runs calls fuel frame e begun w
  rw [htop] at hruns
  obtain ⟨r', hr', hknown⟩ := hruns.sameBut.of_record? hself
  -- whatever the code has come to, the snippet that it was run for is still a new one
  have hplaced (result : Except Fault Value) (hresult : ∀ v, result = .ok v → ty.Fits .truth v) :
      (outcome (next result) t w').2.1.Each Record.Truthful := by
    obtain ⟨f, fault, binds, hf, hfits, hnext⟩ := hnext result hresult
    have hfilled : (t.update (s.records.length + 1) f).Each Record.Truthful := by
      refine ht.update fun r₁ hr₁ => ?_
      cases hr'.symm.trans hr₁
      have htruthful' := ht _ r' hr'
      refine htruthful'.of_fills ((Record.sameCode_of_known hknown).declaration.trans hr.declaration)
        ((Record.status_of_known hknown).trans hr.status) (hf r') fun ty' v hv => ?_
      rcases hfits r' ty' v hv with hkept | hv'
      · exact (htruthful'.holds ty' v hkept).1
      · exact hv'
    rw [hnext]
    exact hfilled.finish lasting_truthful
      (fun r₁ hr₁ => (hfilled _ r₁ hr₁).with_status (.inl Status.noConfusion)) fault binds
  cases ending with
  | value v => exact hplaced (.ok v) fun v' hv' => hvalue v' (by cases hv'; rfl)
  | fault f => exact hplaced (.error f) fun v' hv' => (by cases hv')
  | panicked message => exact ht
  | outOfFuel => exact ht

theorem each_declareVariable (name : String) {annotated : Option TypeExpr} {e : Expr}
    (htrusts : s.TrustsNothing annotated e) (piece : Slice) :
    (outcome (declareVariable calls fuel name annotated e piece) s w).2.1.Each Record.Truthful := by
  unfold declareVariable
  rw [outcome_bind, outcome_store]
  dsimp only
  cases hcheck : checkStrictly s (checkInitial annotated e) with
  | error error => exact each_reject heach w .declaration piece error
  | ok checked =>
    obtain ⟨ty, refs⟩ := checked
    dsimp only
    rw [outcome_bind, outcome_onStore]
    refine each_run hs heach calls fuel w s.nextValue ⟨rfl, rfl, rfl⟩ (truthful_of_empty rfl (.inl rfl)) rfl
      htrusts hcheck _ fun result hresult => ?_
    cases result with
    | ok v =>
      refine ⟨_, none, true, fun r => ⟨_, _, rfl, .inr ⟨_, _, rfl⟩⟩, fun r ty' v' hv => .inr ?_,
        fun _ _ => rfl⟩
      cases hv
      exact fits_settled (hresult v rfl)
    | error f =>
      refine ⟨_, some f.report, true, fun r => ⟨_, _, rfl, .inr ⟨_, _, rfl⟩⟩, fun r ty' v' hv => .inr ?_,
        fun _ _ => rfl⟩
      cases hv
      exact fits_settled (fits_default .truth ty)

theorem each_evaluateExpr {e : Expr} (htrusts : s.TrustsNothing none e) (piece : Slice) :
    (outcome (evaluateExpr calls fuel e piece) s w).2.1.Each Record.Truthful := by
  unfold evaluateExpr
  rw [outcome_bind, outcome_store, ← checkInitial_none]
  dsimp only
  cases hcheck : checkStrictly s (checkInitial none e) with
  | error error => exact each_reject heach w _ piece error
  | ok checked =>
    obtain ⟨ty, refs⟩ := checked
    dsimp only
    split
    · rw [outcome_bind, outcome_onStore]
      refine each_run hs heach calls fuel w s.nextValue ⟨rfl, rfl, rfl⟩ ?_ rfl htrusts hcheck _ ?_
      · exact truthful_of_empty rfl (.inl rfl)
      · exact fun result _ => ⟨fun r => { r with refs }, _, false, fun r => ⟨_, _, rfl, .inl rfl⟩,
          fun _ _ _ hv => .inl hv, fun _ _ => rfl⟩
    · rw [outcome_bind, outcome_store]
      dsimp only
      rw [outcome_bind, outcome_changeStore]
      dsimp only
      rw [outcome_bind, outcome_onStore]
      refine each_run hs heach calls fuel w (s.nextValue + 1) ⟨rfl, rfl, rfl⟩ ?_ rfl htrusts hcheck _ ?_
      · exact truthful_of_empty rfl (.inl rfl)
      · intro result hresult
        cases result with
        | ok v =>
          refine ⟨_, none, true, fun r => ⟨_, _, rfl, .inr ⟨_, _, rfl⟩⟩, fun r ty' v' hv => .inr ?_,
            fun _ _ => rfl⟩
          cases hv
          exact fits_settled (hresult v rfl)
        | error f =>
          -- an expression that fails gives its snippet no value and takes no name
          refine ⟨id, some f.report, false, fun r => ⟨_, _, rfl, .inl rfl⟩, fun _ _ _ hv => .inl hv,
            fun t w' => ?_⟩
          rw [Store.update_id]
          rfl

/-- A statement leaves true types behind, if the check takes nothing on trust in what it evaluates. -/
theorem each_evaluateStmt {stmt : Stmt}
    (htrusts : ∀ code ∈ outermost? stmt, s.TrustsNothing code.1 code.2) (piece : Slice) :
    (outcome (evaluateStmt calls fuel stmt piece) s w).2.1.Each Record.Truthful := by
  cases stmt with
  | bind p value keyword _ =>
    unfold evaluateStmt
    dsimp only
    split
    · exact each_reject heach w .declaration piece _
    · exact each_reject heach w .declaration piece _
    · rename_i name annotated e hbinding
      refine each_declareVariable hs heach calls fuel w name (htrusts (annotated, e) ?_) piece
      unfold outermost?
      dsimp only
      rw [hbinding]
      rfl
  | expr e _ _ => exact each_evaluateExpr hs heach calls fuel w (htrusts (none, e) rfl) piece
  | item i span =>
    cases i with
    | constant name type value =>
      exact each_declareVariable hs heach calls fuel w name (htrusts (some type, value) rfl) piece
    | function h body => exact each_declare heach w (.function h body) piece
    | struct d => exact each_declare heach w (.struct d) piece
    | imports t => exact each_importTree heach w t piece
    | other => exact each_reject heach w .declaration piece _

end

/-- What one step keeps. -/
theorem Step.truthful {calls : HostCalls σ} {s s' : Store} {w w' : σ} {happenings : List Happening}
    (h : Step calls s w happenings s' w') (hs : s.Sound) (heach : s.Each Record.Truthful)
    (htrusts : ∀ t stmt, .begun t stmt ∈ happenings →
      ∀ code ∈ outermost? stmt, t.TrustsNothing code.1 code.2) : s'.Each Record.Truthful := by
  cases h with
  | stmt fuel stmt piece =>
    exact each_evaluateStmt hs heach calls fuel w (htrusts s stmt List.mem_cons_self) piece
  | refuse kind source origin d => exact each_rejected heach kind source origin d
  | drop id => exact heach.drop lasting_truthful hs.bound id
  | host name object => exact heach.of_records_eq rfl
  | idle libraries output => exact heach.of_records_eq rfl

theorem Steps.truthful {calls : HostCalls σ} {s s' : Store} {w w' : σ} {happenings : List Happening}
    (h : Steps calls s w happenings s' w') (hs : s.Sound) (heach : s.Each Record.Truthful)
    (htrusts : ∀ t stmt, .begun t stmt ∈ happenings →
      ∀ code ∈ outermost? stmt, t.TrustsNothing code.1 code.2) : s'.Each Record.Truthful := by
  induction h with
  | none => exact heach
  | next step _ ih =>
    refine ih (step.operation hs).sound ?_ fun t stmt ht => htrusts t stmt (List.mem_append_right _ ht)
    exact step.truthful hs heach fun t stmt ht => htrusts t stmt (List.mem_append_left _ ht)

end Engine

/-- In every session that only evaluates, drops snippets and gives names to host objects, the type that is
stored with a variable is that of its value, as long as the check takes nothing on trust: a variable whose
initial value could not be had, and whose type has no value to take its place, holds the empty tuple. -/
theorem stored_types_are_true {σ : Type} (calls : HostCalls σ) (requests : List (Request σ))
    (hstops : ∀ request ∈ requests, request.stops = false) {w w' : σ} {events : List SnippetEvent}
    {s : Store} (hlive : Engine.live calls requests {} w = (events, s, w'))
    (htrusts : ∀ t stmt, .begun t stmt ∈ Engine.timeline calls requests {} w →
      ∀ code ∈ outermost? stmt, t.TrustsNothing code.1 code.2)
    {id : SnippetId} {r : Record} (hr : s.record? id = some r) {ty : Ty} {v : Value}
    (hdefinition : r.definition = .variable ty v) :
    ty = .unknown ∨ Ty.ofValue v = ty ∨ ty.isNamed = true ∧ v = .unit := by
  have hsteps := Engine.steps_timeline calls requests hstops {} w
  rw [hlive] at hsteps
  have hempty : ({} : Store).Each Record.Truthful := by
    intro id r hr
    unfold Store.record? at hr
    split at hr <;> cases hr
  have hs := hsteps.truthful Store.chronicled_empty.sound hempty htrusts
  rcases ((hs id r hr).holds ty v hdefinition).1 with h | h | h | ⟨h, -⟩
  · exact .inl h
  · exact .inr (.inl h)
  · exact .inr (.inr h)
  · cases h

/-- What the first snippet of a session holds in the end. -/
theorem exists_of_firstHeld (requests : List (Request Unit)) (p : Ty → Value → Bool)
    (h : (match (Engine.live errorCalls requests {} ()).2.1.record? 1 with
      | some r =>
        match r.definition with
        | .variable ty v => p ty v
        | _ => false
      | none => false) = true) :
    ∃ events s r ty v, Engine.live errorCalls requests {} () = (events, s, ()) ∧
      s.record? 1 = some r ∧ r.definition = .variable ty v ∧ p ty v = true := by
  split at h
  · rename_i r hr
    split at h
    · rename_i ty v hdefinition
      exact ⟨_, _, r, ty, v, rfl, hr, hdefinition, h⟩
    · cases h
  · cases h

/-- A number that is doubled by a function. -/
def doubledNumber : List (Request Unit) :=
  [.evaluate 20 "let n = 3;".toList,
    .evaluate 20 "fn double(k: i64) -> i64 \x7b if k > 2 \x7b return k * 2; \x7d k \x7d".toList,
    .evaluate 20 "n = double(n) + 1;".toList]

theorem type_of_doubledNumber :
    ∃ events s r v, Engine.live errorCalls doubledNumber {} () = (events, s, ()) ∧
      s.record? 1 = some r ∧ r.definition = .variable .int v ∧ Ty.ofValue v = .int := by
  obtain ⟨events, s, r, ty, v, hlive, hr, hdefinition, hp⟩ :=
    exists_of_firstHeld doubledNumber (fun ty _ => decide (ty = .int)) (by decide +kernel)
  obtain rfl : ty = .int := of_decide_eq_true hp
  refine ⟨events, s, r, v, hlive, hr, hdefinition, ?_⟩
  have hstops : ∀ request ∈ doubledNumber, request.stops = false := by decide
  have hlooked : ((Engine.timeline errorCalls doubledNumber {} ()).all fun
      | .begun t stmt => (outermost? stmt).all fun code => t.trustsNothing ["double"] 20 code.1 code.2
      | _ => true) = true := by decide +kernel
  have htrusts (t : Store) (stmt : Stmt)
      (ht : .begun t stmt ∈ Engine.timeline errorCalls doubledNumber {} ())
      (code : Option TypeExpr × Expr) (hcode : code ∈ outermost? stmt) : t.TrustsNothing code.1 code.2 := by
    have hall := List.all_eq_true.1 hlooked _ ht
    dsimp only at hall
    rw [hcode] at hall
    exact Store.trustsNothing_of_trustsNothing hall
  have htrue := stored_types_are_true errorCalls doubledNumber hstops hlive htrusts hr hdefinition
  simpa [Ty.isNamed] using htrue

/-- An element of a list, of which no type is known, is taken for a number. -/
def trustedElement : List (Request Unit) := [.evaluate 20 "let x: i64 = vec![\"a\"][0];".toList]

theorem stored_type_is_false :
    ∃ events s r v, Engine.live errorCalls trustedElement {} () = (events, s, ()) ∧
      s.record? 1 = some r ∧ r.definition = .variable .int v ∧ Ty.ofValue v = .str := by
  obtain ⟨events, s, r, ty, v, hlive, hr, hdefinition, hp⟩ := exists_of_firstHeld trustedElement
    (fun ty v => decide (ty = .int ∧ Ty.ofValue v = .str)) (by decide +kernel)
  obtain ⟨rfl, hv⟩ := of_decide_eq_true hp
  exact ⟨events, s, r, v, hlive, hr, hdefinition, hv⟩

end Notebook.Guest

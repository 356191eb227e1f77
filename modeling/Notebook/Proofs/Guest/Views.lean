import Notebook.Proofs.Guest.Reached
import Notebook.Proofs.Guest.Truth

/-!
# The views of a name

Code is checked by what its names stand for, and it runs by reading, writing and calling them.  These are four
ways of looking a name up, and each of them asks something else of the snippet that the name is bound to.
They agree in every state that an engine can be in (`views_of_names_agree`), because a snippet that holds a value
never waits for anything (`Record.Firm`): what a name is bound to can then be read if it can be written.
-/

namespace Notebook.Guest
open Notebook.Text Notebook.Syntax

/-! ## Snippets that hold a value -/

/-- If the snippet holds a value, it is no declaration to be looked at again, and it waits for nothing. -/
def Record.Firm (r : Record) : Prop :=
  ∀ ty v, r.definition = .variable ty v → r.declaration = none ∧ r.status ≠ .recoverableUndefined

theorem Record.Firm.rechecked {r : Record} (hr : r.Firm) {d : Declaration} (hd : r.declaration = some d)
    (g : Globals) : (r.rechecked d g).Firm := by
  intro ty v hdefinition
  unfold Record.rechecked at hdefinition
  split at hdefinition
  · -- what is refused keeps its definition, and a declaration has no value
    cases hd.symm.trans (hr ty v hdefinition).1
  · rename_i a ha
    exact absurd hdefinition ((definition_of_analyze ha).1 ty v)

theorem Record.Firm.with_status {r : Record} (hr : r.Firm) {status : Status}
    (h : status ≠ .recoverableUndefined) : ({ r with status } : Record).Firm :=
  fun ty v hdefinition => ⟨(hr ty v hdefinition).1, h⟩

theorem lasting_firm : Record.Lasting Record.Firm :=
  ⟨fun _ _ g hr hd => hr.rechecked hd g, fun _ hr => hr.with_status Status.noConfusion,
    fun _ hr => hr.with_status Status.noConfusion⟩

theorem Record.Plain.firm {r : Record} (hr : r.Plain) : r.Firm := by
  intro ty v _
  rw [hr.status]
  exact ⟨hr.declaration, Status.noConfusion⟩

theorem Record.Firm.of_known {r r' : Record} (hr : r.Firm) (h : r'.known = r.known) : r'.Firm := by
  intro ty v hdefinition
  have hknown : r'.definition.known = r.definition.known := congrArg Record.definition h
  rw [hdefinition] at hknown
  obtain ⟨v₀, hv₀⟩ : ∃ v₀, r.definition = .variable ty v₀ := by
    cases hd : r.definition <;> rw [hd] at hknown <;> cases hknown
    exact ⟨_, rfl⟩
  rw [(Record.sameCode_of_known h).declaration, Record.status_of_known h]
  exact hr ty v₀ hv₀

/-- A new snippet that is no declaration waits for nothing, whatever running its code has given it. -/
theorem Record.Plain.firm_of_fills {r r' r'' : Record} (hr : r.Plain) (hknown : r'.known = r.known)
    (hfills : r'.Fills r'') : r''.Firm := by
  obtain ⟨definition, refs, rfl, -⟩ := hfills
  intro ty v _
  show r'.declaration = none ∧ r'.status ≠ .recoverableUndefined
  rw [(Record.sameCode_of_known hknown).declaration, Record.status_of_known hknown]
  rw [hr.status]
  exact ⟨hr.declaration, Status.noConfusion⟩

namespace Store

variable {s t : Store}

theorem Each.firm_sameBut (hs : s.Each Record.Firm) (h : s.SameBut t) : t.Each Record.Firm := by
  intro id r hr
  obtain ⟨r', hr', hknown⟩ := h.symm.of_record? hr
  exact (hs id r' hr').of_known hknown.symm

/-- What a statement leaves if it is broken off. -/
theorem Each.firm_breaks (hs : s.Each Record.Firm) (h : s.Breaks t) : t.Each Record.Firm := by
  obtain ⟨nextValue, r, hnew, hruns⟩ := h
  have hcounted : ({ s with nextValue } : Store).Each Record.Firm := hs.of_records_eq rfl
  exact (hcounted.allocate hnew.firm).firm_sameBut hruns.sameBut

theorem Each.firm_makes (hs : s.Each Record.Firm) {made : List SnippetEvent × Store} (h : s.Makes made) :
    made.2.Each Record.Firm := by
  cases h with
  | refuses kind source origin d =>
    have hplain : Record.Plain { kind, source, name := none, origin, diagnostics := [d] } := ⟨rfl, rfl, rfl⟩
    have hallocated := hs.allocate hplain.firm
    exact hallocated.finish lasting_firm
      (fun r hr => (hallocated _ r hr).with_status Status.noConfusion) none false
  | declares d a piece ha =>
    -- a declaration has no value, whatever status it comes to
    have hvalueless (status : Status) : ({ d.made a piece with status } : Record).Firm :=
      fun ty v hdefinition => absurd hdefinition ((definition_of_analyze ha).1 ty v)
    have hallocated := hs.allocate (hvalueless .nonexistent)
    refine hallocated.finish lasting_firm (fun r hr => ?_) none true
    rw [record?_allocate, if_pos rfl] at hr
    cases hr
    exact hvalueless a.status
  | runs nextValue r t f fault binds hnew hruns hf =>
    have hran := hs.firm_breaks ⟨nextValue, r, hnew, hruns⟩
    have hself : ({ s with nextValue }.allocate r).2.record? (s.records.length + 1) = some r := by
      rw [record?_allocate, if_pos rfl]
    obtain ⟨r', hr', hknown⟩ := hruns.sameBut.of_record? hself
    have hfilled : (t.update (s.records.length + 1) f).Each Record.Firm := by
      refine hran.update fun r₁ hr₁ => ?_
      cases hr'.symm.trans hr₁
      exact hnew.firm_of_fills hknown (hf r')
    exact hfilled.finish lasting_firm
      (fun r₁ hr₁ => (hfilled _ r₁ hr₁).with_status Status.noConfusion) fault binds

end Store

namespace Engine

variable {σ : Type} {calls : HostCalls σ} {s t : Store} {w v : σ}

theorem firm_evaluateStmt (fuel : Nat) (stmt : Stmt) (piece : Slice) (hs : s.Each Record.Firm) (w : σ) :
    (outcome (evaluateStmt calls fuel stmt piece) s w).2.1.Each Record.Firm := by
  have hyields := evaluateStmt_makes calls fuel s w stmt piece
  rcases hstmt : outcome (evaluateStmt calls fuel stmt piece) s w with ⟨i | events, s', w'⟩
  · rw [hstmt] at hyields
    exact hs.firm_breaks hyields
  · rw [hstmt] at hyields
    exact hs.firm_makes hyields

theorem Step.firm {happenings : List Happening} (h : Step calls s w happenings t v) (hbound : s.Bound)
    (hs : s.Each Record.Firm) : t.Each Record.Firm := by
  cases h with
  | stmt fuel stmt piece => exact firm_evaluateStmt fuel stmt piece hs w
  | refuse kind source origin d => exact hs.firm_makes (.refuses kind source origin d)
  | drop id => exact hs.drop lasting_firm hbound id
  | host name object => exact hs.of_records_eq rfl
  | idle libraries output => exact hs.of_records_eq rfl

/-- In every state of an engine, a snippet that holds a value waits for nothing. -/
theorem Reached.firm (h : Reached calls s w) : s.Each Record.Firm :=
  h.of_steps (fun step hbound hs => step.firm hbound hs) Store.each_empty fun _ hs => hs.of_records_eq rfl

end Engine

/-! ## Looking names up -/

/-- The value that a definition holds. -/
def Definition.value? : Definition → Option Value
  | .variable _ v => some v
  | _ => Option.none

theorem Definition.exists_of_value? {d : Definition} {v : Value} (h : d.value? = some v) :
    ∃ ty, d = .variable ty v := by
  cases d <;> cases h
  exact ⟨_, rfl⟩

namespace Store

variable {s : Store} {n : String}

/-- The snippet that a name is bound to holds the value, whether the snippet is defined or not. -/
def Stores (s : Store) (n : String) (v : Value) : Prop :=
  ∃ id r ty, s.binding? n = some id ∧ s.record? id = some r ∧ r.definition = .variable ty v

/-- Every value that a name is bound to belongs to a snippet that is defined. -/
def ValuesDefined (s : Store) : Prop :=
  ∀ n id r ty v, s.binding? n = some id → s.record? id = some r → r.definition = .variable ty v →
    r.status.isDefined = true

theorem Each.valuesDefined (hs : s.Each Record.Firm) (hbound : s.Bound) : s.ValuesDefined := by
  intro n id r ty v hid hr hdefinition
  obtain ⟨r', hr', -, hactive⟩ := hbound n id hid
  cases hr.symm.trans hr'
  exact isDefined_of_isActive hactive (hs id r hr ty v hdefinition).2

/-- A name is a variable to the check if a defined snippet holds a value under it. -/
theorem globals_eq_variable_iff {ty : Ty} :
    s.globals n = some (.variable ty) ↔ ∃ r v, s.bound? n = some r ∧ r.definition = .variable ty v := by
  rw [globals_eq]
  constructor
  · intro h
    cases hbound : s.bound? n with
    | none =>
      rw [hbound] at h
      obtain ⟨object, -, hkind⟩ := Option.map_eq_some_iff.1 h
      cases hkind
    | some r =>
      rw [hbound] at h
      obtain ⟨v, hdefinition⟩ := Definition.eq_variable_of_kind? h
      exact ⟨r, v, rfl, hdefinition⟩
  · rintro ⟨r, v, hbound, hdefinition⟩
    rw [hbound]
    show r.definition.kind? = _
    rw [hdefinition]
    rfl

theorem globals_eq_host_iff {type : String} {methods : List MethodDoc} :
    s.globals n = some (.host type methods) ↔
      s.bound? n = none ∧ ∃ object, s.host? n = some object ∧ object.typeName = type ∧ object.methods = methods := by
  rw [globals_eq]
  cases hbound : s.bound? n with
  | none => simp only [Option.map_eq_some_iff, GlobalKind.host.injEq, true_and]
  | some r =>
    -- no snippet is a host object
    have hkind : r.definition.kind? ≠ some (.host type methods) := by
      cases r.definition <;> exact fun h => by cases h
    exact ⟨fun h => absurd h hkind, fun h => by cases h.1⟩

/-- Where every value is defined, what can be read of a snippet is what the snippet holds. -/
theorem ValuesDefined.stores_iff (hs : s.ValuesDefined) {v : Value} :
    s.Stores n v ↔ ∃ r ty, s.bound? n = some r ∧ r.definition = .variable ty v := by
  constructor
  · rintro ⟨id, r, ty, hid, hr, hdefinition⟩
    exact ⟨r, ty, bound?_eq_some_iff.2 ⟨id, hid, hr, hs n id r ty v hid hr hdefinition⟩, hdefinition⟩
  · rintro ⟨r, ty, hbound, hdefinition⟩
    obtain ⟨id, hid, hr, -⟩ := bound?_eq_some_iff.1 hbound
    exact ⟨id, r, ty, hid, hr, hdefinition⟩

theorem read?_of_bound? {r : Record} (h : s.bound? n = some r) : s.read? n = r.definition.value? := by
  unfold read?
  rw [h]
  dsimp only
  cases r.definition <;> rfl

theorem read?_of_unbound (h : s.bound? n = none) : s.read? n = (s.host? n).map .host := by
  unfold read?
  rw [h]

theorem ValuesDefined.read?_of_stores (hs : s.ValuesDefined) {v : Value} (h : s.Stores n v) : s.read? n = some v := by
  obtain ⟨r, ty, hbound, hdefinition⟩ := hs.stores_iff.1 h
  rw [read?_of_bound? hbound, hdefinition]
  rfl

theorem isSome_write?_iff (v : Value) : (s.write? n v).isSome = true ↔ ∃ v₀, s.Stores n v₀ := by
  rw [Option.isSome_iff_exists]
  unfold write?
  simp only [Option.bind_eq_bind, Option.bind_eq_some_iff]
  constructor
  · rintro ⟨t, id, hid, r, hr, hwrite⟩
    split at hwrite
    · rename_i ty v₀ hdefinition
      exact ⟨v₀, id, r, ty, hid, hr, hdefinition⟩
    · cases hwrite
  · rintro ⟨v₀, id, r, ty, hid, hr, hdefinition⟩
    refine ⟨s.update id fun r => { r with definition := .variable ty v }, id, hid, r, hr, ?_⟩
    rw [hdefinition]

/-- A function can be called or waits for names exactly if it is defined. -/
theorem isSome_callee?_iff :
    (s.callee? n).isSome = true ↔ ∃ r f, s.bound? n = some r ∧ r.definition = .function f := by
  rw [Option.isSome_iff_exists]
  constructor
  · rintro ⟨callee, hcallee⟩
    obtain ⟨id, r, hid, hr, hcallee⟩ := callee?_eq_some_iff.1 hcallee
    unfold Record.callee? at hcallee
    split at hcallee
    · rename_i f hdefinition hstatus
      exact ⟨r, f, bound?_eq_some_iff.2 ⟨id, hid, hr, by rw [hstatus]; rfl⟩, hdefinition⟩
    · rename_i f hdefinition hstatus
      exact ⟨r, f, bound?_eq_some_iff.2 ⟨id, hid, hr, by rw [hstatus]; rfl⟩, hdefinition⟩
    · cases hcallee
  · rintro ⟨r, f, hbound, hdefinition⟩
    obtain ⟨id, hid, hr, hdefined⟩ := bound?_eq_some_iff.1 hbound
    have hcallee : ∃ callee, r.callee? id = some callee := by
      unfold Record.callee?
      rw [hdefinition]
      revert hdefined
      cases r.status <;> intro hdefined
      case valid => exact ⟨_, rfl⟩
      case recoverableDefined => exact ⟨_, rfl⟩
      all_goals cases hdefined
    obtain ⟨callee, hcallee⟩ := hcallee
    exact ⟨callee, callee?_eq_some_iff.2 ⟨id, r, hid, hr, hcallee⟩⟩

/-- What the check takes a name for is what code that runs finds under it. -/
structure ViewsAgree (s : Store) (n : String) : Prop where
  /-- What is read of a variable is the value that a snippet holds. -/
  read : (∃ ty, s.globals n = some (.variable ty)) ↔ ∃ v, s.read? n = some v ∧ s.Stores n v
  write : ∀ v, (∃ ty, s.globals n = some (.variable ty)) ↔ (s.write? n v).isSome = true
  callee : (∃ params result, s.globals n = some (.function params result)) ↔ (s.callee? n).isSome = true
  /-- A host object is found where no defined snippet stands before it. -/
  host : (∃ type methods, s.globals n = some (.host type methods)) ↔
    s.bound? n = none ∧ ∃ object, s.host? n = some object ∧ s.read? n = some (.host object)
  /-- Anything else can be neither read nor called. -/
  absent : s.globals n = some .struct ∨ s.globals n = none →
    s.read? n = none ∧ s.callee? n = none ∧ ∀ v, s.write? n v = none
  /-- An assignment to anything else fails and changes nothing. -/
  unassignable : s.globals n = some .struct ∨ s.globals n = none →
    ∀ {σ : Type} (m : Machine σ) (v : Value), m.store = s → assignLocal? n v m.scopes = none →
      (Run.assign n v : Run σ Unit).run.run m =
        (.error (.fault ⟨.unassignable n, m.frames.map Frame.label ++ bridgeFrames⟩), m)

theorem ValuesDefined.exists_variable_iff (hs : s.ValuesDefined) :
    (∃ ty, s.globals n = some (.variable ty)) ↔ ∃ v, s.Stores n v := by
  simp only [globals_eq_variable_iff, hs.stores_iff]
  constructor
  · rintro ⟨ty, r, v, h⟩
    exact ⟨v, r, ty, h⟩
  · rintro ⟨v, r, ty, h⟩
    exact ⟨ty, r, v, h⟩

theorem exists_function_iff :
    (∃ params result, s.globals n = some (.function params result)) ↔ (s.callee? n).isSome = true := by
  rw [isSome_callee?_iff]
  constructor
  · rintro ⟨params, result, h⟩
    obtain ⟨id, r, f, hid, hr, hdefined, hdefinition, -⟩ := globals_eq_function_iff.1 h
    exact ⟨r, f, bound?_eq_some_iff.2 ⟨id, hid, hr, hdefined⟩, hdefinition⟩
  · rintro ⟨r, f, hbound, hdefinition⟩
    obtain ⟨id, hid, hr, hdefined⟩ := bound?_eq_some_iff.1 hbound
    exact ⟨_, _, globals_eq_function_iff.2 ⟨id, r, f, hid, hr, hdefined, hdefinition, rfl, rfl⟩⟩

theorem ValuesDefined.isSome_write?_iff (hs : s.ValuesDefined) (v : Value) :
    (∃ ty, s.globals n = some (.variable ty)) ↔ (s.write? n v).isSome = true :=
  hs.exists_variable_iff.trans (Store.isSome_write?_iff v).symm

/-- A name that is a struct or nothing to the check is nothing to the code that runs. -/
theorem ValuesDefined.absent (hs : s.ValuesDefined) (h : s.globals n = some .struct ∨ s.globals n = none) :
    s.read? n = none ∧ s.callee? n = none ∧ ∀ v, s.write? n v = none := by
  have hvariable : ¬ ∃ ty, s.globals n = some (.variable ty) := by
    rintro ⟨ty, hty⟩
    rcases h with h | h <;> cases h.symm.trans hty
  have hfunction : ¬ ∃ params result, s.globals n = some (.function params result) := by
    rintro ⟨params, result, hfunction⟩
    rcases h with h | h <;> cases h.symm.trans hfunction
  refine ⟨?_, ?_, fun v => ?_⟩
  · cases hbound : s.bound? n with
    | none =>
      -- a host object would be seen by the check as well
      rw [read?_of_unbound hbound]
      rw [globals_eq, hbound] at h
      cases hhost : s.host? n with
      | none => rfl
      | some object =>
        rw [hhost] at h
        rcases h with h | h <;> cases h
    | some r =>
      rw [read?_of_bound? hbound]
      refine Option.eq_none_iff_forall_ne_some.2 fun v hv => hvariable ?_
      obtain ⟨ty, hdefinition⟩ := Definition.exists_of_value? hv
      exact ⟨ty, globals_eq_variable_iff.2 ⟨r, v, hbound, hdefinition⟩⟩
  · rw [exists_function_iff] at hfunction
    exact Option.not_isSome_iff_eq_none.1 hfunction
  · rw [hs.isSome_write?_iff v] at hvariable
    exact Option.not_isSome_iff_eq_none.1 hvariable

/-- Where every value is defined, the views of a name agree. -/
theorem ValuesDefined.viewsAgree (hs : s.ValuesDefined) (n : String) : s.ViewsAgree n := by
  refine ⟨?_, hs.isSome_write?_iff, exists_function_iff, ?_, hs.absent, fun h σ m v hm hlocal => ?_⟩
  · rw [hs.exists_variable_iff]
    exact exists_congr fun v => ⟨fun h => ⟨hs.read?_of_stores h, h⟩, fun h => h.2⟩
  · simp only [globals_eq_host_iff]
    constructor
    · rintro ⟨_, _, hbound, object, hobject, rfl, rfl⟩
      refine ⟨hbound, object, hobject, ?_⟩
      rw [read?_of_unbound hbound, hobject]
      rfl
    · rintro ⟨hbound, object, hobject, -⟩
      exact ⟨_, _, hbound, object, hobject, rfl, rfl⟩
  · rw [Run.assign_run, hlocal, hm]
    dsimp only
    rw [(hs.absent h).2.2 v]
    rfl

end Store

/-- In every state that an engine can be in, the check and the code that runs see the same in every name. -/
theorem views_of_names_agree {σ : Type} {calls : HostCalls σ} {s : Store} {w : σ}
    (h : Engine.Reached calls s w) (n : String) : s.ViewsAgree n :=
  (h.firm.valuesDefined h.bound).viewsAgree n

/-- A variable, a function, a struct, and a host object whose name a struct has that waits. -/
def namesOfAllKinds : List (Request Unit) :=
  [.evaluate 20 "let x = 5;".toList, .evaluate 20 "fn f(k: i64) -> i64 \x7b k + x \x7d".toList,
    .evaluate 20 "struct T \x7b k: i64 \x7d".toList, .evaluate 20 "struct P \x7b q: Q \x7d".toList,
    .bindHost "P" ⟨"Probe", 0, []⟩]

theorem namesOfAllKinds_are_seen :
    ∃ s, Engine.Reached errorCalls s () ∧ (∃ v, s.read? "x" = some v ∧ s.Stores "x" v) ∧
      (s.write? "x" (.int 7)).isSome = true ∧ (s.callee? "f").isSome = true ∧
      (s.bound? "P" = none ∧ ∃ object, s.host? "P" = some object ∧ s.read? "P" = some (.host object)) ∧
      s.read? "T" = none ∧ s.callee? "T" = none ∧ ∀ v, s.write? "T" v = none := by
  have hstart : Engine.Reached errorCalls {} () := .start ()
  have hreached := hstart.live namesOfAllKinds
  obtain ⟨hvariable, hfunction, hhost, hstruct⟩ :
      let g := (Engine.live errorCalls namesOfAllKinds {} ()).2.1.globals
      g "x" = some (.variable .int) ∧ g "f" = some (.function [.int] .int) ∧
        g "P" = some (.host "Probe" []) ∧ g "T" = some .struct := by
    decide +kernel
  refine ⟨_, hreached, ?_, ?_, ?_, ?_, ?_⟩
  · exact (views_of_names_agree hreached "x").read.1 ⟨_, hvariable⟩
  · exact ((views_of_names_agree hreached "x").write (.int 7)).1 ⟨_, hvariable⟩
  · exact (views_of_names_agree hreached "f").callee.1 ⟨_, _, hfunction⟩
  · exact (views_of_names_agree hreached "P").host.1 ⟨_, _, hhost⟩
  · exact (views_of_names_agree hreached "T").absent (.inl hstruct)

end Notebook.Guest

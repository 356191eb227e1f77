import Notebook.Proofs.Guest.History

/-!
# Stores that a session can come to

A declaration that takes part in the session has its name (`Store.Sound`), so that a name stands for a
struct exactly if a valid struct has it (`Store.Sound.globals_eq_struct_iff`).
-/

namespace Notebook.Guest
open Notebook.Syntax

/-- The parts of a snippet fit together. -/
structure Record.Fine (r : Record) : Prop where
  named : ∀ d, r.declaration = some d → r.name = some d.name
  defines : r.definition.isStruct = true ↔ ∃ d, r.declaration = some (.struct d)
  readable : ∀ d, r.declaration = some (.struct d) → d.generics = none ∧ Readable d.fields
  mentions : ∀ d, r.declaration = some (.struct d) → ∀ name ∈ fieldNames d.fields, name ∈ r.refs
  status : ∀ d, r.declaration = some (.struct d) → r.status ≠ .recoverableDefined

namespace Store

/-- The parts of a store fit together. -/
structure Sound (s : Store) : Prop where
  bound : s.Bound
  fine : ∀ id r, s.record? id = some r → r.Fine
  inUse : ∀ id r d, s.record? id = some r → r.declaration = some d → r.status.isActive = true →
    s.binding? d.name = some id

/-- The struct that a snippet declares. -/
def struct? (s : Store) (id : SnippetId) : Option StructDecl :=
  match (s.record? id).bind (·.declaration) with
  | some (.struct d) => some d
  | _ => none

theorem struct?_eq_some_iff {s : Store} {id : SnippetId} {d : StructDecl} :
    s.struct? id = some d ↔ ∃ r, s.record? id = some r ∧ r.declaration = some (.struct d) := by
  unfold struct?
  cases hr : s.record? id with
  | none => simp
  | some r =>
    cases hd : r.declaration with
    | none => simp [hd]
    | some declaration => cases declaration <;> simp [hd]

theorem struct?_congr {s t : Store} {id : SnippetId} (h : t.record? id = s.record? id) :
    t.struct? id = s.struct? id := by
  unfold struct?
  rw [h]

/-- There is a valid struct of the name. -/
def HasStruct (s : Store) (name : String) : Prop :=
  ∃ id d, s.struct? id = some d ∧ d.name = name ∧ s.status id = .valid

/-- The name is bound to a valid struct. -/
def NamesStruct (s : Store) (name : String) : Prop :=
  ∃ id d, s.binding? name = some id ∧ s.struct? id = some d ∧ s.status id = .valid

theorem Sound.name_eq_of_binding? {s : Store} (hs : s.Sound) {name : String} {id : SnippetId}
    {d : StructDecl} (hid : s.binding? name = some id) (hd : s.struct? id = some d) :
    d.name = name := by
  obtain ⟨r, hr, hd⟩ := struct?_eq_some_iff.1 hd
  obtain ⟨r', hr', hname, -⟩ := hs.bound name id hid
  rw [hr] at hr'
  cases hr'
  have hnamed := (hs.fine id r hr).named _ hd
  rw [hname] at hnamed
  exact (Option.some.inj hnamed).symm

theorem Sound.binding?_of_struct? {s : Store} (hs : s.Sound) {id : SnippetId} {d : StructDecl}
    (hd : s.struct? id = some d) (hactive : (s.status id).isActive = true) :
    s.binding? d.name = some id := by
  obtain ⟨r, hr, hd⟩ := struct?_eq_some_iff.1 hd
  rw [status_of_record? hr] at hactive
  exact hs.inUse id r _ hr hd hactive

theorem Sound.namesStruct_iff {s : Store} (hs : s.Sound) (name : String) :
    s.NamesStruct name ↔ s.HasStruct name := by
  constructor
  · rintro ⟨id, d, hid, hd, hvalid⟩
    exact ⟨id, d, hd, hs.name_eq_of_binding? hid hd, hvalid⟩
  · rintro ⟨id, d, hd, rfl, hvalid⟩
    refine ⟨id, d, hs.binding?_of_struct? hd ?_, hd, hvalid⟩
    rw [hvalid]
    rfl

/-- A struct that is defined is valid. -/
theorem Sound.isDefined_iff {s : Store} (hs : s.Sound) {id : SnippetId} {d : StructDecl}
    (hd : s.struct? id = some d) : (s.status id).isDefined = true ↔ s.status id = .valid := by
  obtain ⟨r, hr, hd⟩ := struct?_eq_some_iff.1 hd
  have hstatus := (hs.fine id r hr).status d hd
  rw [status_of_record? hr]
  revert hstatus
  cases r.status <;> decide

/-- A name stands for a struct if and only if a valid struct has it. -/
theorem Sound.globals_eq_struct_iff {s : Store} (hs : s.Sound) (name : String) :
    s.globals name = some .struct ↔ s.HasStruct name := by
  rw [← hs.namesStruct_iff]
  constructor
  · intro h
    unfold globals at h
    cases hbound : s.bound? name with
    | none =>
      rw [hbound] at h
      dsimp only at h
      cases hhost : s.host? name <;> rw [hhost] at h <;> cases h
    | some r =>
      rw [hbound] at h
      dsimp only at h
      simp only [bound?, Option.bind_eq_bind, Option.bind_eq_some_iff] at hbound
      obtain ⟨id, hid, r', hr, hdefined⟩ := hbound
      split at hdefined
      · rename_i hisDefined
        cases hdefined
        -- what a name stands for is read off the definition, which is one of a struct only for declared ones
        have hstruct : r.definition.isStruct = true := by
          cases hdefinition : r.definition with
          | struct signature doc => rfl
          | _ =>
            rw [hdefinition] at h
            cases h
        obtain ⟨d, hd⟩ := (hs.fine id r hr).defines.1 hstruct
        have hd' := struct?_eq_some_iff.2 ⟨r, hr, hd⟩
        refine ⟨id, d, hid, hd', (hs.isDefined_iff hd').1 ?_⟩
        rw [status_of_record? hr]
        exact hisDefined
      · cases hdefined
  · rintro ⟨id, d, hid, hd, hvalid⟩
    obtain ⟨r, hr, hd⟩ := struct?_eq_some_iff.1 hd
    rw [status_of_record? hr] at hvalid
    have hbound : s.bound? name = some r := by
      simp only [bound?, Option.bind_eq_bind, hid, hr, Option.bind_some, hvalid]
      rfl
    have hstruct := (hs.fine id r hr).defines.2 ⟨d, hd⟩
    unfold globals
    rw [hbound]
    dsimp only
    cases hdefinition : r.definition with
    | struct signature doc => rfl
    | _ =>
      rw [hdefinition] at hstruct
      cases hstruct

/-! ## Changes that keep a store sound -/

theorem Sound.of_eq {s s' : Store} (hs : s.Sound) (hbindings : s'.bindings = s.bindings)
    (hbound : s'.Bound) (hfine : ∀ id r, s'.record? id = some r → r.Fine)
    (hinUse : ∀ id r d, s'.record? id = some r → r.declaration = some d →
      r.status.isActive = true →
        ∃ r', s.record? id = some r' ∧ r'.declaration = some d ∧ r'.status.isActive = true) :
    s'.Sound := by
  refine ⟨hbound, hfine, fun id r d hr hd hactive => ?_⟩
  obtain ⟨r', hr', hd', hactive'⟩ := hinUse id r d hr hd hactive
  rw [binding?, hbindings]
  exact hs.inUse id r' d hr' hd' hactive'

end Store

theorem Record.Plain.fine {r : Record} (h : r.Plain) : r.Fine := by
  refine ⟨?_, ?_, ?_, ?_, ?_⟩
  · intro d hd
    rw [h.declaration] at hd
    cases hd
  · rw [h.definition, h.declaration]
    exact ⟨fun hfalse => (Bool.false_ne_true hfalse).elim, fun ⟨d, hd⟩ => (Option.some_ne_none _ hd.symm).elim⟩
  all_goals
    intro d hd
    rw [h.declaration] at hd
    cases hd

theorem isStruct_known (d : Definition) : d.known.isStruct = d.isStruct := by
  cases d <;> rfl

theorem Record.Fine.of_known {r r' : Record} (hr : r.Fine) (h : r'.known = r.known) : r'.Fine := by
  have hsame := Record.sameCode_of_known h
  have hrefs : r'.refs = r.refs := by
    have := congrArg Record.refs h
    exact this
  have hstruct : r'.definition.isStruct = r.definition.isStruct := by
    have := congrArg (fun r => r.definition.isStruct) h
    exact (isStruct_known _).symm.trans (this.trans (isStruct_known _))
  refine ⟨?_, ?_, ?_, ?_, ?_⟩
  · rw [hsame.declaration, hsame.name]
    exact hr.named
  · rw [hstruct, hsame.declaration]
    exact hr.defines
  · rw [hsame.declaration]
    exact hr.readable
  · rw [hsame.declaration, hrefs]
    exact hr.mentions
  · rw [hsame.declaration, Record.status_of_known h]
    exact hr.status

/-- A snippet that has come to another status. -/
theorem Record.Fine.with_status {r : Record} (hr : r.Fine) {status : Status}
    (h : ∀ d, r.declaration = some (.struct d) → status ≠ .recoverableDefined) :
    ({ r with status } : Record).Fine :=
  ⟨hr.named, hr.defines, hr.readable, hr.mentions, h⟩

theorem Record.Fine.of_fills {r r' : Record} (hr : r.Fine) (hplain : r.declaration = none)
    (h : r.Fills r') : r'.Fine := by
  obtain ⟨definition, refs, rfl, hdefinition⟩ := h
  have hnone (d : Declaration) : r.declaration ≠ some d := by
    rw [hplain]
    intro heq
    cases heq
  refine ⟨hr.named, ?_, fun d hd => (hnone _ hd).elim, fun d hd => (hnone _ hd).elim,
    fun d hd => (hnone _ hd).elim⟩
  rcases hdefinition with rfl | ⟨ty, v, rfl⟩
  · exact hr.defines
  · exact ⟨fun h => (Bool.false_ne_true h).elim, fun ⟨d, hd⟩ => (hnone _ hd).elim⟩

/-- A function is no struct, whatever it waits for. -/
theorem isStruct_of_analyzeFunction {g : Globals} {header : FnHeader} {body : Block} {a : Analysis}
    (h : analyzeFunction g header body = .ok a) : a.definition.isStruct = false := by
  obtain ⟨⟨f, hf⟩, -⟩ := analyzeFunction_ok h
  rw [hf]
  rfl

/-- The snippet of a declaration that has been understood. -/
theorem Declaration.fine_made {d : Declaration} {g : Globals} {a : Analysis} (h : d.analyze g = .ok a)
    (piece : Slice) : (d.made a piece).Fine := by
  have hstatus : ∀ d' : StructDecl, (d.made a piece).declaration = some (.struct d') →
      (d.made a piece).status ≠ .recoverableDefined := fun _ _ => Status.noConfusion
  have hnamed : ∀ d', (d.made a piece).declaration = some d' →
      (d.made a piece).name = some d'.name := by
    rintro d' hd'
    cases hd'
    rfl
  cases d with
  | function header body =>
    refine ⟨hnamed, ?_, ?_, ?_, hstatus⟩
    · have hstruct : ((Declaration.function header body).made a piece).definition.isStruct = false :=
        isStruct_of_analyzeFunction h
      rw [hstruct]
      exact ⟨fun h => (Bool.false_ne_true h).elim, fun ⟨d, hd⟩ => by cases hd⟩
    · intro d hd
      cases hd
    · intro d hd
      cases hd
  | struct d =>
    obtain ⟨hgenerics, hreadable⟩ := readable_of_analyzeStruct h
    obtain ⟨signature, doc, heq⟩ := analyzeStruct_eq hgenerics hreadable
    obtain rfl := Except.ok.inj ((heq g).symm.trans h)
    refine ⟨hnamed, ⟨fun _ => ⟨d, rfl⟩, fun _ => rfl⟩, ?_, ?_, hstatus⟩
    · rintro d' hd'
      cases hd'
      exact ⟨hgenerics, hreadable⟩
    · rintro d' hd' name hname
      cases hd'
      exact (mem_foldl_insertNew name _ _).2 (.inl hname)

theorem Record.rechecked_of_struct {r : Record} {d : StructDecl} (hgenerics : d.generics = none)
    (hreadable : Readable d.fields) :
    ∃ signature doc, ∀ g, r.rechecked (.struct d) g =
      { r with
        status := if (missingNames g d).isEmpty then .valid else .recoverableUndefined
        diagnostics := []
        unresolved := missingNames g d
        definition := .struct signature doc
        refs := ((fieldNames d.fields).foldl (fun names n => insertNew n names) []).foldl
          (fun names n => insertNew n names) r.refs } := by
  obtain ⟨signature, doc, heq⟩ := analyzeStruct_eq hgenerics hreadable
  refine ⟨signature, doc, fun g => ?_⟩
  have hanalyze : (Declaration.struct d).analyze g = analyzeStruct g d := rfl
  unfold Record.rechecked
  rw [hanalyze, heq g]

theorem Record.Fine.rechecked {r : Record} (hr : r.Fine) {d : Declaration}
    (hd : r.declaration = some d) (g : Globals) : (r.rechecked d g).Fine := by
  have hsame := Record.sameCode_rechecked r d g
  have hnamed : ∀ d', (r.rechecked d g).declaration = some d' →
      (r.rechecked d g).name = some d'.name := by
    rw [hsame.declaration, hsame.name]
    exact hr.named
  cases d with
  | function header body =>
    have hnone (d' : StructDecl) :
        (r.rechecked (.function header body) g).declaration ≠ some (.struct d') := by
      rw [hsame.declaration, hd]
      intro heq
      cases heq
    refine ⟨hnamed, ⟨fun hstruct => ?_, fun ⟨d', hd'⟩ => (hnone d' hd').elim⟩,
      fun d' hd' => (hnone d' hd').elim, fun d' hd' => (hnone d' hd').elim,
      fun d' hd' => (hnone d' hd').elim⟩
    unfold Record.rechecked at hstruct
    split at hstruct
    · -- a function that is not understood any more keeps its definition
      obtain ⟨d', hd'⟩ := hr.defines.1 hstruct
      rw [hd] at hd'
      cases hd'
    · rename_i a ha
      have hfalse := isStruct_of_analyzeFunction ha
      rw [hfalse] at hstruct
      cases hstruct
  | struct d =>
    obtain ⟨hgenerics, hreadable⟩ := hr.readable d hd
    obtain ⟨signature, doc, heq⟩ := Record.rechecked_of_struct (r := r) hgenerics hreadable
    rw [heq g] at hnamed ⊢
    refine ⟨hnamed, ⟨fun _ => ⟨d, hd⟩, fun _ => rfl⟩, hr.readable, ?_, fun _ _ => ?_⟩
    · intro d' hd' name hname
      exact (mem_foldl_insertNew name _ _).2 (.inr (hr.mentions d' hd' name hname))
    · dsimp only
      split <;> exact Status.noConfusion

namespace Store

/-! ## The changes that a request makes -/

theorem Sound.allocate {s : Store} (hs : s.Sound) {r : Record} (hr : r.Fine)
    (hnew : r.status = .nonexistent) : (s.allocate r).2.Sound := by
  refine hs.of_eq rfl (hs.bound.allocate r) (fun id r' hr' => ?_) fun id r' d hr' hd hactive => ?_
  · rw [record?_allocate] at hr'
    split at hr'
    · cases hr'
      exact hr
    · exact hs.fine id r' hr'
  · rw [record?_allocate] at hr'
    split at hr'
    · cases hr'
      rw [hnew] at hactive
      cases hactive
    · exact ⟨r', hr', hd, hactive⟩

theorem Sound.sameBut {s t : Store} (hs : s.Sound) (h : s.SameBut t) : t.Sound := by
  refine hs.of_eq h.bindings (hs.bound.sameBut h) (fun id r hr => ?_) fun id r d hr hd hactive => ?_
  · obtain ⟨r', hr', hknown⟩ := h.symm.of_record? hr
    exact (hs.fine id r' hr').of_known hknown.symm
  · obtain ⟨r', hr', hknown⟩ := h.symm.of_record? hr
    refine ⟨r', hr', (Record.sameCode_of_known hknown).declaration.trans hd, ?_⟩
    rw [Record.status_of_known hknown]
    exact hactive

/-- A change of a snippet that takes part in the session as it did before. -/
theorem Sound.update {s : Store} (hs : s.Sound) {id : SnippetId} {r : Record} {f : Record → Record}
    (hr : s.record? id = some r) (hfine : (f r).Fine) (hsame : r.SameCode (f r))
    (hactive : (f r).status.isActive = r.status.isActive) : (s.update id f).Sound := by
  have hupdated (j : SnippetId) (r' : Record) (hr' : (s.update id f).record? j = some r') :
      j = id ∧ r' = f r ∨ j ≠ id ∧ s.record? j = some r' := by
    by_cases hj : j = id
    · subst hj
      rw [record?_update_self f hr] at hr'
      cases hr'
      exact .inl ⟨rfl, rfl⟩
    · rw [record?_update_of_ne s f hj] at hr'
      exact .inr ⟨hj, hr'⟩
  refine hs.of_eq (bindings_update ..) ?_ (fun j r' hr' => ?_) fun j r' d hr' hd hactive' => ?_
  · exact hs.bound.update hr hsame.name fun h => hactive.trans h
  · rcases hupdated j r' hr' with ⟨-, rfl⟩ | ⟨-, hr'⟩
    · exact hfine
    · exact hs.fine j r' hr'
  · rcases hupdated j r' hr' with ⟨rfl, rfl⟩ | ⟨-, hr'⟩
    · exact ⟨r, hr, hsame.declaration.symm.trans hd, hactive.symm.trans hactive'⟩
    · exact ⟨r', hr', hd, hactive'⟩

theorem Sound.looks {cause : SnippetId} {s s' : Store} {events : List SnippetEvent} (hs : s.Sound)
    (h : Looks cause s events s') : s'.Sound := by
  induction h with
  | done => exact hs
  | @look s s' events id r d hr hd hactive _ ih =>
    refine ih (hs.update hr ((hs.fine id r hr).rechecked hd _) (Record.sameCode_rechecked r d _) ?_)
    rw [hactive]
    exact Record.isActive_rechecked r d _

/-- The snippets after the status of one of them has been changed. -/
theorem record?_with_status {s : Store} {id : SnippetId} {status : Status} {j : SnippetId}
    {r : Record} (h : (s.update id fun r => { r with status }).record? j = some r) :
    (j = id ∧ ∃ r₀, s.record? id = some r₀ ∧ r = { r₀ with status }) ∨
      (j ≠ id ∧ s.record? j = some r) := by
  rw [record?_update] at h
  split at h
  · rename_i hj
    subst hj
    obtain ⟨r₀, hr₀, rfl⟩ := Option.map_eq_some_iff.1 h
    exact .inl ⟨rfl, r₀, hr₀, rfl⟩
  · rename_i hj
    exact .inr ⟨hj, h⟩

theorem Sound.fine_with_status {s : Store} (hs : ∀ id r, s.record? id = some r → r.Fine)
    {id : SnippetId} {status : Status}
    (hstatus : ∀ r d, s.record? id = some r → r.declaration = some (.struct d) →
      status ≠ .recoverableDefined) :
    ∀ j r, (s.update id fun r => { r with status }).record? j = some r → r.Fine := by
  intro j r hr
  rcases record?_with_status hr with ⟨-, r₀, hr₀, rfl⟩ | ⟨-, hr⟩
  · exact (hs id r₀ hr₀).with_status fun d hd => hstatus r₀ d hr₀ hd
  · exact hs j r hr

/-- A snippet without a status is given one, and takes its name from the one that had it. -/
theorem Sound.supersede {s : Store} (hs : s.Sound) {id : SnippetId} {r : Record} {name : String}
    (hr : s.record? id = some r) (hnew : r.status = .nonexistent) (hname : r.name = some name)
    {status : Status} (hactive : status.isActive = true)
    (hstatus : ∀ d, r.declaration = some (.struct d) → status ≠ .recoverableDefined) :
    ((s.update id fun r => { r with status }).supersede name id).2.Sound := by
  have hbound := hs.bound.update_of_unbound (hs.bound.binding?_ne_of_new hr hnew)
    fun r => { r with status }
  have hself := record?_update_self (fun r => { r with status }) hr
  have hfine : ∀ j r', (s.update id fun r => { r with status }).record? j = some r' → r'.Fine := by
    refine Sound.fine_with_status hs.fine fun r' d hr' hd => ?_
    rw [hr] at hr'
    cases hr'
    exact hstatus d hd
  have hbinding (other : String) :
      (s.update id fun r => { r with status }).binding? other = s.binding? other := by
    rw [binding?, binding?, bindings_update]
  -- a declaration that stays in use has another name, or it is the new snippet
  have hinUse (j : SnippetId) (r' : Record) (d : Declaration)
      (hr' : (s.update id fun r => { r with status }).record? j = some r')
      (hd : r'.declaration = some d) (hactive' : r'.status.isActive = true)
      (hkept : s.binding? name = some j → j = id) :
      ((s.update id fun r => { r with status }).bind name id).binding? d.name = some j := by
    rw [binding?_bind, hbinding]
    rcases record?_with_status hr' with ⟨rfl, r₀, hr₀, rfl⟩ | ⟨hj, hr'⟩
    · rw [hr] at hr₀
      cases hr₀
      have hnamed := (hs.fine j r hr).named d hd
      rw [hname] at hnamed
      rw [if_pos (Option.some.inj hnamed)]
    · have hid := hs.inUse j r' d hr' hd hactive'
      rw [if_neg]
      · exact hid
      · rintro rfl
        exact hj (hkept hid)
  rcases supersede_cases hbound name id with ⟨honly, h⟩ | ⟨p, rp, hp, hpname, hrp, -, -, h⟩
  · rw [h]
    refine ⟨hbound.bind hself hname hactive, hfine, fun j r' d hr' hd hactive' => ?_⟩
    refine hinUse j r' d hr' hd hactive' fun hj => honly j ?_
    rw [hbinding]
    exact hj
  · have hsuperseded := bound_supersede hbound hself hname hactive
    rw [h] at hsuperseded ⊢
    have hfine' : ∀ j r', ((s.update id fun r => { r with status }).bind name id).record? j = some r' →
        r'.Fine := hfine
    refine ⟨hsuperseded, Sound.fine_with_status hfine' fun _ _ _ _ => Status.noConfusion, ?_⟩
    intro j r' d hr' hd hactive'
    rcases record?_with_status hr' with ⟨-, r₀, -, rfl⟩ | ⟨hj, hr'⟩
    · cases hactive'
    · rw [binding?, bindings_update]
      refine hinUse j r' d hr' hd hactive' fun hjname => ?_
      rw [hbinding, hjname] at hpname
      exact (hj (Option.some.inj hpname)).elim

/-- A snippet without a status that takes no name is no declaration. -/
theorem Sound.finish_unnamed {s : Store} (hs : s.Sound) {id : SnippetId} {r : Record}
    (hr : s.record? id = some r) (hnew : r.status = .nonexistent) (hplain : r.declaration = none)
    (status : Status) : (s.update id fun r => { r with status }).Sound := by
  have hnone (r' : Record) (d : Declaration) (hr' : s.record? id = some r') :
      r'.declaration ≠ some d := by
    rw [hr] at hr'
    cases hr'
    rw [hplain]
    intro heq
    cases heq
  refine hs.of_eq (bindings_update ..) ?_ ?_ ?_
  · exact hs.bound.update_of_unbound (hs.bound.binding?_ne_of_new hr hnew) _
  · exact Sound.fine_with_status hs.fine fun r' d hr' hd => (hnone r' _ hr' hd).elim
  · intro j r' d hr' hd hactive
    rcases record?_with_status hr' with ⟨-, r₀, hr₀, rfl⟩ | ⟨-, hr'⟩
    · exact (hnone r₀ d hr₀ hd).elim
    · exact ⟨r', hr', hd, hactive⟩

theorem Sound.dropped {s : Store} (hs : s.Sound) {id : SnippetId} {r : Record} {name : String}
    (hr : s.record? id = some r) (hname : r.name = some name) (hid : s.binding? name = some id) :
    ((s.unbind name).update id fun r => { r with status := .dropped }).Sound := by
  refine ⟨bound_dropped hs.bound hr hname, ?_, fun j r' d hr' hd hactive => ?_⟩
  · exact Sound.fine_with_status (s := s.unbind name) hs.fine fun _ _ _ _ => Status.noConfusion
  · rcases record?_with_status hr' with ⟨-, r₀, -, rfl⟩ | ⟨hj, hr'⟩
    · cases hactive
    · -- a declaration in use that is not dropped has another name
      rw [binding?, bindings_update]
      change (s.unbind name).binding? d.name = some j
      have hjname := hs.inUse j r' d hr' hd hactive
      rw [binding?_unbind, if_neg]
      · exact hjname
      · rintro rfl
        rw [hid] at hjname
        exact hj (Option.some.inj hjname).symm

/-- Dropping a snippet that no name is bound to concerns no declaration in use. -/
theorem Sound.dropped_unnamed {s : Store} (hs : s.Sound) {id : SnippetId}
    (hfree : ∀ name, s.binding? name ≠ some id) :
    (s.update id fun r => { r with status := .dropped }).Sound := by
  refine hs.of_eq (bindings_update ..) (hs.bound.update_of_unbound hfree _) ?_ ?_
  · exact Sound.fine_with_status hs.fine fun _ _ _ _ => Status.noConfusion
  · intro j r' d hr' hd hactive
    rcases record?_with_status hr' with ⟨-, r₀, -, rfl⟩ | ⟨-, hr'⟩
    · cases hactive
    · exact ⟨r', hr', hd, hactive⟩

end Store

end Notebook.Guest

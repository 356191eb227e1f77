import Notebook.Proofs.Guest.Settling
import Notebook.Proofs.Guest.Understood

/-!
# When names change their meaning

A look at a declaration changes the meaning of the name that it declares, and of no other one: the types
of a function may change, and a struct may become defined or undefined (`Looks.globals_cases`).  What
a cascade leaves alone mentions no name that a struct thereby has gained or lost
(`globals_of_left_out`).
-/

namespace Notebook.Guest
open Notebook.Syntax

/-- What a definition makes of a name, as far as a check can see. -/
def Definition.kind? : Definition → Option GlobalKind
  | .variable ty _ => some (.variable ty)
  | .function f => some (.function (f.params.map (·.2)) f.result)
  | .struct .. => some .struct
  | .none | .imports => Option.none

theorem Definition.kind?_known (d : Definition) : d.known.kind? = d.kind? := by
  cases d <;> rfl

theorem Definition.eq_variable_of_kind? {d : Definition} {ty : Ty} (h : d.kind? = some (.variable ty)) :
    ∃ v, d = .variable ty v := by
  cases d <;> cases h
  exact ⟨_, rfl⟩

theorem Definition.kind?_of_isStruct {d : Definition} (h : d.isStruct = true) :
    d.kind? = some .struct := by
  cases d <;> first | rfl | cases h

/-- The name stands for a function. -/
def Globals.IsFunction (g : Globals) (n : String) : Prop := ∃ params result, g n = some (.function params result)

theorem Globals.IsFunction.congr {g g' : Globals} {n : String} (h : g.IsFunction n) (hn : g' n = g n) :
    g'.IsFunction n := by
  obtain ⟨params, result, h⟩ := h
  exact ⟨params, result, hn.trans h⟩

/-- How a snippet can be called. -/
def Record.callee? (r : Record) (id : SnippetId) : Option Callee :=
  match r.definition, r.status with
  | .function f, .valid => some (.ready f id)
  | .function _, .recoverableDefined => some (.waiting r.unresolved)
  | _, _ => none

theorem Record.callee?_known (r : Record) (id : SnippetId) : r.known.callee? id = r.callee? id := by
  unfold Record.callee? Record.known
  dsimp only
  cases r.definition <;> rfl

namespace Store

/-! ## Meanings -/

theorem globals_eq (s : Store) (n : String) :
    s.globals n =
      match s.bound? n with
      | some r => r.definition.kind?
      | none => (s.host? n).map fun h => .host h.typeName h.methods := by
  unfold globals
  cases s.bound? n with
  | none => rfl
  | some r =>
    dsimp only
    cases r.definition <;> rfl

/-- The definition that a name is bound to, if it is one that can be used. -/
theorem bound?_eq (s : Store) (n : String) :
    s.bound? n = (s.binding? n).bind fun id =>
      (s.record? id).bind fun r => if r.status.isDefined then some r else none := rfl

theorem bound?_eq_some_iff {s : Store} {n : String} {r : Record} :
    s.bound? n = some r ↔
      ∃ id, s.binding? n = some id ∧ s.record? id = some r ∧ r.status.isDefined = true := by
  rw [bound?_eq, Option.bind_eq_some_iff]
  refine exists_congr fun id => and_congr_right fun _ => ?_
  rw [Option.bind_eq_some_iff]
  constructor
  · rintro ⟨r', hr', h⟩
    split at h
    · rename_i hdefined
      cases h
      exact ⟨hr', hdefined⟩
    · cases h
  · rintro ⟨hr, hdefined⟩
    exact ⟨r, hr, if_pos hdefined⟩

/-- A change that leaves a name bound to a snippet that can be used in the same way. -/
theorem globals_congr {s t : Store} {n : String} (hbinding : t.binding? n = s.binding? n)
    (hhost : t.host? n = s.host? n)
    (hrecord : ∀ id, s.binding? n = some id →
      (t.record? id).map (fun r => (r.status.isDefined, r.definition.kind?)) =
        (s.record? id).map fun r => (r.status.isDefined, r.definition.kind?)) :
    t.globals n = s.globals n := by
  -- whether the snippet can be used, and what kind of definition it has, is all that counts
  have hbound : (t.bound? n).map (fun r => r.definition.kind?) =
      (s.bound? n).map fun r => r.definition.kind? := by
    rw [bound?_eq, bound?_eq, hbinding]
    cases hid : s.binding? n with
    | none => rfl
    | some id =>
      have hr := hrecord id hid
      rw [Option.bind_some, Option.bind_some]
      cases hs : s.record? id with
      | none =>
        rw [hs, Option.map_none, Option.map_eq_none_iff] at hr
        rw [hr]
      | some r =>
        rw [hs, Option.map_some, Option.map_eq_some_iff] at hr
        obtain ⟨r', hr', heq⟩ := hr
        obtain ⟨hdefined, hkind⟩ := Prod.mk.inj heq
        rw [hr', Option.bind_some, Option.bind_some, hdefined]
        split
        · rw [Option.map_some, Option.map_some, hkind]
        · rfl
  rw [globals_eq, globals_eq, hhost]
  cases hs : s.bound? n with
  | none =>
    rw [hs, Option.map_none, Option.map_eq_none_iff] at hbound
    rw [hbound]
  | some r =>
    rw [hs, Option.map_some, Option.map_eq_some_iff] at hbound
    obtain ⟨r', hr', hkind⟩ := hbound
    rw [hr']
    exact hkind

/-- A change that leaves a name bound to the same snippet. -/
theorem globals_of_record_eq {s t : Store} {n : String} (hbinding : t.binding? n = s.binding? n)
    (hhosts : t.hosts = s.hosts)
    (hrecord : ∀ id, s.binding? n = some id → t.record? id = s.record? id) :
    t.globals n = s.globals n := by
  refine globals_congr hbinding ?_ fun id hid => by rw [hrecord id hid]
  unfold host?
  rw [hhosts]

/-- Code that runs changes values only, so all names mean the same to a check as before. -/
theorem SameBut.globals_eq {s t : Store} (h : s.SameBut t) : t.globals = s.globals := by
  funext n
  refine globals_congr ?_ ?_ fun id _ => ?_
  · unfold binding?
    rw [h.bindings]
  · unfold host?
    rw [h.hosts]
  · -- no meaning depends on a value, which is all that may have changed
    have hknown := congrArg (Option.map fun r => (r.status.isDefined, r.definition.kind?)) (h.record? id)
    rw [Option.map_map, Option.map_map] at hknown
    have hfun : (fun r : Record => (r.status.isDefined, r.definition.kind?)) ∘ Record.known =
        fun r => (r.status.isDefined, r.definition.kind?) := by
      funext r
      simp only [Function.comp_apply, Record.known, Definition.kind?_known]
    rw [hfun] at hknown
    exact hknown

theorem Bound.globals_allocate {s : Store} (hs : s.Bound) (r : Record) :
    (s.allocate r).2.globals = s.globals := by
  funext n
  refine globals_of_record_eq rfl rfl fun id hid => ?_
  obtain ⟨r', hr', -⟩ := hs n id hid
  rw [record?_allocate, if_neg]
  exact Nat.ne_of_lt (Nat.lt_succ_of_le (le_length_of_record? hr'))

/-! ## Functions -/

/-- A function of the session is there, and can be called or waits for names that are missing. -/
theorem globals_eq_function_iff {s : Store} {n : String} {params : List Ty} {result : Ty} :
    s.globals n = some (.function params result) ↔
      ∃ id r f, s.binding? n = some id ∧ s.record? id = some r ∧ r.status.isDefined = true ∧
        r.definition = .function f ∧ params = f.params.map (·.2) ∧ result = f.result := by
  rw [globals_eq]
  constructor
  · intro h
    cases hbound : s.bound? n with
    | none =>
      rw [hbound] at h
      obtain ⟨host, -, hkind⟩ := Option.map_eq_some_iff.1 h
      cases hkind
    | some r =>
      rw [hbound] at h
      obtain ⟨id, hid, hr, hdefined⟩ := bound?_eq_some_iff.1 hbound
      dsimp only at h
      cases hdefinition : r.definition with
      | function f =>
        rw [hdefinition] at h
        cases h
        exact ⟨id, r, f, hid, hr, hdefined, hdefinition, rfl, rfl⟩
      | _ =>
        rw [hdefinition] at h
        cases h
  · rintro ⟨id, r, f, hid, hr, hdefined, hdefinition, rfl, rfl⟩
    rw [bound?_eq_some_iff.2 ⟨id, hid, hr, hdefined⟩]
    dsimp only
    rw [hdefinition]
    rfl

/-- The function that a snippet declares. -/
def function? (s : Store) (id : SnippetId) : Option (FnHeader × Block) :=
  match (s.record? id).bind (·.declaration) with
  | some (.function h body) => some (h, body)
  | _ => none

theorem function?_eq_some_iff {s : Store} {id : SnippetId} {h : FnHeader} {body : Block} :
    s.function? id = some (h, body) ↔
      ∃ r, s.record? id = some r ∧ r.declaration = some (.function h body) := by
  unfold function?
  cases hr : s.record? id with
  | none => simp
  | some r =>
    cases hd : r.declaration with
    | none => simp [hd]
    | some declaration => cases declaration <;> simp [hd]

theorem Keeps.function? {s t : Store} (h : s.Keeps t) {id : SnippetId} {header : FnHeader}
    {body : Block} (hd : s.function? id = some (header, body)) :
    t.function? id = some (header, body) := by
  obtain ⟨r, hr, hd⟩ := function?_eq_some_iff.1 hd
  obtain ⟨r', hr', hsame⟩ := h id r hr
  exact function?_eq_some_iff.2 ⟨r', hr', hsame.declaration.trans hd⟩

theorem callee?_eq_some_iff {s : Store} {n : String} {callee : Callee} :
    s.callee? n = some callee ↔
      ∃ id r, s.binding? n = some id ∧ s.record? id = some r ∧ r.callee? id = some callee := by
  have heq : s.callee? n = (s.binding? n).bind fun id => (s.record? id).bind fun r => r.callee? id := rfl
  simp only [heq, Option.bind_eq_some_iff, exists_and_left]

/-- Code that runs makes no function and changes none. -/
theorem SameBut.callee? {s t : Store} (h : s.SameBut t) (n : String) : t.callee? n = s.callee? n := by
  have hrecord (id : SnippetId) : (t.record? id).bind (Record.callee? · id) =
      (s.record? id).bind (Record.callee? · id) := by
    have hknown := congrArg (Option.bind · (Record.callee? · id)) (h.record? id)
    simpa only [Option.bind_map, Function.comp_def, Record.callee?_known] using hknown
  have hbinding : t.binding? n = s.binding? n := congrArg (Table.get? · n) h.bindings
  change (t.binding? n).bind (fun id => (t.record? id).bind (Record.callee? · id)) = _
  simp only [hbinding, hrecord]
  rfl

/-- A function that takes part in the session can always be called or at least be waited for. -/
def FunctionsDefined (s : Store) : Prop :=
  ∀ id r h body, s.record? id = some r → r.declaration = some (.function h body) →
    r.status.isActive = true → (∃ f, r.definition = .function f) ∧ r.status.isDefined = true

end Store

theorem Record.definition_rechecked {r : Record} {h : FnHeader} {body : Block} (g : Globals)
    (hr : ∃ f, r.definition = .function f) :
    (∃ f, (r.rechecked (.function h body) g).definition = .function f) ∧
      (r.rechecked (.function h body) g).status.isDefined = true := by
  unfold Record.rechecked
  split
  · exact ⟨hr, rfl⟩
  · rename_i a ha
    exact analyzeFunction_ok ha

namespace Store

theorem FunctionsDefined.looks {cause : SnippetId} {s s' : Store} {events : List SnippetEvent}
    (hs : s.FunctionsDefined) (h : Looks cause s events s') : s'.FunctionsDefined := by
  induction h with
  | done => exact hs
  | @look s s' events id r d hr hd hactive _ ih =>
    refine ih fun j r' header body hr' hd' hactive' => ?_
    by_cases hj : j = id
    · subst hj
      rw [record?_update_self _ hr] at hr'
      cases hr'
      rw [(Record.sameCode_rechecked r d s.globals).declaration, hd] at hd'
      cases hd'
      exact Record.definition_rechecked s.globals (hs j r header body hr hd hactive).1
    · rw [record?_update_of_ne s _ hj] at hr'
      exact hs j r' header body hr' hd' hactive'

/-! ## Looks and what they change -/

/-- Some of the events are about a function of the name. -/
def FunctionTold (s : Store) (events : List SnippetEvent) (n : String) : Prop :=
  ∃ e ∈ events, ∃ h body, s.function? e.snippet = some (h, body) ∧ h.name = n

/-- A name that has stood for a function and still does, but the function has been looked at in between,
so its types may be others. -/
structure Retyped (s : Store) (g : Globals) (events : List SnippetEvent) (n : String) : Prop where
  told : s.FunctionTold events n
  before : g.IsFunction n
  after : s.globals.IsFunction n

/-- Some of the events tell that a struct of the name became defined or undefined. -/
def StructFlipped (s : Store) (events : List SnippetEvent) (n : String) : Prop :=
  ∃ e ∈ events, e.Flips ∧ ∃ d, s.struct? e.snippet = some d ∧ d.name = n

theorem FunctionTold.mono {s t : Store} {events more : List SnippetEvent} {n : String}
    (h : s.FunctionTold events n) (hkeeps : s.Keeps t) (hsub : ∀ e ∈ events, e ∈ more) :
    t.FunctionTold more n := by
  obtain ⟨e, he, header, body, hd, hname⟩ := h
  exact ⟨e, hsub e he, header, body, hkeeps.function? hd, hname⟩

theorem Retyped.mono {s : Store} {g : Globals} {events more : List SnippetEvent} {n : String}
    (h : s.Retyped g events n) (hsub : ∀ e ∈ events, e ∈ more) : s.Retyped g more n :=
  ⟨h.told.mono (.refl _) hsub, h.before, h.after⟩

theorem Retyped.since {s : Store} {g g' : Globals} {events : List SnippetEvent} {n : String}
    (h : s.Retyped g events n) (hn : g n = g' n) : s.Retyped g' events n :=
  ⟨h.told, h.before.congr hn.symm, h.after⟩

theorem StructFlipped.mono {s t : Store} {events more : List SnippetEvent} {n : String}
    (h : s.StructFlipped events n) (hkeeps : s.Keeps t) (hsub : ∀ e ∈ events, e ∈ more) :
    t.StructFlipped more n := by
  obtain ⟨e, he, hflips, d, hd, hname⟩ := h
  exact ⟨e, hsub e he, hflips, d, hkeeps.struct? hd, hname⟩

/-- One look changes the meaning of one name at most, which is that of the declaration looked at. -/
theorem globals_look {s : Store} (hs : s.Sound) (hdefined : s.FunctionsDefined) {id : SnippetId}
    {r : Record} {d : Declaration} (hr : s.record? id = some r) (hd : r.declaration = some d)
    (hactive : r.status.isActive = true) (n : String) :
    (s.update id fun _ => r.rechecked d s.globals).globals n = s.globals n ∨
      d.name = n ∧ ((∃ h body, d = .function h body) ∧ s.globals.IsFunction n ∧
          (s.update id fun _ => r.rechecked d s.globals).globals.IsFunction n ∨
        (∃ sd, d = .struct sd) ∧
          r.status.isDefined ≠ (r.rechecked d s.globals).status.isDefined) := by
  have hbinding : (s.update id fun _ => r.rechecked d s.globals).binding? n = s.binding? n := by
    rw [binding?, binding?, bindings_update]
  by_cases hid : s.binding? n = some id
  · have hname : d.name = n := by
      obtain ⟨r', hr', hrname, -⟩ := hs.bound n id hid
      rw [hr] at hr'
      cases hr'
      have hnamed := (hs.fine id r hr).named d hd
      rw [hrname] at hnamed
      exact (Option.some.inj hnamed).symm
    cases d with
    | function h body =>
      -- a function stays one, but its types may change
      obtain ⟨hfunction, hready⟩ := hdefined id r h body hr hd hactive
      obtain ⟨⟨f', hf'⟩, hready'⟩ :
          (∃ f, (r.rechecked (.function h body) s.globals).definition = .function f) ∧
            (r.rechecked (.function h body) s.globals).status.isDefined = true :=
        Record.definition_rechecked s.globals hfunction
      obtain ⟨f, hf⟩ := hfunction
      exact .inr ⟨hname, .inl ⟨⟨h, body, rfl⟩,
        ⟨_, _, globals_eq_function_iff.2 ⟨id, r, f, hid, hr, hready, hf, rfl, rfl⟩⟩,
        _, _, globals_eq_function_iff.2
          ⟨id, _, f', hbinding.trans hid, record?_update_self _ hr, hready', hf', rfl, rfl⟩⟩⟩
    | struct sd =>
      by_cases hflips : r.status.isDefined = (r.rechecked (.struct sd) s.globals).status.isDefined
      · left
        refine globals_congr hbinding ?_ fun j hj => ?_
        · unfold host?
          rw [hosts_update]
        · -- a struct stays one, and it is usable as before
          cases hid.symm.trans hj
          have hfine := hs.fine id r hr
          have hstruct := hfine.defines.2 ⟨sd, hd⟩
          have hstruct' := (hfine.rechecked hd s.globals).defines.2
            ⟨sd, (Record.sameCode_rechecked r _ _).declaration.trans hd⟩
          rw [record?_update_self _ hr, hr, Option.map_some, Option.map_some, ← hflips,
            Definition.kind?_of_isStruct hstruct, Definition.kind?_of_isStruct hstruct']
      · exact .inr ⟨hname, .inr ⟨⟨sd, rfl⟩, hflips⟩⟩
  · left
    refine globals_of_record_eq hbinding (hosts_update ..) fun j hj => ?_
    exact record?_update_of_ne s _ fun heq => hid (heq ▸ hj)

/-- Looks change no meanings but those of functions that are looked at, which stay functions, and of
structs that become defined or undefined. -/
theorem Looks.globals_cases {cause : SnippetId} {s s' : Store} {events : List SnippetEvent}
    (hs : s.Sound) (hdefined : s.FunctionsDefined) (h : Looks cause s events s') (n : String) :
    s'.globals n = s.globals n ∨ s'.Retyped s.globals events n ∨ s'.StructFlipped events n := by
  induction h with
  | done => exact .inl rfl
  | @look s s' events id r d hr hd hactive hrest ih =>
    have hone : Looks cause s _ (s.update id fun _ => r.rechecked d s.globals) :=
      .look hr hd hactive (.done _)
    have hlooks := Looks.look hr hd hactive hrest
    have hsub (e : SnippetEvent) (he : e ∈ events) :
        e ∈ r.lookedAt cause id (r.rechecked d s.globals).status :: events := List.mem_cons_of_mem _ he
    have hthen := ih (hs.looks hone) (hdefined.looks hone)
    rcases globals_look hs hdefined hr hd hactive n with
      hsame | ⟨hname, ⟨⟨header, body, rfl⟩, hbefore, hafter⟩ | ⟨⟨sd, rfl⟩, hflips⟩⟩
    · rcases hthen with hsame' | hretyped | hflipped
      · exact .inl (hsame'.trans hsame)
      · exact .inr (.inl ((hretyped.mono hsub).since hsame))
      · exact .inr (.inr (hflipped.mono (.refl _) hsub))
    · have hfunction : s'.function? id = some (header, body) :=
        hlooks.tells.keeps.function? (function?_eq_some_iff.2 ⟨r, hr, hd⟩)
      rcases hthen with hsame | hretyped | hflipped
      · refine .inr (.inl ⟨?_, hbefore, hafter.congr hsame⟩)
        exact ⟨_, List.mem_cons_self, header, body, hfunction, hname⟩
      · exact .inr (.inl ⟨hretyped.told.mono (.refl _) hsub, hbefore, hretyped.after⟩)
      · exact .inr (.inr (hflipped.mono (.refl _) hsub))
    · refine .inr (.inr ⟨_, List.mem_cons_self, hflips, sd, ?_, hname⟩)
      exact hlooks.tells.keeps.struct? (struct?_eq_some_iff.2 ⟨r, hr, hd⟩)

/-- What a cascade leaves alone mentions neither the name that the cascade is about nor the name of a
struct that became defined or undefined on the way. -/
theorem globals_of_left_out {s : Store} (hs : s.Sound) (hdefined : s.FunctionsDefined) (first : String)
    (cause : SnippetId)
    {id : SnippetId} {r : Record} (hr : s.record? id = some r) (hdeclared : r.declaration.isSome = true)
    (hactive : r.status.isActive = true) (hne : id ≠ cause)
    (hid : id ∉ snippetsOf (s.recheckDependents first cause).1) {n : String} (hn : n ∈ r.refs) :
    n ≠ first ∧ ((s.recheckDependents first cause).2.globals n = s.globals n ∨
      (s.recheckDependents first cause).2.Retyped s.globals (s.recheckDependents first cause).1 n) := by
  have hlooks := recheckDependents_looks s first cause
  have hdependent : s.isDependent n id = true := by
    unfold isDependent
    rw [hr]
    simp only [hactive, hdeclared, Bool.and_self, Bool.true_and]
    exact List.contains_iff_mem.2 hn
  have hleft : id ∈ (s.numbered.map (·.1)).filter (· ≠ cause) :=
    List.mem_filter.2 ⟨mem_numbered_of_record? hr, by simpa using hne⟩
  obtain ⟨hpending, hflips⟩ := not_mentions_of_left_out s cause _ [first] (s.nodup_left cause) hleft
    hid hdependent
  rw [List.mem_singleton] at hpending
  refine ⟨hpending, ?_⟩
  rcases hlooks.globals_cases hs hdefined n with hsame | hretyped | ⟨e, he, hflip, d, hd, hname⟩
  · exact .inl hsame
  · exact .inr hretyped
  · -- the name of such a struct would have been pending
    have hd' := hlooks.tells.keeps.struct?_of_status hd
      (hlooks.status_ne (nodup_recheckDependents s first cause) he)
    obtain ⟨rd, hrd, hdecl⟩ := struct?_eq_some_iff.1 hd'
    have hrdname := (hs.fine _ rd hrd).named _ hdecl
    exact absurd (hrdname.trans (congrArg some hname)) (hflips e he hflip rd hrd)

end Store

end Notebook.Guest

import Mathlib.Data.List.TakeWhile
import Notebook.Proofs.Guest.Chronicle
import Notebook.Proofs.Guest.Settling

/-!
# When structs are resolved

A struct should be valid exactly if all the structs that its fields name are there, and else wait for
those that are not.  A cascade looks at a struct once, and it may do so too early: another struct that
the fields name can become defined or undefined later in the same cascade
(`struct_waits_for_what_is_there`).  That is the only way in which a struct can fail to be resolved
(`resolved_iff_last_look_stands`).
-/

namespace Notebook

/-- The events that belong to the operation that is under way, before the next one is opened. -/
def sameOperation (events : List SnippetEvent) : List SnippetEvent :=
  events.takeWhile fun e => !e.opens

end Notebook

namespace Notebook.Guest
open Notebook.Text Notebook.Syntax

/-! ## Everything that happens to an engine -/

/-- The request ends the session. -/
def Request.stops {σ : Type} : Request σ → Bool
  | .stop => true
  | _ => false

namespace Engine

variable {σ : Type}

/-- What statements tell, up to the one that is broken off. -/
def toldStmts (calls : HostCalls σ) (fuel : Nat) :
    List (Stmt × Slice) → Store → σ → List SnippetEvent
  | [], _, _ => []
  | (stmt, piece) :: rest, s, w =>
    match outcome (evaluateStmt calls fuel stmt piece) s w with
    | (.ok events, s', w') => events ++ toldStmts calls fuel rest s' w'
    | (.error _, _, _) => []

/-- What a request tells. The events of a unit that is broken off are told to nobody, but its first
statements have been evaluated all the same. -/
def told (calls : HostCalls σ) (request : Request σ) (s : Store) (w : σ) : List SnippetEvent :=
  match (outcome (perform calls request) s w).1, request with
  | .ok events, _ => events
  | .error _, .evaluate fuel unit =>
    match parseUnit unit with
    | .ok stmts => toldStmts calls fuel (stmts.zip (Slice.ofStmts unit stmts)) s w
    | .error _ => []
  | .error _, _ => []

/-- One request after the other, whatever becomes of them: what is told, and what is left. -/
def live (calls : HostCalls σ) : List (Request σ) → Store → σ → List SnippetEvent × Store × σ
  | [], s, w => ([], s, w)
  | request :: requests, s, w =>
    let after := (outcome (perform calls request) s w).2
    let rest := live calls requests after.1 after.2
    (told calls request s w ++ rest.1, rest.2)

end Engine

namespace Store

/-- Operations one after the other. -/
inductive Operations : Store → List SnippetEvent → Store → Prop
  | none (s : Store) : Operations s [] s
  | next {s t u : Store} {events more : List SnippetEvent} (first : s.Operation events t)
      (rest : Operations t more u) : Operations s (events ++ more) u

theorem Operations.append {s t u : Store} {events more : List SnippetEvent}
    (hst : Operations s events t) (htu : Operations t more u) : Operations s (events ++ more) u := by
  induction hst with
  | none => exact htu
  | next first _ ih =>
    rw [List.append_assoc]
    exact .next first (ih htu)

theorem Operations.sound {s s' : Store} {events : List SnippetEvent} (hs : s.Sound)
    (h : Operations s events s') : s'.Sound := by
  induction h with
  | none => exact hs
  | next first _ ih => exact ih first.sound

theorem Operation.single {s s' : Store} {events : List SnippetEvent} (h : s.Operation events s') :
    Operations s events s' := by
  have hone := Operations.next h (.none s')
  rwa [List.append_nil] at hone

end Store

namespace Engine

variable {σ : Type}

/-- Statements that are evaluated to the end are told of completely. -/
theorem eq_toldStmts (calls : HostCalls σ) (fuel : Nat) (stmts : List (Stmt × Slice)) (s : Store) (w : σ)
    {more : List SnippetEvent} (h : (outcome (evaluateStmts calls fuel stmts) s w).1 = .ok more) :
    more = toldStmts calls fuel stmts s w := by
  induction stmts generalizing s w more with
  | nil =>
    cases h
    rfl
  | cons first stmts ih =>
    obtain ⟨stmt, piece⟩ := first
    unfold evaluateStmts at h
    unfold toldStmts
    rw [outcome_bind] at h
    rcases hfirst : outcome (evaluateStmt calls fuel stmt piece) s w with ⟨i | one, s', w'⟩
    · rw [hfirst] at h
      cases h
    · rw [hfirst] at h
      dsimp only at h ⊢
      rw [outcome_bind] at h
      rcases hrest : outcome (evaluateStmts calls fuel stmts) s' w' with ⟨i | rest, s'', w''⟩
      · rw [hrest] at h
        cases h
      · rw [hrest] at h
        cases h
        rw [ih s' w' (congrArg Prod.fst hrest)]

/-- The statements of a unit are operations, also when one of them is broken off. -/
theorem operations_evaluateStmts (calls : HostCalls σ) (fuel : Nat) (stmts : List (Stmt × Slice))
    {s : Store} (hs : s.Sound) (w : σ) :
    s.Operations (toldStmts calls fuel stmts s w) (outcome (evaluateStmts calls fuel stmts) s w).2.1 := by
  induction stmts generalizing s w with
  | nil => exact .none s
  | cons first stmts ih =>
    obtain ⟨stmt, piece⟩ := first
    -- a statement that is broken off is an operation of which nothing is told
    have hyields := evaluateStmt_makes calls fuel s w stmt piece
    rw [outcome_evaluateStmts_cons_snd, toldStmts]
    rcases hfirst : outcome (evaluateStmt calls fuel stmt piece) s w with ⟨i | events, s', w'⟩
    · rw [hfirst] at hyields
      exact (Store.operation_of_breaks hs hyields).single
    · rw [hfirst] at hyields
      have hoperation := Store.operation_of_makes hs hyields
      exact .next hoperation (ih hoperation.sound w')

theorem operations_evaluate (calls : HostCalls σ) (fuel : Nat) (unit : List Char) {s : Store}
    (hs : s.Sound) (w : σ) :
    s.Operations (told calls (.evaluate fuel unit) s w) (outcome (evaluate calls fuel unit) s w).2.1 := by
  unfold told perform evaluate
  rw [outcome_bind, outcome_store]
  dsimp only
  split_ifs
  · exact .none s
  cases Scan.nestingOverflow? unit Scan.nestingLimit with
  | some t =>
    have hyields := yields_reject s w (guessKind unit) (.whole unit)
      ⟨.tooDeep Scan.nestingLimit, ⟨positionOf unit t.start, positionOf unit t.stop⟩⟩
    exact (Store.operation_of_makes hs hyields).single
  | none =>
    cases hparse : parseUnit unit with
    | error e =>
      have hyields := yields_reject s w (guessKind unit) (.whole unit) ⟨.parse e.problem, e.span⟩
      exact (Store.operation_of_makes hs hyields).single
    | ok stmts =>
      dsimp only
      have hoperations := operations_evaluateStmts calls fuel (stmts.zip (Slice.ofStmts unit stmts)) hs w
      cases hresult : (outcome (evaluateStmts calls fuel
          (stmts.zip (Slice.ofStmts unit stmts))) s w).1 with
      | error i =>
        -- the events of the statements before the one that is broken off are lost, but not their work
        dsimp only
        rw [hparse]
        exact hoperations
      | ok events =>
        dsimp only
        rw [eq_toldStmts calls fuel _ s w hresult]
        exact hoperations

/-- Whatever is asked for, short of the end of the session, what is told is told of operations. -/
theorem operations_perform (calls : HostCalls σ) {request : Request σ} (hstops : request.stops = false)
    {s : Store} (hs : s.Sound) (w : σ) :
    s.Operations (told calls request s w) (outcome (perform calls request) s w).2.1 := by
  have quiet {s' : Store} (hrecords : s'.records = s.records) (hbindings : s'.bindings = s.bindings) :
      s.Operations [] s' :=
    ((Store.quiet_of_records_eq hrecords).operation (hs.of_records_eq hrecords hbindings)).single
  cases request with
  | evaluate fuel unit => exact operations_evaluate calls fuel unit hs w
  | drop id => exact (Store.operation_of_drop hs id).single
  | bindHost name object =>
    unfold told perform
    rw [outcome_onStore]
    unfold Store.bindHost
    split_ifs
    · exact quiet rfl rfl
    · exact quiet rfl rfl
  | addLibrary path =>
    refine quiet ?_ ?_
    · change (s.addLibrary path).records = s.records
      unfold Store.addLibrary
      split <;> rfl
    · change (s.addLibrary path).bindings = s.bindings
      unfold Store.addLibrary
      split <;> rfl
  | takeOutput => exact quiet rfl rfl
  | stop => cases hstops
  | host change => exact .none s

theorem operations_live (calls : HostCalls σ) (requests : List (Request σ))
    (hstops : ∀ request ∈ requests, request.stops = false) {s : Store} (hs : s.Sound) (w : σ) :
    s.Operations (live calls requests s w).1 (live calls requests s w).2.1 := by
  induction requests generalizing s w with
  | nil => exact .none s
  | cons request requests ih =>
    have hfirst := operations_perform calls (hstops request List.mem_cons_self) hs w
    exact hfirst.append (ih (fun r hr => hstops r (List.mem_cons_of_mem request hr))
      (hfirst.sound hs) _)

end Engine

namespace Store

/-! ## What events say about structs -/

/-- According to some events, there is a valid struct of the name. -/
def HadStruct (s : Store) (events : List SnippetEvent) (name : String) : Prop :=
  ∃ id d, s.struct? id = some d ∧ d.name = name ∧
    (about id events).getLast?.map (·.status) = some .valid

/-- Events that tell the whole story say rightly which structs are valid. -/
theorem Tells.hadStruct_iff {s : Store} {events : List SnippetEvent} (h : ({} : Store).Tells events s)
    (name : String) : s.HadStruct events name ↔ s.HasStruct name := by
  -- the last event of a snippet gives the status that it has
  have hlast (id : SnippetId) :
      (about id events).getLast?.map (·.status) = some .valid ↔ s.status id = .valid := by
    have hleads := h.leads id
    cases habout : about id events with
    | nil =>
      rw [habout, status_empty] at hleads
      rw [← show Status.nonexistent = s.status id from hleads]
      decide
    | cons e rest =>
      rw [habout] at hleads
      rw [getLast?_of_leads hleads, Option.some_inj]
  unfold HadStruct HasStruct
  simp only [hlast]

/-- What events say does not depend on snippets that have come since. -/
theorem Keeps.hadStruct_iff {s s' : Store} (h : s.Keeps s') {events : List SnippetEvent}
    (hthere : ∀ e ∈ events, (s.record? e.snippet).isSome = true) (name : String) :
    s.HadStruct events name ↔ s'.HadStruct events name := by
  constructor
  · rintro ⟨id, d, hd, hname, hvalid⟩
    exact ⟨id, d, h.struct? hd, hname, hvalid⟩
  · rintro ⟨id, d, hd, hname, hvalid⟩
    refine ⟨id, d, ?_, hname, hvalid⟩
    obtain ⟨e, he, -⟩ := Option.map_eq_some_iff.1 hvalid
    obtain ⟨hmem, hid⟩ := List.mem_filter.1 (List.mem_of_getLast? he)
    have hsome := hthere e hmem
    rw [of_decide_eq_true hid] at hsome
    obtain ⟨r, hr⟩ := Option.isSome_iff_exists.1 hsome
    obtain ⟨r', hr', hsame⟩ := h id r hr
    obtain ⟨r'', hr'', hd⟩ := struct?_eq_some_iff.1 hd
    rw [hr'] at hr''
    cases hr''
    exact struct?_eq_some_iff.2 ⟨r, hr, hsame.declaration.symm.trans hd⟩

theorem Settled.congr {s s' : Store} {id : SnippetId} {d : StructDecl} {has has' : String → Prop}
    (h : s.Settled id d has) (hstatus : s'.status id = s.status id)
    (hunresolved : s'.unresolved id = s.unresolved id)
    (hhas : ∀ name ∈ fieldNames d.fields, has name ↔ has' name) : s'.Settled id d has' := by
  refine ⟨fun name => ?_, ?_, ?_⟩
  · rw [hunresolved, h.mem_unresolved]
    exact and_congr_right fun hname => not_congr (hhas name hname)
  · rw [hunresolved]
    exact h.sorted
  · rw [hstatus, hunresolved]
    exact h.status

/-! ## The last look at a struct -/

/-- The struct is settled by what was there before its last event, and after the operation of that
event nothing has changed that it mentions. -/
def LastLook (s : Store) (events : List SnippetEvent) (id : SnippetId) (d : StructDecl) : Prop :=
  ∃ before e rest, events = before ++ e :: rest ∧ e.snippet = id ∧ id ∉ snippetsOf rest ∧
    s.Settled id d (s.HadStruct before) ∧
    ∀ name ∈ fieldNames d.fields,
      s.HasStruct name ↔ s.HadStruct (before ++ e :: sameOperation rest) name

/-- All that is known of a store and of the events that have led to it. -/
structure Chronicled (s : Store) (events : List SnippetEvent) : Prop where
  sound : s.Sound
  tells : ({} : Store).Tells events s
  structs : ∀ id d, s.struct? id = some d → (s.status id).isActive = true → s.LastLook events id d

theorem Tells.isSome_record? {s s' : Store} {events : List SnippetEvent} (h : s.Tells events s') :
    ∀ e ∈ events, (s'.record? e.snippet).isSome = true := by
  intro e he
  obtain ⟨r, hr, -⟩ := h.describes e he
  rw [hr]
  rfl

/-- What opens the next operation does not belong to the one before. -/
theorem sameOperation_append {events more : List SnippetEvent}
    (h : ∀ e ∈ more.head?, e.opens = true) :
    sameOperation (events ++ more) = sameOperation events := by
  have hmore : sameOperation more = [] := by
    cases more with
    | nil => rfl
    | cons e more =>
      unfold sameOperation
      rw [List.takeWhile_cons, h e rfl]
      rfl
  unfold sameOperation at hmore ⊢
  rw [List.takeWhile_append, hmore, List.append_nil]
  split
  · rename_i hall
    exact ((List.takeWhile_prefix _).eq_of_length hall).symm
  · rfl

/-- After the first event of an operation, all that is told belongs to the operation. -/
theorem sameOperation_eq_self {before rest : List SnippetEvent} {e : SnippetEvent}
    (h : ∀ e' ∈ (before ++ e :: rest).tail, e'.opens = false) : sameOperation rest = rest := by
  unfold sameOperation
  rw [List.takeWhile_eq_self_iff]
  intro e' he'
  have hmem : e' ∈ (before ++ e :: rest).tail := by
    cases before with
    | nil => exact he'
    | cons x before => exact List.mem_append_right before (List.mem_cons_of_mem e he')
  rw [h e' hmem]
  rfl

theorem Chronicled.step {s s' : Store} {events more : List SnippetEvent} (h : s.Chronicled events)
    (hop : s.Operation more s') : s'.Chronicled (events ++ more) := by
  have htells := h.tells.trans hop.tells
  refine ⟨hop.sound, htells, fun id d hd hactive => ?_⟩
  rcases hop.structs id d hd hactive with ⟨hid, hd', hstatus, hunresolved, hnames⟩ |
    ⟨before, e, rest, m, rfl, he, hrest, htells', hkeeps, hsettled⟩
  · -- the last look lies in an earlier operation, and the new one changes nothing that it saw
    obtain ⟨before, e, rest, rfl, he, hrest, hsettled, hsince⟩ := h.structs id d hd' (hstatus ▸ hactive)
    have hthere := h.tells.isSome_record?
    have hbefore (name : String) : s.HadStruct before name ↔ s'.HadStruct before name :=
      hop.tells.keeps.hadStruct_iff (fun e' he' => hthere e' (List.mem_append_left _ he')) name
    refine ⟨before, e, rest ++ more, by simp, he, ?_, ?_, fun name hname => ?_⟩
    · rw [snippetsOf_append, List.mem_append, not_or]
      exact ⟨hrest, hid⟩
    · exact hsettled.congr hstatus hunresolved fun name _ => hbefore name
    · rw [sameOperation_append hop.first, ← hnames name hname, hsince name hname]
      refine hop.tells.keeps.hadStruct_iff (fun e' he' => hthere e' ?_) name
      rcases List.mem_append.1 he' with he' | he'
      · exact List.mem_append_left _ he'
      · refine List.mem_append_right before ?_
        rcases List.mem_cons.1 he' with rfl | he'
        · exact List.mem_cons_self
        · exact List.mem_cons_of_mem e ((List.takeWhile_prefix _).subset he')
  · -- the last look lies in the new operation, of which all the rest follows
    refine ⟨events ++ before, e, rest, by simp, he, hrest, ?_, fun name _ => ?_⟩
    · have hmoment := h.tells.trans htells'
      refine hsettled.congr rfl rfl fun name _ => ?_
      rw [← hmoment.hadStruct_iff name]
      exact hkeeps.hadStruct_iff hmoment.isSome_record? name
    · rw [sameOperation_eq_self hop.later, List.append_assoc]
      exact (htells.hadStruct_iff name).symm

theorem chronicled_empty : ({} : Store).Chronicled [] := by
  have hsound : ({} : Store).Sound := by
    refine ⟨bound_empty, fun id r hr => ?_, fun id r d hr => ?_⟩
    · rw [record?_empty] at hr
      cases hr
    · rw [record?_empty] at hr
      cases hr
  refine ⟨hsound, tells_of_records_eq rfl, fun id d hd => ?_⟩
  obtain ⟨r, hr, -⟩ := struct?_eq_some_iff.1 hd
  rw [record?_empty] at hr
  cases hr

/-- What one operation keeps, operations one after the other keep. -/
theorem Chronicled.operations {s s' : Store} {events more : List SnippetEvent}
    (h : s.Chronicled events) (hops : s.Operations more s') : s'.Chronicled (events ++ more) := by
  induction hops generalizing events with
  | none s =>
    rw [List.append_nil]
    exact h
  | next first _ ih =>
    rw [← List.append_assoc]
    exact ih (h.step first)

/-! ## Resolved structs -/

/-- The type is built in, or it is the name of a valid struct. -/
def Knows (s : Store) (t : TypeExpr) : Prop :=
  match Ty.read t.form with
  | .known _ => True
  | .named name => s.NamesStruct name
  | .unsupported => False

/-- The struct is as the types of its fields have it: valid if they are all known, and else waiting for
just those names, in order, that are not bound to a valid struct. -/
def Resolved (s : Store) (id : SnippetId) (d : StructDecl) : Prop :=
  (s.status id = .valid ↔ ∀ f ∈ d.fields, s.Knows f.type) ∧
    (s.status id ≠ .valid →
      s.status id = .recoverableUndefined ∧ (s.unresolved id).Pairwise (· < ·) ∧
        ∀ name, name ∈ s.unresolved id ↔ name ∈ fieldNames d.fields ∧ ¬ s.NamesStruct name)

theorem knows_iff {s : Store} {fields : List Field} (h : Readable fields) :
    (∀ f ∈ fields, s.Knows f.type) ↔ ∀ name ∈ fieldNames fields, s.NamesStruct name := by
  unfold fieldNames Knows
  constructor
  · intro hknows name hname
    obtain ⟨f, hf, hread⟩ := List.mem_filterMap.1 hname
    have hf' := hknows f hf
    cases hform : Ty.read f.type.form with
    | named other =>
      rw [hform] at hread hf'
      cases hread
      exact hf'
    | known ty =>
      rw [hform] at hread
      cases hread
    | unsupported =>
      rw [hform] at hread
      cases hread
  · intro hnames f hf
    cases hform : Ty.read f.type.form with
    | named name =>
      refine hnames name (List.mem_filterMap.2 ⟨f, hf, ?_⟩)
      rw [hform]
    | known ty => trivial
    | unsupported => exact absurd hform (h f hf)

/-- A struct that has been settled is resolved if and only if what it mentions is still as it was. -/
theorem Settled.resolved_iff {s : Store} (hs : s.Sound) {id : SnippetId} {d : StructDecl}
    {has : String → Prop} (hd : s.struct? id = some d) (h : s.Settled id d has) :
    s.Resolved id d ↔ ∀ name ∈ fieldNames d.fields, has name ↔ s.HasStruct name := by
  obtain ⟨r, hr, hdeclaration⟩ := struct?_eq_some_iff.1 hd
  have hreadable := ((hs.fine id r hr).readable d hdeclaration).2
  have hvalid : s.status id = .valid ↔ ∀ name ∈ fieldNames d.fields, has name := by
    have hempty : s.status id = .valid ↔ s.unresolved id = [] := by
      rw [h.status]
      cases s.unresolved id <;> simp
    rw [hempty, List.eq_nil_iff_forall_not_mem]
    refine forall_congr' fun name => ?_
    rw [h.mem_unresolved, not_and, not_not]
  unfold Resolved
  rw [knows_iff hreadable, ne_eq, hvalid]
  simp only [hs.namesStruct_iff]
  constructor
  · rintro ⟨hiff, hwaiting⟩ name hname
    by_cases hall : ∀ name ∈ fieldNames d.fields, has name
    · exact iff_of_true (hall name hname) (hiff.1 hall name hname)
    · -- the struct waits, and what it waits for is what was missing when it was settled
      obtain ⟨-, -, hmem⟩ := hwaiting hall
      have hnot := (h.mem_unresolved name).symm.trans (hmem name)
      simp only [hname, true_and] at hnot
      exact not_iff_not.1 hnot
  · intro hsame
    refine ⟨forall₂_congr hsame, fun hnot => ⟨?_, h.sorted, fun name => ?_⟩⟩
    · rw [← hvalid, h.status] at hnot
      rw [h.status]
      split_ifs at hnot ⊢
      · exact absurd rfl hnot
      · rfl
    · rw [h.mem_unresolved]
      exact and_congr_right fun hname => not_congr (hsame name hname)

end Store

/-! ## Which structs are resolved -/

/-- A struct that takes part in the session is resolved if and only if its last look stands: since
its last event, and in the operation that told of it, nothing that its fields name has become a valid
struct or has stopped being one.  What happens in later operations makes no difference, as a struct
that it concerns is looked at again. -/
theorem resolved_iff_last_look_stands {σ : Type} (calls : HostCalls σ) (requests : List (Request σ))
    (hstops : ∀ request ∈ requests, request.stops = false) {w w' : σ} {events : List SnippetEvent}
    {s : Store} (hlive : Engine.live calls requests {} w = (events, s, w')) {id : SnippetId}
    {d : StructDecl} (hd : s.struct? id = some d) (hactive : (s.status id).isActive = true) :
    ∃ before e rest, events = before ++ e :: rest ∧ e.snippet = id ∧ id ∉ snippetsOf rest ∧
      (s.Resolved id d ↔ ∀ name ∈ fieldNames d.fields,
        s.HadStruct before name ↔ s.HadStruct (before ++ e :: sameOperation rest) name) := by
  have hempty := Store.chronicled_empty
  have hoperations := Engine.operations_live calls requests hstops hempty.sound w
  rw [hlive] at hoperations
  have hchronicled := hempty.operations hoperations
  rw [List.nil_append] at hchronicled
  obtain ⟨before, e, rest, hevents, he, hrest, hsettled, hsince⟩ := hchronicled.structs id d hd hactive
  refine ⟨before, e, rest, hevents, he, hrest, ?_⟩
  rw [hsettled.resolved_iff hchronicled.sound hd]
  exact forall₂_congr fun name hname => iff_congr Iff.rfl (hsince name hname)

/-- A struct that mentions two others, of which one mentions the other. -/
def chainOfStructs : List (Request Unit) :=
  [.evaluate 20 "struct A \x7b b: B, c: C \x7d".toList, .evaluate 20 "struct B \x7b c: C \x7d".toList,
    .evaluate 20 "struct C \x7b x: i64 \x7d".toList]

/-- A snippet that waits for a valid struct is not resolved. -/
theorem Store.not_resolved_of_unresolved {s : Store} {id : SnippetId} {d : StructDecl} {name : String}
    (hstatus : s.status id ≠ .valid) (hname : name ∈ s.unresolved id) (hvalid : s.NamesStruct name) :
    ¬ s.Resolved id d := by
  rintro ⟨-, hwaiting⟩
  obtain ⟨-, -, hmem⟩ := hwaiting hstatus
  exact ((hmem name).1 hname).2 hvalid

/-- The last of the three structs is looked for by both others, the first of them first. -/
theorem live_chainOfStructs :
    ∃ events s d, Engine.live errorCalls chainOfStructs {} () = (events, s, ()) ∧
      s.struct? 1 = some d ∧ s.status 1 = .recoverableUndefined ∧ "B" ∈ s.unresolved 1 ∧
      s.NamesStruct "B" := by
  have hruns : (match Engine.live errorCalls chainOfStructs {} () with
      | (_, s, _) =>
        decide ((s.struct? 1).isSome = true ∧ s.status 1 = .recoverableUndefined ∧
          "B" ∈ s.unresolved 1 ∧ s.binding? "B" = some 2 ∧ (s.struct? 2).isSome = true ∧
          s.status 2 = .valid)) = true := by
    decide +kernel
  rcases hlive : Engine.live errorCalls chainOfStructs {} () with ⟨events, s, world⟩
  rw [hlive] at hruns
  obtain ⟨hA, hstatus, hwaits, hB, hstruct, hvalid⟩ := of_decide_eq_true hruns
  obtain ⟨d, hd⟩ := Option.isSome_iff_exists.1 hA
  obtain ⟨dB, hdB⟩ := Option.isSome_iff_exists.1 hstruct
  exact ⟨events, s, d, rfl, hd, hstatus, hwaits, 2, dB, hB, hdB, hvalid⟩

/-- A struct keeps waiting for a struct that has become valid later in the cascade of a third one. -/
theorem struct_waits_for_what_is_there :
    ∃ events s d, Engine.live errorCalls chainOfStructs {} () = (events, s, ()) ∧
      s.struct? 1 = some d ∧ (s.status 1).isActive = true ∧ "B" ∈ s.unresolved 1 ∧
      s.NamesStruct "B" ∧ ¬ s.Resolved 1 d := by
  obtain ⟨events, s, d, hlive, hd, hstatus, hwaits, hvalid⟩ := live_chainOfStructs
  refine ⟨events, s, d, hlive, hd, ?_, hwaits, hvalid, ?_⟩
  · rw [hstatus]
    rfl
  · refine Store.not_resolved_of_unresolved ?_ hwaits hvalid
    rw [hstatus]
    exact Status.noConfusion

theorem last_look_does_not_stand :
    ∃ events s d before e rest, Engine.live errorCalls chainOfStructs {} () = (events, s, ()) ∧
      s.struct? 1 = some d ∧ events = before ++ e :: rest ∧ e.snippet = 1 ∧ 1 ∉ snippetsOf rest ∧
      ¬ ∀ name ∈ fieldNames d.fields,
        s.HadStruct before name ↔ s.HadStruct (before ++ e :: sameOperation rest) name := by
  obtain ⟨events, s, d, hlive, hd, hstatus, hwaits, hvalid⟩ := live_chainOfStructs
  have hstops : ∀ request ∈ chainOfStructs, request.stops = false := by decide
  have hactive : (s.status 1).isActive = true := by
    rw [hstatus]
    rfl
  obtain ⟨before, e, rest, hevents, he, hrest, hiff⟩ :=
    resolved_iff_last_look_stands errorCalls chainOfStructs hstops hlive hd hactive
  refine ⟨events, s, d, before, e, rest, hlive, hd, hevents, he, hrest, ?_⟩
  rw [← hiff]
  refine Store.not_resolved_of_unresolved ?_ hwaits hvalid
  rw [hstatus]
  exact Status.noConfusion

end Notebook.Guest

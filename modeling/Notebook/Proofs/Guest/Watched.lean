import Notebook.Proofs.Guest.Meanings
import Notebook.Proofs.Guest.Timeline

/-!
# What one step does to functions

One thing that an engine does looks at some functions and leaves the others alone
(`Engine.Step.watched`).  A function that is looked at is what it is understood to be among the names
of that moment.  A function that is left alone mentions no name that changes its meaning, but for
names of functions that are looked at and for names that are given to host objects.
-/

namespace Notebook.Guest
open Notebook.Syntax

/-- The snippet is what its function is understood to be among some names. One that is refused among
them counts as waiting, and does not say for what. -/
def Record.Among (r : Record) (h : FnHeader) (body : Block) (g : Globals) : Prop :=
  match analyzeFunction g h body with
  | .ok a =>
    r.status = a.status ∧ r.unresolved = a.unresolved ∧ r.definition = a.definition ∧
      ∀ n ∈ a.refs, n ∈ r.refs
  | .error _ => r.status = .recoverableDefined ∧ r.unresolved = []

theorem Record.among_rechecked (r : Record) (h : FnHeader) (body : Block) (g : Globals) :
    (r.rechecked (.function h body) g).Among h body g := by
  have hanalyze : (Declaration.function h body).analyze g = analyzeFunction g h body := rfl
  unfold Record.Among Record.rechecked
  rw [hanalyze]
  cases analyzeFunction g h body with
  | error e => exact ⟨rfl, rfl⟩
  | ok a => exact ⟨rfl, rfl, rfl, fun n hn => (mem_foldl_insertNew n a.refs r.refs).2 (.inl hn)⟩

theorem Declaration.among_made {g : Globals} {h : FnHeader} {body : Block} {a : Analysis}
    (ha : analyzeFunction g h body = .ok a) (piece : Slice) :
    ({ (Declaration.function h body).made a piece with status := a.status } : Record).Among h body g := by
  unfold Record.Among
  rw [ha]
  exact ⟨rfl, rfl, rfl, fun _ hn => hn⟩

theorem Definition.eq_of_known {d : Definition} {f : Function} (h : d.known = .function f) :
    d = .function f := by
  cases d <;> first | exact h | cases h

/-- A function has no value that could be left out. -/
theorem Record.known_of_function {r : Record} {f : Function} (h : r.definition = .function f) :
    r.known = r := by
  unfold Record.known
  rw [h]
  exact congrArg (fun d => { r with definition := d }) h.symm

theorem get?_putOrdered_of_ne {α : Type} {name n : String} (a : α) (t : Table String α)
    (h : n ≠ name) : Table.get? (putOrdered name a t) n = Table.get? t n := by
  induction t with
  | nil => simp [putOrdered, Table.get?, Ne.symm h]
  | cons entry rest ih =>
    obtain ⟨m, b⟩ := entry
    unfold putOrdered
    split
    · simp [Table.get?, Ne.symm h]
    · split
      · rename_i hm
        subst hm
        simp [Table.get?, Ne.symm h]
      · simp only [Table.get?, ih]

namespace Store

/-- The function is not looked at, and no name that it mentions changes its meaning, unless it is the
name of a function that is looked at. -/
def KeepsFunction (s : Store) (events : List SnippetEvent) (s' : Store) (id : SnippetId)
    (r : Record) : Prop :=
  id ∉ snippetsOf events ∧ s.record? id = some r ∧
    ∀ n ∈ r.refs, s'.globals n = s.globals n ∨ s'.Retyped s.globals events n

/-- The function is looked at, for the last time when its last event is told. -/
def LooksAtFunction (s' : Store) (events : List SnippetEvent) (id : SnippetId) (r : Record)
    (h : FnHeader) (body : Block) : Prop :=
  ∃ before e rest g, events = before ++ e :: rest ∧ e.snippet = id ∧ id ∉ snippetsOf rest ∧
    r.Among h body g ∧
    ∀ n, s'.globals n = g n ∨ n = h.name ∨ s'.Retyped g rest n ∨ s'.StructFlipped rest n

/-- Each function that takes part in the session afterwards has been looked at or left alone. -/
structure Watches (s : Store) (events : List SnippetEvent) (s' : Store) : Prop where
  defined : s'.FunctionsDefined
  functions : ∀ id r h body, s'.record? id = some r → r.declaration = some (.function h body) →
    r.status.isActive = true → s.KeepsFunction events s' id r ∨ s'.LooksAtFunction events id r h body

/-! ## Cascades -/

/-- A function that is looked at is what it is understood to be among the names of that moment. -/
theorem Looks.looksAtFunction {cause : SnippetId} {s s' : Store} {events : List SnippetEvent}
    (hs : s.Sound) (hdefined : s.FunctionsDefined) (h : Looks cause s events s') (hnodup : (snippetsOf events).Nodup)
    {id : SnippetId} {r : Record} {header : FnHeader} {body : Block} (hr : s'.record? id = some r)
    (hd : r.declaration = some (.function header body)) (hid : id ∈ snippetsOf events) :
    s'.LooksAtFunction events id r header body := by
  induction h with
  | done => cases hid
  | @look s s' events j r₀ d hr₀ hd₀ hactive hrest ih =>
    obtain ⟨hj, hnodup⟩ := List.nodup_cons.1 hnodup
    change j ∉ snippetsOf events at hj
    have hone : Looks cause s _ (s.update j fun _ => r₀.rechecked d s.globals) :=
      .look hr₀ hd₀ hactive (.done _)
    by_cases hjid : id = j
    · subst hjid
      -- the look at the function itself: no later one touches it again
      rw [hrest.record?_of_not_mem hj, record?_update_self _ hr₀] at hr
      cases hr
      rw [(Record.sameCode_rechecked r₀ d s.globals).declaration, hd₀] at hd
      cases hd
      refine ⟨[], _, events, s.globals, rfl, rfl, hj, Record.among_rechecked r₀ header body _,
        fun n => ?_⟩
      rcases globals_look hs hdefined hr₀ hd₀ hactive n with hsame | ⟨hname, -⟩
      · rcases hrest.globals_cases (hs.looks hone) (hdefined.looks hone) n with hsame' | hretyped | hflipped
        · exact .inl (hsame'.trans hsame)
        · exact .inr (.inr (.inl (hretyped.since hsame)))
        · exact .inr (.inr (.inr hflipped))
      · exact .inr (.inl hname.symm)
    · -- the look at another snippet comes before
      have hid' : id ∈ snippetsOf events := (List.mem_cons.1 hid).resolve_left hjid
      obtain ⟨before, e, rest, g, rfl, he, hnot, hamong, hnames⟩ :=
        ih (hs.looks hone) (hdefined.looks hone) hnodup hr hid'
      exact ⟨_ :: before, e, rest, g, rfl, he, hnot, hamong, hnames⟩

theorem LooksAtFunction.after {s' : Store} {events : List SnippetEvent} {id : SnippetId} {r : Record}
    {h : FnHeader} {body : Block} (first : List SnippetEvent)
    (hlooks : s'.LooksAtFunction events id r h body) :
    s'.LooksAtFunction (first ++ events) id r h body := by
  obtain ⟨before, e, rest, g, rfl, he, hnot, hamong, hnames⟩ := hlooks
  exact ⟨first ++ before, e, rest, g, (List.append_assoc ..).symm, he, hnot, hamong, hnames⟩

/-- A change of a snippet and its name, and then the cascade that follows: a function other than the
snippet is looked at by the cascade or left alone by both. -/
theorem watches_with_cascade {s t : Store} (ht : t.Sound) (hdefined : t.FunctionsDefined)
    (events : List SnippetEvent) (name : String) (id : SnippetId)
    (hothers : ∀ j r, j ≠ id → t.record? j = some r → r.status.isActive = true →
      s.record? j = some r ∧ j ∉ snippetsOf events)
    (hnames : ∀ n, n ≠ name → t.globals n = s.globals n)
    (hself : ∀ r h body, (t.recheckDependents name id).2.record? id = some r →
      r.declaration = some (.function h body) → r.status.isActive = true →
      (t.recheckDependents name id).2.LooksAtFunction (events ++ (t.recheckDependents name id).1) id r
        h body) :
    s.Watches (events ++ (t.recheckDependents name id).1) (t.recheckDependents name id).2 := by
  have hlooks := recheckDependents_looks t name id
  refine ⟨hdefined.looks hlooks, fun j r h body hr hd hactive => ?_⟩
  by_cases hj : j = id
  · subst hj
    exact .inr (hself r h body hr hd hactive)
  · by_cases hmem : j ∈ snippetsOf (t.recheckDependents name id).1
    · exact .inr ((hlooks.looksAtFunction ht hdefined (nodup_recheckDependents t name id) hr hd hmem).after events)
    · left
      rw [hlooks.record?_of_not_mem hmem] at hr
      obtain ⟨hr', hnot⟩ := hothers j r hj hr hactive
      refine ⟨?_, hr', fun n hn => ?_⟩
      · rw [snippetsOf_append, List.mem_append, not_or]
        exact ⟨hnot, hmem⟩
      · have hdeclared : r.declaration.isSome = true := by rw [hd]; rfl
        obtain ⟨hne, hmeans⟩ := globals_of_left_out ht hdefined name id hr hdeclared hactive hj hmem hn
        rcases hmeans with hsame | hretyped
        · exact .inl (hsame.trans (hnames n hne))
        · exact .inr ((hretyped.mono fun e he => List.mem_append_right events he).since (hnames n hne))

/-! ## A snippet takes its place -/

theorem binding?_supersede (s : Store) (name : String) (id : SnippetId) {n : String} (hn : n ≠ name) :
    (s.supersede name id).2.binding? n = s.binding? n := by
  have hbind : (s.bind name id).binding? n = s.binding? n := by
    rw [binding?_bind, if_neg (Ne.symm hn)]
  unfold supersede
  cases s.binding? name with
  | none => exact hbind
  | some p =>
    dsimp only
    split
    · unfold transition
      split
      · exact hbind
      · rw [binding?, bindings_update]
        exact hbind
    · exact hbind

theorem hosts_supersede (s : Store) (name : String) (id : SnippetId) :
    (s.supersede name id).2.hosts = s.hosts := by
  unfold supersede
  cases s.binding? name with
  | none => rfl
  | some p =>
    dsimp only
    split
    · unfold transition
      split
      · rfl
      · exact hosts_update ..
    · rfl

/-- A new snippet is fit to be a function: if it declares one, it is what that is understood to be. -/
def NewAmong (s : Store) (r : Record) (status : Status) : Prop :=
  ∀ h body, r.declaration = some (.function h body) →
    ({ r with status } : Record).Among h body s.globals ∧ (∃ f, r.definition = .function f) ∧
      status.isDefined = true

/-- A new snippet has its status and its name, and what it takes the place of has been told of. -/
structure Placed (s : Store) (id : SnippetId) (r : Record) (name : String) (overwritten : List SnippetEvent)
    (t : Store) : Prop where
  sound : t.Sound
  self : t.record? id = some r
  untold : id ∉ snippetsOf overwritten
  others : ∀ j r', j ≠ id → t.record? j = some r' → r'.status.isActive = true →
    s.record? j = some r' ∧ j ∉ snippetsOf overwritten
  names : ∀ n, n ≠ name → t.globals n = s.globals n

theorem placed_supersede {s : Store} (hs : s.Sound) {id : SnippetId} {r : Record}
    (hr : s.record? id = some r) (hnew : r.status = .nonexistent) {name : String}
    (hname : r.name = some name) {status : Status} (hactive : status.isActive = true)
    (hstatus : ∀ d, r.declaration = some (.struct d) → status ≠ .recoverableDefined) :
    s.Placed id { r with status } name ((s.update id fun r => { r with status }).supersede name id).1
      ((s.update id fun r => { r with status }).supersede name id).2 := by
  have hsound := hs.supersede hr hnew hname hactive hstatus
  generalize ht : (s.update id fun r => { r with status }) = t at hsound ⊢
  obtain ⟨hself, hnotid, -, hothers, -⟩ := supersede_settles hs hr hnew hname hstatus ht.symm
  have hrecord (j : SnippetId) (r' : Record) (hj : j ≠ id) (hr' : (t.supersede name id).2.record? j = some r')
      (hactive' : r'.status.isActive = true) :
      s.record? j = some r' ∧ j ∉ snippetsOf (t.supersede name id).1 := by
    obtain ⟨hsame, hnot⟩ := hothers j hj (by rw [status_of_record? hr']; exact hactive')
    exact ⟨hsame ▸ hr', hnot⟩
  refine ⟨hsound, hself, hnotid, hrecord, fun n hn => ?_⟩
  have hbinding : (t.supersede name id).2.binding? n = s.binding? n := by
    rw [binding?_supersede t name id hn, binding?, binding?, ← ht, bindings_update]
  have hhosts : (t.supersede name id).2.hosts = s.hosts := by
    rw [hosts_supersede, ← ht, hosts_update]
  refine globals_of_record_eq hbinding hhosts fun j hj => ?_
  obtain ⟨r', hr', -, hactive'⟩ := hsound.bound n j (hbinding.trans hj)
  have hjid : j ≠ id := fun heq => hs.bound.binding?_ne_of_new hr hnew n (heq ▸ hj)
  rw [hr', (hrecord j r' hjid hr' hactive').1]

/-- A snippet without a status takes its place under its name. -/
theorem watches_of_finish_named {s : Store} (hs : s.Sound) (hdefined : s.FunctionsDefined)
    {id : SnippetId} {r : Record} (hr : s.record? id = some r) (hnew : r.status = .nonexistent)
    {name : String} (hname : r.name = some name) {status : Status} (hactive : status.isActive = true)
    (hstatus : ∀ d, r.declaration = some (.struct d) → status ≠ .recoverableDefined)
    (hamong : s.NewAmong r status) (fault : Option FaultReport) :
    s.Watches (s.finish id status fault true).1 (s.finish id status fault true).2 := by
  have hplaced := placed_supersede hs hr hnew hname hactive hstatus
  have hfinish := finish_eq hr status fault true
  rw [if_pos rfl, hname] at hfinish
  dsimp only at hfinish
  rw [bindName_eq] at hfinish
  rw [hfinish]
  generalize (s.update id fun r => { r with status }).supersede name id = superseded at hplaced ⊢
  obtain ⟨overwritten, t⟩ := superseded
  dsimp only at hplaced ⊢
  have hdefined' : t.FunctionsDefined := by
    intro j r' h body hr' hd hactive'
    by_cases hj : j = id
    · subst hj
      cases hplaced.self.symm.trans hr'
      exact (hamong h body hd).2
    · exact hdefined j r' h body (hplaced.others j r' hj hr' hactive').1 hd hactive'
  have hleft := not_mem_recheckDependents t name id
  have hlooks := recheckDependents_looks t name id
  refine watches_with_cascade hplaced.sound hdefined' (r.begun id status fault :: overwritten) name id
    (fun j r' hj hr' hactive' => ?_) hplaced.names fun r' h body hr' hd _ => ?_
  · obtain ⟨hsame, hnot⟩ := hplaced.others j r' hj hr' hactive'
    exact ⟨hsame, fun hmem => (List.mem_cons.1 hmem).elim hj hnot⟩
  · -- the new function has been looked at before it took its name
    rw [hlooks.record?_of_not_mem hleft, hplaced.self] at hr'
    cases hr'
    have hnamed : name = h.name :=
      Option.some.inj (hname.symm.trans ((hs.fine id r hr).named _ hd))
    refine ⟨[], _, overwritten ++ (t.recheckDependents name id).1, s.globals, rfl, rfl, ?_,
      (hamong h body hd).1, fun n => ?_⟩
    · rw [snippetsOf_append, List.mem_append, not_or]
      exact ⟨hplaced.untold, hleft⟩
    · by_cases hn : n = name
      · exact .inr (.inl (hn.trans hnamed))
      · have hsub (e : SnippetEvent) (he : e ∈ (t.recheckDependents name id).1) :
            e ∈ overwritten ++ (t.recheckDependents name id).1 := List.mem_append_right overwritten he
        rcases hlooks.globals_cases hplaced.sound hdefined' n with hsame | hretyped | hflipped
        · exact .inl (hsame.trans (hplaced.names n hn))
        · exact .inr (.inr (.inl ((hretyped.mono hsub).since (hplaced.names n hn))))
        · exact .inr (.inr (.inr (hflipped.mono (.refl _) hsub)))

/-- A change of one snippet, to which no name is bound, in its status. -/
theorem watches_with_status {s : Store} (hdefined : s.FunctionsDefined) {id : SnippetId}
    (hfree : ∀ n, s.binding? n ≠ some id) {status : Status} {e : SnippetEvent} (he : e.snippet = id)
    (hplain : ∀ r h body, s.record? id = some r → r.declaration = some (.function h body) →
      status.isActive = false) :
    s.Watches [e] (s.update id fun r => { r with status }) := by
  have hcases (j : SnippetId) (r : Record) (h : FnHeader) (body : Block)
      (hr : (s.update id fun r => { r with status }).record? j = some r)
      (hd : r.declaration = some (.function h body)) (hactive : r.status.isActive = true) :
      j ≠ id ∧ s.record? j = some r := by
    rcases record?_with_status hr with ⟨rfl, r₀, hr₀, rfl⟩ | ⟨hj, hr⟩
    · have hdead := hplain r₀ h body hr₀ hd
      rw [show status.isActive = true from hactive] at hdead
      cases hdead
    · exact ⟨hj, hr⟩
  refine ⟨fun j r h body hr hd hactive => ?_, fun j r h body hr hd hactive => .inl ⟨?_, ?_, fun n _ => ?_⟩⟩
  · exact hdefined j r h body (hcases j r h body hr hd hactive).2 hd hactive
  · exact fun hmem => (hcases j r h body hr hd hactive).1 ((List.mem_singleton.1 hmem).trans he)
  · exact (hcases j r h body hr hd hactive).2
  · refine .inl (globals_of_record_eq ?_ (hosts_update ..) fun k hk => ?_)
    · rw [binding?, binding?, bindings_update]
    · exact record?_update_of_ne s _ fun heq => hfree n (heq ▸ hk)

/-- A snippet without a status that is no declaration is given one, and no name. -/
theorem watches_of_finish_unnamed {s : Store} (hs : s.Bound) (hdefined : s.FunctionsDefined)
    {id : SnippetId} {r : Record} (hr : s.record? id = some r) (hnew : r.status = .nonexistent)
    (hplain : r.declaration = none) (status : Status) (fault : Option FaultReport) (binds : Bool)
    (hbinds : (if binds then r.name else none) = none) :
    s.Watches (s.finish id status fault binds).1 (s.finish id status fault binds).2 := by
  rw [finish_eq hr, hbinds]
  refine watches_with_status hdefined (hs.binding?_ne_of_new hr hnew) rfl fun r' h body hr' hd => ?_
  rw [hr] at hr'
  cases hr'
  rw [hplain] at hd
  cases hd

/-! ## What is done quietly -/

/-- A change that is not told of and leaves functions and the meanings of all names as they are. -/
structure QuietForFunctions (s t : Store) : Prop where
  globals : t.globals = s.globals
  functions : ∀ id r h body, t.record? id = some r → r.declaration = some (.function h body) →
    r.status.isActive = true → s.record? id = some r

theorem QuietForFunctions.trans {s t u : Store} (hst : s.QuietForFunctions t)
    (htu : t.QuietForFunctions u) : s.QuietForFunctions u :=
  ⟨htu.globals.trans hst.globals, fun id r h body hr hd hactive =>
    hst.functions id r h body (htu.functions id r h body hr hd hactive) hd hactive⟩

theorem QuietForFunctions.defined {s t : Store} (h : s.QuietForFunctions t)
    (hs : s.FunctionsDefined) : t.FunctionsDefined :=
  fun id r header body hr hd hactive =>
    hs id r header body (h.functions id r header body hr hd hactive) hd hactive

theorem QuietForFunctions.watches {s t : Store} (h : s.QuietForFunctions t)
    (hs : s.FunctionsDefined) : s.Watches [] t :=
  ⟨h.defined hs, fun id r header body hr hd hactive =>
    .inl ⟨List.not_mem_nil, h.functions id r header body hr hd hactive,
      fun n _ => .inl (congrFun h.globals n)⟩⟩

/-- Something is done before which something quiet has been done. -/
theorem Watches.after_quiet {s t s' : Store} {events : List SnippetEvent} (h : s.QuietForFunctions t)
    (ht : t.Watches events s') : s.Watches events s' := by
  refine ⟨ht.defined, fun id r header body hr hd hactive => ?_⟩
  rcases ht.functions id r header body hr hd hactive with ⟨hnot, hr', hnames⟩ | hlooks
  · refine .inl ⟨hnot, h.functions id r header body hr' hd hactive, ?_⟩
    rw [← h.globals]
    exact hnames
  · exact .inr hlooks

theorem quietForFunctions_allocate {s : Store} (hs : s.Bound) {r : Record}
    (hr : r.status = .nonexistent) : s.QuietForFunctions (s.allocate r).2 := by
  refine ⟨hs.globals_allocate r, fun id r' h body hr' _ hactive => ?_⟩
  rw [record?_allocate] at hr'
  split at hr'
  · cases hr'
    rw [hr] at hactive
    cases hactive
  · exact hr'

theorem quietForFunctions_of_eq {s t : Store} (hrecords : t.records = s.records)
    (hbindings : t.bindings = s.bindings) (hhosts : t.hosts = s.hosts) : s.QuietForFunctions t := by
  have hrecord (id : SnippetId) : t.record? id = s.record? id := by
    unfold record?
    rw [hrecords]
  refine ⟨funext fun n => globals_of_record_eq ?_ hhosts fun id _ => hrecord id,
    fun id r _ _ hr _ _ => (hrecord id).symm.trans hr⟩
  unfold binding?
  rw [hbindings]

theorem SameBut.quietForFunctions {s t : Store} (h : s.SameBut t) (hs : s.FunctionsDefined) :
    s.QuietForFunctions t := by
  refine ⟨h.globals_eq, fun id r header body hr hd hactive => ?_⟩
  obtain ⟨r', hr', hknown⟩ := h.symm.of_record? hr
  have hsame := Record.sameCode_of_known hknown
  rw [hr']
  -- a function has no value that could have changed
  obtain ⟨⟨f, hf⟩, -⟩ := hs id r' header body hr' (hsame.declaration.trans hd)
    ((Record.status_of_known hknown).symm ▸ hactive)
  rw [Record.known_of_function hf] at hknown
  have hf' : r.definition.known = .function f := hf ▸ (congrArg Record.definition hknown).symm
  rw [hknown, Record.known_of_function (Definition.eq_of_known hf')]

/-- What running its code gives a snippet that is no declaration. -/
theorem quietForFunctions_update {s : Store} (hs : s.Bound) {id : SnippetId} {r : Record}
    {f : Record → Record} (hr : s.record? id = some r) (hnew : r.status = .nonexistent)
    (hplain : r.declaration = none) (hf : r.Fills (f r)) : s.QuietForFunctions (s.update id f) := by
  refine ⟨funext fun n => globals_of_record_eq ?_ (hosts_update ..) fun j hj => ?_,
    fun j r' header body hr' hd _ => ?_⟩
  · rw [binding?, binding?, bindings_update]
  · exact record?_update_of_ne s f fun heq => hs.binding?_ne_of_new hr hnew n (heq ▸ hj)
  · by_cases hj : j = id
    · subst hj
      rw [record?_update_self f hr] at hr'
      cases hr'
      rw [(Record.sameCode_of_fills hf).declaration, hplain] at hd
      cases hd
    · rwa [record?_update_of_ne s f hj] at hr'

/-! ## What a request does -/

/-- A new snippet without a status that is no declaration, whose code has run. -/
theorem quietForFunctions_ran {s t : Store} (hs : s.Sound) (hdefined : s.FunctionsDefined)
    {nextValue : Nat} {r : Record} (hnew : r.Plain)
    (hruns : ({ s with nextValue }.allocate r).2.Runs t) : s.QuietForFunctions t := by
  have hcounted : s.QuietForFunctions { s with nextValue } := quietForFunctions_of_eq rfl rfl rfl
  have hallocated := hcounted.trans (quietForFunctions_allocate
    (hs.of_records_eq rfl rfl : ({ s with nextValue } : Store).Sound).bound hnew.status)
  exact hallocated.trans (hruns.sameBut.quietForFunctions (hallocated.defined hdefined))

theorem newAmong_made {s t : Store} {d : Declaration} {a : Analysis} (piece : Slice)
    (ha : d.analyze s.globals = .ok a) (ht : t.globals = s.globals) :
    t.NewAmong (d.made a piece) a.status := by
  intro h body hd
  cases hd
  rw [ht]
  exact ⟨Declaration.among_made ha piece, analyzeFunction_ok ha⟩

theorem watches_of_makes {s : Store} (hs : s.Sound) (hdefined : s.FunctionsDefined)
    {made : List SnippetEvent × Store} (h : s.Makes made) : s.Watches made.1 made.2 := by
  have hself (s : Store) (r : Record) :
      (s.allocate r).2.record? (s.records.length + 1) = some r := by
    rw [record?_allocate, if_pos rfl]
  cases h with
  | refuses kind source origin d =>
    have hquiet := quietForFunctions_allocate hs.bound
      (r := { kind, source, name := none, origin, diagnostics := [d] }) rfl
    exact (watches_of_finish_unnamed (hs.bound.allocate _) (hquiet.defined hdefined) (hself s _) rfl rfl
      .rejected none false rfl).after_quiet hquiet
  | declares d a piece ha =>
    have hquiet := quietForFunctions_allocate hs.bound (r := d.made a piece) rfl
    have hsettled := newSettled_made hs piece ha (quiet_allocate (s := s) (r := d.made a piece) rfl).tells
    refine (watches_of_finish_named (hs.allocate (Declaration.fine_made ha piece) rfl)
      (hquiet.defined hdefined) (hself s _) rfl rfl (isActive_of_analyze ha) (fun sd hsd => ?_)
      (newAmong_made piece ha hquiet.globals) none).after_quiet hquiet
    rw [(hsettled sd hsd).2.2]
    split <;> exact Status.noConfusion
  | runs nextValue r t f fault binds hnew hruns hf =>
    have hquiet := quietForFunctions_ran hs hdefined hnew hruns
    obtain ⟨-, ht⟩ := quiet_ran hs hnew hruns
    obtain ⟨r', hr', hknown⟩ := hruns.sameBut.of_record? (hself _ r)
    have hsame := Record.sameCode_of_known hknown
    have hplain : r'.declaration = none := hsame.declaration.trans hnew.declaration
    have hnew' : r'.status = .nonexistent := (Record.status_of_known hknown).trans hnew.status
    have hfills := hf r'
    have hfilled : (f r').status = r'.status := by
      obtain ⟨definition, refs, heq, -⟩ := hfills
      rw [heq]
    have hplain' := (Record.sameCode_of_fills hfills).declaration.trans hplain
    have hsound := ht.update hr' ((hnew.fine.of_known hknown).of_fills hplain hfills)
      (Record.sameCode_of_fills hfills) (congrArg Status.isActive hfilled)
    have hquiet' := hquiet.trans (quietForFunctions_update ht.bound hr' hnew' hplain hfills)
    have hrecord := record?_update_self f hr'
    cases hbinds : (if binds then (f r').name else none) with
    | none =>
      exact (watches_of_finish_unnamed hsound.bound (hquiet'.defined hdefined) hrecord
        (hfilled.trans hnew') hplain' .valid fault binds hbinds).after_quiet hquiet'
    | some name =>
      cases binds with
      | false => cases hbinds
      | true =>
        refine (watches_of_finish_named hsound (hquiet'.defined hdefined) hrecord (hfilled.trans hnew')
          hbinds rfl (fun d hd => ?_) (fun h body hd => ?_) fault).after_quiet hquiet'
        · rw [hplain'] at hd
          cases hd
        · rw [hplain'] at hd
          cases hd

theorem watches_of_drop {s : Store} (hs : s.Sound) (hdefined : s.FunctionsDefined) (id : SnippetId) :
    s.Watches (s.drop id).1 (s.drop id).2 := by
  rcases drop_cases hs.bound id with h | ⟨r, hr, hactive, ⟨hfree, h⟩ | ⟨name, t, hname, hid, ht, h⟩⟩
  · rw [h]
    exact (quietForFunctions_of_eq rfl rfl rfl).watches hdefined
  · rw [h]
    exact watches_with_status hdefined hfree rfl fun _ _ _ _ _ => rfl
  · rw [h]
    have hsound := hs.dropped hr hname hid
    have hdead (j : SnippetId) (r' : Record) (hr' : t.record? j = some r')
        (hactive' : r'.status.isActive = true) : j ≠ id ∧ s.record? j = some r' := by
      rw [ht] at hr'
      rcases record?_with_status hr' with ⟨-, r₀, -, rfl⟩ | ⟨hj, hr'⟩
      · cases hactive'
      · exact ⟨hj, hr'⟩
    rw [← ht] at hsound
    have hbinding (n : String) (hn : n ≠ name) : t.binding? n = s.binding? n := by
      rw [ht, binding?, bindings_update]
      change (s.unbind name).binding? n = _
      rw [binding?_unbind, if_neg (Ne.symm hn)]
    refine watches_with_cascade hsound (fun j r' header body hr' hd hactive' => ?_) [r.dropped id] name
      id (fun j r' hj hr' hactive' => ⟨(hdead j r' hr' hactive').2, ?_⟩) (fun n hn => ?_)
      fun r' header body hr' _ hactive' => ?_
    · exact hdefined j r' header body (hdead j r' hr' hactive').2 hd hactive'
    · exact fun hmem => hj (List.mem_singleton.1 hmem)
    · refine globals_of_record_eq (hbinding n hn) ?_ fun j hj => ?_
      · rw [ht, hosts_update]
        rfl
      · -- what another name is bound to is not the snippet that is dropped
        obtain ⟨r', hr', hrname, -⟩ := hs.bound n j hj
        have hjid : j ≠ id := by
          rintro rfl
          rw [hr] at hr'
          cases hr'
          rw [hname] at hrname
          exact hn (Option.some.inj hrname).symm
        rw [ht]
        exact record?_update_of_ne (s.unbind name) _ hjid
    · -- the dropped snippet takes no part in the session any more
      rw [(recheckDependents_looks t name id).record?_of_not_mem
        (not_mem_recheckDependents t name id)] at hr'
      exact absurd rfl (hdead id r' hr' hactive').1

end Store

namespace Engine

variable {σ : Type} {calls : HostCalls σ}

/-- Each step is an operation, of which its events tell. -/
theorem Step.operation {s s' : Store} {w w' : σ} {happenings : List Happening} (hs : s.Sound)
    (h : Step calls s w happenings s' w') : s.Operation (eventsOf happenings) s' := by
  have hquiet {t : Store} (hrecords : t.records = s.records) (hbindings : t.bindings = s.bindings) :
      s.Operation [] t := (Store.quiet_of_records_eq hrecords).operation (hs.of_records_eq hrecords hbindings)
  cases h with
  | stmt fuel stmt piece =>
    have hyields := evaluateStmt_makes calls fuel s w stmt piece
    rcases hrun : outcome (evaluateStmt calls fuel stmt piece) s w with ⟨i | events, t, v⟩
    · rw [hrun] at hyields
      exact Store.operation_of_breaks hs hyields
    · rw [hrun] at hyields
      change s.Operation (eventsOf (events.map .told)) t
      rw [eventsOf_told]
      exact Store.operation_of_makes hs hyields
  | refuse kind source origin d =>
    rw [eventsOf_told]
    exact Store.operation_of_makes hs (.refuses kind source origin d)
  | drop id =>
    rw [eventsOf_told]
    exact Store.operation_of_drop hs id
  | host name object => exact hquiet rfl rfl
  | idle libraries output => exact hquiet rfl rfl

theorem Step.watches {s s' : Store} {w w' : σ} {happenings : List Happening} (hs : s.Sound)
    (hdefined : s.FunctionsDefined) (h : Step calls s w happenings s' w') :
    s.Watches (eventsOf happenings) s' ∨
      ∃ name, happenings = [.hosted name] ∧ s'.records = s.records ∧
        ∀ n, s'.globals n = s.globals n ∨ n = name := by
  cases h with
  | stmt fuel stmt piece =>
    left
    have hyields := evaluateStmt_makes calls fuel s w stmt piece
    rcases hrun : outcome (evaluateStmt calls fuel stmt piece) s w with ⟨i | events, t, v⟩
    · rw [hrun] at hyields
      obtain ⟨nextValue, r, hnew, hruns⟩ := hyields
      exact (Store.quietForFunctions_ran hs hdefined hnew hruns).watches hdefined
    · rw [hrun] at hyields
      change s.Watches (eventsOf (events.map .told)) t
      rw [eventsOf_told]
      exact Store.watches_of_makes hs hdefined hyields
  | refuse kind source origin d =>
    rw [eventsOf_told]
    exact .inl (Store.watches_of_makes hs hdefined (.refuses kind source origin d))
  | drop id =>
    rw [eventsOf_told]
    exact .inl (Store.watches_of_drop hs hdefined id)
  | host name object =>
    refine .inr ⟨name, rfl, rfl, fun n => ?_⟩
    by_cases hn : n = name
    · exact .inr hn
    · refine .inl (Store.globals_congr rfl ?_ fun _ _ => rfl)
      exact get?_putOrdered_of_ne object s.hosts hn
  | idle libraries output =>
    have hquiet : s.QuietForFunctions { s with libraries, output } :=
      Store.quietForFunctions_of_eq rfl rfl rfl
    exact .inl (hquiet.watches hdefined)

end Engine

end Notebook.Guest

import Notebook.Proofs.Guest.Watched

/-!
# Where functions stand

A function that is valid should check among the names that there are, and one that waits should wait for
names that stand for nothing.
-/

namespace Notebook.Guest
open Notebook.Syntax

namespace Store

/-! ## What a function does not notice -/

/-- Ways in which a name that a function mentions has come to stand for something else, it may be, since
the function was looked at, without another look: the name is the function's own; it is the name of a
struct that became defined or undefined later in the same operation; or it has been given to a host
object. -/
inductive Missed (s : Store) (own : String) (after : List Happening) (n : String) : Prop
  | own (h : n = own)
  | struct (h : s.StructFlipped (sameOperation (eventsOf after)) n)
  | host (h : .hosted n ∈ after)

/-- The function is what it was understood to be when its last event was told, and the names that it
mentions mean what they meant then, but for functions with other types and for what it does not notice. -/
def LastLookAtFunction (s : Store) (timeline : List Happening) (id : SnippetId) (r : Record)
    (h : FnHeader) (body : Block) (before : List Happening) (e : SnippetEvent) (after : List Happening)
    (g : Globals) : Prop :=
  timeline = before ++ .told e :: after ∧ e.snippet = id ∧ id ∉ snippetsOf (eventsOf after) ∧
    r.Among h body g ∧
    ∀ n ∈ r.refs, s.globals n = g n ∨ s.Retyped g (eventsOf after) n ∨ s.Missed h.name after n

/-- All that is known of the functions of a store and of the timeline that has led to it. -/
structure Accounted (s : Store) (timeline : List Happening) : Prop where
  sound : s.Sound
  defined : s.FunctionsDefined
  functions : ∀ id r h body, s.record? id = some r → r.declaration = some (.function h body) →
    r.status.isActive = true → ∃ before e after g, s.LastLookAtFunction timeline id r h body before e
      after g

theorem exists_of_eventsOf {happenings : List Happening} {before rest : List SnippetEvent}
    {e : SnippetEvent} (h : eventsOf happenings = before ++ e :: rest) :
    ∃ earlier later, happenings = earlier ++ .told e :: later ∧ eventsOf later = rest := by
  obtain ⟨earlier, happenings, rfl, -, h⟩ := List.filterMap_eq_append_iff.1 h
  obtain ⟨skipped, first, later, rfl, -, hfirst, hlater⟩ := List.filterMap_eq_cons_iff.1 h
  refine ⟨earlier ++ skipped, later, ?_, hlater⟩
  have : first = .told e := by
    cases first with
    | told e' => exact congrArg _ (Option.some.inj hfirst)
    | begun => cases hfirst
    | hosted => cases hfirst
  rw [this, List.append_assoc]

/-- Something more happens, after which the name still stands for a function. -/
theorem Retyped.later {s s' : Store} {g : Globals} {events more : List SnippetEvent} {n : String}
    (h : s.Retyped g events n) (hkeeps : s.Keeps s')
    (hn : s'.globals n = s.globals n ∨ s'.globals.IsFunction n) : s'.Retyped g (events ++ more) n :=
  ⟨h.told.mono hkeeps fun _ he => List.mem_append_left more he, h.before,
    hn.elim h.after.congr id⟩

/-- What has been missed stays missed. -/
theorem Missed.mono {s s' : Store} {own n : String} {after more : List Happening}
    (h : s.Missed own after n) (hkeeps : s.Keeps s')
    (hfirst : ∀ e ∈ (eventsOf more).head?, e.opens = true) : s'.Missed own (after ++ more) n := by
  cases h with
  | own h => exact .own h
  | struct h =>
    refine .struct (h.mono hkeeps fun e he => ?_)
    rwa [eventsOf_append, sameOperation_append hfirst]
  | host h => exact .host (List.mem_append_left _ h)

end Store

namespace Engine

variable {σ : Type} {calls : HostCalls σ}

theorem Step.accounted {s s' : Store} {w w' : σ} {timeline happenings : List Happening}
    (hs : s.Accounted timeline) (h : Step calls s w happenings s' w') :
    s'.Accounted (timeline ++ happenings) := by
  have hop := h.operation hs.sound
  -- a function that is not looked at
  have hkept {id : SnippetId} {r : Record} {header : FnHeader} {body : Block}
      (hr : s.record? id = some r) (hd : r.declaration = some (.function header body))
      (hactive : r.status.isActive = true) (hnot : id ∉ snippetsOf (eventsOf happenings))
      (hnames : ∀ n ∈ r.refs, s'.globals n = s.globals n ∨
        s'.Retyped s.globals (eventsOf happenings) n ∨ .hosted n ∈ happenings) :
      ∃ before e after g, s'.LastLookAtFunction (timeline ++ happenings) id r header body before e after
        g := by
    obtain ⟨before, e, after, g, rfl, he, hafter, hamong, hsince⟩ := hs.functions id r header body hr hd hactive
    refine ⟨before, e, after ++ happenings, g, by simp, he, ?_, hamong, fun n hn => ?_⟩
    · rw [eventsOf_append, snippetsOf_append, List.mem_append, not_or]
      exact ⟨hafter, hnot⟩
    · rw [eventsOf_append]
      rcases hnames n hn with hsame | hretyped | hhosted
      · rcases hsince n hn with hsame' | hretyped | hmissed
        · exact .inl (hsame.trans hsame')
        · exact .inr (.inl (hretyped.later hop.tells.keeps (.inl hsame)))
        · exact .inr (.inr (hmissed.mono hop.tells.keeps hop.first))
      · rcases hsince n hn with hsame' | hretyped' | hmissed
        · exact .inr (.inl ((hretyped.mono fun e he => List.mem_append_right _ he).since hsame'))
        · exact .inr (.inl (hretyped'.later hop.tells.keeps (.inr hretyped.after)))
        · exact .inr (.inr (hmissed.mono hop.tells.keeps hop.first))
      · exact .inr (.inr (.host (List.mem_append_right _ hhosted)))
  rcases h.watches hs.sound hs.defined with hwatches | ⟨name, rfl, hrecords, hnames⟩
  · refine ⟨hop.sound, hwatches.defined, fun id r header body hr hd hactive => ?_⟩
    rcases hwatches.functions id r header body hr hd hactive with ⟨hnot, hr', hnames⟩ |
      ⟨before, e, rest, g, hevents, he, hnot, hamong, hnames⟩
    · exact hkept hr' hd hactive hnot fun n hn => (hnames n hn).imp_right .inl
    · -- the last look lies in this step, to which all that follows belongs
      obtain ⟨earlier, later, rfl, rfl⟩ := Store.exists_of_eventsOf hevents
      refine ⟨timeline ++ earlier, e, later, g, by simp, he, hnot, hamong, fun n _ => ?_⟩
      rcases hnames n with hsame | hown | hretyped | hflipped
      · exact .inl hsame
      · exact .inr (.inr (.own hown))
      · exact .inr (.inl hretyped)
      · refine .inr (.inr (.struct ?_))
        rwa [Store.sameOperation_eq_self fun e' he' => hop.later e' (hevents ▸ he')]
  · have hrecord (id : SnippetId) : s'.record? id = s.record? id := by
      unfold Store.record?
      rw [hrecords]
    refine ⟨hop.sound, fun id r header body hr => hs.defined id r header body ((hrecord id).symm.trans hr),
      fun id r header body hr hd hactive => ?_⟩
    refine hkept ((hrecord id).symm.trans hr) hd hactive List.not_mem_nil fun n _ => ?_
    rcases hnames n with hsame | rfl
    · exact .inl hsame
    · exact .inr (.inr List.mem_cons_self)

/-- What one step keeps, steps one after the other keep. -/
theorem Steps.accounted {s s' : Store} {w w' : σ} {timeline happenings : List Happening}
    (hs : s.Accounted timeline) (h : Steps calls s w happenings s' w') :
    s'.Accounted (timeline ++ happenings) := by
  induction h generalizing timeline with
  | none =>
    rw [List.append_nil]
    exact hs
  | next step _ ih =>
    rw [← List.append_assoc]
    exact ih (step.accounted hs)

end Engine

theorem Store.accounted_empty : ({} : Store).Accounted [] := by
  refine ⟨chronicled_empty.sound, fun id r h body hr => ?_, fun id r h body hr => ?_⟩
  · rw [Store.record?_empty] at hr
    cases hr
  · rw [Store.record?_empty] at hr
    cases hr

/-- In a session that has not been ended, all functions are accounted for. -/
theorem Engine.accounted_live {σ : Type} (calls : HostCalls σ) (requests : List (Request σ))
    (hstops : ∀ request ∈ requests, request.stops = false) (w : σ) :
    (live calls requests {} w).2.1.Accounted (timeline calls requests {} w) := by
  have h := (steps_timeline calls requests hstops {} w).accounted Store.accounted_empty
  rwa [List.nil_append] at h

/-! ## Functions that are valid -/

/-- A function that is valid was understood when it was last looked at, with nothing to wait for.  It still
checks among the names that there are, to the same types, unless a name that it mentions has come to stand for
something else and it has not noticed, or for a function with other types.  A built-in function that it calls
does not count as mentioned, so it does not notice either when the name of one is taken. -/
theorem valid_function_checks {σ : Type} (calls : HostCalls σ) (requests : List (Request σ))
    (hstops : ∀ request ∈ requests, request.stops = false) {w w' : σ} {events : List SnippetEvent}
    {s : Store} (hlive : Engine.live calls requests {} w = (events, s, w')) {id : SnippetId} {r : Record}
    {h : FnHeader} {body : Block} (hr : s.record? id = some r)
    (hd : r.declaration = some (.function h body)) (hvalid : r.status = .valid) :
    ∃ before e after g a, Engine.timeline calls requests {} w = before ++ .told e :: after ∧
      e.snippet = id ∧ id ∉ snippetsOf (eventsOf after) ∧
      analyzeFunction g h body = .ok a ∧ a.unresolved = [] ∧ a.definition = r.definition ∧
      (∀ n ∈ r.refs, s.globals n = g n ∨ s.Retyped g (eventsOf after) n ∨ s.Missed h.name after n) ∧
      ((∀ n ∈ r.refs, s.Retyped g (eventsOf after) n ∨ s.Missed h.name after n → s.globals n = g n) →
        (∀ n, (.called, n) ∈ Uses.function h body → (Builtin.find? n).isSome = true →
          n ∈ r.refs ∨ s.globals n = none) →
        analyzeFunction s.globals h body = .ok a) := by
  have haccounted := Engine.accounted_live calls requests hstops w
  rw [hlive] at haccounted
  have hactive : r.status.isActive = true := by
    rw [hvalid]
    rfl
  obtain ⟨before, e, after, g, htimeline, he, hafter, hamong, hsince⟩ :=
    haccounted.functions id r h body hr hd hactive
  unfold Record.Among at hamong
  split at hamong
  · rename_i a ha
    obtain ⟨hstatus, -, hdefinition, hrefs⟩ := hamong
    have hnone : a.unresolved = [] := by
      rw [hvalid, status_of_analyzeFunction ha] at hstatus
      split at hstatus
      · rename_i hempty
        exact List.isEmpty_iff.1 hempty
      · cases hstatus
    refine ⟨before, e, after, g, a, htimeline, he, hafter, ha, hnone, hdefinition.symm, hsince,
      fun hchanged hbuiltins => ?_⟩
    have hsame (n : String) (hn : n ∈ r.refs) : s.globals n = g n :=
      (hsince n hn).elim (fun hkept => hkept) (hchanged n hn)
    refine analyzeFunction_congr ha (fun n hn => hsame n (hrefs n hn)) fun n hn hfound hfree => ?_
    rcases hbuiltins n hn hfound with hmem | hfree'
    · rw [hsame n hmem, hfree]
    · exact hfree'
  · rw [hvalid] at hamong
    cases hamong.1

/-- What a session makes of its first snippet, if that is a function. -/
theorem exists_of_live (requests : List (Request Unit))
    (p : Store → Record → FnHeader → Block → Bool)
    (hruns : (match Engine.live errorCalls requests {} () with
      | (_, s, _) =>
        match s.record? 1, s.function? 1 with
        | some r, some (h, body) => p s r h body
        | _, _ => false) = true) :
    ∃ events s r h body, Engine.live errorCalls requests {} () = (events, s, ()) ∧
      s.record? 1 = some r ∧ r.declaration = some (.function h body) ∧ p s r h body = true := by
  rcases hlive : Engine.live errorCalls requests {} () with ⟨events, s, world⟩
  rw [hlive] at hruns
  dsimp only at hruns
  split at hruns
  · rename_i r h body hr hfunction
    obtain ⟨r', hr', hd⟩ := Store.function?_eq_some_iff.1 hfunction
    rw [hr] at hr'
    cases hr'
    exact ⟨events, s, r, h, body, rfl, hr, hd, hruns⟩
  · cases hruns

/-- A function calls one that is built in, and then the name of that one is taken. -/
def takenBuiltin : List (Request Unit) :=
  [.evaluate 20 "fn f() -> i64 \x7b abs(1) \x7d".toList, .evaluate 20 "let abs = 5;".toList]

/-- A function stays valid that does not check any more. -/
theorem valid_function_is_refused :
    ∃ events s r h body, Engine.live errorCalls takenBuiltin {} () = (events, s, ()) ∧
      s.record? 1 = some r ∧ r.declaration = some (.function h body) ∧ s.binding? h.name = some 1 ∧
      r.status = .valid ∧ ∃ error, analyzeFunction s.globals h body = .error error := by
  obtain ⟨events, s, r, h, body, hlive, hr, hd, hp⟩ := exists_of_live takenBuiltin
    (fun s r h body => decide (s.binding? h.name = some 1 ∧ r.status = .valid) &&
      !(analyzeFunction s.globals h body).isOk) (by decide +kernel)
  rw [Bool.and_eq_true, decide_eq_true_eq, Bool.not_eq_true'] at hp
  obtain ⟨⟨hid, hvalid⟩, hrefused⟩ := hp
  refine ⟨events, s, r, h, body, hlive, hr, hd, hid, hvalid, ?_⟩
  cases ha : analyzeFunction s.globals h body with
  | error error => exact ⟨error, rfl⟩
  | ok a =>
    rw [ha] at hrefused
    cases hrefused

/-- One function calls another one, which is declared after it. -/
def callerAndCallee : List (Request Unit) :=
  [.evaluate 20 "fn f() -> i64 \x7b g() \x7d".toList, .evaluate 20 "fn g() -> i64 \x7b 2 \x7d".toList]

/-- Whether the happening gives a name to a host object. -/
def Happening.isHosted : Happening → Bool
  | .hosted _ => true
  | _ => false

theorem eq_nil_of_getLast? {ids before after : List SnippetId} {id : SnippetId}
    (h : ids = before ++ id :: after) (hlast : ids.getLast? = some id) (hnot : id ∉ after) :
    after = [] := by
  subst h
  cases after with
  | nil => rfl
  | cons j after =>
    rw [List.getLast?_append, List.getLast?_cons_cons] at hlast
    cases hj : (j :: after).getLast? with
    | none => simp at hj
    | some k =>
      rw [hj] at hlast
      cases hlast
      exact absurd (List.mem_of_getLast? hj) hnot

/-- Nothing that is told after a snippet's last event is missed if there is nothing. -/
theorem Store.not_missed_of_last {s : Store} {timeline before after : List Happening} {e : SnippetEvent}
    {own n : String} (htimeline : timeline = before ++ .told e :: after)
    (hafter : e.snippet ∉ snippetsOf (eventsOf after))
    (hlast : (snippetsOf (eventsOf timeline)).getLast? = some e.snippet)
    (hhosted : timeline.all (!·.isHosted) = true) (hn : n ≠ own) :
    ¬ s.Missed own after n ∧ ¬ s.FunctionTold (eventsOf after) n := by
  have hsnippets : snippetsOf (eventsOf timeline) =
      snippetsOf (eventsOf before) ++ e.snippet :: snippetsOf (eventsOf after) := by
    rw [htimeline, eventsOf_append, snippetsOf_append]
    rfl
  have hnil : eventsOf after = [] := List.map_eq_nil_iff.1 (eq_nil_of_getLast? hsnippets hlast hafter)
  rw [hnil]
  refine ⟨?_, fun ⟨e', he', _⟩ => nomatch he'⟩
  rintro (hown | ⟨e', he', -⟩ | hhost)
  · exact hn hown
  · rw [hnil] at he'
    cases he'
  · have hmem : Happening.hosted n ∈ timeline := by
      rw [htimeline]
      exact List.mem_append_right _ (List.mem_cons_of_mem _ hhost)
    have := List.all_eq_true.1 hhosted _ hmem
    cases this

theorem caller_checks :
    ∃ events s r h body, Engine.live errorCalls callerAndCallee {} () = (events, s, ()) ∧
      s.record? 1 = some r ∧ r.declaration = some (.function h body) ∧ r.status = .valid ∧
      r.refs = ["g"] ∧ ∃ a, analyzeFunction s.globals h body = .ok a ∧ a.unresolved = [] := by
  obtain ⟨events, s, r, h, body, hlive, hr, hd, hp⟩ := exists_of_live callerAndCallee
    (fun s r h body => decide (r.status = .valid ∧ r.refs = ["g"] ∧ h.name = "f" ∧
      Uses.function h body = [(.called, "g")])) (by decide +kernel)
  obtain ⟨hvalid, hrefs, hname, huses⟩ := of_decide_eq_true hp
  have hstops : ∀ request ∈ callerAndCallee, request.stops = false := by decide
  obtain ⟨before, e, after, g, a, htimeline, he, hafter, -, hnone, -, -, hchecks⟩ :=
    valid_function_checks errorCalls callerAndCallee hstops hlive hr hd hvalid
  have htold : (snippetsOf (eventsOf (Engine.timeline errorCalls callerAndCallee {} ()))).getLast? =
      some 1 ∧ (Engine.timeline errorCalls callerAndCallee {} ()).all (!·.isHosted) = true := by
    decide +kernel
  rw [← he] at hafter
  have hlast := htold.1.trans (congrArg some he.symm)
  have hsame (n : String) (hn : n ∈ r.refs)
      (hchanged : s.Retyped g (eventsOf after) n ∨ s.Missed h.name after n) : s.globals n = g n := by
    rw [hrefs, List.mem_singleton] at hn
    have hown : n ≠ h.name := by
      rw [hn, hname]
      decide
    obtain ⟨hmissed, htold⟩ := Store.not_missed_of_last htimeline hafter hlast htold.2 hown
    exact hchanged.elim (fun hretyped => absurd hretyped.told htold) fun hmiss => absurd hmiss hmissed
  have hbuiltins (n : String) (hn : (.called, n) ∈ Uses.function h body)
      (hfound : (Builtin.find? n).isSome = true) : n ∈ r.refs ∨ s.globals n = none := by
    rw [huses, List.mem_singleton] at hn
    cases hn
    exact absurd hfound (by decide)
  exact ⟨events, s, r, h, body, hlive, hr, hd, hvalid, hrefs, a, hchecks hsame hbuiltins, hnone⟩

/-! ## Functions that wait -/

theorem Globals.Misfits.congr {g g' : Globals} {n : String} {use : NameUse} (h : g.Misfits n use)
    (hn : g' n = g n) : g'.Misfits n use := by
  unfold Globals.Misfits at h ⊢
  rw [hn]
  exact h

/-- What no function fits, one with other types does not fit either. -/
theorem Globals.Misfits.of_isFunction {g g' : Globals} {n : String} {use : NameUse} (h : g.Misfits n use)
    (hn : g'.IsFunction n) : g'.Misfits n use := by
  obtain ⟨params, result, hn⟩ := hn
  cases use with
  | called => exact h
  | asType => exact ⟨_, hn, GlobalKind.noConfusion⟩
  | shown => exact .inr ⟨params, result, hn⟩

/-- How a function can be called that takes part in the session. -/
theorem Store.Accounted.callee? {s : Store} {timeline : List Happening} (hs : s.Accounted timeline)
    {id : SnippetId} {r : Record} {h : FnHeader} {body : Block} (hr : s.record? id = some r)
    (hd : r.declaration = some (.function h body)) (hactive : r.status.isActive = true) :
    (r.status = .valid ∧ ∃ f, r.definition = .function f ∧ s.callee? h.name = some (.ready f id)) ∨
      r.status = .recoverableDefined ∧ s.callee? h.name = some (.waiting r.unresolved) := by
  have hid := hs.sound.inUse id r _ hr hd hactive
  obtain ⟨⟨f, hf⟩, hdefined⟩ := hs.defined id r h body hr hd hactive
  simp only [Store.callee?_eq_some_iff, Record.callee?]
  cases hstatus : r.status
  case valid => exact .inl ⟨rfl, f, hf, id, r, hid, hr, by rw [hf, hstatus]⟩
  case recoverableDefined => exact .inr ⟨rfl, id, r, hid, hr, by rw [hf, hstatus]⟩
  all_goals
    rw [hstatus] at hdefined
    cases hdefined

/-- A function that takes part in the session can be called, or it waits.  It waits only for names that
stand for nothing, unless one is used as something that it does not stand for, or the function has not
noticed that the name has changed its meaning.  One that waits for no name was refused when it was last
looked at. -/
theorem waiting_function_lacks_names {σ : Type} (calls : HostCalls σ) (requests : List (Request σ))
    (hstops : ∀ request ∈ requests, request.stops = false) {w w' : σ} {events : List SnippetEvent}
    {s : Store} (hlive : Engine.live calls requests {} w = (events, s, w')) {id : SnippetId} {r : Record}
    {h : FnHeader} {body : Block} (hr : s.record? id = some r)
    (hd : r.declaration = some (.function h body)) (hactive : r.status.isActive = true) :
    ∃ before e after, Engine.timeline calls requests {} w = before ++ .told e :: after ∧
      e.snippet = id ∧ id ∉ snippetsOf (eventsOf after) ∧
      ((r.status = .valid ∧ ∃ f, s.callee? h.name = some (.ready f id)) ∨
        r.status = .recoverableDefined ∧ s.callee? h.name = some (.waiting r.unresolved) ∧
        (∀ n ∈ r.unresolved, s.globals n = none ∨ s.Missed h.name after n ∨
          ∃ use, (use, n) ∈ Uses.function h body ∧ s.globals.Misfits n use) ∧
        (r.unresolved = [] → ∃ g error, analyzeFunction g h body = .error error ∧
          ∀ n ∈ r.refs, s.globals n = g n ∨ s.Retyped g (eventsOf after) n ∨
            s.Missed h.name after n)) := by
  have haccounted := Engine.accounted_live calls requests hstops w
  rw [hlive] at haccounted
  obtain ⟨before, e, after, g, htimeline, he, hafter, hamong, hsince⟩ :=
    haccounted.functions id r h body hr hd hactive
  refine ⟨before, e, after, htimeline, he, hafter, ?_⟩
  rcases haccounted.callee? hr hd hactive with ⟨hvalid, f, -, hready⟩ | ⟨hwaits, hwaiting⟩
  · exact .inl ⟨hvalid, f, hready⟩
  refine .inr ⟨hwaits, hwaiting, ?_⟩
  unfold Record.Among at hamong
  split at hamong
  · rename_i a ha
    obtain ⟨hstatus, hunresolved, -, hrefs⟩ := hamong
    refine ⟨fun n hn => ?_, fun hempty => ?_⟩
    · rw [hunresolved] at hn
      rcases hsince n (hrefs n (unresolved_subset_refs ha hn)) with hsame | hretyped | hmissed
      · rcases lacks_of_mem_unresolved ha hn with hnone | ⟨use, huse, hmisfits⟩
        · exact .inl (hsame.trans hnone)
        · exact .inr (.inr ⟨use, huse, hmisfits.congr hsame⟩)
      · -- a name of a function is waited for only where it is used as something else
        rcases lacks_of_mem_unresolved ha hn with hnone | ⟨use, huse, hmisfits⟩
        · obtain ⟨params, result, hfunction⟩ := hretyped.before
          cases hnone.symm.trans hfunction
        · exact .inr (.inr ⟨use, huse, hmisfits.of_isFunction hretyped.after⟩)
      · exact .inr (.inl hmissed)
    · -- a function that is understood and waits for no name is valid
      rw [hwaits, status_of_analyzeFunction ha, ← hunresolved, hempty] at hstatus
      cases hstatus
  · rename_i error herror
    refine ⟨fun n hn => ?_, fun _ => ⟨g, error, herror, hsince⟩⟩
    rw [hamong.2] at hn
    cases hn

/-- A function waits for a name, which is then given to a host object. -/
def hostForWaiting : List (Request Unit) :=
  [.evaluate 20 "fn f() -> i64 \x7b h.count(1, 2) \x7d".toList, .bindHost "h" ⟨"Probe", 0, []⟩]

/-- A function keeps waiting for a name that stands for a host object. -/
theorem function_waits_for_what_is_there :
    ∃ events s r h body, Engine.live errorCalls hostForWaiting {} () = (events, s, ()) ∧
      s.record? 1 = some r ∧ r.declaration = some (.function h body) ∧ s.binding? h.name = some 1 ∧
      r.status = .recoverableDefined ∧ "h" ∈ r.unresolved ∧
      s.globals "h" = some (.host "Probe" []) := by
  obtain ⟨events, s, r, h, body, hlive, hr, hd, hp⟩ := exists_of_live hostForWaiting
    (fun s r h _ => decide (s.binding? h.name = some 1 ∧ r.status = .recoverableDefined ∧
      "h" ∈ r.unresolved ∧ s.globals "h" = some (.host "Probe" []))) (by decide +kernel)
  obtain ⟨hid, hwaits, hn, hhost⟩ := of_decide_eq_true hp
  exact ⟨events, s, r, h, body, hlive, hr, hd, hid, hwaits, hn, hhost⟩

theorem waiting_function_missed_host :
    ∃ events s r h body before e after, Engine.live errorCalls hostForWaiting {} () = (events, s, ()) ∧
      s.record? 1 = some r ∧ r.declaration = some (.function h body) ∧
      Engine.timeline errorCalls hostForWaiting {} () = before ++ .told e :: after ∧ e.snippet = 1 ∧
      r.unresolved = ["h"] ∧ s.Missed h.name after "h" := by
  obtain ⟨events, s, r, h, body, hlive, hr, hd, hp⟩ := exists_of_live hostForWaiting
    (fun s r h body => decide (r.status = .recoverableDefined ∧ r.unresolved = ["h"] ∧
      s.globals "h" = some (.host "Probe" []) ∧ Uses.function h body = []))
    (by decide +kernel)
  obtain ⟨hwaits, hunresolved, hhost, huses⟩ := of_decide_eq_true hp
  have hstops : ∀ request ∈ hostForWaiting, request.stops = false := by decide
  have hactive : r.status.isActive = true := by
    rw [hwaits]
    rfl
  obtain ⟨before, e, after, htimeline, he, -, hcases⟩ :=
    waiting_function_lacks_names errorCalls hostForWaiting hstops hlive hr hd hactive
  refine ⟨events, s, r, h, body, before, e, after, hlive, hr, hd, htimeline, he, hunresolved, ?_⟩
  rcases hcases with ⟨hvalid, -⟩ | ⟨-, -, hnames, -⟩
  · rw [hwaits] at hvalid
    cases hvalid
  · rcases hnames "h" (by rw [hunresolved]; exact List.mem_cons_self) with hnone | hmissed | ⟨use, huse, -⟩
    · rw [hhost] at hnone
      cases hnone
    · exact hmissed
    · rw [huses] at huse
      cases huse

end Notebook.Guest

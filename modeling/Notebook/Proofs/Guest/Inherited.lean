import Notebook.Proofs.Guest.Statement

/-!
# Output that is left from before

A text that was printed before and that nobody has taken makes no difference to what is done afterwards,
and neither does what the host does not look at when it is called (`Engine.ignores_evaluate`).  What is
printed comes behind the text that was left.
-/

namespace Notebook.Guest
open Notebook.Text Notebook.Scan Notebook.Syntax

namespace Store

/-- The store with a text in the place of what has been printed. -/
def withOutput (s : Store) (text : List Char) : Store := { s with output := text }

/-- The store with a text that was printed before. -/
def inheriting (s : Store) (text : List Char) : Store := s.withOutput (text ++ s.output)

/-- Work on a store that has nothing to do with what has been printed. -/
def Silent {α : Type} (f : Store → α × Store) : Prop :=
  ∀ s text, f (s.withOutput text) = ((f s).1, (f s).2.withOutput text)

/-! ## What is done to a store -/

section

variable (s : Store) (text : List Char)

theorem record?_withOutput (id : SnippetId) : (s.withOutput text).record? id = s.record? id := rfl

theorem globals_withOutput : (s.withOutput text).globals = s.globals := rfl

theorem update_withOutput (id : SnippetId) (f : Record → Record) :
    (s.withOutput text).update id f = (s.update id f).withOutput text := by
  unfold update
  split <;> rfl

theorem write?_withOutput (name : String) (v : Value) :
    (s.withOutput text).write? name v = (s.write? name v).map (·.withOutput text) := by
  have hbinding : (s.withOutput text).binding? name = s.binding? name := rfl
  unfold write?
  rw [hbinding]
  cases s.binding? name with
  | none => rfl
  | some id =>
    dsimp only [Option.bind_eq_bind, Option.bind_some]
    rw [record?_withOutput]
    cases s.record? id with
    | none => rfl
    | some r =>
      dsimp only [Option.bind_some]
      cases r.definition
      case «variable» ty old => exact congrArg some (s.update_withOutput text id _)
      all_goals rfl

theorem allocate_withOutput (r : Record) :
    (s.withOutput text).allocate r = ((s.allocate r).1, (s.allocate r).2.withOutput text) := rfl

theorem transition_withOutput (id : SnippetId) (status : Status) (cause : Option SnippetId) :
    (s.withOutput text).transition id status cause =
      ((s.transition id status cause).1, (s.transition id status cause).2.withOutput text) := by
  unfold transition
  rw [record?_withOutput]
  cases s.record? id with
  | none => rfl
  | some r => exact congrArg (_, ·) (s.update_withOutput text id _)

theorem recheck_withOutput (cause id : SnippetId) :
    (s.withOutput text).recheck cause id =
      ((s.recheck cause id).1, (s.recheck cause id).2.1, (s.recheck cause id).2.2.withOutput text) := by
  unfold recheck
  rw [record?_withOutput, globals_withOutput]
  cases s.record? id with
  | none => rfl
  | some r =>
    dsimp only
    cases r.declaration with
    | none => rfl
    | some d =>
      dsimp only
      rw [update_withOutput]

theorem recheckEach_withOutput (cause : SnippetId) (ids : List SnippetId) :
    (s.withOutput text).recheckEach cause ids =
      ((s.recheckEach cause ids).1, (s.recheckEach cause ids).2.1,
        (s.recheckEach cause ids).2.2.withOutput text) := by
  induction ids generalizing s with
  | nil => rfl
  | cons id ids ih =>
    unfold recheckEach
    rw [recheck_withOutput]
    dsimp only
    rw [ih]

theorem recheckPending_withOutput (cause : SnippetId) (left : List SnippetId) (pending : List String) :
    (s.withOutput text).recheckPending cause left pending =
      ((s.recheckPending cause left pending).1,
        (s.recheckPending cause left pending).2.withOutput text) := by
  fun_induction recheckPending s cause left pending with
  | case1 s left => rw [recheckPending]
  | case2 s left name pending found rest ih =>
    have hdependents : (s.withOutput text).dependents name left = s.dependents name left := rfl
    have hindependents : (s.withOutput text).independents name left = s.independents name left := rfl
    rw [recheckPending, hdependents, hindependents, recheckEach_withOutput]
    dsimp only
    rw [ih]

theorem recheckDependents_withOutput (name : String) (cause : SnippetId) :
    (s.withOutput text).recheckDependents name cause =
      ((s.recheckDependents name cause).1, (s.recheckDependents name cause).2.withOutput text) :=
  s.recheckPending_withOutput text cause _ _

theorem bindName_withOutput (name : String) (id : SnippetId) :
    (s.withOutput text).bindName name id =
      ((s.bindName name id).1, (s.bindName name id).2.withOutput text) := by
  have hbind : (s.withOutput text).bind name id = (s.bind name id).withOutput text := rfl
  have hbinding : (s.withOutput text).binding? name = s.binding? name := rfl
  unfold bindName
  rw [hbind, hbinding]
  cases s.binding? name with
  | none =>
    dsimp only
    rw [recheckDependents_withOutput]
  | some p =>
    dsimp only
    split
    · rw [transition_withOutput]
      dsimp only
      rw [recheckDependents_withOutput]
    · dsimp only
      rw [recheckDependents_withOutput]

theorem finish_withOutput (id : SnippetId) (status : Status) (fault : Option FaultReport) (binds : Bool) :
    (s.withOutput text).finish id status fault binds =
      ((s.finish id status fault binds).1, (s.finish id status fault binds).2.withOutput text) := by
  unfold finish
  rw [record?_withOutput]
  cases s.record? id with
  | none => rfl
  | some r =>
    dsimp only
    rw [update_withOutput]
    split
    · rfl
    · rw [bindName_withOutput]

theorem reject_withOutput (kind : SnippetKind) (source : List Char) (origin : Position) (d : Diagnostic) :
    (s.withOutput text).reject kind source origin d =
      ((s.reject kind source origin d).1, (s.reject kind source origin d).2.withOutput text) :=
  finish_withOutput (s.allocate { kind, source, name := none, origin, diagnostics := [d] }).2 text _
    .rejected none false

theorem drop_withOutput (id : SnippetId) :
    (s.withOutput text).drop id = ((s.drop id).1, (s.drop id).2.withOutput text) := by
  unfold drop
  rw [record?_withOutput]
  cases s.record? id with
  | none => rfl
  | some r =>
    dsimp only
    split
    · rfl
    · rw [transition_withOutput]
      dsimp only
      split
      · rfl
      · rename_i name _
        have hbinding (t : Store) : (t.withOutput text).binding? name = t.binding? name := rfl
        have hunbind (t : Store) : (t.withOutput text).unbind name = (t.unbind name).withOutput text := rfl
        rw [hbinding, hunbind]
        split
        · rw [recheckDependents_withOutput]
        · rfl

end

/-! ## What was printed before -/

theorem Silent.output {α : Type} {f : Store → α × Store} (hf : Silent f) (s : Store) :
    (f s).2.output = s.output :=
  (congrArg (·.2.output) (hf s s.output) :)

theorem Silent.inheriting {α : Type} {f : Store → α × Store} (hf : Silent f) (s : Store) (text : List Char) :
    f (s.inheriting text) = ((f s).1, (f s).2.inheriting text) := by
  unfold Store.inheriting
  rw [hf, hf.output]

theorem print_inheriting (s : Store) (text more : List Char) :
    (s.inheriting text).print more = (s.print more).inheriting text := by
  unfold print inheriting withOutput
  dsimp only
  rw [List.append_assoc]

theorem write?_inheriting (s : Store) (text : List Char) (name : String) (v : Value) :
    (s.inheriting text).write? name v = (s.write? name v).map (·.inheriting text) := by
  have hself : s.write? name v = (s.write? name v).map (·.withOutput s.output) :=
    s.write?_withOutput s.output name v
  unfold inheriting
  rw [write?_withOutput]
  cases hwrite : s.write? name v with
  | none => rfl
  | some t =>
    rw [hwrite] at hself
    have hsame : t = t.withOutput s.output := Option.some.inj hself
    have houtput : t.output = s.output := (congrArg Store.output hsame :)
    dsimp only [Option.map_some]
    rw [houtput]

end Store

/-! ## Code that runs -/

/-- Calls do not look at what the states of the host differ in. -/
def HostCalls.Respects {σ : Type} (calls : HostCalls σ) (like : σ → σ → Prop) : Prop :=
  ∀ object method args w w', like w w' →
    (calls.call object method args w').1 = (calls.call object method args w).1 ∧
      like (calls.call object method args w).2 (calls.call object method args w').2

section

variable {σ : Type} (text : List Char) (like : σ → σ → Prop)

/-- The second machine is the first one, but that a text was printed before and that the host is in
another state. -/
structure Machine.Inherits (m m' : Machine σ) : Prop where
  frames : m'.frames = m.frames
  scopes : m'.scopes = m.scopes
  store : m'.store = m.store.inheriting text
  world : like m.world m'.world

variable {text like} in
theorem Machine.Inherits.looksLike {m m' : Machine σ} (h : m.Inherits text like m') : m'.LooksLike m := by
  obtain ⟨hframes, hscopes, hstore, -⟩ := h
  refine ⟨hframes, hscopes, ?_, ?_⟩
  · rw [hstore]
    rfl
  · rw [hstore]
    rfl

namespace Run

/-- Code comes to the same in the two machines, and leaves them alike. -/
def Same {α : Type} (x x' : Except Exit α × Machine σ) : Prop :=
  x'.1 = x.1 ∧ x.2.Inherits text like x'.2

/-- Code goes on in the same way if a text was printed before. -/
def Ignores {α : Type} (r : Run σ α) : Prop :=
  ∀ m m' : Machine σ, m.Inherits text like m' → Same text like (r.run.run m) (r.run.run m')

variable {text like}

theorem ignores_bind {α β : Type} {r : Run σ α} {f : α → Run σ β} (hr : Ignores text like r)
    (hf : ∀ a, Ignores text like (f a)) : Ignores text like (r >>= f) := by
  intro m m' h
  obtain ⟨hresult, hafter⟩ := hr m m' h
  simp only [ExceptT.run_bind, StateT.run_bind]
  rcases hrun : r.run.run m with ⟨result, n⟩
  rcases hrun' : r.run.run m' with ⟨result', n'⟩
  rw [hrun, hrun'] at hresult hafter
  cases hresult
  cases result with
  | ok a => exact hf a n n' hafter
  | error e => exact ⟨rfl, hafter⟩

/-- Code that looks at the state first, and goes on from the state that it has seen. -/
theorem ignores_get_bind {α : Type} {f : Machine σ → Run σ α}
    (hf : ∀ m m' : Machine σ, m.Inherits text like m' →
      Same text like ((f m).run.run m) ((f m').run.run m')) : Ignores text like (get >>= f) :=
  hf

/-- Code that looks at the state sees nothing of the text. -/
theorem ignores_look {α : Type} {f : Machine σ → Run σ α} (hsame : ∀ m m', m.LooksLike m' → f m = f m')
    (hf : ∀ m, Ignores text like (f m)) : Ignores text like (get >>= f) := by
  refine ignores_get_bind fun m m' h => ?_
  rw [hsame m' m h.looksLike]
  exact hf m m m' h

/-- A change of the state after which the machines are alike as before. -/
theorem ignores_modify {f : Machine σ → Machine σ}
    (hf : ∀ m m', m.Inherits text like m' → (f m).Inherits text like (f m')) :
    Ignores text like (modify f : Run σ Unit) :=
  fun m m' h => ⟨rfl, hf m m' h⟩

theorem ignores_declare (name : String) (v : Value) :
    Ignores text like (declare name v : Run σ Unit) := by
  refine ignores_modify fun m m' h => ?_
  rw [h.scopes]
  cases m.scopes with
  | nil => exact h
  | cons scope outer => exact ⟨h.frames, rfl, h.store, h.world⟩

theorem ignores_print (more : List Char) : Ignores text like (print more : Run σ Unit) := by
  refine ignores_modify fun m m' h => ⟨h.frames, h.scopes, ?_, h.world⟩
  dsimp only
  rw [h.store, Store.print_inheriting]

theorem ignores_fault {α : Type} (cause : FaultCause) : Ignores text like (fault cause : Run σ α) :=
  ignores_look (fun m m' h => by rw [h.frames]) fun _ _ _ h => ⟨rfl, h⟩

theorem ignores_assign (name : String) (v : Value) :
    Ignores text like (assign name v : Run σ Unit) := by
  refine ignores_get_bind fun m m' h => ?_
  rw [h.scopes, h.store, Store.write?_inheriting]
  -- a local variable is kept in the machine; only a variable of the session is in the store
  cases assignLocal? name v m.scopes with
  | some scopes => exact ⟨rfl, h.frames, rfl, rfl, h.world⟩
  | none =>
    cases m.store.write? name v with
    | some store => exact ⟨rfl, h.frames, rfl, rfl, h.world⟩
    | none => exact ignores_fault _ m m' h

/-- Code after which, however it ended, the state is changed. -/
theorem ignores_followedBy {α : Type} {r : Run σ α} {f : Machine σ → Machine σ}
    (hr : Ignores text like r) (hf : ∀ m m', m.Inherits text like m' → (f m).Inherits text like (f m')) :
    Ignores text like (followedBy r f) := by
  intro m m' h
  obtain ⟨hresult, hafter⟩ := hr m m' h
  exact ⟨hresult, hf _ _ hafter⟩

/-- Code whose ending is looked at and taken for another one. -/
theorem ignores_settle {α β : Type} {r : Run σ α}
    {f : Except Exit α → StateM (Machine σ) (Except Exit β)} (hr : Ignores text like r)
    (hf : ∀ ending (m m' : Machine σ), m.Inherits text like m' →
      Same text like ((f ending).run m) ((f ending).run m')) :
    Ignores text like (ExceptT.mk (r.run >>= f)) := by
  intro m m' h
  obtain ⟨hresult, hafter⟩ := hr m m' h
  change Same text like ((f (r.run.run m).1).run (r.run.run m).2)
    ((f (r.run.run m').1).run (r.run.run m').2)
  rw [hresult]
  exact hf _ _ _ hafter

theorem ignores_inScope {α : Type} {r : Run σ α} (scope : Scope) (hr : Ignores text like r) :
    Ignores text like (inScope scope r) := by
  unfold inScope
  refine ignores_bind (ignores_modify fun m m' h => ?_) fun _ => ignores_followedBy hr fun m m' h => ?_
  · exact ⟨h.frames, congrArg (scope :: ·) h.scopes, h.store, h.world⟩
  · exact ⟨h.frames, congrArg List.tail h.scopes, h.store, h.world⟩

theorem ignores_loopBody {r : Run σ Value} (hr : Ignores text like r) :
    Ignores text like (loopBody r) := by
  unfold loopBody
  refine ignores_settle hr fun ending m m' h => ?_
  cases ending with
  | ok v => exact ⟨rfl, h⟩
  | error e => cases e <;> exact ⟨rfl, h⟩

/-- Code that runs in a frame of its own, after which what is outside of it is put back. -/
theorem ignores_inside {r : Run σ Value} (frame : Frame) (scope : Scope) (hr : Ignores text like r) :
    Ignores text like (do
      let outside ← get
      modify fun m => { m with frames := frame :: m.frames, scopes := [scope] }
      followedBy r fun m => { m with frames := outside.frames, scopes := outside.scopes }) := by
  intro m m' h
  have hbegun : Machine.Inherits text like { m with frames := frame :: m.frames, scopes := [scope] }
      { m' with frames := frame :: m'.frames, scopes := [scope] } :=
    ⟨congrArg (frame :: ·) h.frames, rfl, h.store, h.world⟩
  obtain ⟨hresult, hafter⟩ := hr _ _ hbegun
  exact ⟨hresult, h.frames, h.scopes, hafter.store, hafter.world⟩

theorem ignores_inFrame {r : Run σ Value} (frame : Frame) (scope : Scope) (hr : Ignores text like r) :
    Ignores text like (inFrame frame scope r) := by
  unfold inFrame
  refine ignores_inside frame scope (ignores_settle hr fun ending m m' h => ?_)
  cases ending with
  | ok v => exact ⟨rfl, h⟩
  | error e =>
    cases e
    case broke => exact ignores_fault _ m m' h
    case continued => exact ignores_fault _ m m' h
    all_goals exact ⟨rfl, h⟩

theorem ignores_callHost {calls : HostCalls σ} (hcalls : calls.Respects like) (object : HostObject)
    (method : String) (args : List Value) : Ignores text like (callHost calls object method args) := by
  unfold callHost
  refine ignores_get_bind fun m m' h => ?_
  obtain ⟨hreply, hworld⟩ := hcalls object method args m.world m'.world h.world
  have hcalled : Machine.Inherits text like
      { m with world := (calls.call object method args m.world).2 }
      { m' with world := (calls.call object method args m'.world).2 } :=
    ⟨h.frames, h.scopes, h.store, hworld⟩
  dsimp only
  rw [hreply]
  cases (calls.call object method args m.world).1 with
  | value v => exact ⟨rfl, hcalled⟩
  | error message => exact ignores_fault _ _ _ hcalled
  | panic message => exact ⟨rfl, hcalled⟩

theorem stepwise_ignores {calls : HostCalls σ} (hcalls : calls.Respects like) :
    Stepwise calls (σ := σ) fun r => Ignores text like r where
  pure := fun _ _ _ h => ⟨rfl, h⟩
  leave := fun _ _ _ h => ⟨rfl, h⟩
  bind := ignores_bind
  look := ignores_look
  declare := ignores_declare
  assign := ignores_assign
  print := ignores_print
  inScope := ignores_inScope
  loopBody := ignores_loopBody
  inFrame := ignores_inFrame
  callHost := ignores_callHost hcalls

variable (text) in
/-- Code at the outermost level ends in the same way if a text was printed before. -/
theorem topLevel_inheriting {calls : HostCalls σ} (hcalls : calls.Respects like) (fuel : Nat)
    (frame : Frame) (e : Expr) (s : Store) {w w' : σ} (h : like w w') :
    ∃ ending t v v', topLevel calls fuel frame e s w = (ending, t, v) ∧
      topLevel calls fuel frame e (s.inheriting text) w' = (ending, t.inheriting text, v') ∧
      like v v' := by
  have hstart : Machine.Inherits text like { frames := [frame], store := s, world := w }
      { frames := [frame], store := s.inheriting text, world := w' } := ⟨rfl, rfl, rfl, h⟩
  have hsame : Same text like ((eval calls fuel e).run { frames := [frame], store := s, world := w })
      ((eval calls fuel e).run { frames := [frame], store := s.inheriting text, world := w' }) :=
    (stepwise_ignores hcalls).eval fuel e _ _ hstart
  unfold topLevel
  dsimp only
  generalize (eval calls fuel e).run { frames := [frame], store := s, world := w } = x at hsame ⊢
  generalize (eval calls fuel e).run { frames := [frame], store := s.inheriting text, world := w' } = x'
    at hsame ⊢
  obtain ⟨result, m⟩ := x
  obtain ⟨result', m'⟩ := x'
  obtain ⟨hresult, hafter⟩ := hsame
  cases hresult
  refine ⟨_, m.store, m.world, m'.world, rfl, ?_, hafter.world⟩
  dsimp only
  rw [hafter.frames, hafter.store]

end Run

/-! ## Evaluating a unit -/

namespace Engine

/-- Work comes to the same, and leaves stores and states of the host that are alike. -/
def Same {α : Type} (x x' : Except Interruption α × Store × σ) : Prop :=
  x'.1 = x.1 ∧ x'.2.1 = x.2.1.inheriting text ∧ like x.2.2 x'.2.2

/-- Work goes on in the same way if a text was printed before. -/
def Ignores {α : Type} (e : Engine σ α) : Prop :=
  ∀ s w w', like w w' → Same text like (outcome e s w) (outcome e (s.inheriting text) w')

variable {text like}

theorem ignores_pure {α : Type} (a : α) : Ignores text like (pure a : Engine σ α) :=
  fun _ _ _ h => ⟨rfl, rfl, h⟩

theorem ignores_bind {α β : Type} {e : Engine σ α} {f : α → Engine σ β} (he : Ignores text like e)
    (hf : ∀ a, Ignores text like (f a)) : Ignores text like (e >>= f) := by
  intro s w w' h
  obtain ⟨hresult, hstore, hworld⟩ := he s w w' h
  rw [outcome_bind, outcome_bind]
  rcases houtcome : outcome e s w with ⟨result, t, v⟩
  rcases houtcome' : outcome e (s.inheriting text) w' with ⟨result', t', v'⟩
  rw [houtcome, houtcome'] at hresult hstore hworld
  cases hresult
  cases hstore
  cases result with
  | ok a => exact hf a t v v' hworld
  | error i => exact ⟨rfl, rfl, hworld⟩

/-- Work that looks at the store sees nothing of the text. -/
theorem ignores_store_bind {α : Type} {f : Store → Engine σ α} (hsame : ∀ s, f (s.inheriting text) = f s)
    (hf : ∀ s, Ignores text like (f s)) : Ignores text like (store >>= f) := by
  intro s w w' h
  rw [outcome_bind, outcome_bind, outcome_store, outcome_store]
  dsimp only
  rw [hsame]
  exact hf s s w w' h

theorem ignores_onStore {α : Type} {f : Store → α × Store} (hf : Store.Silent f) :
    Ignores text like (onStore f : Engine σ α) := by
  intro s w w' h
  rw [outcome_onStore, outcome_onStore, hf.inheriting]
  exact ⟨rfl, rfl, h⟩

theorem ignores_changeStore {f : Store → Store}
    (hf : ∀ s text, f (s.withOutput text) = (f s).withOutput text) :
    Ignores text like (changeStore f : Engine σ Unit) :=
  ignores_onStore fun s text => congrArg ((), ·) (hf s text)

theorem ignores_finish (id : SnippetId) (status : Status) (fault : Option FaultReport) (binds : Bool) :
    Ignores text like (onStore fun s => s.finish id status fault binds : Engine σ (List SnippetEvent)) :=
  ignores_onStore fun s text => s.finish_withOutput text id status fault binds

theorem ignores_allocate (r : Record) :
    Ignores text like (onStore fun s => s.allocate r : Engine σ SnippetId) :=
  ignores_onStore fun s text => s.allocate_withOutput text r

theorem ignores_update (id : SnippetId) (f : Record → Record) :
    Ignores text like (changeStore fun s => s.update id f : Engine σ Unit) :=
  ignores_changeStore fun s text => s.update_withOutput text id f

theorem ignores_reject (kind : SnippetKind) (piece : Slice) (e : CheckError) :
    Ignores text like (reject kind piece e : Engine σ (List SnippetEvent)) :=
  ignores_onStore fun s text =>
    s.reject_withOutput text kind piece.source piece.origin (e.diagnostic piece.origin)

theorem ignores_declare (d : Declaration) (piece : Slice) :
    Ignores text like (declare d piece : Engine σ (List SnippetEvent)) := by
  refine ignores_store_bind (fun s => rfl) fun s => ?_
  cases d.analyze s.globals with
  | error e => exact ignores_reject .declaration piece e
  | ok a => exact ignores_bind (ignores_allocate _) fun id => ignores_finish id a.status none true

theorem ignores_importTree (t : ImportTree) (piece : Slice) :
    Ignores text like (importTree t piece : Engine σ (List SnippetEvent)) := by
  refine ignores_store_bind (fun s => rfl) fun s => ?_
  split
  · exact ignores_bind (ignores_allocate _) fun id => ignores_finish id .valid none true
  · exact ignores_reject .imports piece _

section

variable {calls : HostCalls σ} (hcalls : calls.Respects like) (fuel : Nat)

include hcalls

theorem ignores_run (frame : Frame) (e : Expr) : Ignores text like (Engine.run calls fuel frame e) := by
  intro s w w' h
  obtain ⟨ending, t, v, v', htop, htop', hlike⟩ :=
    Run.topLevel_inheriting text hcalls fuel frame e s h
  rw [outcome_run_eq, outcome_run_eq, htop, htop']
  cases ending <;> exact ⟨rfl, rfl, hlike⟩

theorem ignores_declareVariable (name : String) (annotated : Option TypeExpr) (value : Expr)
    (piece : Slice) : Ignores text like (declareVariable calls fuel name annotated value piece) := by
  refine ignores_store_bind (fun s => rfl) fun s => ?_
  cases checkStrictly s (checkInitial annotated value) with
  | error e => exact ignores_reject .declaration piece e
  | ok checked =>
    -- with or without a fault, the variable is given a value and takes its name
    have hrest (id : SnippetId) (x : Value × Option FaultReport) : Ignores text like (do
        changeStore fun s => s.update id fun r =>
          { r with definition := .variable (settledType checked.1 x.1) x.1, refs := checked.2 }
        onStore fun s => s.finish id .valid x.2 true : Engine σ (List SnippetEvent)) :=
      ignores_bind (ignores_update id _) fun _ => ignores_finish id .valid x.2 true
    refine ignores_bind (ignores_allocate _) fun id => ignores_bind (ignores_run hcalls fuel _ value) ?_
    intro result
    cases result with
    | ok v => exact ignores_bind (ignores_pure _) fun x => hrest id x
    | error f => exact ignores_bind (ignores_pure _) fun x => hrest id x

theorem ignores_evaluateExpr (e : Expr) (piece : Slice) :
    Ignores text like (evaluateExpr calls fuel e piece) := by
  refine ignores_store_bind (fun s => rfl) fun s => ?_
  cases checkStrictly s (fun c => Check.expr c false e) with
  | error error => exact ignores_reject _ piece error
  | ok checked =>
    dsimp only
    split
    · refine ignores_bind (ignores_allocate _) fun id => ignores_bind (ignores_run hcalls fuel _ e) ?_
      intro result
      exact ignores_bind (ignores_update id _) fun _ => ignores_finish id .valid _ false
    · refine ignores_store_bind (fun s => rfl) fun s => ?_
      refine ignores_bind (ignores_changeStore fun s text => rfl) fun _ => ?_
      refine ignores_bind (ignores_allocate _) fun id => ignores_bind (ignores_run hcalls fuel _ e) ?_
      intro result
      cases result with
      | ok v => exact ignores_bind (ignores_update id _) fun _ => ignores_finish id .valid none true
      | error f => exact ignores_finish id .valid _ false

theorem ignores_evaluateStmt (stmt : Stmt) (piece : Slice) :
    Ignores text like (evaluateStmt calls fuel stmt piece) := by
  cases stmt with
  | bind p value keyword _ =>
    unfold evaluateStmt
    dsimp only
    split
    · exact ignores_reject .declaration piece _
    · exact ignores_reject .declaration piece _
    · exact ignores_declareVariable hcalls fuel _ _ _ piece
  | expr e _ _ => exact ignores_evaluateExpr hcalls fuel e piece
  | item i span =>
    cases i with
    | constant name type value => exact ignores_declareVariable hcalls fuel name (some type) value piece
    | function h body => exact ignores_declare (.function h body) piece
    | struct d => exact ignores_declare (.struct d) piece
    | imports t => exact ignores_importTree t piece
    | other => exact ignores_reject .declaration piece _

theorem ignores_evaluateStmts (stmts : List (Stmt × Slice)) :
    Ignores text like (evaluateStmts calls fuel stmts) := by
  induction stmts with
  | nil => exact ignores_pure []
  | cons first stmts ih =>
    exact ignores_bind (ignores_evaluateStmt hcalls fuel first.1 first.2) fun _ =>
      ignores_bind ih fun _ => ignores_pure _

/-- A unit is evaluated in the same way if a text was printed before. -/
theorem ignores_evaluate (unit : List Char) : Ignores text like (evaluate calls fuel unit) := by
  refine ignores_store_bind (fun s => rfl) fun s => ?_
  split
  · exact ignores_pure []
  · split
    · exact ignores_reject _ _ _
    · split
      · exact ignores_reject _ _ _
      · exact ignores_evaluateStmts hcalls fuel _

end

end Engine

end

end Notebook.Guest

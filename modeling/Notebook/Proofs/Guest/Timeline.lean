import Notebook.Proofs.Guest.Resolution

/-!
# A session, one thing after the other

Whatever an engine is asked for, it does one thing after the other: it evaluates a statement, refuses a
unit, drops a snippet, or gives a name to a host object (`Engine.Step`).  What happens on the way stands
in the timeline of the session, which an engine's steps write (`Engine.steps_timeline`).
-/

namespace Notebook.Guest
open Notebook.Text Notebook.Syntax

/-- What happens in a session: a statement is about to be evaluated, an event is told, or a name has
been given to a host object. -/
inductive Happening
  | begun (s : Store) (stmt : Stmt)
  | told (e : SnippetEvent)
  | hosted (name : String)

/-- The event that is told. -/
def Happening.event? : Happening → Option SnippetEvent
  | .told e => some e
  | _ => none

/-- The events that are told. -/
def eventsOf (happenings : List Happening) : List SnippetEvent := happenings.filterMap Happening.event?

theorem eventsOf_append (happenings more : List Happening) :
    eventsOf (happenings ++ more) = eventsOf happenings ++ eventsOf more := List.filterMap_append

theorem eventsOf_told (events : List SnippetEvent) : eventsOf (events.map .told) = events := by
  unfold eventsOf
  rw [List.filterMap_map]
  exact List.filterMap_some

namespace Engine

variable {σ : Type}

/-- The events of a statement are told if it is evaluated to its end. -/
def toldOf : Except Interruption (List SnippetEvent) → List Happening
  | .ok events => events.map .told
  | .error _ => []

/-- What happens while statements are evaluated, up to the one that is broken off. -/
def timelineStmts (calls : HostCalls σ) (fuel : Nat) :
    List (Stmt × Slice) → Store → σ → List Happening
  | [], _, _ => []
  | (stmt, piece) :: rest, s, w =>
    .begun s stmt ::
      match outcome (evaluateStmt calls fuel stmt piece) s w with
      | (.ok events, s', w') => events.map .told ++ timelineStmts calls fuel rest s' w'
      | (.error _, _, _) => []

/-- What happens when a request is dealt with. -/
def happenings (calls : HostCalls σ) (request : Request σ) (s : Store) (w : σ) : List Happening :=
  match request with
  | .evaluate fuel unit =>
    if s.stopped then []
    else
      match Scan.nestingOverflow? unit Scan.nestingLimit, parseUnit unit with
      | none, .ok stmts => timelineStmts calls fuel (stmts.zip (Slice.ofStmts unit stmts)) s w
      | _, _ => (told calls request s w).map .told
  | .bindHost name object =>
    match s.bindHost name object with
    | .ok _ => [.hosted name]
    | .error _ => []
  | _ => (told calls request s w).map .told

/-- What happens when one request after the other is dealt with, whatever becomes of them. -/
def timeline (calls : HostCalls σ) : List (Request σ) → Store → σ → List Happening
  | [], _, _ => []
  | request :: requests, s, w =>
    let after := (outcome (perform calls request) s w).2
    happenings calls request s w ++ timeline calls requests after.1 after.2

/-- One thing that an engine does. -/
inductive Step (calls : HostCalls σ) : Store → σ → List Happening → Store → σ → Prop
  | stmt (fuel : Nat) (stmt : Stmt) (piece : Slice) (s : Store) (w : σ) :
    Step calls s w
      (.begun s stmt :: toldOf (outcome (evaluateStmt calls fuel stmt piece) s w).1)
      (outcome (evaluateStmt calls fuel stmt piece) s w).2.1
      (outcome (evaluateStmt calls fuel stmt piece) s w).2.2
  | refuse (kind : SnippetKind) (source : List Char) (origin : Position) (d : Diagnostic) (s : Store)
    (w : σ) :
    Step calls s w ((s.reject kind source origin d).1.map .told) (s.reject kind source origin d).2 w
  | drop (id : SnippetId) (s : Store) (w : σ) :
    Step calls s w ((s.drop id).1.map .told) (s.drop id).2 w
  | host (name : String) (object : HostObject) (s : Store) (w : σ) :
    Step calls s w [.hosted name] { s with hosts := putOrdered name object s.hosts } w
  | idle (libraries : List String) (output : List Char) (s : Store) (w w' : σ) :
    Step calls s w [] { s with libraries, output } w'

/-- One thing after the other. -/
inductive Steps (calls : HostCalls σ) : Store → σ → List Happening → Store → σ → Prop
  | none (s : Store) (w : σ) : Steps calls s w [] s w
  | next {s t u : Store} {w v x : σ} {first rest : List Happening} (step : Step calls s w first t v)
    (steps : Steps calls t v rest u x) : Steps calls s w (first ++ rest) u x

theorem Steps.append {calls : HostCalls σ} {s t u : Store} {w v x : σ} {first rest : List Happening}
    (hst : Steps calls s w first t v) (htu : Steps calls t v rest u x) :
    Steps calls s w (first ++ rest) u x := by
  induction hst with
  | none => exact htu
  | next step _ ih =>
    rw [List.append_assoc]
    exact .next step (ih htu)

theorem Step.single {calls : HostCalls σ} {s t : Store} {w v : σ} {happenings : List Happening}
    (h : Step calls s w happenings t v) : Steps calls s w happenings t v := by
  have hone := Steps.next h (.none t v)
  rwa [List.append_nil] at hone

/-! ## What is asked for is done step by step -/

theorem steps_timelineStmts (calls : HostCalls σ) (fuel : Nat) (stmts : List (Stmt × Slice)) (s : Store)
    (w : σ) :
    Steps calls s w (timelineStmts calls fuel stmts s w)
      (outcome (evaluateStmts calls fuel stmts) s w).2.1
      (outcome (evaluateStmts calls fuel stmts) s w).2.2 := by
  induction stmts generalizing s w with
  | nil => exact .none s w
  | cons first stmts ih =>
    obtain ⟨stmt, piece⟩ := first
    have hstep : Step calls s w _ _ _ := .stmt fuel stmt piece s w
    unfold evaluateStmts timelineStmts
    rw [outcome_bind]
    rcases hfirst : outcome (evaluateStmt calls fuel stmt piece) s w with ⟨i | events, s', w'⟩
    · rw [hfirst] at hstep
      exact hstep.single
    · rw [hfirst] at hstep
      have hrest := ih s' w'
      dsimp only
      rw [outcome_bind]
      -- the events are put together once all statements have been evaluated, which does nothing
      rcases hmore : outcome (evaluateStmts calls fuel stmts) s' w' with ⟨i | more, s'', w''⟩
      · rw [hmore] at hrest
        exact .next hstep hrest
      · rw [hmore] at hrest
        exact .next hstep hrest

theorem steps_refuse {calls : HostCalls σ} (kind : SnippetKind) (piece : Slice) (e : CheckError)
    (s : Store) (w : σ) :
    Steps calls s w (toldOf (outcome (reject kind piece e) s w).1)
      (outcome (reject kind piece e) s w).2.1 (outcome (reject kind piece e) s w).2.2 :=
  (Step.refuse kind piece.source piece.origin (e.diagnostic piece.origin) s w).single

theorem steps_evaluate (calls : HostCalls σ) (fuel : Nat) (unit : List Char) (s : Store) (w : σ) :
    Steps calls s w (happenings calls (.evaluate fuel unit) s w)
      (outcome (evaluate calls fuel unit) s w).2.1 (outcome (evaluate calls fuel unit) s w).2.2 := by
  unfold happenings told perform evaluate
  dsimp only
  rw [outcome_bind, outcome_store]
  dsimp only
  split_ifs
  · exact .none s w
  cases Scan.nestingOverflow? unit Scan.nestingLimit with
  | some t => exact steps_refuse (guessKind unit) (.whole unit) _ s w
  | none =>
    cases parseUnit unit with
    | error e => exact steps_refuse (guessKind unit) (.whole unit) _ s w
    | ok stmts => exact steps_timelineStmts calls fuel _ s w

theorem steps_perform (calls : HostCalls σ) {request : Request σ} (hstops : request.stops = false)
    (s : Store) (w : σ) :
    Steps calls s w (happenings calls request s w) (outcome (perform calls request) s w).2.1
      (outcome (perform calls request) s w).2.2 := by
  have hidle (libraries : List String) (output : List Char) (w' : σ) :
      Steps calls s w [] { s with libraries, output } w' := (Step.idle libraries output s w w').single
  cases request with
  | evaluate fuel unit => exact steps_evaluate calls fuel unit s w
  | drop id => exact (Step.drop id s w).single
  | bindHost name object =>
    by_cases hname : Store.isHostName name = true
    · simp only [happenings, perform, outcome_onStore, Store.bindHost, if_pos hname]
      exact (Step.host name object s w).single
    · simp only [happenings, perform, outcome_onStore, Store.bindHost, if_neg hname]
      exact .none s w
  | addLibrary path =>
    change Steps calls s w [] (s.addLibrary path) w
    unfold Store.addLibrary
    split
    · exact hidle _ s.output w
    · exact .none s w
  | takeOutput => exact hidle s.libraries [] w
  | stop => cases hstops
  | host change => exact hidle s.libraries s.output (change w)

/-- What a session comes to, short of its end, it comes to step by step. -/
theorem steps_timeline (calls : HostCalls σ) (requests : List (Request σ))
    (hstops : ∀ request ∈ requests, request.stops = false) (s : Store) (w : σ) :
    Steps calls s w (timeline calls requests s w) (live calls requests s w).2.1
      (live calls requests s w).2.2 := by
  induction requests generalizing s w with
  | nil => exact .none s w
  | cons request requests ih =>
    exact (steps_perform calls (hstops request List.mem_cons_self) s w).append
      (ih (fun r hr => hstops r (List.mem_cons_of_mem request hr)) _ _)

end Engine

end Notebook.Guest

import Notebook.Proofs.Guest.Chronicle
import Notebook.Proofs.Guest.Keeping
import Notebook.Proofs.Guest.Stepwise

/-!
# Scopes and frames

Scopes and frames are put up and taken down around code that can leave early in every way.  They are in balance
all the same (`stacks_are_balanced`): an evaluation leaves the frames as they were and the scopes with the names that
they had, a call changes nothing in the scopes of its caller, and there are never more frames than there may be.
The last is said of an evaluator that looks at the frames wherever there can be new ones, and that would do anything
else if there were too many (`Run.evalWatched`).
-/

namespace Notebook.Guest
open Notebook.Syntax

/-- The names of the scopes, without their values. -/
def Machine.names {σ : Type} (m : Machine σ) : List (List String) := m.scopes.map fun scope => scope.map (·.1)

/-- The scope in which the body of a function runs. -/
def Function.scope (f : Function) (args : List Value) : Scope :=
  (f.params.zip args).foldl (fun (scope : Scope) (p, v) => scope.put p.1 v) []

/-- What a fault tells of the calls that are under way where it happens: those that have begun since, innermost first,
then those of the state, and then the side of the host. There are not too many of them. -/
def Machine.Traces {σ : Type} (m : Machine σ) (stack : List String) : Prop :=
  ∃ begun : List Frame, stack = (begun ++ m.frames).map Frame.label ++ bridgeFrames ∧
    (begun ++ m.frames).length ≤ frameLimit

theorem Machine.Traces.congr {σ : Type} {m m' : Machine σ} {stack : List String} (h : m'.Traces stack)
    (hframes : m'.frames = m.frames) : m.Traces stack := by
  unfold Machine.Traces at h
  rw [hframes] at h
  exact h

namespace Run

variable {σ α β : Type}

/-! ## An evaluator that looks at the frames -/

/-- Runs code, or does something else if more calls are under way than there may be. -/
def watched (excess r : Run σ Value) : Run σ Value := do
  if (← get).frames.length > frameLimit then excess else r

/-- Evaluates an expression as `step` does, and looks at the frames when a call has begun. -/
def stepWatched (excess : Run σ Value) (calls : HostCalls σ) (fuel : Nat) (eval : Evaluator σ) : Evaluator σ
  | .call (.name i _) args _ => do
    let vs ← values eval args
    callWith (invokeWith fun b => watched excess (block eval b)) i.name vs
  | e => step calls fuel eval e

/-- Evaluates an expression as `eval` does, and looks at the frames whenever an expression is to be evaluated and
whenever a call has begun. Where there are more frames than there may be, `excess` takes the place of the rest. -/
def evalWatched (excess : Run σ Value) (calls : HostCalls σ) : Nat → Evaluator σ
  | 0 => fun _ => throw .outOfFuel
  | fuel + 1 => fun e => watched excess (stepWatched excess calls fuel (evalWatched excess calls fuel) e)

/-- Code whose ending is looked at, after which more code may run. -/
theorem settle_run (r : Run σ α) (f : Except Exit α → StateM (Machine σ) (Except Exit β)) (m : Machine σ) :
    (ExceptT.mk (r.run >>= f) : Run σ β).run.run m = (f (r.run.run m).1).run (r.run.run m).2 := rfl

theorem watched_run (excess r : Run σ Value) {m : Machine σ} (h : m.frames.length ≤ frameLimit) :
    (watched excess r).run.run m = r.run.run m := by
  have hnot : ¬ m.frames.length > frameLimit := Nat.not_lt.2 h
  unfold watched
  rw [get_bind, if_neg hnot]

/-! ## Balance -/

/-- From a state on, code has come to `x`, with the frames of the state and, as far as `kept` tells, the names of its
scopes. If there were not too many frames, then other code has come to the same, and a fault tells where in the calls
it happened. -/
structure Balanced (kept : List (List String) → List (List String)) (m : Machine σ)
    (x x' : Except Exit α × Machine σ) : Prop where
  frames : x.2.frames = m.frames
  names : kept x.2.names = kept m.names
  same : m.frames.length ≤ frameLimit → x' = x
  traces : m.frames.length ≤ frameLimit → ∀ f, x.1 = .error (.fault f) → m.Traces f.stack

/-- Code is balanced wherever it starts, and so is other code beside it. -/
def Balances (kept : List (List String) → List (List String)) (r r' : Run σ α) : Prop :=
  ∀ m, Balanced kept m (r.run.run m) (r'.run.run m)

section

variable {kept : List (List String) → List (List String)} {m m' : Machine σ}

theorem balanced_ok (a : α) (hframes : m'.frames = m.frames) (hnames : kept m'.names = kept m.names) :
    Balanced kept m ((.ok a : Except Exit α), m') (.ok a, m') :=
  ⟨hframes, hnames, fun _ => rfl, fun _ _ hf => by cases hf⟩

/-- Code that leaves early, but not for a fault. -/
theorem balanced_left {e : Exit} (he : ∀ f, e ≠ .fault f) (hframes : m'.frames = m.frames)
    (hnames : kept m'.names = kept m.names) :
    Balanced kept m ((.error e : Except Exit α), m') (.error e, m') :=
  ⟨hframes, hnames, fun _ => rfl, fun _ f hf => absurd (Except.error.inj hf) (he f)⟩

theorem balanced_fault (cause : FaultCause) (hframes : m'.frames = m.frames) (hnames : kept m'.names = kept m.names) :
    Balanced kept m ((fault cause : Run σ α).run.run m') ((fault cause : Run σ α).run.run m') := by
  refine ⟨hframes, hnames, fun _ => rfl, fun hle f hf => ?_⟩
  have hf' : (.error (.fault ⟨cause, m'.frames.map Frame.label ++ bridgeFrames⟩) : Except Exit α) =
      .error (.fault f) := hf
  obtain rfl := Exit.fault.inj (Except.error.inj hf')
  rw [hframes]
  exact ⟨[], rfl, hle⟩

/-- A fault that happens where balanced code has ended. -/
theorem Balanced.traces_end {x x' : Except Exit α × Machine σ} (h : Balanced kept m x x')
    (hle : m.frames.length ≤ frameLimit) : m.Traces (x.2.frames.map Frame.label ++ bridgeFrames) := by
  rw [h.frames]
  exact ⟨[], rfl, hle⟩

theorem balances_bind {r r' : Run σ α} {f f' : α → Run σ β} (hr : Balances kept r r')
    (hf : ∀ a, Balances kept (f a) (f' a)) : Balances kept (r >>= f) (r' >>= f') := by
  intro m
  have h := hr m
  rw [run_bind, run_bind]
  generalize r.run.run m = x at h
  generalize r'.run.run m = x' at h
  obtain ⟨e | a, m'⟩ := x
  · refine ⟨h.frames, h.names, fun hle => ?_, fun hle f hfault => ?_⟩
    · rw [h.same hle]
    · refine h.traces hle f ?_
      cases hfault
      rfl
  · have h' := hf a m'
    have hframes : m'.frames = m.frames := h.frames
    refine ⟨h'.frames.trans hframes, h'.names.trans h.names, fun hle => ?_, fun hle f hfault => ?_⟩
    · rw [h.same hle]
      exact h'.same (by rwa [hframes])
    · exact (h'.traces (by rwa [hframes]) f hfault).congr hframes

end

/-! ## Local names -/

theorem names_assign? {scope scope' : Scope} {n : String} {v : Value} (h : scope.assign? n v = some scope') :
    scope'.map (·.1) = scope.map (·.1) := by
  induction scope generalizing scope' with
  | nil => cases h
  | cons entry rest ih =>
    obtain ⟨i, w⟩ := entry
    unfold Scope.assign? at h
    split at h
    · rename_i hi
      cases h
      subst hi
      rfl
    · obtain ⟨rest', hrest, rfl⟩ := Option.map_eq_some_iff.1 h
      rw [List.map_cons, List.map_cons, ih hrest]

theorem names_assignLocal? {scopes scopes' : List Scope} {n : String} {v : Value}
    (h : assignLocal? n v scopes = some scopes') :
    scopes'.map (fun scope => scope.map (·.1)) = scopes.map fun scope => scope.map (·.1) := by
  induction scopes generalizing scopes' with
  | nil => cases h
  | cons scope outer ih =>
    unfold assignLocal? at h
    split at h
    · rename_i scope' hscope
      cases h
      rw [List.map_cons, List.map_cons, names_assign? hscope]
    · obtain ⟨outer', houter, rfl⟩ := Option.map_eq_some_iff.1 h
      rw [List.map_cons, List.map_cons, ih houter]

theorem balances_assign (n : String) (v : Value) : Balances id (assign n v : Run σ Unit) (assign n v) := by
  intro m
  rw [assign_run]
  split
  · rename_i scopes hscopes
    exact balanced_ok _ rfl (names_assignLocal? hscopes)
  · split
    · exact balanced_ok _ rfl rfl
    · exact balanced_fault _ rfl rfl

/-- A declaration concerns the innermost scope only. -/
theorem balances_declare (n : String) (v : Value) : Balances List.tail (declare n v : Run σ Unit) (declare n v) := by
  intro m
  have hrun : ∃ m', (declare n v : Run σ Unit).run.run m = (.ok (), m') ∧ m'.frames = m.frames ∧
      m'.names.tail = m.names.tail := by
    obtain ⟨frames, scopes, store, world⟩ := m
    cases scopes with
    | nil => exact ⟨_, rfl, rfl, rfl⟩
    | cons scope outer => exact ⟨_, rfl, rfl, rfl⟩
  obtain ⟨m', hrun, hframes, hnames⟩ := hrun
  rw [hrun]
  exact balanced_ok _ hframes hnames

theorem balances_inScope {r r' : Run σ α} (scope : Scope) (hr : Balances List.tail r r') :
    Balances id (inScope scope r) (inScope scope r') := by
  intro m
  have h := hr { m with scopes := scope :: m.scopes }
  have hrun (r : Run σ α) : (inScope scope r).run.run m =
      ((r.run.run { m with scopes := scope :: m.scopes }).1,
        (r.run.run { m with scopes := scope :: m.scopes }).2.outside) := rfl
  rw [hrun, hrun]
  refine ⟨h.frames, ?_, fun hle => ?_, h.traces⟩
  · -- the scope that is taken down is the one that was put up
    exact (List.map_tail ..).trans h.names
  · rw [h.same hle]

/-! ## Loops and the host -/

/-- How a round of a loop ends. -/
def roundResult : Except Exit Value → Except Exit Bool
  | .ok _ | .error .continued => .ok true
  | .error .broke => .ok false
  | .error e => .error e

theorem loopBody_run (r : Run σ Value) (m : Machine σ) :
    (loopBody r).run.run m = (roundResult (r.run.run m).1, (r.run.run m).2) := by
  unfold loopBody
  rw [settle_run]
  rcases r.run.run m with ⟨e | a, m'⟩
  · cases e <;> rfl
  · rfl

theorem balances_loopBody {r r' : Run σ Value} (hr : Balances id r r') : Balances id (loopBody r) (loopBody r') := by
  intro m
  have h := hr m
  rw [loopBody_run, loopBody_run]
  refine ⟨h.frames, h.names, fun hle => by rw [h.same hle], fun hle f hf => h.traces hle f ?_⟩
  revert hf
  rcases (r.run.run m).1 with e | a
  · cases e <;> intro hf <;> cases hf
    rfl
  · exact fun hf => by cases hf

theorem balances_callHost (calls : HostCalls σ) (object : HostObject) (method : String) (args : List Value) :
    Balances id (callHost calls object method args) (callHost calls object method args) := by
  intro m
  unfold callHost
  rw [get_bind]
  rcases calls.call object method args m.world with ⟨reply, world⟩
  cases reply with
  | value v => exact balanced_ok _ rfl rfl
  | error message =>
    have hframes : ({ m with world } : Machine σ).frames = m.frames := rfl
    exact balanced_fault (.host message) hframes rfl
  | panic message =>
    have hframes : ({ m with world } : Machine σ).frames = m.frames := rfl
    exact balanced_left (fun f => Exit.noConfusion) hframes rfl

theorem parallel_balances (calls : HostCalls σ) :
    Parallel calls (σ := σ) (fun r r' => Balances id r r') (fun r r' => Balances List.tail r r') where
  weaken := fun hr m => ⟨(hr m).frames, congrArg List.tail (hr m).names, (hr m).same, (hr m).traces⟩
  pure := fun _ _ => balanced_ok _ rfl rfl
  leave := fun _ he _ => balanced_left he rfl rfl
  fault := fun cause _ => balanced_fault cause rfl rfl
  bind := balances_bind
  bindWithin := balances_bind
  look := fun _ hf m => hf m m
  declare := balances_declare
  assign := balances_assign
  print := fun _ _ => balanced_ok _ rfl rfl
  inScope := balances_inScope
  loopBody := balances_loopBody
  callHost := balances_callHost calls

/-! ## Calls -/

/-- How a call ends that has left frames behind. -/
def frameResult (frames : List Frame) : Except Exit Value → Except Exit Value
  | .error (.returned v) => .ok v
  | .error .broke | .error .continued =>
    .error (.fault ⟨.jumpOutsideLoop, frames.map Frame.label ++ bridgeFrames⟩)
  | result => result

/-- A body runs in its own frame and scope; those of the caller are there again when it has ended. -/
theorem inFrame_run (frame : Frame) (scope : Scope) (r : Run σ Value) (m : Machine σ) :
    let x := r.run.run { m with frames := frame :: m.frames, scopes := [scope] }
    (inFrame frame scope r).run.run m =
      (frameResult x.2.frames x.1, { x.2 with frames := m.frames, scopes := m.scopes }) := by
  intro x
  let f : Except Exit Value → StateM (Machine σ) (Except Exit Value)
    | .error (.returned v) => return .ok v
    | .error .broke | .error .continued => (fault .jumpOutsideLoop : Run σ Value).run
    | result => return result
  have hrun : (inFrame frame scope r).run.run m =
      (((f x.1).run x.2).1, { ((f x.1).run x.2).2 with frames := m.frames, scopes := m.scopes }) := rfl
  rw [hrun]
  rcases x with ⟨e | a, m'⟩
  · cases e <;> rfl
  · rfl

theorem invokeWith_run (run : Block → Run σ Value) (f : Function) (id : SnippetId) (args : List Value)
    (m : Machine σ) :
    (invokeWith run f id args).run.run m =
      if m.frames.length ≥ frameLimit then (fault (.tooDeep frameLimit) : Run σ Value).run.run m
      else if args.length ≠ f.params.length then
        (fault (.argumentCount f.name f.params.length args.length) : Run σ Value).run.run m
      else (inFrame ⟨f.name, id⟩ (f.scope args) (run f.body)).run.run m := by
  unfold invokeWith
  rw [get_bind]
  split_ifs <;> rfl

/-- What a name that is called does: it calls a function, or it comes to a result at once. -/
theorem callWith_cases (name : String) (args : List Value) (m : Machine σ) :
    (∃ f id, ∀ call, (callWith call name args : Run σ Value).run.run m = (call f id args).run.run m) ∨
      ∃ o : Outcome Value, ∀ call, (callWith call name args : Run σ Value).run.run m =
        (ofOutcome o : Run σ Value).run.run m := by
  unfold callWith
  simp only [local?_bind, get_bind]
  generalize (if (m.scopes.findSome? fun scope => Table.get? scope name).isSome = true then none
    else m.store.callee? name) = found
  cases found with
  | none =>
    dsimp only
    split
    · exact .inr ⟨_, fun _ => rfl⟩
    · exact .inr ⟨.error (.uncallable name), fun _ => rfl⟩
  | some callee =>
    cases callee with
    | ready f id => exact .inl ⟨f, id, fun _ => rfl⟩
    | waiting missing => exact .inr ⟨.error (.waiting name missing), fun _ => rfl⟩

/-- A fault by which a call ends is one of its body, or a jump that leads out of the body. -/
theorem Balanced.traces_frameResult {m : Machine σ} {x x' : Except Exit Value × Machine σ} (h : Balanced id m x x')
    (hle : m.frames.length ≤ frameLimit) {f : Fault} (hf : frameResult x.2.frames x.1 = .error (.fault f)) :
    m.Traces f.stack := by
  have hfault := h.traces hle
  have hend := h.traces_end hle
  revert hf hfault
  rcases x.1 with e | a
  · cases e with
    | fault g =>
      intro hf hfault
      cases hf
      exact hfault f rfl
    | broke | continued =>
      intro hf _
      cases hf
      exact hend
    | _ => exact fun hf => by cases hf
  · exact fun hf => by cases hf

/-- A body that is called where one more frame may be. -/
theorem balanced_inFrame {r r' : Run σ Value} (hr : Balances id r r') (excess : Run σ Value) (frame : Frame)
    (scope : Scope) {m : Machine σ} (hlt : m.frames.length < frameLimit) :
    Balanced id m ((inFrame frame scope r).run.run m) ((inFrame frame scope (watched excess r')).run.run m) := by
  let begun : Machine σ := { m with frames := frame :: m.frames, scopes := [scope] }
  have hle : begun.frames.length ≤ frameLimit := hlt
  have h := hr begun
  have hwatched : (watched excess r').run.run begun = r.run.run begun :=
    (watched_run excess r' hle).trans (h.same hle)
  rw [inFrame_run, inFrame_run]
  refine ⟨rfl, rfl, fun _ => ?_, fun _ f hf => ?_⟩
  · dsimp only
    rw [hwatched]
  · -- the frames of a fault in the body are those that have begun in it, its own, and those of the caller
    obtain ⟨inner, hstack, hlength⟩ := h.traces_frameResult hle hf
    have happend : inner ++ begun.frames = inner ++ [frame] ++ m.frames := by
      rw [List.append_assoc]
      rfl
    rw [happend] at hstack hlength
    exact ⟨inner ++ [frame], hstack, hlength⟩

theorem balances_invokeWith {run run' : Block → Run σ Value} (hrun : ∀ b, Balances id (run b) (run' b))
    (excess : Run σ Value) (f : Function) (own : SnippetId) (args : List Value) :
    Balances id (invokeWith run f own args) (invokeWith (fun b => watched excess (run' b)) f own args) := by
  intro m
  rw [invokeWith_run, invokeWith_run]
  split_ifs with hdeep hcount
  · exact balanced_fault _ rfl rfl
  · exact balanced_fault _ rfl rfl
  · exact balanced_inFrame (hrun f.body) excess _ _ (Nat.not_le.1 hdeep)

/-- A call leaves the scopes of the caller as they are, with all their values. -/
theorem scopes_callName (eval : Evaluator σ) (name : String) (args : List Value) (m : Machine σ) :
    ((callName eval name args).run.run m).2.scopes = m.scopes := by
  rw [callName_eq]
  rcases callWith_cases name args m with ⟨f, id, h⟩ | ⟨o, h⟩
  · rw [h, invokeWith_run]
    split_ifs
    · rfl
    · rfl
    · rw [inFrame_run]
  · rw [h]
    cases o <;> rfl

/-! ## All code -/

theorem balances_watched {r r' : Run σ Value} (h : Balances id r r') (excess : Run σ Value) :
    Balances id r (watched excess r') :=
  fun m => ⟨(h m).frames, (h m).names, fun hle => (watched_run excess r' hle).trans ((h m).same hle), (h m).traces⟩

/-- Evaluating an expression is balanced, and the frames that are looked at are never too many. -/
theorem balances_eval (calls : HostCalls σ) (excess : Run σ Value) (fuel : Nat) (e : Expr) :
    Balances id (eval calls fuel e) (evalWatched excess calls fuel e) := by
  have h := parallel_balances calls
  induction fuel generalizing e with
  | zero => exact h.leave _ fun _ => Exit.noConfusion
  | succ fuel ih =>
    refine balances_watched ?_ excess
    unfold stepWatched
    split
    · -- a call by name: the body is looked at when it begins
      rename_i i span args span'
      refine h.bind (h.values ih args) fun vs => ?_
      rw [callName_eq]
      exact h.callWith (balances_invokeWith (h.block ih) excess) i.name vs
    · rename_i hnot
      exact h.step ih fuel e fun i span args span' he => absurd he (hnot i span args span')

/-- A fault that ends code at the outermost level tells of the calls that are under way, also if it is a jump that
leads nowhere. -/
theorem traces_topLevel (calls : HostCalls σ) (fuel : Nat) (frame : Frame) (e : Expr) (store : Store) (world : σ)
    {f : Fault} (hf : (topLevel calls fuel frame e store world).1 = .fault f) :
    ({ frames := [frame], store, world } : Machine σ).Traces f.stack := by
  let start : Machine σ := { frames := [frame], store, world }
  have hle : start.frames.length ≤ frameLimit := by
    show 1 ≤ 128
    omega
  have h := balances_eval calls (throw .outOfFuel) fuel e start
  have htraces := h.traces hle
  have hend := h.traces_end hle
  unfold topLevel at hf
  dsimp only [ExceptT.run, StateT.run] at hf htraces hend
  revert hf htraces hend
  generalize eval calls fuel e { frames := [frame], store, world } = x
  obtain ⟨result, m'⟩ := x
  intro hf htraces hend
  cases result with
  | ok v => cases hf
  | error exit =>
    cases exit with
    | fault g =>
      cases hf
      exact htraces f rfl
    | broke | continued =>
      cases hf
      exact hend
    | _ => cases hf

end Run

/-- The stacks of a machine are in balance. However the evaluation of an expression ends, there are the same frames
afterwards, and the same names in the scopes. A call leaves the scopes as the evaluation of its arguments has left
them. If there are not too many frames to begin with, as on every machine that starts, then there are never too many:
an evaluation that looks at the frames all the time, and would do anything else otherwise, is the same. So a fault
tells of the calls that are under way, innermost first, and these are not too many. -/
theorem stacks_are_balanced {σ : Type} (calls : HostCalls σ) (fuel : Nat) (e : Expr) :
    (∀ m : Machine σ,
      let after := (Run.eval calls fuel e).run.run m
      after.2.frames = m.frames ∧ after.2.names = m.names ∧
        (m.frames.length ≤ frameLimit →
          (∀ excess, (Run.evalWatched excess calls fuel e).run.run m = after) ∧
            ∀ f, after.1 = .error (.fault f) → m.Traces f.stack)) ∧
      (∀ (m : Machine σ) (i : Ident) (span : Text.Span) (args : List Expr) (span' : Text.Span),
        ((Run.eval calls (fuel + 1) (.call (.name i span) args span')).run.run m).2.scopes =
          ((Run.values (Run.eval calls fuel) args).run.run m).2.scopes) ∧
      ∀ frame store world f, (Run.topLevel calls fuel frame e store world).1 = .fault f →
        ({ frames := [frame], store, world } : Machine σ).Traces f.stack := by
  have hbalanced (excess : Run σ Value) := Run.balances_eval calls excess fuel e
  have h := hbalanced (throw .outOfFuel)
  refine ⟨fun m => ?_, fun m i span args span' => ?_, fun frame store world f hf => ?_⟩
  · exact ⟨(h m).frames, (h m).names, fun hle => ⟨fun excess => (hbalanced excess m).same hle, (h m).traces hle⟩⟩
  · have hstep : Run.eval calls (fuel + 1) (.call (.name i span) args span') =
        Run.values (Run.eval calls fuel) args >>= fun vs => Run.callName (Run.eval calls fuel) i.name vs := rfl
    rw [hstep, run_bind]
    rcases (Run.values (Run.eval calls fuel) args).run.run m with ⟨exit | vs, m'⟩
    · rfl
    · exact Run.scopes_callName _ i.name vs m'
  · exact Run.traces_topLevel calls fuel frame e store world hf

/-- A function that does nothing. -/
def idle : Function := ⟨"f", [], .unit, .mk [] default, "", ""⟩

/-- A state in which all the frames are in use that there may be. -/
def fullMachine : Machine Unit where
  frames := List.replicate frameLimit ⟨"f", 1⟩
  store := {
    records := [{
      kind := .declaration, source := [], status := .valid, name := some "f", definition := .function idle
      origin := default }]
    bindings := [("f", 1)] }
  world := ()

theorem fullMachine_takes_no_call :
    let call : Expr := .call (.name ⟨"f", default⟩ default) [] default
    fullMachine.frames.length ≤ frameLimit ∧
      (∀ excess, (Run.evalWatched excess errorCalls 2 call).run.run fullMachine =
        (Run.eval errorCalls 2 call).run.run fullMachine) ∧
      ∃ f, ((Run.eval errorCalls 2 call).run.run fullMachine).1 = .error (.fault f) ∧
        f.cause = .tooDeep frameLimit ∧ fullMachine.Traces f.stack := by
  intro call
  have hlength : fullMachine.frames.length = frameLimit := List.length_replicate
  have hle : fullMachine.frames.length ≤ frameLimit := Nat.le_of_eq hlength
  obtain ⟨hsame, htraces⟩ := ((stacks_are_balanced errorCalls 2 call).1 fullMachine).2.2 hle
  have hready (invoke : Function → SnippetId → List Value → Run Unit Value) :
      (Run.callWith invoke "f" []).run.run fullMachine = (invoke idle 1 []).run.run fullMachine := rfl
  have hstep : Run.eval errorCalls 2 call =
      Run.values (Run.eval errorCalls 1) [] >>= Run.callName (Run.eval errorCalls 1) "f" := rfl
  have hfault : (Run.eval errorCalls 2 call).run.run fullMachine =
      (Run.fault (.tooDeep frameLimit) : Run Unit Value).run.run fullMachine := by
    rw [hstep, run_bind, Run.callName_eq]
    exact (hready _).trans ((Run.invokeWith_run ..).trans (if_pos (Nat.le_of_eq hlength.symm)))
  have hending := congrArg Prod.fst hfault
  exact ⟨hle, hsame, _, hending, rfl, htraces _ hending⟩

end Notebook.Guest

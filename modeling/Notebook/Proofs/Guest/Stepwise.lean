import Notebook.Guest.Evaluation

/-!
# What holds of all code

Code is made of a few steps.  What relates them, and stays when code is put together, relates the evaluations of an
expression whose parts are evaluated in two ways that it relates (`Parallel.step`).  Likewise, a property that
the steps have and that stays when code is put together holds of every expression that is evaluated
(`Stepwise.eval`).
-/

namespace Notebook.Guest
open Notebook.Syntax

/-- The machines are the same as far as code looks at them. -/
structure Machine.LooksLike {σ : Type} (m m' : Machine σ) : Prop where
  frames : m.frames = m'.frames
  scopes : m.scopes = m'.scopes
  read : m.store.read? = m'.store.read?
  callee : m.store.callee? = m'.store.callee?

namespace Run

/-! ## Calls, whatever is done for a function -/

section

variable {σ : Type}

/-- Calls a function as `invoke` does, in whatever way its body is run. -/
def invokeWith (run : Block → Run σ Value) (f : Function) (id : SnippetId) (args : List Value) : Run σ Value := do
  if (← get).frames.length ≥ frameLimit then fault (.tooDeep frameLimit)
  if args.length ≠ f.params.length then fault (.argumentCount f.name f.params.length args.length)
  let scope := (f.params.zip args).foldl (fun (scope : Scope) (p, v) => scope.put p.1 v) []
  inFrame ⟨f.name, id⟩ scope (run f.body)

/-- Calls what a name stands for as `callName` does, in whatever way a function is called. -/
def callWith (call : Function → SnippetId → List Value → Run σ Value) (name : String) (args : List Value) :
    Run σ Value := do
  let isLocal := (← local? name).isSome
  let store := (← get).store
  match if isLocal then none else store.callee? name with
  | some (.ready f id) => call f id args
  | some (.waiting missing) => fault (.waiting name missing)
  | none =>
    if (Builtin.find? name).isSome then ofOutcome (Value.builtin name args)
    else fault (.uncallable name)

theorem callName_eq (eval : Evaluator σ) : callName eval = callWith (invokeWith (block eval)) := rfl

end

/-! ## Code of two kinds -/

/-- A relation that the steps of code have to themselves, and that stays when code is put together: `R` for code
that leaves the scopes as they are, and the weaker `W` for code that may declare names in the innermost one. Code
that looks at the state has it if it has it whatever is seen. -/
structure Parallel {σ : Type} (calls : HostCalls σ) (R W : ∀ {α : Type}, Run σ α → Run σ α → Prop) : Prop where
  weaken : ∀ {α : Type} {r r' : Run σ α}, R r r' → W r r'
  pure : ∀ {α : Type} (a : α), R (Pure.pure a : Run σ α) (Pure.pure a)
  leave : ∀ {α : Type} (e : Exit), (∀ f, e ≠ .fault f) → R (throw e : Run σ α) (throw e)
  fault : ∀ {α : Type} (cause : FaultCause), R (fault cause : Run σ α) (fault cause)
  bind : ∀ {α β : Type} {r r' : Run σ α} {f f' : α → Run σ β}, R r r' → (∀ a, R (f a) (f' a)) →
    R (r >>= f) (r' >>= f')
  bindWithin : ∀ {α β : Type} {r r' : Run σ α} {f f' : α → Run σ β}, W r r' → (∀ a, W (f a) (f' a)) →
    W (r >>= f) (r' >>= f')
  look : ∀ {α : Type} {f f' : Machine σ → Run σ α}, (∀ m m', m.LooksLike m' → f m = f m') →
    (∀ m, R (f m) (f' m)) → R (get >>= f) (get >>= f')
  declare : ∀ name v, W (declare name v : Run σ Unit) (declare name v)
  assign : ∀ name v, R (assign name v : Run σ Unit) (assign name v)
  print : ∀ text, R (print text : Run σ Unit) (print text)
  inScope : ∀ {α : Type} {r r' : Run σ α} (scope : Scope), W r r' → R (inScope scope r) (inScope scope r')
  loopBody : ∀ {r r' : Run σ Value}, R r r' → R (loopBody r) (loopBody r')
  callHost : ∀ object method args, R (callHost calls object method args) (callHost calls object method args)

namespace Parallel

variable {σ : Type} {calls : HostCalls σ} {R W : ∀ {α : Type}, Run σ α → Run σ α → Prop}

section

variable (h : Parallel calls R W)

include h

/-! ## Steps that are made of others -/

theorem mapWithin {α β : Type} {r r' : Run σ α} (f : α → β) (hr : W r r') : W (f <$> r) (f <$> r') := by
  rw [map_eq_pure_bind, map_eq_pure_bind]
  exact h.bindWithin hr fun a => h.weaken (h.pure (f a))

theorem ofOutcome {α : Type} (o : Outcome α) : R (Run.ofOutcome o : Run σ α) (Run.ofOutcome o) := by
  cases o with
  | ok a => exact h.pure a
  | error cause => exact h.fault cause

theorem local? (name : String) : R (Run.local? name : Run σ (Option Value)) (Run.local? name) := by
  refine h.look (fun m m' hm => ?_) fun m => h.pure _
  rw [hm.scopes]

theorem lookup (name : String) : R (Run.lookup name : Run σ Value) (Run.lookup name) := by
  refine h.bind (h.local? name) fun found => ?_
  cases found with
  | some v => exact h.pure v
  | none =>
    refine h.look (fun m m' hm => ?_) fun m => ?_
    · rw [hm.read]
    · cases m.store.read? name with
      | some v => exact h.pure v
      | none => exact h.fault _

theorem assignTo (target : Expr) (v : Value) : R (Run.assignTo target v : Run σ Unit) (Run.assignTo target v) := by
  unfold Run.assignTo
  split
  · exact h.assign _ v
  · exact h.fault _

theorem bindingName (p : Pattern) : R (Run.bindingName p : Run σ String) (Run.bindingName p) := by
  unfold Run.bindingName
  split
  · exact h.pure _
  · exact h.fault _

theorem callMethod (receiver : Value) (name : String) (args : List Value) :
    R (Run.callMethod calls receiver name args) (Run.callMethod calls receiver name args) := by
  unfold Run.callMethod
  split
  · exact h.callHost _ name args
  · exact h.ofOutcome _

/-- Where functions are called in ways that are related, so are names. -/
theorem callWith {call call' : Function → SnippetId → List Value → Run σ Value}
    (hcall : ∀ f id args, R (call f id args) (call' f id args)) (name : String) (args : List Value) :
    R (Run.callWith call name args) (Run.callWith call' name args) := by
  unfold Run.callWith
  refine h.bind (h.local? name) fun found => h.look (fun m m' hm => ?_) fun m => ?_
  · dsimp only
    rw [hm.callee]
  · dsimp only
    split
    · exact hcall _ _ args
    · exact h.fault _
    · split
      · exact h.ofOutcome _
      · exact h.fault _

/-! ## Loops -/

theorem rounds {round round' : Run σ Bool} (hround : R round round') (n : Nat) :
    R (Run.rounds round n) (Run.rounds round' n) := by
  induction n with
  | zero => exact h.leave _ fun _ => Exit.noConfusion
  | succ n ih =>
    refine h.bind hround fun again => ?_
    cases again with
    | true => exact ih
    | false => exact h.pure ()

theorem overRange {body body' : Value → Run σ Bool} (hbody : ∀ v, R (body v) (body' v)) (first : Int) (n : Nat) :
    R (Run.overRange body first n) (Run.overRange body' first n) := by
  induction n generalizing first with
  | zero => exact h.pure ()
  | succ n ih =>
    refine h.bind (hbody _) fun again => ?_
    cases again with
    | true => exact ih (first + 1)
    | false => exact h.pure ()

theorem overList {body body' : Value → Run σ Bool} (hbody : ∀ v, R (body v) (body' v)) (vs : List Value) :
    R (Run.overList body vs) (Run.overList body' vs) := by
  induction vs with
  | nil => exact h.pure ()
  | cons v vs ih =>
    refine h.bind (hbody v) fun again => ?_
    cases again with
    | true => exact ih
    | false => exact h.pure ()

end

/-! ## Expressions whose parts are evaluated -/

section

variable (h : Parallel calls R W) {eval eval' : Evaluator σ} (heval : ∀ e, R (eval e) (eval' e))

include h heval

theorem values (es : List Expr) : R (Run.values eval es) (Run.values eval' es) := by
  induction es with
  | nil => exact h.pure []
  | cons e es ih => exact h.bind (heval e) fun _ => h.bind ih fun _ => h.pure _

theorem truth (e : Expr) : R (Run.truth eval e) (Run.truth eval' e) := by
  refine h.bind (heval e) fun v => ?_
  cases v
  case bool b => exact h.pure b
  all_goals exact h.fault _

theorem whole (e : Expr) : R (Run.whole eval e) (Run.whole eval' e) := by
  refine h.bind (heval e) fun v => ?_
  cases v
  case int n => exact h.pure n
  all_goals exact h.fault _

theorem stmt (s : Stmt) : W (Run.stmt eval s) (Run.stmt eval' s) := by
  cases s with
  | bind p value keyword span =>
    refine h.bindWithin (h.weaken (h.bindingName p)) fun n => ?_
    cases value with
    | none => exact h.weaken (h.fault _)
    | some e =>
      exact h.bindWithin (h.weaken (heval e)) fun v => h.bindWithin (h.declare n v) fun _ => h.weaken (h.pure _)
  | expr e ended span => exact h.weaken (h.bind (heval e) fun _ => h.pure _)
  | item i span => exact h.weaken (h.fault _)

theorem stmts (ss : List Stmt) : W (Run.stmts eval ss) (Run.stmts eval' ss) := by
  induction ss with
  | nil => exact h.weaken (h.pure _)
  | cons s rest ih =>
    cases rest with
    | nil => exact h.stmt heval s
    | cons t ss => exact h.bindWithin (h.mapWithin _ (h.stmt heval s)) fun _ => ih

theorem block (b : Block) : R (Run.block eval b) (Run.block eval' b) := h.inScope [] (h.stmts heval b.stmts)

theorem fill (pieces : List TemplatePiece) (es : List Expr) :
    R (Run.fill eval pieces es) (Run.fill eval' pieces es) := by
  induction pieces generalizing es with
  | nil => exact h.pure _
  | cons p ps ih =>
    cases p with
    | literal cs => exact h.bind (ih es) fun _ => h.pure _
    | named n shown => exact h.bind (h.lookup _) fun _ => h.bind (ih es) fun _ => h.pure _
    | next shown =>
      cases es with
      | nil => exact h.fault _
      | cons e es => exact h.bind (heval e) fun _ => h.bind (ih es) fun _ => h.pure _

theorem formatted (es : List Expr) : R (Run.formatted eval es) (Run.formatted eval' es) := by
  unfold Run.formatted
  split
  · exact h.pure _
  · split
    · exact h.fill heval _ _
    · exact h.fault _
  · exact h.fault _

theorem invocation (m : MacroCall) : R (Run.invocation eval m) (Run.invocation eval' m) := by
  obtain ⟨name, _, args, _, _⟩ := m
  simp only [Run.invocation]
  cases MacroKind.ofName? name with
  | none => exact h.fault _
  | some kind =>
    cases args with
    | malformed e => exact h.fault _
    | items es first =>
      have htext := h.formatted heval
      cases kind with
      | println => exact h.bind (htext es) fun _ => h.bind (h.print _) fun _ => h.pure _
      | print => exact h.bind (htext es) fun _ => h.bind (h.print _) fun _ => h.pure _
      | format => exact h.bind (htext es) fun _ => h.pure _
      | vec => exact h.bind (h.values heval es) fun _ => h.pure _
      | panic =>
        dsimp only
        split
        · exact h.fault _
        · exact h.bind (htext es) fun _ => h.fault _
      | assert =>
        cases es with
        | nil => exact h.fault _
        | cons condition rest =>
          refine h.bind (h.truth heval condition) fun holds => ?_
          cases holds with
          | true => exact h.pure _
          | false =>
            rw [if_neg Bool.false_ne_true, if_neg Bool.false_ne_true]
            split
            · exact h.fault _
            · exact h.bind (htext rest) fun _ => h.fault _

theorem binary (op : BinaryOp) (left right : Expr) :
    R (Run.binary eval op left right) (Run.binary eval' op left right) := by
  unfold Run.binary
  refine h.bind (heval left) fun l => ?_
  split
  · split
    · split
      · exact h.pure _
      · exact h.bind (h.truth heval right) fun _ => h.pure _
    · exact h.fault _
  · exact h.bind (heval right) fun _ => h.ofOutcome _

/-- An expression whose parts are evaluated in two ways, if names are called in related ways where it calls one. -/
theorem step (fuel : Nat) (e : Expr)
    (hcall : ∀ i s args span, e = .call (.name i s) args span →
      ∀ vs, R (Run.callName eval i.name vs) (Run.callName eval' i.name vs)) :
    R (Run.step calls fuel eval e) (Run.step calls fuel eval' e) := by
  have hbody (b : Block) : R (Run.loopBody (Run.block eval b)) (Run.loopBody (Run.block eval' b)) :=
    h.loopBody (h.block heval b)
  cases e with
  | literal l _ => exact h.ofOutcome _
  | name i _ => exact h.lookup i.name
  | path _ => exact h.fault _
  | paren e _ => exact heval e
  | reference e _ => exact heval e
  | unary op e _ => exact h.bind (heval e) fun _ => h.ofOutcome _
  | binary op l r _ => exact h.binary heval op l r
  | compound op l r _ =>
    exact h.bind (h.binary heval op l r) fun v => h.bind (h.assignTo l v) fun _ => h.pure _
  | assign l r _ => exact h.bind (heval r) fun v => h.bind (h.assignTo l v) fun _ => h.pure _
  | call f args _ =>
    cases f
    case name i _ => exact h.bind (h.values heval args) fun vs => hcall i _ args _ rfl vs
    all_goals exact h.fault _
  | method receiver name args _ =>
    exact h.bind (heval receiver) fun v => h.bind (h.values heval args) fun vs =>
      h.callMethod v name.name vs
  | invocation m _ => exact h.invocation heval m
  | ifThen condition yes no _ =>
    refine h.bind (h.truth heval condition) fun holds => ?_
    cases holds with
    | true => exact h.block heval yes
    | false =>
      cases no with
      | none => exact h.pure _
      | some e => exact heval e
  | block b _ => exact h.block heval b
  | whileLoop condition body _ =>
    refine h.bind (h.rounds ?_ fuel) fun _ => h.pure _
    refine h.bind (h.truth heval condition) fun holds => ?_
    cases holds with
    | true => exact hbody body
    | false => exact h.pure false
  | loop body _ => exact h.bind (h.rounds (hbody body) fuel) fun _ => h.pure _
  | forLoop p items body _ =>
    refine h.bind (h.bindingName p) fun n => ?_
    have hround (v : Value) : R (Run.inScope [(n, v)] (Run.loopBody (Run.block eval body)))
        (Run.inScope [(n, v)] (Run.loopBody (Run.block eval' body))) :=
      h.inScope [(n, v)] (h.weaken (hbody body))
    cases items
    case range first last closed _ =>
      cases first with
      | none => exact h.bind (h.fault _) fun _ => h.pure _
      | some first =>
        cases last with
        | none => exact h.bind (h.fault _) fun _ => h.pure _
        | some last =>
          refine h.bind (h.whole heval first) fun a => h.bind (h.whole heval last) fun b => ?_
          exact h.bind (h.overRange hround a.toInt _) fun _ => h.pure _
    all_goals
      refine h.bind (heval _) fun v => ?_
      cases v
      case list vs => exact h.bind (h.overList hround vs) fun _ => h.pure _
      all_goals exact h.bind (h.fault _) fun _ => h.pure _
  | breakLoop _ _ => exact h.leave _ fun _ => Exit.noConfusion
  | continueLoop _ => exact h.leave _ fun _ => Exit.noConfusion
  | returnFn value _ =>
    cases value with
    | none => exact h.leave _ fun _ => Exit.noConfusion
    | some e => exact h.bind (heval e) fun _ => h.leave _ fun _ => Exit.noConfusion
  | array items _ => exact h.bind (h.values heval items) fun _ => h.pure _
  | index target position _ =>
    exact h.bind (heval target) fun v => h.bind (h.whole heval position) fun n => h.ofOutcome _
  | cast e t _ => exact h.bind (heval e) fun _ => h.ofOutcome _
  | range _ _ _ _ => exact h.fault _
  | other _ _ => exact h.fault _

end

end Parallel

/-! ## Code of one kind -/

/-- A property that the steps of code have, and that stays when code is put together. Code that looks at
the state has it if it has it whatever it sees. -/
structure Stepwise {σ : Type} (calls : HostCalls σ) (P : ∀ {α : Type}, Run σ α → Prop) : Prop where
  pure : ∀ {α : Type} (a : α), P (Pure.pure a : Run σ α)
  leave : ∀ {α : Type} (e : Exit), P (throw e : Run σ α)
  bind : ∀ {α β : Type} {r : Run σ α} {f : α → Run σ β}, P r → (∀ a, P (f a)) → P (r >>= f)
  look : ∀ {α : Type} {f : Machine σ → Run σ α}, (∀ m m', m.LooksLike m' → f m = f m') →
    (∀ m, P (f m)) → P (get >>= f)
  declare : ∀ name v, P (declare name v : Run σ Unit)
  assign : ∀ name v, P (assign name v : Run σ Unit)
  print : ∀ text, P (print text : Run σ Unit)
  inScope : ∀ {α : Type} {r : Run σ α} (scope : Scope), P r → P (inScope scope r)
  loopBody : ∀ {r : Run σ Value}, P r → P (loopBody r)
  inFrame : ∀ {r : Run σ Value} (frame : Frame) (scope : Scope), P r → P (inFrame frame scope r)
  callHost : ∀ object method args, P (callHost calls object method args)

namespace Stepwise

variable {σ : Type} {calls : HostCalls σ} {P : ∀ {α : Type}, Run σ α → Prop} (h : Stepwise calls P)

include h

theorem fault {α : Type} (cause : FaultCause) : P (Run.fault cause : Run σ α) := by
  refine h.look (fun m m' hm => ?_) fun m => h.leave _
  rw [hm.frames]

/-- Code that has the property goes along with itself. -/
theorem parallel : Parallel calls (fun r r' => r = r' ∧ P r) (fun r r' => r = r' ∧ P r) := by
  have hbind {α β : Type} {r r' : Run σ α} {f f' : α → Run σ β} (hr : r = r' ∧ P r)
      (hf : ∀ a, f a = f' a ∧ P (f a)) : r >>= f = r' >>= f' ∧ P (r >>= f) := by
    obtain rfl : f = f' := funext fun a => (hf a).1
    obtain ⟨rfl, hr⟩ := hr
    exact ⟨rfl, h.bind hr fun a => (hf a).2⟩
  constructor
  case weaken => exact fun hr => hr
  case pure => exact fun a => ⟨rfl, h.pure a⟩
  case leave => exact fun e _ => ⟨rfl, h.leave e⟩
  case fault => exact fun cause => ⟨rfl, h.fault cause⟩
  case bind => exact hbind
  case bindWithin => exact hbind
  case look =>
    intro α f f' hlook hf
    obtain rfl : f = f' := funext fun m => (hf m).1
    exact ⟨rfl, h.look hlook fun m => (hf m).2⟩
  case declare => exact fun name v => ⟨rfl, h.declare name v⟩
  case assign => exact fun name v => ⟨rfl, h.assign name v⟩
  case print => exact fun text => ⟨rfl, h.print text⟩
  case inScope =>
    rintro α r _ scope ⟨rfl, hr⟩
    exact ⟨rfl, h.inScope scope hr⟩
  case loopBody =>
    rintro r _ ⟨rfl, hr⟩
    exact ⟨rfl, h.loopBody hr⟩
  case callHost => exact fun object method args => ⟨rfl, h.callHost object method args⟩

theorem invoke {eval : Evaluator σ} (heval : ∀ e, P (eval e)) (f : Function) (id : SnippetId) (args : List Value) :
    P (Run.invoke eval f id args) := by
  unfold Run.invoke
  refine h.look (fun m m' hm => ?_) fun m => ?_
  · rw [hm.frames]
  · -- whether too deep or called with the wrong arguments, what can still run is the body
    have hblock := (h.parallel.block (fun e => ⟨rfl, heval e⟩) f.body).2
    have hbody (scope : Scope) := h.inFrame ⟨f.name, id⟩ scope hblock
    dsimp only
    split
    · refine h.bind (h.fault _) fun _ => ?_
      split
      · exact h.bind (h.fault _) fun _ => hbody _
      · exact hbody _
    · split
      · exact h.bind (h.fault _) fun _ => hbody _
      · exact hbody _

/-- A stepwise property holds of every expression that is evaluated. -/
theorem eval (fuel : Nat) (e : Expr) : P (Run.eval calls fuel e) := by
  -- every step evaluates its parts with less fuel
  induction fuel generalizing e with
  | zero => exact h.leave _
  | succ fuel ih =>
    refine (h.parallel.step (fun e => ⟨rfl, ih e⟩) fuel e fun i _ _ _ _ vs => ?_).2
    rw [callName_eq]
    exact h.parallel.callWith (fun f id args => ⟨rfl, h.invoke ih f id args⟩) i.name vs

end Stepwise

end Run

end Notebook.Guest

import Notebook.Proofs.Guest.Balance
import Notebook.Proofs.Guest.Numbers
import Notebook.Proofs.Guest.Views

/-!
# Arithmetic is exact

Code comes to arithmetic on whole numbers in several ways (`Run.Reaches`): by an operator, also one that assigns,
by a built-in function, and by methods.  Whichever it is, the result is the exact one if it is a number of 64 bits,
and otherwise the code fails (`arithmetic_is_exact`).  No number is ever taken for another one.
-/

namespace Notebook.Guest
open Notebook.Syntax

/-! ## What is worked out -/

/-- An operation on whole numbers, with the numbers that it is applied to. -/
inductive Arithmetic
  | add (a b : Int64)
  | sub (a b : Int64)
  | mul (a b : Int64)
  | div (a b : Int64)
  | rem (a b : Int64)
  | neg (a : Int64)
  | abs (a : Int64)
  | pow (a n : Int64)
  | sum (ns : List Int64)

namespace Arithmetic

/-- The operation that an operator of arithmetic stands for. -/
def ofOperator? (op : BinaryOp) (a b : Int64) : Option Arithmetic :=
  match op with
  | .add => some (add a b)
  | .sub => some (sub a b)
  | .mul => some (mul a b)
  | .div => some (div a b)
  | .rem => some (rem a b)
  | _ => none

/-- The exact value, among all whole numbers. There is none if the divisor is zero or the exponent is negative. -/
def IsValue : Arithmetic → Int → Prop
  | add a b, v => v = a.toInt + b.toInt
  | sub a b, v => v = a.toInt - b.toInt
  | mul a b, v => v = a.toInt * b.toInt
  | div a b, v => ∃ r, Integer.Truncates a.toInt b.toInt v r
  | rem a b, v => ∃ q, Integer.Truncates a.toInt b.toInt q v
  | neg a, v => v = -a.toInt
  | abs a, v => v = a.toInt.natAbs
  | pow a n, v => 0 ≤ n.toInt ∧ v = a.toInt ^ n.toInt.toNat
  | sum ns, v => v = (ns.map Int64.toInt).sum

/-- The operation fails whatever its exact value is: it is a remainder of the least number by -1, a power whose
exponent has more than 32 bits, or a sum that leaves the range on the way. -/
def IsBarred : Arithmetic → Prop
  | rem a b => a.toInt = Integer.least ∧ b.toInt = -1
  | pow _ n => 2 ^ 32 ≤ n.toInt
  | sum ns => ∃ p, p <+: ns ∧ ¬ Integer.Fits (p.map Int64.toInt).sum
  | _ => False

/-- The exact value, if it is a result that there can be. -/
def HasResult (c : Arithmetic) (v : Int) : Prop := c.IsValue v ∧ Integer.Fits v ∧ ¬ c.IsBarred

/-- The number that the operation comes to. -/
def result? : Arithmetic → Option Int64
  | add a b => Integer.add? a b
  | sub a b => Integer.sub? a b
  | mul a b => Integer.mul? a b
  | div a b => Integer.div? a b
  | rem a b => Integer.rem? a b
  | neg a => Integer.neg? a
  | abs a => Integer.abs? a
  | pow a n => if 0 ≤ n.toInt && n.toInt < 4294967296 then Integer.pow? a n.toInt.toNat else none
  | sum ns => Integer.sumFrom? 0 ns

/-- What the operation comes to in the guest. -/
def outcome : Arithmetic → Outcome Value
  | add a b => Value.binary .add (.int a) (.int b)
  | sub a b => Value.binary .sub (.int a) (.int b)
  | mul a b => Value.binary .mul (.int a) (.int b)
  | div a b => Value.binary .div (.int a) (.int b)
  | rem a b => Value.binary .rem (.int a) (.int b)
  | neg a => (Value.int a).unary .neg
  | abs a => Value.builtin "abs" [.int a]
  | pow a n => (Value.int a).method "pow" [.int n]
  | sum ns => Value.sum (ns.map .int)

theorem of_ofOperator? {op : BinaryOp} {a b : Int64} {c : Arithmetic} (h : ofOperator? op a b = some c) :
    op.opClass = .arith ∧ c.outcome = Value.binary op (.int a) (.int b) := by
  cases op <;> cases h <;> exact ⟨rfl, rfl⟩

theorem hasResult_toInt {c : Arithmetic} {r : Int64} : c.HasResult r.toInt ↔ c.IsValue r.toInt ∧ ¬ c.IsBarred :=
  and_congr_right fun _ => and_iff_right (Integer.fits_toInt r)

/-- The number that an operation comes to is its exact value. -/
theorem result?_eq_some_iff (c : Arithmetic) (r : Int64) : c.result? = some r ↔ c.HasResult r.toInt := by
  rw [hasResult_toInt]
  cases c with
  | add a b | sub a b | mul a b | neg a | abs a =>
    exact Integer.fit?_eq_some_iff.trans (and_iff_left not_false).symm
  | div a b => exact Integer.div?_eq_some_iff.trans (and_iff_left not_false).symm
  | rem a b => exact Integer.rem?_eq_some_iff
  | pow a n =>
    show (if 0 ≤ n.toInt && n.toInt < 4294967296 then Integer.pow? a n.toInt.toNat else none) = some r ↔
      (0 ≤ n.toInt ∧ r.toInt = a.toInt ^ n.toInt.toNat) ∧ ¬ 2 ^ 32 ≤ n.toInt
    split
    · rename_i hn
      obtain ⟨hnonneg, hlt⟩ : 0 ≤ n.toInt ∧ n.toInt < 4294967296 := by simpa using hn
      rw [Integer.pow?_eq_fit?, Integer.fit?_eq_some_iff, and_iff_right hnonneg, and_iff_left (by omega)]
    · rename_i hn
      refine ⟨fun h => (by cases h), fun h => absurd ?_ hn⟩
      have hlt : n.toInt < 4294967296 := by omega
      simpa using And.intro h.1.1 hlt
  | sum ns =>
    refine Integer.sumFrom?_eq_some_iff.trans (and_congr ?_ ?_)
    · rw [Int64.toInt_zero, Int.zero_add]
      rfl
    · simp only [Int64.toInt_zero, Int.zero_add, IsBarred, not_exists, not_and, not_not]

theorem ints?_ints (ns : List Int64) : Value.ints? (ns.map .int) = some ns := by
  unfold Value.ints?
  induction ns with
  | nil => rfl
  | cons n ns ih =>
    rw [List.map_cons, List.mapM_cons, ih]
    rfl

/-- The sum of a list of whole numbers adds them up from zero on. -/
theorem sum_ints (ns : List Int64) :
    Value.sum (ns.map .int) = Value.ofInt? (.overflow .add) (Integer.sumFrom? 0 ns) := by
  unfold Value.sum
  rw [ints?_ints]

/-- Where there is no result, there is a fault of arithmetic. -/
theorem exists_outcome_eq (c : Arithmetic) :
    ∃ cause : FaultCause, cause.kind = .arithmetic ∧ c.outcome = Value.ofInt? cause c.result? := by
  cases c with
  | add a b => exact ⟨.overflow .add, rfl, rfl⟩
  | sub a b => exact ⟨.overflow .sub, rfl, rfl⟩
  | mul a b => exact ⟨.overflow .mul, rfl, rfl⟩
  | div a b =>
    -- the divisor is looked at first, so that the fault tells of it
    by_cases hb : b = 0
    · subst hb
      exact ⟨.divisionByZero, rfl, rfl⟩
    · refine ⟨.overflow .div, rfl, ?_⟩
      show Value.intArith .div a b = _
      simp [Value.intArith, hb, result?]
  | rem a b =>
    by_cases hb : b = 0
    · subst hb
      exact ⟨.remainderByZero, rfl, rfl⟩
    · refine ⟨.overflow .rem, rfl, ?_⟩
      show Value.intArith .rem a b = _
      simp [Value.intArith, hb, result?]
  | neg a => exact ⟨.negation, rfl, rfl⟩
  | abs a => exact ⟨.negation, rfl, rfl⟩
  | pow a n => exact ⟨.overflow .mul, rfl, rfl⟩
  | sum ns => exact ⟨.overflow .add, rfl, sum_ints ns⟩

/-- An operation comes to its exact value, if that can be a result. -/
theorem HasResult.exists_outcome {c : Arithmetic} {v : Int} (h : c.HasResult v) :
    ∃ n : Int64, n.toInt = v ∧ c.outcome = .ok (.int n) := by
  have hv := h.2.1.toInt_ofInt
  obtain ⟨cause, -, houtcome⟩ := c.exists_outcome_eq
  refine ⟨Int64.ofInt v, hv, ?_⟩
  rw [houtcome, (c.result?_eq_some_iff _).2 (by rwa [hv])]
  rfl

theorem exists_fault_of_not_hasResult {c : Arithmetic} (h : ∀ v, ¬ c.HasResult v) :
    ∃ cause : FaultCause, cause.kind = .arithmetic ∧ c.outcome = .error cause := by
  obtain ⟨cause, hkind, houtcome⟩ := c.exists_outcome_eq
  have hnone : c.result? = none :=
    Option.eq_none_iff_forall_ne_some.2 fun n hn => h _ ((c.result?_eq_some_iff n).1 hn)
  rw [hnone] at houtcome
  exact ⟨cause, hkind, houtcome⟩

end Arithmetic

/-! ## Variables -/

/-- The name stands for a variable, be it a local one or one of the session. -/
def Machine.HasVariable {σ : Type} (m : Machine σ) (n : String) : Prop :=
  (m.scopes.findSome? fun scope => scope.get? n).isSome = true ∨ ∃ ty, m.store.globals n = some (.variable ty)

/-- No function of the session is called by the name: there is none, or a local name stands before it. -/
def Machine.LacksFunction {σ : Type} (m : Machine σ) (n : String) : Prop :=
  (m.scopes.findSome? fun scope => scope.get? n).isSome = true ∨ m.store.callee? n = none

theorem Store.exists_variable_of_read? {s : Store} {n : String} {a : Int64} (h : s.read? n = some (.int a)) :
    ∃ ty, s.globals n = some (.variable ty) := by
  cases hbound : s.bound? n with
  | none =>
    -- a host object is no number
    rw [read?_of_unbound hbound] at h
    obtain ⟨object, -, hobject⟩ := Option.map_eq_some_iff.1 h
    cases hobject
  | some r =>
    rw [read?_of_bound? hbound] at h
    cases hdefinition : r.definition <;> rw [hdefinition] at h <;> cases h
    rename_i ty
    exact ⟨ty, globals_eq_variable_iff.2 ⟨r, _, hbound, hdefinition⟩⟩

/-- A variable of the session has the value that it has been given. -/
theorem Store.exists_write?_of_globals {s : Store} {n : String} {ty : Ty} (h : s.globals n = some (.variable ty))
    (v : Value) : ∃ t, s.write? n v = some t ∧ t.read? n = some v := by
  obtain ⟨r, w, hbound, hdefinition⟩ := globals_eq_variable_iff.1 h
  obtain ⟨id, hid, hr, hdefined⟩ := bound?_eq_some_iff.1 hbound
  refine ⟨s.update id fun r => { r with definition := .variable ty v }, ?_, ?_⟩
  · simp only [write?, hid, hr, Option.bind_eq_bind, Option.bind_some, hdefinition]
  · have hbound' : (s.update id fun r => { r with definition := .variable ty v }).bound? n =
        some { r with definition := .variable ty v } := by
      refine bound?_eq_some_iff.2 ⟨id, ?_, record?_update_self _ hr, hdefined⟩
      rw [binding?, bindings_update]
      exact hid
    rw [read?_of_bound? hbound']
    rfl

theorem Machine.isSome_local_iff {σ : Type} (m : Machine σ) (n : String) :
    (m.scopes.findSome? fun scope => scope.get? n).isSome = true ↔ ∃ names ∈ m.names, n ∈ names := by
  unfold Machine.names
  simp only [List.findSome?_isSome_iff, Table.isSome_get?_iff]
  constructor
  · rintro ⟨scope, hscope, hn⟩
    exact ⟨_, List.mem_map_of_mem hscope, hn⟩
  · rintro ⟨names, hnames, hn⟩
    obtain ⟨scope, hscope, rfl⟩ := List.mem_map.1 hnames
    exact ⟨scope, hscope, hn⟩

/-- A local variable has the value that it has been given. -/
theorem local_of_assignLocal? {scopes scopes' : List Scope} {n : String} {v : Value}
    (h : assignLocal? n v scopes = some scopes') : (scopes'.findSome? fun scope => scope.get? n) = some v := by
  induction scopes generalizing scopes' with
  | nil => cases h
  | cons scope outer ih =>
    unfold assignLocal? at h
    split at h
    · rename_i scope' hscope
      cases h
      rw [List.findSome?_cons, Setting.get?_assign? hscope, if_pos rfl]
    · rename_i hnone
      obtain ⟨outer', houter, rfl⟩ := Option.map_eq_some_iff.1 h
      rw [List.findSome?_cons, Setting.assign?_eq_none.1 hnone]
      exact ih houter

namespace Run

variable {σ α β : Type}

/-- The code has a value, and leaves a state. -/
def ComesTo (r : Run σ α) (m : Machine σ) (a : α) (m' : Machine σ) : Prop := r.run.run m = (.ok a, m')

theorem ComesTo.bind_run {r : Run σ α} {m m' : Machine σ} {a : α} (h : r.ComesTo m a m') (f : α → Run σ β) :
    (r >>= f).run.run m = (f a).run.run m' := by
  rw [run_bind, h]

theorem ComesTo.values {eval : Evaluator σ} {e : Expr} {m m' : Machine σ} {v : Value} (h : (eval e).ComesTo m v m') :
    (values eval [e]).ComesTo m [v] m' := h.bind_run _

/-- A variable can be given any value, and stands for it then. -/
theorem exists_assign_of_hasVariable {m : Machine σ} {n : String} (h : m.HasVariable n) (v : Value) :
    ∃ m', (assign n v).ComesTo m () m' ∧ (lookup n).ComesTo m' v m' := by
  unfold ComesTo
  simp only [assign_run, lookup_run]
  cases hassign : assignLocal? n v m.scopes with
  | some scopes =>
    refine ⟨{ m with scopes }, rfl, ?_⟩
    rw [local_of_assignLocal? hassign]
  | none =>
    -- no scope has the name, so the variable is one of the session
    have hnone := Setting.assignLocal?_eq_none hassign
    obtain ⟨ty, hty⟩ := h.resolve_left (by rw [hnone]; exact Bool.false_ne_true)
    obtain ⟨store, hwrite, hread⟩ := Store.exists_write?_of_globals hty v
    refine ⟨{ m with store }, by rw [hwrite], ?_⟩
    dsimp only
    rw [hnone, hread]

/-- Code leaves a variable a variable. -/
theorem ComesTo.hasVariable {calls : HostCalls σ} {fuel : Nat} {e : Expr} {m m' : Machine σ} {v : Value} {n : String}
    (h : (eval calls fuel e).ComesTo m v m') (hn : m.HasVariable n) : m'.HasVariable n := by
  have hnames := (balances_eval calls (throw .outOfFuel) fuel e m).names
  have hglobals := (runs_eval calls fuel e m).sameBut.globals_eq
  rw [h] at hnames hglobals
  dsimp only [id] at hnames hglobals
  unfold Machine.HasVariable at hn ⊢
  rwa [Machine.isSome_local_iff, hnames, ← Machine.isSome_local_iff, hglobals]

/-- A name under which there is a number stands for a variable. -/
theorem hasVariable_of_name {calls : HostCalls σ} {fuel : Nat} {i : Ident} {span : Text.Span} {m m' : Machine σ}
    {a : Int64} (h : (eval calls fuel (.name i span)).ComesTo m (.int a) m') : m'.HasVariable i.name := by
  cases fuel with
  | zero => cases h
  | succ fuel =>
    have hrun : (lookup i.name).run.run m = (.ok (.int a), m') := h
    rw [lookup_run] at hrun
    split at hrun
    · rename_i v hlocal
      cases hrun
      exact .inl (by rw [hlocal]; rfl)
    · split at hrun
      · rename_i v hread
        cases hrun
        exact .inr (Store.exists_variable_of_read? hread)
      · cases hrun

/-! ## How arithmetic is reached -/

/-- The expression, evaluated from the state `m` on, is an operation on whole numbers: its parts have come to these
numbers, and to the state `m'`. If the result is to be kept under a name, then that name is given. -/
inductive Reaches (calls : HostCalls σ) (fuel : Nat) (m : Machine σ) :
    Expr → Arithmetic → Option String → Machine σ → Prop
  | binary {op : BinaryOp} {l r : Expr} {span : Text.Span} {a b : Int64} {c : Arithmetic} {m₁ m' : Machine σ}
      (hop : Arithmetic.ofOperator? op a b = some c) (hl : (eval calls fuel l).ComesTo m (.int a) m₁)
      (hr : (eval calls fuel r).ComesTo m₁ (.int b) m') : Reaches calls fuel m (.binary op l r span) c none m'
  /-- An operator that assigns. Only a name can be assigned. -/
  | compound {op : BinaryOp} {i : Ident} {place span : Text.Span} {r : Expr} {a b : Int64} {c : Arithmetic}
      {m₁ m' : Machine σ} (hop : Arithmetic.ofOperator? op a b = some c)
      (hl : (eval calls fuel (.name i place)).ComesTo m (.int a) m₁)
      (hr : (eval calls fuel r).ComesTo m₁ (.int b) m') :
      Reaches calls fuel m (.compound op (.name i place) r span) c (some i.name) m'
  | neg {e : Expr} {span : Text.Span} {a : Int64} {m' : Machine σ} (he : (eval calls fuel e).ComesTo m (.int a) m') :
      Reaches calls fuel m (.unary .neg e span) (.neg a) none m'
  /-- A call of the built-in function. No function of the session is called by that name. -/
  | absCall {e : Expr} {place nameSpan span : Text.Span} {a : Int64} {m' : Machine σ}
      (he : (eval calls fuel e).ComesTo m (.int a) m')
      (hfree : m'.LacksFunction "abs") :
      Reaches calls fuel m (.call (.name ⟨"abs", nameSpan⟩ place) [e] span) (.abs a) none m'
  | abs {e : Expr} {nameSpan span : Text.Span} {a : Int64} {m' : Machine σ}
      (he : (eval calls fuel e).ComesTo m (.int a) m') :
      Reaches calls fuel m (.method e ⟨"abs", nameSpan⟩ [] span) (.abs a) none m'
  | pow {e exponent : Expr} {nameSpan span : Text.Span} {a n : Int64} {m₁ m' : Machine σ}
      (he : (eval calls fuel e).ComesTo m (.int a) m₁) (hn : (eval calls fuel exponent).ComesTo m₁ (.int n) m') :
      Reaches calls fuel m (.method e ⟨"pow", nameSpan⟩ [exponent] span) (.pow a n) none m'
  | sum {e : Expr} {nameSpan span : Text.Span} {ns : List Int64} {m' : Machine σ}
      (he : (eval calls fuel e).ComesTo m (.list (ns.map .int)) m') :
      Reaches calls fuel m (.method e ⟨"sum", nameSpan⟩ [] span) (.sum ns) none m'

/-- What is done with a result: it is the value, or a name is given it. -/
def deliver (target : Option String) (v : Value) : Run σ Value :=
  match target with
  | none => return v
  | some n => do
    assign n v
    return .unit

theorem binary_run {eval : Evaluator σ} {op : BinaryOp} (hop : op.opClass = .arith) {l r : Expr}
    {m m₁ m' : Machine σ} {v w : Value} (hl : (eval l).ComesTo m v m₁) (hr : (eval r).ComesTo m₁ w m') :
    (binary eval op l r).run.run m = (ofOutcome (v.binary op w)).run.run m' := by
  unfold binary
  rw [hl.bind_run, if_neg (by rw [hop]; decide), hr.bind_run]

theorem callName_builtin_run {eval : Evaluator σ} {m : Machine σ} {name : String} (h : m.LacksFunction name)
    (hname : (Builtin.find? name).isSome = true) (args : List Value) :
    (callName eval name args).run.run m = (ofOutcome (Value.builtin name args)).run.run m := by
  have hcallee : (if (m.scopes.findSome? fun scope => scope.get? name).isSome = true then none
      else m.store.callee? name) = none := by
    split
    · rfl
    · exact h.resolve_left ‹_›
  unfold callName
  rw [local?_bind, get_bind]
  dsimp only
  rw [hcallee]
  exact congrArg (fun r : Run σ Value => r.run.run m) (if_pos hname)

/-- Whichever way an operation is reached, the code comes to its outcome and goes on from there. -/
theorem Reaches.eval_run {calls : HostCalls σ} {fuel : Nat} {m m' : Machine σ} {e : Expr} {c : Arithmetic}
    {target : Option String} (h : Reaches calls fuel m e c target m') :
    (eval calls (fuel + 1) e).run.run m = (ofOutcome c.outcome >>= deliver target).run.run m' := by
  -- without a name to be kept under, the outcome is all that is left
  have hpure (o : Outcome Value) : (ofOutcome o >>= deliver none : Run σ Value) = ofOutcome o := bind_pure _
  cases h with
  | binary hop hl hr =>
    obtain ⟨hclass, houtcome⟩ := Arithmetic.of_ofOperator? hop
    rw [hpure, houtcome]
    exact binary_run hclass hl hr
  | compound hop hl hr =>
    obtain ⟨hclass, houtcome⟩ := Arithmetic.of_ofOperator? hop
    refine (run_bind ..).trans ?_
    rw [binary_run hclass hl hr, run_bind, houtcome]
    rfl
  | neg he =>
    rw [hpure]
    exact he.bind_run _
  | absCall he hfree =>
    rw [hpure]
    refine (he.values.bind_run _).trans ?_
    exact callName_builtin_run hfree (by decide) [.int _]
  | abs he =>
    rw [hpure]
    exact he.bind_run _
  | pow he hn =>
    rw [hpure]
    refine (he.bind_run _).trans ?_
    exact hn.values.bind_run _
  | sum he =>
    rw [hpure]
    exact he.bind_run _

/-- What the code has come to is the value or, if it was to be kept under a name, the name stands for it now. The
state is `m'` otherwise. -/
def Delivers (target : Option String) (v : Value) (m' : Machine σ) (x : Except Exit Value × Machine σ) : Prop :=
  match target with
  | none => x = (.ok v, m')
  | some n => ∃ after, x = (.ok .unit, after) ∧ (assign n v).ComesTo m' () after ∧ (lookup n).ComesTo after v after

theorem Delivers.inj {target : Option String} {v w : Value} {m' : Machine σ} {x : Except Exit Value × Machine σ}
    (hv : Delivers target v m' x) (hw : Delivers target w m' x) : v = w := by
  cases target with
  | none =>
    cases (Eq.symm hv).trans hw
    rfl
  | some n =>
    obtain ⟨after, hx, -, hread⟩ := hv
    obtain ⟨after', hx', -, hread'⟩ := hw
    cases hx.symm.trans hx'
    cases (Eq.symm hread).trans hread'
    rfl

theorem Delivers.not_fault {target : Option String} {v : Value} {m' m'' : Machine σ} {f : Fault} :
    ¬ Delivers target v m' (.error (.fault f), m'') := by
  cases target with
  | none => exact fun h => by cases h
  | some n =>
    rintro ⟨after, hx, -⟩
    cases hx

section

variable {calls : HostCalls σ} {fuel : Nat} {m m' : Machine σ} {e : Expr} {c : Arithmetic} {target : Option String}

/-- Where an operator assigns, there is a variable to be assigned. -/
theorem Reaches.hasVariable {n : String} (h : Reaches calls fuel m e c (some n) m') : m'.HasVariable n := by
  cases h with
  | compound _ hl hr => exact hr.hasVariable (hasVariable_of_name hl)

theorem Reaches.delivers (h : Reaches calls fuel m e c target m') (v : Value) :
    Delivers target v m' ((deliver target v).run.run m') := by
  cases target with
  | none => rfl
  | some n =>
    obtain ⟨after, hassign, hread⟩ := exists_assign_of_hasVariable h.hasVariable v
    exact ⟨after, hassign.bind_run _, hassign, hread⟩

end

end Run

/-- Arithmetic on whole numbers is exact, whichever way code comes to it. If the exact value can be a result then it
is the result, and where an operator assigns it the variable stands for it. Otherwise the code fails with a fault of
arithmetic and changes nothing more. So there is no other number that ever comes out. -/
theorem arithmetic_is_exact {σ : Type} {calls : HostCalls σ} {fuel : Nat} {m m' : Machine σ} {e : Expr}
    {c : Arithmetic} {target : Option String} (h : Run.Reaches calls fuel m e c target m') :
    let after := (Run.eval calls (fuel + 1) e).run.run m
    (∀ v, c.HasResult v → ∃ n : Int64, n.toInt = v ∧ Run.Delivers target (.int n) m' after) ∧
      ((∀ v, ¬ c.HasResult v) →
        ∃ f : Fault, f.cause.kind.name = "ArithmeticError" ∧ after = (.error (.fault f), m')) ∧
      ∀ n : Int64, Run.Delivers target (.int n) m' after → c.HasResult n.toInt := by
  intro after
  have hafter : after = (Run.ofOutcome c.outcome >>= Run.deliver target).run.run m' := h.eval_run
  have hexact (v : Int) (hv : c.HasResult v) : ∃ n : Int64, n.toInt = v ∧ Run.Delivers target (.int n) m' after := by
    obtain ⟨n, hn, houtcome⟩ := hv.exists_outcome
    refine ⟨n, hn, ?_⟩
    rw [hafter, houtcome]
    exact h.delivers (.int n)
  have hfault (hnone : ∀ v, ¬ c.HasResult v) :
      ∃ f : Fault, f.cause.kind.name = "ArithmeticError" ∧ after = (.error (.fault f), m') := by
    obtain ⟨cause, hkind, houtcome⟩ := Arithmetic.exists_fault_of_not_hasResult hnone
    refine ⟨⟨cause, m'.frames.map Frame.label ++ bridgeFrames⟩, by rw [hkind]; rfl, ?_⟩
    rw [hafter, houtcome]
    rfl
  -- a number that comes out is the exact value, as the code comes to one thing only
  refine ⟨hexact, hfault, fun n hn => ?_⟩
  by_cases hresult : ∃ v, c.HasResult v
  · obtain ⟨v, hv⟩ := hresult
    obtain ⟨k, rfl, hk⟩ := hexact v hv
    cases hk.inj hn
    exact hv
  · obtain ⟨f, -, hf⟩ := hfault (not_exists.1 hresult)
    rw [hf] at hn
    exact absurd hn Run.Delivers.not_fault

/-- A state in which `n` is the least number. -/
def leastMachine : Machine Unit where
  frames := []
  scopes := [[("n", .int (-9223372036854775808))]]
  store := {}
  world := ()

theorem leastNumber_is_exact :
    let n : Expr := .name ⟨"n", default⟩ default
    let one : Expr := .literal (.integer 1 "") default
    let rest : Expr := .compound .rem n (.unary .neg one default) default
    let next : Expr := .compound .add n one default
    Run.Reaches errorCalls 2 leastMachine rest (.rem (-9223372036854775808) (-1)) (some "n") leastMachine ∧
      (∀ v, ¬ (Arithmetic.rem (-9223372036854775808) (-1)).HasResult v) ∧
      (∃ f : Fault, f.cause.kind.name = "ArithmeticError" ∧
        (Run.eval errorCalls 3 rest).run.run leastMachine = (.error (.fault f), leastMachine)) ∧
      Run.Reaches errorCalls 2 leastMachine next (.add (-9223372036854775808) 1) (some "n") leastMachine ∧
      ∃ k : Int64, k.toInt = -9223372036854775807 ∧
        Run.Delivers (some "n") (.int k) leastMachine ((Run.eval errorCalls 3 next).run.run leastMachine) := by
  intro n one rest next
  have hrest : Run.Reaches errorCalls 2 leastMachine rest (.rem (-9223372036854775808) (-1)) (some "n")
    leastMachine := .compound rfl rfl rfl
  have hnext : Run.Reaches errorCalls 2 leastMachine next (.add (-9223372036854775808) 1) (some "n")
    leastMachine := .compound rfl rfl rfl
  have hnone : ∀ v, ¬ (Arithmetic.rem (-9223372036854775808) (-1)).HasResult v :=
    fun v hv => hv.2.2 ⟨by decide, by decide⟩
  have hvalue : (Arithmetic.add (-9223372036854775808) 1).HasResult (-9223372036854775807) :=
    ⟨rfl, by decide, not_false⟩
  exact ⟨hrest, hnone, (arithmetic_is_exact hrest).2.1 hnone, hnext, (arithmetic_is_exact hnext).1 _ hvalue⟩

end Notebook.Guest

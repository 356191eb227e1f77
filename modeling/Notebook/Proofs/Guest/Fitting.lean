import Mathlib.Data.List.Forall2
import Notebook.Guest.Check
import Notebook.Guest.Operation

/-!
# Operations on values that fit their types

The check and the evaluation decide by separate tables what an operator, a built-in function or a
built-in method does.  Here the two are held against each other: applied to values that fit their types, an
operation has a value that fits the type that the check gives it, and where all types are known it does
not fail because of a type.
-/

namespace Notebook.Guest
open Notebook.Text Notebook.Syntax

/-- What is asked of code: that the types of its values are true, or that it does not fail because of a
type. -/
inductive Aim
  | truth
  | safety
  deriving DecidableEq

/-- Types whose values come from outside: a variable of such a type holds the empty tuple if its initial
value could not be had. -/
def Ty.isNamed : Ty → Bool
  | host _ | struct _ => true
  | _ => false

/-- The value may stand where the type is expected.  To be safe, code may have any value where the empty
tuple is expected, since nothing is done with such a value. -/
def Ty.Fits (aim : Aim) (ty : Ty) (v : Value) : Prop :=
  ty = .unknown ∨ Ty.ofValue v = ty ∨ (ty.isNamed = true ∧ v = .unit) ∨ (aim = .safety ∧ ty = .unit)

/-- Types that decide what kind of value there is. -/
def Ty.isPlain : Ty → Bool
  | bool | int | float | str | list => true
  | _ => false

/-- The fault is one of those that a check of types is there to prevent. -/
def FaultCause.IsTypeError (cause : FaultCause) : Prop :=
  cause.kind = .wrongType ∨ cause.kind = .unsupported

instance (cause : FaultCause) : Decidable cause.IsTypeError :=
  inferInstanceAs (Decidable (_ ∨ _))

/-- What an operation comes to that is of a type. -/
structure Outcome.Meets (aim : Aim) (ty : Ty) (o : Outcome Value) : Prop where
  value : ∀ v, o = .ok v → ty.Fits aim v
  fault : aim = .safety → ∀ cause, o = .error cause → ¬ cause.IsTypeError

section

variable {aim : Aim}

/-! ## Values that fit -/

theorem fits_unknown (v : Value) : Ty.unknown.Fits aim v := .inl rfl

theorem fits_ofValue (v : Value) : (Ty.ofValue v).Fits aim v := .inr (.inl rfl)

theorem fits_unit : Ty.unit.Fits aim .unit := fits_ofValue .unit

theorem Ty.Fits.ofValue_eq {ty : Ty} {v : Value} (h : ty.Fits aim v) (hplain : ty.isPlain = true) :
    Ty.ofValue v = ty := by
  rcases h with rfl | h | ⟨hnamed, -⟩ | ⟨-, rfl⟩
  · cases hplain
  · exact h
  · cases ty <;> cases hplain <;> cases hnamed
  · cases hplain

theorem Ty.Fits.eq_bool {v : Value} (h : Ty.bool.Fits aim v) : ∃ b, v = .bool b := by
  have hv := h.ofValue_eq rfl
  cases v <;> first | exact ⟨_, rfl⟩ | cases hv

theorem Ty.Fits.eq_int {v : Value} (h : Ty.int.Fits aim v) : ∃ n, v = .int n := by
  have hv := h.ofValue_eq rfl
  cases v <;> first | exact ⟨_, rfl⟩ | cases hv

theorem Ty.Fits.eq_float {v : Value} (h : Ty.float.Fits aim v) : ∃ x, v = .float x := by
  have hv := h.ofValue_eq rfl
  cases v <;> first | exact ⟨_, rfl⟩ | cases hv

theorem Ty.Fits.eq_str {v : Value} (h : Ty.str.Fits aim v) : ∃ s, v = .str s := by
  have hv := h.ofValue_eq rfl
  cases v <;> first | exact ⟨_, rfl⟩ | cases hv

theorem Ty.Fits.eq_list {v : Value} (h : Ty.list.Fits aim v) : ∃ items, v = .list items := by
  have hv := h.ofValue_eq rfl
  cases v <;> first | exact ⟨_, rfl⟩ | cases hv

theorem eq_of_compatible {a b : Ty} (h : a.compatible b = true) (ha : a ≠ .unknown) (hb : b ≠ .unknown) :
    a = b := by
  simp only [Ty.compatible, Bool.or_eq_true, decide_eq_true_eq] at h
  exact (h.resolve_right hb).resolve_right ha

/-! ## Outcomes -/

theorem meets_ok {ty : Ty} {v : Value} (h : ty.Fits aim v) : Outcome.Meets aim ty (.ok v) :=
  ⟨fun _ hv => Except.ok.inj hv ▸ h, fun _ _ hc => (by cases hc)⟩

theorem meets_error {ty : Ty} {cause : FaultCause} (h : aim = .safety → ¬ cause.IsTypeError) :
    Outcome.Meets aim ty (.error cause) :=
  ⟨fun _ hv => (by cases hv), fun hsafe _ hc => Except.error.inj hc ▸ h hsafe⟩

theorem meets_unknown {o : Outcome Value} (h : aim ≠ .safety) : Outcome.Meets aim .unknown o :=
  ⟨fun v _ => fits_unknown v, fun hsafe => absurd hsafe h⟩

theorem meets_ofInt? {cause : FaultCause} (h : ¬ cause.IsTypeError) (n : Option Int64) :
    Outcome.Meets aim .int (Value.ofInt? cause n) := by
  cases n with
  | none => exact meets_error fun _ => h
  | some n => exact meets_ok (fits_ofValue (.int n))

theorem meets_literal {l : Literal} {span : Span} {st t : CheckState} {ty : Ty}
    (h : (Check.literal l span).run st = .ok (ty, t)) : Outcome.Meets aim ty (Value.ofLiteral l) := by
  cases l with
  | integer n suffix =>
    change Except.ok (if suffix = "f32" || suffix = "f64" then Ty.float else Ty.int, st) = _ at h
    cases h
    simp only [Value.ofLiteral]
    split
    · exact meets_ok (fits_ofValue (.float _))
    · exact meets_ofInt? (by decide) _
  | decimal d =>
    cases h
    exact meets_ok (fits_ofValue (.float _))
  | text cs =>
    cases h
    exact meets_ok (fits_ofValue (.str _))
  | truth b =>
    cases h
    exact meets_ok (fits_ofValue (.bool b))
  | other => cases h

/-! ## Operators -/

theorem ofInt?_ok {cause : FaultCause} {n : Option Int64} {v : Value}
    (h : Value.ofInt? cause n = .ok v) : ∃ m, v = .int m := by
  cases n with
  | none => cases h
  | some m => exact ⟨m, (Except.ok.inj h).symm⟩

theorem intArith_ok {op : BinaryOp} {a b : Int64} {v : Value} (h : Value.intArith op a b = .ok v) :
    ∃ n, v = .int n := by
  unfold Value.intArith at h
  split at h
  · cases h
  · split at h
    · cases h
    · exact ofInt?_ok h

theorem meets_intArith (op : BinaryOp) (a b : Int64) : Outcome.Meets aim .int (Value.intArith op a b) := by
  unfold Value.intArith
  split
  · exact meets_error fun _ => by decide
  · split
    · exact meets_error fun _ => by decide
    · exact meets_ofInt? (by rintro (h | h) <;> cases h) _

/-- The type of an operator that has been checked. -/
theorem unary_checked {op : UnaryOp} {ty ty' : Ty} {span : Span} {st t : CheckState}
    (h : (Check.unary op ty span).run st = .ok (ty', t)) :
    ty' = ty ∧ (op = .neg → ty = .int ∨ ty = .float ∨ ty = .unknown) ∧
      (op = .not → ty = .bool ∨ ty = .int ∨ ty = .unknown) := by
  unfold Check.unary at h
  extract_lets ok at h
  by_cases hok : ok = true
  · rw [if_pos hok] at h
    cases h
    refine ⟨rfl, ?_, ?_⟩
    · rintro rfl
      simpa [ok] using hok
    · rintro rfl
      simpa [ok] using hok
  · rw [if_neg hok] at h
    cases h

theorem meets_unary {op : UnaryOp} {ty ty' : Ty} {span : Span} {st t : CheckState}
    (h : (Check.unary op ty span).run st = .ok (ty', t)) {v : Value} (hv : ty.Fits aim v)
    (hsafe : aim = .safety → ty ≠ .unknown) : Outcome.Meets aim ty' (v.unary op) := by
  obtain ⟨rfl, hneg, hnot⟩ := unary_checked h
  cases op with
  | neg =>
    rcases hneg rfl with rfl | rfl | rfl
    · obtain ⟨n, rfl⟩ := hv.eq_int
      exact meets_ofInt? (by decide) _
    · obtain ⟨x, rfl⟩ := hv.eq_float
      exact meets_ok (fits_ofValue (.float _))
    · exact meets_unknown fun h => hsafe h rfl
  | not =>
    rcases hnot rfl with rfl | rfl | rfl
    · obtain ⟨b, rfl⟩ := hv.eq_bool
      exact meets_ok (fits_ofValue (.bool _))
    · obtain ⟨n, rfl⟩ := hv.eq_int
      exact meets_ok (fits_ofValue (.int _))
    · exact meets_unknown fun h => hsafe h rfl
  | deref =>
    have heq : v.unary .deref = .ok v := by cases v <;> rfl
    rw [heq]
    exact meets_ok hv

/-- The types of operands whose arithmetic has been checked. -/
theorem binary?_arith {op : BinaryOp} (hop : op.opClass = .arith) {left right ty : Ty}
    (h : Ty.binary? op left right = some ty) :
    (left = ty ∨ left = .unknown) ∧ (right = ty ∨ right = .unknown) ∧
      (ty = .unknown ∨ (left ≠ .unknown ∨ right ≠ .unknown) ∧
        (ty = .int ∨ ty = .float ∨ ty = .str ∧ op = .add)) := by
  unfold Ty.binary? at h
  rw [hop] at h
  cases left <;> cases right <;> simp_all [Ty.isKnown]
  all_goals exact Classical.em _

/-- The value of an arithmetic operation has the type of both operands. -/
theorem ofValue_arith {op : BinaryOp} (hop : op.opClass = .arith) {l r v : Value}
    (h : l.binary op r = .ok v) : Ty.ofValue v = Ty.ofValue l ∧ Ty.ofValue v = Ty.ofValue r := by
  unfold Value.binary at h
  rw [hop] at h
  dsimp only at h
  split at h
  · obtain ⟨n, rfl⟩ := intArith_ok h
    exact ⟨rfl, rfl⟩
  · cases h
    exact ⟨rfl, rfl⟩
  · split at h
    · cases h
      exact ⟨rfl, rfl⟩
    · cases h
  · cases h

/-- The types of operands of an operation on bits that has been checked. -/
theorem binary?_bit {op : BinaryOp} (hop : op.opClass = .bit) {left right ty : Ty}
    (h : Ty.binary? op left right = some ty) :
    (left = ty ∨ left = .unknown) ∧ (right = ty ∨ right = .unknown) ∧
      (ty = .int ∨ ty = .bool ∧ op.isShift = false) := by
  unfold Ty.binary? at h
  rw [hop] at h
  cases left <;> cases right <;> simp_all [Ty.isKnown, Ty.compatible]

theorem ofValue_bit {op : BinaryOp} (hop : op.opClass = .bit) {l r v : Value}
    (h : l.binary op r = .ok v) : Ty.ofValue v = Ty.ofValue l ∧ Ty.ofValue v = Ty.ofValue r := by
  unfold Value.binary at h
  rw [hop] at h
  dsimp only at h
  split at h
  · obtain ⟨n, rfl⟩ := ofInt?_ok h
    exact ⟨rfl, rfl⟩
  · split at h
    · cases h
    · cases h
      exact ⟨rfl, rfl⟩
  · cases h

/-- What two operands come to whose types are those of the result, where they are known. -/
theorem fits_result {left right ty : Ty} {l r v : Value} (hl : left.Fits aim l) (hr : right.Fits aim r)
    (hleft : left = ty ∨ left = .unknown) (hright : right = ty ∨ right = .unknown)
    (hplain : ty.isPlain = true) (hknown : left ≠ .unknown ∨ right ≠ .unknown)
    (hv : Ty.ofValue v = Ty.ofValue l ∧ Ty.ofValue v = Ty.ofValue r) : ty.Fits aim v := by
  rcases hknown with hknown | hknown
  · obtain rfl := hleft.resolve_right hknown
    exact .inr (.inl (hv.1.trans (hl.ofValue_eq hplain)))
  · obtain rfl := hright.resolve_right hknown
    exact .inr (.inl (hv.2.trans (hr.ofValue_eq hplain)))

/-- Comparisons that not all types have. -/
def isOrdering : BinaryOp → Bool
  | .lt | .le | .gt | .ge => true
  | _ => false

/-- Types whose values are ordered. -/
def Ty.isOrdered : Ty → Bool
  | bool | int | float | str => true
  | _ => false

theorem isPlain_of_isOrdered {ty : Ty} (h : ty.isOrdered = true) : ty.isPlain = true := by
  cases ty <;> first | rfl | cases h

/-- Values are equal or not, whatever their types are. -/
theorem binary_equality {op : BinaryOp} (hop : op = .eq ∨ op = .ne) (l r : Value) :
    ∃ b, l.binary op r = .ok (.bool b) := by
  rcases hop with rfl | rfl
  · cases l <;> cases r <;> exact ⟨_, rfl⟩
  · cases l <;> cases r <;> exact ⟨_, rfl⟩

theorem binary?_compare {op : BinaryOp} (hop : op.opClass = .compare) {left right ty : Ty}
    (h : Ty.binary? op left right = some ty) : left.compatible right = true ∧ ty = .bool := by
  unfold Ty.binary? at h
  rw [hop] at h
  dsimp only at h
  split at h
  · rename_i hcompatible
    exact ⟨hcompatible, (Option.some.inj h).symm⟩
  · cases h

theorem ofValue_compare {op : BinaryOp} (hop : op.opClass = .compare) {l r v : Value}
    (h : l.binary op r = .ok v) : Ty.ofValue v = .bool := by
  unfold Value.binary at h
  rw [hop] at h
  dsimp only at h
  split at h
  case h_5 =>
    split at h
    · cases h
      rfl
    · split at h
      · cases h
        rfl
      · cases h
  all_goals
    cases h
    rfl

/-- Values of one ordered type can be compared in every way. -/
theorem binary_ordered {op : BinaryOp} (hop : op.opClass = .compare) {ty : Ty}
    (hordered : ty.isOrdered = true) {l r : Value} (hl : Ty.ofValue l = ty) (hr : Ty.ofValue r = ty) :
    ∃ b, l.binary op r = .ok (.bool b) := by
  unfold Value.binary
  rw [hop]
  cases ty <;> cases hordered <;> cases l <;> cases hl <;> cases r <;> cases hr <;> exact ⟨_, rfl⟩

theorem meets_compare {op : BinaryOp} (hop : op.opClass = .compare) {left right ty : Ty}
    (h : Ty.binary? op left right = some ty) {l r : Value} (hl : left.Fits aim l)
    (hr : right.Fits aim r)
    (hsafe : aim = .safety → left ≠ .unknown ∧ right ≠ .unknown ∧
      (isOrdering op = true → left.isOrdered = true)) : Outcome.Meets aim ty (l.binary op r) := by
  obtain ⟨hcompatible, rfl⟩ := binary?_compare hop h
  refine ⟨fun v hv => .inr (.inl (ofValue_compare hop hv)), fun haim => ?_⟩
  obtain ⟨hleft, hright, hordered⟩ := hsafe haim
  obtain rfl := eq_of_compatible hcompatible hleft hright
  -- two values that are only compared for equality may be of any type
  have hok : ∃ b, l.binary op r = .ok (.bool b) := by
    by_cases hordering : isOrdering op = true
    · have hplain := isPlain_of_isOrdered (hordered hordering)
      exact binary_ordered hop (hordered hordering) (hl.ofValue_eq hplain) (hr.ofValue_eq hplain)
    · refine binary_equality ?_ l r
      cases op <;> cases hop <;> first | exact .inl rfl | exact .inr rfl | exact absurd rfl hordering
  obtain ⟨b, hb⟩ := hok
  rw [hb]
  exact (meets_ok (fits_ofValue (.bool b))).fault haim

theorem meets_arith {op : BinaryOp} (hop : op.opClass = .arith) {left right ty : Ty}
    (h : Ty.binary? op left right = some ty) {l r : Value} (hl : left.Fits aim l)
    (hr : right.Fits aim r) (hsafe : aim = .safety → left ≠ .unknown ∧ right ≠ .unknown) :
    Outcome.Meets aim ty (l.binary op r) := by
  obtain ⟨hleft, hright, rfl | ⟨hknown, hty⟩⟩ := binary?_arith hop h
  · -- the result is of no known type only if neither operand is
    refine meets_unknown fun haim => (hsafe haim).1 ?_
    rcases hleft with h | h <;> exact h
  refine ⟨fun v hv => fits_result hl hr hleft hright ?_ hknown (ofValue_arith hop hv), fun haim => ?_⟩
  · rcases hty with rfl | rfl | ⟨rfl, -⟩ <;> rfl
  · obtain rfl := hleft.resolve_right (hsafe haim).1
    obtain rfl := hright.resolve_right (hsafe haim).2
    unfold Value.binary
    rw [hop]
    rcases hty with rfl | rfl | ⟨rfl, rfl⟩
    · obtain ⟨a, rfl⟩ := hl.eq_int
      obtain ⟨b, rfl⟩ := hr.eq_int
      exact (meets_intArith op a b).fault haim
    · obtain ⟨x, rfl⟩ := hl.eq_float
      obtain ⟨y, rfl⟩ := hr.eq_float
      exact (meets_ok (fits_ofValue (.float _))).fault haim
    · obtain ⟨s, rfl⟩ := hl.eq_str
      obtain ⟨t, rfl⟩ := hr.eq_str
      exact (meets_ok (fits_ofValue (.str _))).fault haim

theorem meets_bit {op : BinaryOp} (hop : op.opClass = .bit) {left right ty : Ty}
    (h : Ty.binary? op left right = some ty) (hknown : left ≠ .unknown ∨ right ≠ .unknown) {l r : Value}
    (hl : left.Fits aim l) (hr : right.Fits aim r)
    (hsafe : aim = .safety → left ≠ .unknown ∧ right ≠ .unknown) :
    Outcome.Meets aim ty (l.binary op r) := by
  obtain ⟨hleft, hright, hty⟩ := binary?_bit hop h
  refine ⟨fun v hv => fits_result hl hr hleft hright ?_ hknown (ofValue_bit hop hv), fun haim => ?_⟩
  · rcases hty with rfl | ⟨rfl, -⟩ <;> rfl
  · obtain rfl := hleft.resolve_right (hsafe haim).1
    obtain rfl := hright.resolve_right (hsafe haim).2
    unfold Value.binary
    rw [hop]
    rcases hty with rfl | ⟨rfl, hshift⟩
    · obtain ⟨a, rfl⟩ := hl.eq_int
      obtain ⟨b, rfl⟩ := hr.eq_int
      exact (meets_ofInt? (by decide) _).fault haim
    · obtain ⟨a, rfl⟩ := hl.eq_bool
      obtain ⟨b, rfl⟩ := hr.eq_bool
      dsimp only
      rw [hshift]
      exact (meets_ok (fits_ofValue (.bool _))).fault haim

/-- What an operator that looks at both sides needs in order to have a value of the type that is checked. -/
structure Operands (aim : Aim) (op : BinaryOp) (left right : Ty) : Prop where
  bits : op.opClass = .bit → left ≠ .unknown ∨ right ≠ .unknown
  known : aim = .safety → left ≠ .unknown ∧ right ≠ .unknown
  ordered : aim = .safety → isOrdering op = true → left.isOrdered = true

theorem meets_binary {op : BinaryOp} (hop : op.opClass ≠ .logic) {left right ty : Ty}
    (h : Ty.binary? op left right = some ty) (hoperands : Operands aim op left right) {l r : Value}
    (hl : left.Fits aim l) (hr : right.Fits aim r) : Outcome.Meets aim ty (l.binary op r) := by
  cases hclass : op.opClass with
  | arith => exact meets_arith hclass h hl hr hoperands.known
  | compare =>
    exact meets_compare hclass h hl hr fun haim =>
      ⟨(hoperands.known haim).1, (hoperands.known haim).2, hoperands.ordered haim⟩
  | logic => exact absurd hclass hop
  | bit => exact meets_bit hclass h (hoperands.bits hclass) hl hr hoperands.known

theorem meets_cast {source target ty : Ty} {span : Span} {st t : CheckState}
    (h : (Check.cast source target span).run st = .ok (ty, t)) {v : Value} (hv : source.Fits aim v)
    (hsafe : aim = .safety → source ≠ .unknown) : Outcome.Meets aim ty (v.cast target) := by
  unfold Check.cast at h
  extract_lets numeric at h
  by_cases hnumeric : (numeric source && numeric target) = true
  · rw [if_pos hnumeric] at h
    cases h
    simp only [numeric, Bool.and_eq_true, Bool.or_eq_true, decide_eq_true_eq] at hnumeric
    obtain ⟨hsource, htarget⟩ := hnumeric
    refine ⟨fun w hw => ?_, fun haim cause hc => ?_⟩
    · rcases htarget with (rfl | rfl) | rfl
      · cases v <;> cases hw <;> exact fits_ofValue (.int _)
      · cases v <;> cases hw <;> exact fits_ofValue (.float _)
      · exact fits_unknown w
    · rcases hsource with (rfl | rfl) | rfl
      · obtain ⟨n, rfl⟩ := hv.eq_int
        rcases htarget with (rfl | rfl) | rfl <;> cases hc
      · obtain ⟨x, rfl⟩ := hv.eq_float
        rcases htarget with (rfl | rfl) | rfl <;> cases hc
      · exact absurd rfl (hsafe haim)
  · rw [if_neg hnumeric] at h
    cases h

/-! ## Built-in functions and methods -/

/-- Values of types, one after the other. -/
abbrev AllFit (aim : Aim) : List Ty → List Value → Prop := List.Forall₂ (Ty.Fits aim)

theorem ofValue_builtin {name : String} {b : Builtin} (hb : Builtin.find? name = some b)
    {args : List Value} {v : Value} (h : Value.builtin name args = .ok v) : Ty.ofValue v = b.result := by
  unfold Value.builtin at h
  split at h
  case h_1 =>
    obtain ⟨n, rfl⟩ := ofInt?_ok h
    cases hb
    rfl
  case h_6 => cases h
  all_goals
    cases h
    cases hb
    rfl

theorem meets_builtin {name : String} {b : Builtin} (hb : Builtin.find? name = some b)
    {args : List Value} (hargs : aim = .safety → AllFit aim b.params args) :
    Outcome.Meets aim b.result (Value.builtin name args) := by
  refine ⟨fun v hv => .inr (.inl (ofValue_builtin hb hv)), fun haim => ?_⟩
  have hargs := hargs haim
  -- one case for each built-in function
  have hname := List.find?_some hb
  have hmem := List.mem_of_find?_eq_some hb
  rw [beq_iff_eq] at hname
  subst hname
  simp only [Builtin.all, List.mem_cons, List.not_mem_nil, or_false] at hmem
  rcases hmem with rfl | rfl | rfl | rfl
  · obtain ⟨v, _, hv, hnil, rfl⟩ := List.forall₂_cons_left_iff.1 hargs
    cases hnil
    obtain ⟨n, rfl⟩ := hv.eq_int
    exact (meets_ofInt? (by decide) _).fault haim
  · obtain ⟨v, _, hv, hrest, rfl⟩ := List.forall₂_cons_left_iff.1 hargs
    obtain ⟨w, _, hw, hnil, rfl⟩ := List.forall₂_cons_left_iff.1 hrest
    cases hnil
    obtain ⟨a, rfl⟩ := hv.eq_int
    obtain ⟨b, rfl⟩ := hw.eq_int
    exact (meets_ok (fits_ofValue (.int _))).fault haim
  · obtain ⟨v, _, hv, hrest, rfl⟩ := List.forall₂_cons_left_iff.1 hargs
    obtain ⟨w, _, hw, hnil, rfl⟩ := List.forall₂_cons_left_iff.1 hrest
    cases hnil
    obtain ⟨a, rfl⟩ := hv.eq_int
    obtain ⟨b, rfl⟩ := hw.eq_int
    exact (meets_ok (fits_ofValue (.int _))).fault haim
  · obtain ⟨v, _, hv, hnil, rfl⟩ := List.forall₂_cons_left_iff.1 hargs
    cases hnil
    obtain ⟨x, rfl⟩ := hv.eq_float
    exact (meets_ok (fits_ofValue (.float _))).fault haim

/-- The type that the argument of a built-in method has to have, where the method does not take all. -/
def Ty.argument? : Ty → String → Option Ty
  | str, "contains" | str, "starts_with" | str, "ends_with" => some str
  | int, "pow" | float, "powi" => some int
  | _, _ => none

/-- What a method gives has the type that the check gives a call of it. -/
theorem fits_method {receiver : Value} {name : String} {args : List Value} {v : Value} {ty : Ty}
    (h : receiver.method name args = .ok v)
    (hty : (Ty.ofValue receiver).method? name args.length = some ty) : ty.Fits aim v := by
  unfold Value.method at h
  split at h
  case h_15 =>
    -- the sum of a list, of which no type is known
    cases hty
    exact fits_unknown v
  case h_16 =>
    cases hty
    exact (meets_ofInt? (by decide) _).value v h
  case h_17 =>
    cases hty
    exact .inr (.inl (ofValue_builtin rfl h))
  case h_23 =>
    cases hty
    split at h
    · cases h
      exact fits_ofValue (.float _)
    · cases h
  case h_27 => cases h
  all_goals
    cases h
    cases hty
    exact .inr (.inl rfl)

/-- Where there is a method, the type of its receiver decides what kind of value that is. -/
theorem isPlain_of_method? {ty result : Ty} {name : String} {count : Nat}
    (h : ty.method? name count = some result) (hknown : ty ≠ .unknown) : ty.isPlain = true := by
  cases ty
  case unknown => exact absurd rfl hknown
  case unit => cases h
  case host => cases h
  case struct => cases h
  all_goals rfl

theorem meets_method {ty result : Ty} {name : String} {args : List Value}
    (h : ty.method? name args.length = some result) {receiver : Value}
    (hreceiver : ty.Fits aim receiver)
    (hsafe : aim = .safety → result ≠ .unknown ∧
      ∀ wanted, ty.argument? name = some wanted → ∀ v ∈ args, wanted.Fits aim v) :
    Outcome.Meets aim result (receiver.method name args) := by
  by_cases hunknown : ty = .unknown
  · subst hunknown
    cases h
    exact meets_unknown fun haim => (hsafe haim).1 rfl
  have hty := hreceiver.ofValue_eq (isPlain_of_method? h hunknown)
  refine ⟨fun v hv => fits_method hv (by rw [hty]; exact h), fun haim => ?_⟩
  obtain ⟨hresult, hargs⟩ := hsafe haim
  unfold Ty.method? at h
  extract_lets found at h
  rw [if_neg hunknown] at h
  rcases hfound : found with _ | ⟨result', arity⟩
  · rw [hfound] at h
    cases h
  · rw [hfound] at h
    obtain ⟨harity, rfl⟩ : arity = args.length ∧ result' = result := by
      dsimp only at h
      split at h
      · rename_i harity
        exact ⟨harity, Option.some.inj h⟩
      · cases h
    simp only [found] at hfound
    -- one case for each method of each type, as the check knows them
    split at hfound
    case h_27 => cases hfound
    all_goals cases hfound
    case h_8 | h_9 | h_10 =>
      obtain ⟨v, rfl⟩ := List.length_eq_one_iff.1 harity.symm
      obtain ⟨s, rfl⟩ := hreceiver.eq_str
      obtain ⟨p, rfl⟩ := (hargs _ rfl v (List.mem_singleton.2 rfl)).eq_str
      exact fun _ hc => by cases hc
    case h_13 =>
      obtain ⟨v, rfl⟩ := List.length_eq_one_iff.1 harity.symm
      obtain ⟨items, rfl⟩ := hreceiver.eq_list
      exact fun _ hc => by cases hc
    case h_14 => exact absurd rfl hresult
    case h_16 =>
      obtain ⟨v, rfl⟩ := List.length_eq_one_iff.1 harity.symm
      obtain ⟨a, rfl⟩ := hreceiver.eq_int
      obtain ⟨n, rfl⟩ := (hargs _ rfl v (List.mem_singleton.2 rfl)).eq_int
      exact (meets_ofInt? (by decide) _).fault haim
    case h_26 =>
      obtain ⟨v, rfl⟩ := List.length_eq_one_iff.1 harity.symm
      obtain ⟨x, rfl⟩ := hreceiver.eq_float
      obtain ⟨n, rfl⟩ := (hargs _ rfl v (List.mem_singleton.2 rfl)).eq_int
      intro cause hc
      change (if Value.isExponent n = true then _ else _) = _ at hc
      split at hc
      · cases hc
      · cases hc
        decide
    all_goals obtain rfl := List.eq_nil_of_length_eq_zero harity.symm
    case h_17 =>
      obtain ⟨a, rfl⟩ := hreceiver.eq_int
      exact (meets_ofInt? (by decide) _).fault haim
    all_goals
      cases receiver <;> cases hty
      exact fun _ hc => by cases hc

end

end Notebook.Guest

import Notebook.Proofs.Guest.Fitting
import Notebook.Proofs.Guest.Meanings
import Notebook.Proofs.Guest.Sites

/-!
# Code that keeps to its types

While code runs whose check has come to some types, the local names and the variables of the session have
values of those types (`Setting.Suits`), and the code leaves them so, whatever becomes of it
(`Setting.Keeps`).  Here are the pieces that evaluation puts together.
-/

namespace Notebook.Guest
open Notebook.Text Notebook.Syntax

/-- What is asked of code, the store in which it is checked, the function that it is in if any, and the
functions of the session that it may call. -/
structure Setting where
  aim : Aim
  base : Store
  own : Option FnType := none
  called : String → Prop := fun _ => False

namespace Setting

def context (S : Setting) : CheckContext := ⟨S.base.globals, S.own⟩

end Setting

/-- The variables that a name stands for have values of their types. -/
def Store.Holds (aim : Aim) (s : Store) : Prop :=
  ∀ n id r ty v, s.binding? n = some id → s.record? id = some r → r.status.isDefined = true →
    r.definition = .variable ty v → ty.Fits aim v

/-- A scope has the names that the check knows, and they have values of their types. -/
def ScopeFits (aim : Aim) (types : List (String × Ty)) (scope : Scope) : Prop :=
  ∀ n, Option.Rel (Ty.Fits aim) (types.lookup n) (scope.get? n)

abbrev ScopesFit (aim : Aim) : Scopes → List Scope → Prop := List.Forall₂ (ScopeFits aim)

/-- The state in which code runs is one that its check has foreseen. -/
structure Setting.Suits {σ : Type} (S : Setting) (Γ : Scopes) (m : Machine σ) : Prop where
  same : S.base.SameBut m.store
  holds : m.store.Holds S.aim
  scopes : ScopesFit S.aim Γ m.scopes

/-- The ways in which code may end before it has a value. -/
def Setting.Allows (S : Setting) (inLoop : Bool) : Exit → Prop
  | .fault f => S.aim = .safety → ¬ f.cause.IsTypeError
  | .returned v => ∃ own, S.own = some own ∧ own.result.Fits S.aim v
  | .broke | .continued => inLoop = true
  | .panicked _ | .outOfFuel => True

/-- What running code comes to: a value and a state, or one of some exits and a state. -/
inductive Ends {σ α : Type} (allows : Exit → Prop) (Q : α → Machine σ → Prop) (X : Machine σ → Prop) :
    Except Exit α × Machine σ → Prop
  | ok {a : α} {m : Machine σ} : Q a m → Ends allows Q X (.ok a, m)
  | error {e : Exit} {m : Machine σ} : allows e → X m → Ends allows Q X (.error e, m)

theorem Ends.mono {σ α : Type} {allows allows' : Exit → Prop} {Q Q' : α → Machine σ → Prop}
    {X X' : Machine σ → Prop} {result : Except Exit α × Machine σ} (h : Ends allows Q X result)
    (hallows : ∀ e, allows e → allows' e) (hQ : ∀ a m, Q a m → Q' a m) (hX : ∀ m, X m → X' m) :
    Ends allows' Q' X' result := by
  cases h with
  | ok h => exact .ok (hQ _ _ h)
  | error he hm => exact .error (hallows _ he) (hX _ hm)

theorem Ends.bind {σ α β : Type} {allows : Exit → Prop} {Q : α → Machine σ → Prop}
    {Q' : β → Machine σ → Prop} {X X' : Machine σ → Prop} {r : Run σ α} {f : α → Run σ β}
    {m : Machine σ} (h : Ends allows Q X (r.run.run m))
    (hf : ∀ a m', Q a m' → Ends allows Q' X' ((f a).run.run m')) (hX : ∀ m', X m' → X' m') :
    Ends allows Q' X' ((r >>= f).run.run m) := by
  simp only [ExceptT.run_bind, StateT.run_bind]
  revert h
  generalize r.run.run m = result
  rintro (h | ⟨he, hm⟩)
  · exact hf _ _ h
  · exact .error he (hX _ hm)

namespace Store

variable {aim : Aim} {s : Store}

/-- A name that stands for a variable has a value of its type. -/
theorem Holds.read?_variable (h : s.Holds aim) {n : String} {ty : Ty}
    (hn : s.globals n = some (.variable ty)) : ∃ v, s.read? n = some v ∧ ty.Fits aim v := by
  rw [globals_eq] at hn
  unfold read?
  cases hbound : s.bound? n with
  | none =>
    rw [hbound] at hn
    obtain ⟨host, -, hkind⟩ := Option.map_eq_some_iff.1 hn
    cases hkind
  | some r =>
    rw [hbound] at hn
    obtain ⟨v, hdefinition⟩ := Definition.eq_variable_of_kind? hn
    obtain ⟨id, hid, hr, hdefined⟩ := bound?_eq_some_iff.1 hbound
    dsimp only
    rw [hdefinition]
    exact ⟨v, rfl, h n id r ty v hid hr hdefined hdefinition⟩

theorem read?_host {n typeName : String} {methods : List MethodDoc}
    (hn : s.globals n = some (.host typeName methods)) :
    ∃ v, s.read? n = some v ∧ (Ty.host typeName).Fits aim v := by
  rw [globals_eq] at hn
  unfold read?
  cases hbound : s.bound? n with
  | none =>
    rw [hbound] at hn
    obtain ⟨object, hobject, hkind⟩ := Option.map_eq_some_iff.1 hn
    cases hkind
    refine ⟨.host object, ?_, fits_ofValue (.host object)⟩
    dsimp only
    rw [hobject]
    rfl
  | some r =>
    rw [hbound] at hn
    dsimp only at hn
    cases hdefinition : r.definition <;> rw [hdefinition] at hn <;> cases hn

/-- A variable is given a value that fits its type. -/
theorem Holds.write? (h : s.Holds aim) {s' : Store} {n : String} {v : Value}
    (hwrite : s.write? n v = some s')
    (hv : ∀ ty, s.globals n = some (.variable ty) → ty.Fits aim v) : s'.Holds aim := by
  simp only [Store.write?, Option.bind_eq_bind, Option.bind_eq_some_iff] at hwrite
  obtain ⟨id, hid, r, hr, hwrite⟩ := hwrite
  split at hwrite
  · rename_i ty w hdefinition
    cases hwrite
    intro j jd r' ty' v' hj hr' hdefined hdefinition'
    rw [binding?, bindings_update] at hj
    rw [record?_update] at hr'
    split at hr'
    · rename_i hjd
      subst hjd
      rw [hr] at hr'
      cases hr'
      cases hdefinition'
      -- a snippet that can be used gives its name the type of the variable
      refine hv ty ?_
      rw [globals_eq, bound?_eq_some_iff.2 ⟨jd, hid, hr, hdefined⟩]
      dsimp only
      rw [hdefinition]
      rfl
    · exact h j jd r' ty' v' hj hr' hdefined hdefinition'
  · cases hwrite

end Store

namespace Run

variable {σ α : Type}

theorem local?_bind (n : String) (f : Option Value → Run σ α) (m : Machine σ) :
    (local? n >>= f).run.run m = (f (m.scopes.findSome? fun scope => scope.get? n)).run.run m := rfl

theorem get_bind (f : Machine σ → Run σ α) (m : Machine σ) :
    (get >>= f).run.run m = (f m).run.run m := rfl

theorem modify_bind (change : Machine σ → Machine σ) (f : Unit → Run σ α) (m : Machine σ) :
    (modify change >>= f).run.run m = (f ()).run.run (change m) := rfl

theorem lookup_run (n : String) (m : Machine σ) :
    (lookup n : Run σ Value).run.run m =
      match m.scopes.findSome? fun scope => scope.get? n with
      | some v => (.ok v, m)
      | none =>
        match m.store.read? n with
        | some v => (.ok v, m)
        | none => (fault (.undeclared n) : Run σ Value).run.run m := by
  unfold lookup
  rw [local?_bind]
  cases m.scopes.findSome? fun scope => scope.get? n with
  | some v => rfl
  | none =>
    dsimp only
    rw [get_bind]
    cases m.store.read? n <;> rfl

theorem assign_run (n : String) (v : Value) (m : Machine σ) :
    (assign n v : Run σ Unit).run.run m =
      match assignLocal? n v m.scopes with
      | some scopes => (.ok (), { m with scopes })
      | none =>
        match m.store.write? n v with
        | some store => (.ok (), { m with store })
        | none => (fault (.unassignable n) : Run σ Unit).run.run m := by
  unfold assign
  rw [get_bind]
  cases assignLocal? n v m.scopes with
  | some scopes => rfl
  | none =>
    dsimp only
    cases m.store.write? n v <;> rfl

end Run

/-- The state without the innermost scope. -/
def Machine.outside {σ : Type} (m : Machine σ) : Machine σ := { m with scopes := m.scopes.tail }

namespace Setting

variable {σ α β : Type} {S : Setting} {inLoop : Bool} {Γ Γ' Γ'' : Scopes} {P : α → Prop} {Q : β → Prop}

/-- Where the state is one that the check has foreseen, the code has a value with the property if it
has one, and leaves the state so. -/
def Keeps (S : Setting) (inLoop : Bool) (Γ : Scopes) (P : α → Prop) (r : Run σ α) : Prop :=
  ∀ m : Machine σ, S.Suits Γ m →
    Ends (S.Allows inLoop) (fun a m' => P a ∧ S.Suits Γ m') (S.Suits Γ) (r.run.run m)

/-- The same of code that declares names in the innermost scope, which goes when the code is left early. -/
def Moves (S : Setting) (inLoop : Bool) (Γ Γ' : Scopes) (P : α → Prop) (r : Run σ α) : Prop :=
  ∀ m : Machine σ, S.Suits Γ m →
    Ends (S.Allows inLoop) (fun a m' => P a ∧ S.Suits Γ' m') (fun m' => S.Suits Γ.tail m'.outside)
      (r.run.run m)

/-! ## Code that is put together -/

theorem Suits.outside {m : Machine σ} (h : S.Suits Γ m) : S.Suits Γ.tail m.outside := by
  obtain ⟨frames, scopes, store, world⟩ := m
  obtain ⟨hsame, hholds, hscopes⟩ := h
  refine ⟨hsame, hholds, ?_⟩
  cases hscopes with
  | nil => exact .nil
  | cons _ htail => exact htail

theorem Keeps.mono {P' : α → Prop} {r : Run σ α} (h : S.Keeps inLoop Γ P r) (hP : ∀ a, P a → P' a) :
    S.Keeps inLoop Γ P' r :=
  fun m hm => (h m hm).mono (fun _ h => h) (fun a _ h => ⟨hP a h.1, h.2⟩) fun _ h => h

theorem Keeps.moves {r : Run σ α} (h : S.Keeps inLoop Γ P r) : S.Moves inLoop Γ Γ P r :=
  fun m hm => (h m hm).mono (fun _ h => h) (fun _ _ h => h) fun _ h => h.outside

theorem Keeps.bind {r : Run σ α} {f : α → Run σ β} (hr : S.Keeps inLoop Γ P r)
    (hf : ∀ a, P a → S.Keeps inLoop Γ Q (f a)) : S.Keeps inLoop Γ Q (r >>= f) :=
  fun m hm => (hr m hm).bind (fun a m' h => hf a h.1 m' h.2) fun _ h => h

theorem Moves.bind {r : Run σ α} {f : α → Run σ β} (hr : S.Moves inLoop Γ Γ' P r)
    (htail : Γ'.tail = Γ.tail) (hf : ∀ a, P a → S.Moves inLoop Γ' Γ'' Q (f a)) :
    S.Moves inLoop Γ Γ'' Q (r >>= f) := by
  intro m hm
  refine (hr m hm).bind (fun a m' h => ?_) fun _ h => h
  rw [← htail]
  exact hf a h.1 m' h.2

theorem keeps_pure {a : α} (ha : P a) : S.Keeps inLoop Γ P (pure a : Run σ α) :=
  fun _ hm => .ok ⟨ha, hm⟩

theorem keeps_throw {e : Exit} (he : S.Allows inLoop e) : S.Keeps inLoop Γ P (throw e : Run σ α) :=
  fun _ hm => .error he hm

/-- Code that looks at the state first. -/
theorem keeps_get_bind {f : Machine σ → Run σ α}
    (hf : ∀ m : Machine σ, S.Suits Γ m →
      Ends (S.Allows inLoop) (fun a m' => P a ∧ S.Suits Γ m') (S.Suits Γ) ((f m).run.run m)) :
    S.Keeps inLoop Γ P (get >>= f) := fun m hm => hf m hm

theorem keeps_fault {cause : FaultCause} (h : S.aim = .safety → ¬ cause.IsTypeError) :
    S.Keeps inLoop Γ P (Run.fault cause : Run σ α) := fun _ hm => .error h hm

theorem keeps_ofOutcome {o : Outcome Value} {ty : Ty} (h : o.Meets S.aim ty) :
    S.Keeps inLoop Γ (ty.Fits S.aim) (Run.ofOutcome o : Run σ Value) := by
  cases o with
  | ok v => exact keeps_pure (h.value v rfl)
  | error cause => exact keeps_fault fun haim => h.fault haim cause rfl

/-! ## Local names -/

theorem local?_fits {scopes : List Scope} (h : ScopesFit S.aim Γ scopes) (n : String) :
    Option.Rel (Ty.Fits S.aim) (Γ.findSome? fun scope => scope.lookup n)
      (scopes.findSome? fun scope => scope.get? n) := by
  induction h with
  | nil => exact .none
  | cons hscope _ ih =>
    rw [List.findSome?_cons, List.findSome?_cons]
    have hn := hscope n
    revert hn
    generalize List.lookup n _ = found
    generalize Table.get? _ n = held
    rintro (hfits | _)
    · exact .some hfits
    · exact ih

theorem fits_put {types : List (String × Ty)} {scope : Scope} (h : ScopeFits S.aim types scope)
    {n : String} {ty : Ty} {v : Value} (hv : ty.Fits S.aim v) :
    ScopeFits S.aim ((n, ty) :: types) (scope.put n v) := by
  intro j
  rw [Table.get?_put, List.lookup_cons]
  by_cases hj : n = j
  · subst hj
    rw [beq_self_eq_true, if_pos rfl]
    exact .some hv
  · rw [if_neg hj, beq_false_of_ne (Ne.symm hj)]
    exact h j

theorem get?_assign? {scope scope' : Scope} {n : String} {v : Value}
    (h : scope.assign? n v = some scope') (j : String) :
    scope'.get? j = if n = j then some v else scope.get? j := by
  induction scope generalizing scope' with
  | nil => cases h
  | cons entry rest ih =>
    obtain ⟨i, w⟩ := entry
    unfold Scope.assign? at h
    split at h
    · rename_i hi
      cases h
      subst hi
      by_cases hj : i = j
      · simp [Table.get?, hj]
      · simp [Table.get?, hj]
    · rename_i hi
      obtain ⟨rest', hrest, rfl⟩ := Option.map_eq_some_iff.1 h
      by_cases hj : i = j
      · subst hj
        simp [Table.get?, Ne.symm hi]
      · simp [Table.get?, hj, ih hrest]

theorem assign?_eq_none {scope : Scope} {n : String} {v : Value} :
    scope.assign? n v = none ↔ scope.get? n = none := by
  induction scope with
  | nil => exact ⟨fun _ => rfl, fun _ => rfl⟩
  | cons entry rest ih =>
    obtain ⟨i, w⟩ := entry
    by_cases hi : i = n
    · simp [Scope.assign?, Table.get?, hi]
    · simp [Scope.assign?, Table.get?, hi, ih]

theorem assignLocal?_eq_none {scopes : List Scope} {n : String} {v : Value}
    (h : assignLocal? n v scopes = none) : (scopes.findSome? fun scope => scope.get? n) = none := by
  induction scopes with
  | nil => rfl
  | cons scope outer ih =>
    unfold assignLocal? at h
    split at h
    · cases h
    · rename_i hnone
      rw [List.findSome?_cons, assign?_eq_none.1 hnone]
      exact ih (Option.map_eq_none_iff.1 h)

/-- A local name that is given a new value of its type. -/
theorem assignLocal?_fits {scopes scopes' : List Scope} (h : ScopesFit S.aim Γ scopes) {n : String}
    {v : Value} (hassign : assignLocal? n v scopes = some scopes')
    (hv : ∀ ty, (Γ.findSome? fun scope => scope.lookup n) = some ty → ty.Fits S.aim v) :
    ScopesFit S.aim Γ scopes' := by
  induction h generalizing scopes' with
  | nil => cases hassign
  | @cons types scope Γ outer hscope houter ih =>
    rw [List.findSome?_cons] at hv
    have hn := hscope n
    unfold assignLocal? at hassign
    split at hassign
    · rename_i scope' hassigned
      cases hassign
      refine .cons (fun j => ?_) houter
      rw [get?_assign? hassigned]
      split
      · rename_i hj
        subst hj
        -- the scope has the name, so the check knows a type of it
        cases hlookup : types.lookup n with
        | none =>
          rw [hlookup] at hn
          cases hget : scope.get? n with
          | none =>
            rw [assign?_eq_none.2 hget] at hassigned
            cases hassigned
          | some w =>
            rw [hget] at hn
            cases hn
        | some ty =>
          rw [hlookup] at hv
          exact .some (hv ty rfl)
      · exact hscope j
    · rename_i hnone
      obtain ⟨outer', houter', rfl⟩ := Option.map_eq_some_iff.1 hassign
      refine .cons hscope (ih houter' fun ty hty => hv ty ?_)
      rw [assign?_eq_none.1 hnone] at hn
      cases hlookup : types.lookup n with
      | none => exact hty
      | some found =>
        rw [hlookup] at hn
        cases hn

theorem moves_declare {n : String} {ty : Ty} {v : Value} (hv : ty.Fits S.aim v) :
    S.Moves inLoop Γ (Site.declaring n ty Γ) (fun _ => True) (Run.declare n v : Run σ Unit) := by
  intro m hm
  obtain ⟨frames, scopes, store, world⟩ := m
  obtain ⟨hsame, hholds, hscopes⟩ := hm
  cases hscopes with
  | nil => exact .ok ⟨trivial, hsame, hholds, .nil⟩
  | cons hscope houter => exact .ok ⟨trivial, hsame, hholds, .cons (fits_put hscope hv) houter⟩

/-- What runs in a scope of its own leaves the scopes around it as it has found them. -/
theorem Moves.inScope {r : Run σ α} {types : List (String × Ty)} {scope : Scope}
    (hr : S.Moves inLoop (types :: Γ) Γ' P r) (htail : Γ'.tail = Γ) (hscope : ScopeFits S.aim types scope) :
    S.Keeps inLoop Γ P (Run.inScope scope r) := by
  intro m hm
  have hend := hr { m with scopes := scope :: m.scopes } ⟨hm.same, hm.holds, .cons hscope hm.scopes⟩
  change Ends _ _ _ ((r.run.run { m with scopes := scope :: m.scopes }).1,
    (r.run.run { m with scopes := scope :: m.scopes }).2.outside)
  revert hend
  generalize r.run.run { m with scopes := scope :: m.scopes } = result
  rintro (⟨hP, hsuits⟩ | ⟨he, hsuits⟩)
  · refine .ok ⟨hP, ?_⟩
    rw [← htail]
    exact hsuits.outside
  · exact .error he hsuits

/-! ## Names of the session -/

theorem Suits.globals {m : Machine σ} (h : S.Suits Γ m) : m.store.globals = S.base.globals :=
  h.same.globals_eq

theorem Suits.local? {m : Machine σ} (h : S.Suits Γ m) {st : CheckState} (hst : st.scopes = Γ) (n : String) :
    Option.Rel (Ty.Fits S.aim) (st.local? n) (m.scopes.findSome? fun scope => scope.get? n) := by
  subst hst
  exact local?_fits h.scopes n

/-- Looking a name up changes nothing, and a name that is not there is no mistake of types. -/
theorem keeps_lookup (n : String) : S.Keeps inLoop Γ (fun _ => True) (Run.lookup n : Run σ Value) := by
  intro m hm
  rw [Run.lookup_run]
  split
  · exact .ok ⟨trivial, hm⟩
  · split
    · exact .ok ⟨trivial, hm⟩
    · exact keeps_fault (fun _ => by rintro (h | h) <;> cases h) m hm

/-- A name has a value of the type that the check gives it. -/
theorem keeps_name {i : Ident} {ty : Ty} (h : Check.Gives (Check.name S.context i) Γ ty Γ') :
    S.Keeps inLoop Γ (ty.Fits S.aim) (Run.lookup i.name : Run σ Value) := by
  intro m hm
  obtain ⟨st, t, hst, hrun, -⟩ := h
  rw [Check.name_run] at hrun
  have hunknown : ty = .unknown →
      Ends (S.Allows inLoop) (fun v m' => ty.Fits S.aim v ∧ S.Suits Γ m') (S.Suits Γ)
        ((Run.lookup i.name : Run σ Value).run.run m) := by
    rintro rfl
    exact (keeps_lookup i.name m hm).mono (fun _ h => h) (fun v _ h => ⟨fits_unknown v, h.2⟩) fun _ h => h
  have hlocal := hm.local? hst i.name
  rw [Run.lookup_run]
  rw [Run.lookup_run] at hunknown
  revert hunknown hlocal
  generalize (m.scopes.findSome? fun scope => scope.get? i.name) = held
  generalize st.local? i.name = known at hrun
  rintro hunknown (hfits | _)
  · cases hrun
    exact .ok ⟨hfits, hm⟩
  · -- no local name: what the name stands for in the session is what it stood for to the check
    have hsame : S.context.globals i.name = m.store.globals i.name := (congrFun hm.globals i.name).symm
    rw [hsame] at hrun
    split at hrun
    · rename_i hnone
      cases hnone
    · rename_i hkind
      cases hrun
      obtain ⟨v, hread, hv⟩ := hm.holds.read?_variable hkind
      dsimp only
      rw [hread]
      exact .ok ⟨hv, hm⟩
    · rename_i hkind
      cases hrun
      obtain ⟨v, hread, hv⟩ := Store.read?_host hkind
      dsimp only
      rw [hread]
      exact .ok ⟨hv, hm⟩
    · cases hrun
    · cases hrun
    · rw [Check.unknownName_run] at hrun
      split at hrun
      · cases hrun
        exact hunknown rfl
      · cases hrun

/-- A place takes a value of the type that the check gives it. -/
theorem keeps_place {l : Expr} {target : Ty}
    (h : Check.answer? (Check.place S.context l) Γ = some target) {v : Value} (hv : target.Fits S.aim v) :
    S.Keeps inLoop Γ (fun _ => True) (Run.assignTo l v : Run σ Unit) := by
  obtain ⟨Γ', st, t, hst, hrun, -⟩ := Check.gives_of_answer? h
  cases l with
  | name i span =>
    intro m hm
    rw [Check.place_run] at hrun
    change Ends _ _ _ ((Run.assign i.name v : Run σ Unit).run.run m)
    rw [Run.assign_run]
    split
    · rename_i scopes hassigned
      refine .ok ⟨trivial, hm.same, hm.holds, assignLocal?_fits hm.scopes hassigned fun ty hty => ?_⟩
      subst hst
      change st.local? i.name = some ty at hty
      rw [hty] at hrun
      cases hrun
      exact hv
    · rename_i hnone
      -- no local name, so the variable is one of the session
      have hlocal := hm.local? hst i.name
      rw [assignLocal?_eq_none hnone] at hlocal
      split
      · rename_i store hwrite
        refine .ok ⟨trivial, hm.same.trans (Store.sameBut_write hwrite), hm.holds.write? hwrite ?_, hm.scopes⟩
        intro ty hty
        revert hlocal
        generalize st.local? i.name = known at hrun
        rintro ⟨⟩
        have hsame : S.context.globals i.name = m.store.globals i.name := (congrFun hm.globals i.name).symm
        rw [hsame, hty] at hrun
        cases hrun
        exact hv
      · exact keeps_fault (fun _ => by rintro (h | h) <;> cases h) m hm
  | _ => cases hrun

theorem keeps_print (text : List Char) : S.Keeps inLoop Γ (fun _ => True) (Run.print text : Run σ Unit) :=
  fun _ hm => .ok ⟨trivial, hm.same.trans (Store.sameBut_print _ text), hm.holds, hm.scopes⟩

/-- A call of the host changes nothing that the check knows of, and may have any value. -/
theorem keeps_callHost (calls : HostCalls σ) (object : HostObject) (method : String) (args : List Value) :
    S.Keeps inLoop Γ (fun _ => True) (Run.callHost calls object method args) := by
  unfold Run.callHost
  refine keeps_get_bind fun m hm => ?_
  rcases hcall : calls.call object method args m.world with ⟨reply, world⟩
  have hm' : S.Suits Γ { m with world } := ⟨hm.same, hm.holds, hm.scopes⟩
  cases reply with
  | value v => exact .ok ⟨trivial, hm'⟩
  | error message => exact .error (fun _ => by rintro (h | h) <;> cases h) hm'
  | panic message => exact .error trivial hm'

end Setting

end Notebook.Guest

import Mathlib.Data.String.Basic
import Notebook.Guest.Analysis

/-!
# What a declaration is understood to be

Whether a struct can be understood does not depend on the names of the session
(`analyzeStruct_eq`).  They decide only which of the names that its fields use are missing, and
a struct that misses none is valid.
-/

namespace Notebook.Guest
open Notebook.Syntax

/-! ## Ordered lists of names -/

theorem mem_insertNew (a b : String) (names : List String) :
    a ∈ insertNew b names ↔ a = b ∨ a ∈ names := by
  unfold insertNew
  split
  · rename_i hb
    rw [List.contains_iff_mem] at hb
    constructor
    · exact .inr
    · rintro (rfl | ha)
      · exact hb
      · exact ha
  · exact List.mem_cons

theorem mem_foldl_insertNew (a : String) (new names : List String) :
    a ∈ new.foldl (fun names n => insertNew n names) names ↔ a ∈ new ∨ a ∈ names := by
  induction new generalizing names with
  | nil => simp
  | cons n new ih =>
    rw [List.foldl_cons, ih, mem_insertNew, List.mem_cons]
    tauto

theorem mem_insertOrdered (a b : String) (names : List String) :
    a ∈ insertOrdered b names ↔ a = b ∨ a ∈ names := by
  induction names with
  | nil => simp [insertOrdered]
  | cons n names ih =>
    unfold insertOrdered
    split
    · exact List.mem_cons
    · split
      · rename_i heq
        subst heq
        simp
      · rw [List.mem_cons, ih, List.mem_cons]
        tauto

theorem sorted_insertOrdered (a : String) {names : List String} (h : names.Pairwise (· < ·)) :
    (insertOrdered a names).Pairwise (· < ·) := by
  induction names with
  | nil => exact List.pairwise_singleton _ a
  | cons n names ih =>
    obtain ⟨hn, hnames⟩ := List.pairwise_cons.1 h
    unfold insertOrdered
    split
    · rename_i hlt
      refine List.pairwise_cons.2 ⟨fun m hm => ?_, h⟩
      rcases List.mem_cons.1 hm with rfl | hm
      · exact hlt
      · exact lt_trans hlt (hn m hm)
    · split
      · exact h
      · rename_i hlt hne
        refine List.pairwise_cons.2 ⟨fun m hm => ?_, ih hnames⟩
        rcases (mem_insertOrdered m a names).1 hm with rfl | hm
        · exact lt_of_le_of_ne (not_lt.1 hlt) (Ne.symm hne)
        · exact hn m hm

/-! ## The fields of a struct -/

/-- The names that the types of a struct's fields use. -/
def fieldNames (fields : List Field) : List String :=
  fields.filterMap fun f =>
    match Ty.read f.type.form with
    | .named name => some name
    | _ => none

/-- The types of the fields are ones that can be written. -/
def Readable (fields : List Field) : Prop :=
  ∀ f ∈ fields, Ty.read f.type.form ≠ .unsupported

/-- Those of some names that are no structs, in order. -/
def missingAmong (g : Globals) (names : List String) (missing : List String) : List String :=
  names.foldl (fun missing n => if g n = some .struct then missing else insertOrdered n missing)
    missing

theorem mem_missingAmong (g : Globals) (names missing : List String) (a : String) :
    a ∈ missingAmong g names missing ↔ a ∈ missing ∨ a ∈ names ∧ g a ≠ some .struct := by
  unfold missingAmong
  induction names generalizing missing with
  | nil => simp
  | cons n names ih =>
    rw [List.foldl_cons, ih, List.mem_cons]
    split
    · rename_i hn
      constructor
      · tauto
      · rintro (h | ⟨rfl | h, hne⟩)
        · exact .inl h
        · exact absurd hn hne
        · exact .inr ⟨h, hne⟩
    · rename_i hn
      rw [mem_insertOrdered]
      constructor
      · rintro ((rfl | h) | h)
        · exact .inr ⟨.inl rfl, hn⟩
        · exact .inl h
        · exact .inr ⟨.inr h.1, h.2⟩
      · tauto

theorem sorted_missingAmong (g : Globals) (names : List String) {missing : List String}
    (h : missing.Pairwise (· < ·)) : (missingAmong g names missing).Pairwise (· < ·) := by
  unfold missingAmong
  induction names generalizing missing with
  | nil => exact h
  | cons n names ih =>
    rw [List.foldl_cons]
    split
    · exact ih h
    · exact ih (sorted_insertOrdered n h)

theorem declaredType_run_named {t : TypeExpr} {name : String} (h : Ty.read t.form = .named name)
    (g : Globals) (m : Mentions) :
    ∃ ty, (declaredType g t).run m =
      .ok (ty, ⟨missingAmong g [name] m.missing, insertNew name m.refs⟩) := by
  by_cases hg : g name = some .struct
  · refine ⟨.struct name, ?_⟩
    unfold declaredType
    rw [missingAmong, List.foldl_cons, if_pos hg, h]
    simp only [StateT.run_bind, hg]
    rfl
  · refine ⟨.unknown, ?_⟩
    unfold declaredType
    rw [missingAmong, List.foldl_cons, if_neg hg, h]
    cases hname : g name with
    | none =>
      simp only [StateT.run_bind, hname]
      rfl
    | some kind =>
      cases kind
      case struct => exact absurd hname hg
      all_goals
        simp only [StateT.run_bind, hname]
        rfl

theorem declaredType_run_known {t : TypeExpr} {ty : Ty} (h : Ty.read t.form = .known ty)
    (g : Globals) (m : Mentions) : (declaredType g t).run m = .ok (ty, m) := by
  unfold declaredType
  rw [h]
  rfl

theorem declaredType_run_unsupported {t : TypeExpr} (h : Ty.read t.form = .unsupported)
    (g : Globals) (m : Mentions) :
    (declaredType g t).run m = .error ⟨.unsupportedType, t.span⟩ := by
  unfold declaredType
  rw [h]
  rfl

theorem declaredFields_run_cons (g : Globals) (i : Nat) (f : Field) (fields : List Field)
    (m : Mentions) :
    (declaredFields g i (f :: fields)).run m =
      match (declaredType g f.type).run m with
      | .error e => .error e
      | .ok (_, m') =>
        match (declaredFields g (i + 1) fields).run m' with
        | .error e => .error e
        | .ok (shown, m'') =>
          .ok ((f.label.getD (String.ofList (Decimal.natText i)) ++ ": " ++ shownType f.type) :: shown,
            m'') := by
  have hdiscard : (discard (declaredType g f.type)).run m =
      (declaredType g f.type).run m >>= fun p => pure ((), p.2) := rfl
  rw [declaredFields]
  simp only [StateT.run_bind, hdiscard]
  rcases (declaredType g f.type).run m with e | ⟨ty, m'⟩
  · rfl
  · change (declaredFields g (i + 1) fields).run m' >>= _ = _
    dsimp only
    rcases (declaredFields g (i + 1) fields).run m' with e | ⟨shown, m''⟩ <;> rfl

/-- What is gathered from the fields: the missing names and all names that they use. -/
theorem declaredFields_run (fields : List Field) (h : Readable fields) (i : Nat) :
    ∃ shown, ∀ g m, (declaredFields g i fields).run m =
      .ok (shown, ⟨missingAmong g (fieldNames fields) m.missing,
        (fieldNames fields).foldl (fun names n => insertNew n names) m.refs⟩) := by
  induction fields generalizing i with
  | nil => exact ⟨[], fun _ _ => rfl⟩
  | cons f fields ih =>
    obtain ⟨shown, hrest⟩ := ih (fun f' hf' => h f' (List.mem_cons_of_mem f hf')) (i + 1)
    have hf := h f List.mem_cons_self
    refine ⟨(f.label.getD (String.ofList (Decimal.natText i)) ++ ": " ++ shownType f.type) :: shown,
      fun g m => ?_⟩
    rw [declaredFields_run_cons]
    -- only a named type adds to what is gathered
    cases hread : Ty.read f.type.form with
    | known ty =>
      rw [declaredType_run_known hread, fieldNames, List.filterMap_cons, hread]
      dsimp only
      rw [hrest]
      rfl
    | named name =>
      obtain ⟨ty, htype⟩ := declaredType_run_named hread g m
      rw [htype, fieldNames, List.filterMap_cons, hread]
      dsimp only
      rw [hrest]
      rfl
    | unsupported => exact absurd hread hf

theorem readable_of_declaredFields {g : Globals} {i : Nat} {fields : List Field} {m : Mentions}
    {result : List String × Mentions} (h : (declaredFields g i fields).run m = .ok result) :
    Readable fields := by
  induction fields generalizing i m result with
  | nil => exact fun _ hf => absurd hf List.not_mem_nil
  | cons f fields ih =>
    rw [declaredFields_run_cons] at h
    intro f' hf' hread
    -- the first type that cannot be written ends the reading, so there is none
    rcases List.mem_cons.1 hf' with rfl | hf'
    · rw [declaredType_run_unsupported hread] at h
      cases h
    · split at h
      · cases h
      · split at h
        · cases h
        · rename_i hrest
          exact ih hrest f' hf' hread

/-! ## Understanding a declaration -/

theorem exists_of_bind_ok {ε α β : Type} {x : Except ε α} {f : α → Except ε β} {b : β}
    (h : x >>= f = .ok b) : ∃ a, x = .ok a ∧ f a = .ok b := by
  cases x with
  | error e => cases h
  | ok a => exact ⟨a, rfl, h⟩

/-- The names that a struct waits for. -/
def missingNames (g : Globals) (d : StructDecl) : List String :=
  missingAmong g (fieldNames d.fields) []

theorem mem_missingNames (g : Globals) (d : StructDecl) (name : String) :
    name ∈ missingNames g d ↔ name ∈ fieldNames d.fields ∧ g name ≠ some .struct := by
  rw [missingNames, mem_missingAmong]
  simp

theorem sorted_missingNames (g : Globals) (d : StructDecl) :
    (missingNames g d).Pairwise (· < ·) := sorted_missingAmong g _ .nil

theorem readable_of_analyzeStruct {g : Globals} {d : StructDecl} {a : Analysis}
    (h : analyzeStruct g d = .ok a) : d.generics = none ∧ Readable d.fields := by
  unfold analyzeStruct at h
  cases hgenerics : d.generics with
  | some span =>
    rw [hgenerics] at h
    cases h
  | none =>
    rw [hgenerics] at h
    obtain ⟨result, hfields, -⟩ := exists_of_bind_ok h
    exact ⟨rfl, readable_of_declaredFields hfields⟩

/-- What a struct is understood to be. The names of the session decide which names it waits for, and
nothing else. -/
theorem analyzeStruct_eq {d : StructDecl} (hgenerics : d.generics = none)
    (hfields : Readable d.fields) :
    ∃ signature doc, ∀ g, analyzeStruct g d = .ok {
      definition := .struct signature doc
      status := if (missingNames g d).isEmpty then .valid else .recoverableUndefined
      unresolved := missingNames g d
      refs := (fieldNames d.fields).foldl (fun names n => insertNew n names) [] } := by
  obtain ⟨shown, hrun⟩ := declaredFields_run d.fields hfields 0
  refine ⟨"struct " ++ d.name ++
    (if shown.isEmpty then "" else " \x7b " ++ ", ".intercalate shown ++ " \x7d"),
    String.ofList d.doc, fun g => ?_⟩
  unfold analyzeStruct
  rw [hgenerics]
  change (declaredFields g 0 d.fields).run {} >>= _ = _
  rw [hrun]
  rfl

/-- A function that is understood is valid or waits for names, and is defined in either case. -/
theorem analyzeFunction_ok {g : Globals} {header : FnHeader} {body : Block} {a : Analysis}
    (h : analyzeFunction g header body = .ok a) :
    (∃ f, a.definition = .function f) ∧ a.status.isDefined = true := by
  unfold analyzeFunction at h
  cases hgenerics : header.generics with
  | some span =>
    rw [hgenerics] at h
    cases h
  | none =>
    rw [hgenerics] at h
    obtain ⟨⟨⟨params, shown, result, resultShown⟩, mentions⟩, -, h⟩ := exists_of_bind_ok h
    obtain ⟨state, -, h⟩ := exists_of_bind_ok h
    obtain rfl := Except.ok.inj h
    refine ⟨⟨_, rfl⟩, ?_⟩
    dsimp only
    split <;> rfl

/-- A declaration that is understood takes part in the session. -/
theorem isActive_of_analyze {d : Declaration} {g : Globals} {a : Analysis}
    (h : d.analyze g = .ok a) : a.status.isActive = true := by
  cases d with
  | function header body => exact Status.isActive_of_isDefined (analyzeFunction_ok h).2
  | struct d =>
    obtain ⟨hgenerics, hfields⟩ := readable_of_analyzeStruct h
    obtain ⟨signature, doc, heq⟩ := analyzeStruct_eq hgenerics hfields
    obtain rfl := Except.ok.inj ((heq g).symm.trans h)
    dsimp only
    split <;> rfl

end Notebook.Guest

import Notebook.Proofs.Guest.Mentioned

/-!
# What a function is understood to be

A function is understood among the names of a session.  It is understood in the same way among other
names that differ only where it mentions nothing (`analyzeFunction_congr`), and it waits only for names
that stand for nothing, or not for what the function uses them as (`lacks_of_mem_unresolved`).
-/

namespace Notebook.Guest
open Notebook.Text Notebook.Syntax

namespace Uses

/-- The names of the types that are written with parameters. -/
def params : List Param → List (NameUse × String)
  | [] => []
  | .receiver _ :: ps => params ps
  | .typed _ t :: ps => type t ++ params ps

/-- The name of the type that is written after the arrow. -/
def result : Option TypeExpr → List (NameUse × String)
  | none => []
  | some t => type t

/-- The names that a function uses for something else than values, and as what. -/
def function (h : FnHeader) (body : Block) : List (NameUse × String) :=
  params h.params ++ result h.result ++ block body

end Uses

/-! ## Parameters and result -/

/-- Reading written types gathers the names that they use, and as missing those that lack a struct.
It comes to the same among other names that agree on those. -/
def Gathers (g : Globals) (us : List (NameUse × String)) {α : Type}
    (x : Globals → StateT Mentions (Except CheckError) α) : Prop :=
  ∀ (m : Mentions) (a : α) (m' : Mentions), (x g).run m = .ok (a, m') →
    (∀ n ∈ m.refs, n ∈ m'.refs) ∧ (∀ u ∈ us, u.2 ∈ m'.refs) ∧
      (∀ n ∈ m'.missing, n ∈ m.missing ∨ g.Lacks (· ∈ us) n) ∧
      ∀ g' : Globals, (∀ u ∈ us, g' u.2 = g u.2) → (x g').run m = .ok (a, m')

section

variable {g : Globals} {us vs : List (NameUse × String)} {α β : Type}

theorem Gathers.bind {x : Globals → StateT Mentions (Except CheckError) α}
    {f : Globals → α → StateT Mentions (Except CheckError) β} (hx : Gathers g us x)
    (hf : ∀ a, Gathers g vs (f · a)) : Gathers g (us ++ vs) fun g => x g >>= f g := by
  intro m b m'' hrun
  rw [StateT.run_bind] at hrun
  obtain ⟨⟨a, m'⟩, hxrun, hfrun⟩ := exists_of_bind_ok hrun
  obtain ⟨hrefs, hus, hmissing, hsame⟩ := hx m a m' hxrun
  obtain ⟨hrefs', hvs, hmissing', hsame'⟩ := hf a m' b m'' hfrun
  refine ⟨fun n hn => hrefs' n (hrefs n hn), fun u hu => ?_, fun n hn => ?_, fun g' hg' => ?_⟩
  · rcases List.mem_append.1 hu with hu | hu
    · exact hrefs' _ (hus u hu)
    · exact hvs u hu
  · rcases hmissing' n hn with hn | hlacks
    · rcases hmissing n hn with hn | hlacks
      · exact .inl hn
      · exact .inr (hlacks.mono fun u hu => List.mem_append_left vs hu)
    · exact .inr (hlacks.mono fun u hu => List.mem_append_right us hu)
  · obtain ⟨hus', hvs'⟩ := List.forall_mem_append.1 hg'
    rw [StateT.run_bind, hsame g' hus']
    exact hsame' g' hvs'

theorem gathers_pure (a : α) : Gathers g [] fun _ => pure a := by
  intro m b m' hrun
  cases hrun
  exact ⟨fun _ h => h, fun _ h => absurd h List.not_mem_nil, fun _ h => .inl h, fun _ _ => rfl⟩

theorem gathers_throw (e : CheckError) :
    Gathers g us fun _ => (throw e : StateT Mentions (Except CheckError) α) :=
  fun _ _ _ hrun => by cases hrun

theorem gathers_declaredType (t : TypeExpr) : Gathers g (Uses.type t) (declaredType · t) := by
  unfold Uses.type
  cases hread : Ty.read t.form with
  | known ty =>
    have heq : (declaredType · t) = fun _ => pure ty := funext fun g => by
      unfold declaredType
      rw [hread]
    rw [heq]
    exact gathers_pure ty
  | unsupported =>
    have heq : (declaredType · t) = fun _ => throw ⟨.unsupportedType, t.span⟩ := funext fun g => by
      unfold declaredType
      rw [hread]
    rw [heq]
    exact gathers_throw _
  | named n =>
    intro m ty m' hrun
    -- a struct or not, the name counts as mentioned
    obtain ⟨ty', hty⟩ := declaredType_run_named hread g m
    rw [hty] at hrun
    cases hrun
    refine ⟨fun other hother => ?_, fun u hu => ?_, fun other hother => ?_, fun g' hg' => ?_⟩
    · exact (mem_insertNew other n m.refs).2 (.inr hother)
    · rw [List.mem_singleton.1 hu]
      exact (mem_insertNew n n m.refs).2 (.inl rfl)
    · rcases (mem_missingAmong g [n] m.missing other).1 hother with hother | ⟨hother, hne⟩
      · exact .inl hother
      · rw [List.mem_singleton.1 hother] at hne ⊢
        exact .inr (Globals.lacks_of_ne_struct hne List.mem_cons_self)
    · have hg : g' n = g n := hg' (.asType, n) List.mem_cons_self
      have heq : declaredType g' t = declaredType g t := by
        unfold declaredType
        simp only [hread, hg]
      change (declaredType g' t).run m = _
      rw [heq]
      exact hty

theorem gathers_declaredParams (ps : List Param) :
    Gathers g (Uses.params ps) (declaredParams · ps) := by
  induction ps with
  | nil => exact gathers_pure _
  | cons p ps ih =>
    cases p with
    | receiver span => exact gathers_throw _
    | typed p t =>
      unfold declaredParams
      cases hp : bindingOf p with
      | error e => exact gathers_throw e
      | ok found =>
        have hrest := (gathers_declaredType (g := g) t).bind fun ty => ih.bind fun rest =>
          gathers_pure ((found.1, ty) :: rest.1, (found.1 ++ ": " ++ shownType t) :: rest.2)
        rw [List.append_nil] at hrest
        exact hrest

theorem gathers_declaredResult (result : Option TypeExpr) :
    Gathers g (Uses.result result) (declaredResult · result) := by
  cases result with
  | none => exact gathers_pure _
  | some t =>
    have hrest := (gathers_declaredType (g := g) t).bind fun ty =>
      gathers_pure (ty, some (shownType t))
    rw [List.append_nil] at hrest
    exact hrest

end

/-! ## The body -/

/-- The check of a function's body. -/
def bodyCheck (own : FnType) (params : List (String × Ty)) (body : Block) (g : Globals) : Check Unit := do
  params.forM fun (name, ty) => Check.declare name ty
  let found ← Check.block { globals := g, own := some own } false body
  if endsInValue body.stmts || own.result = .unit then
    expectType own.result found ((body.stmts.getLast?.map Stmt.span).getD body.span)

theorem checkBody_eq (g : Globals) (own : FnType) (params : List (String × Ty)) (body : Block) :
    checkBody g own params body = (·.2) <$> (bodyCheck own params body g).run {} := by
  unfold checkBody
  rfl

/-- What relates checks relates the checks of a body. -/
theorem Check.Alongside.body {g g' : Globals} {own : FnType} {U : NameUse × String → Prop}
    {R Q : ∀ {α : Type}, Check α → Check α → Prop}
    (h : Alongside { globals := g, own := some own } { globals := g', own := some own } U R Q)
    (params : List (String × Ty)) (body : Block) (hu : ∀ u ∈ Uses.block body, U u) :
    Q (bodyCheck own params body g) (bodyCheck own params body g') := by
  have hparams : Q (params.forM fun (name, ty) => Check.declare name ty : Check Unit)
      (params.forM fun (name, ty) => Check.declare name ty) := by
    induction params with
    | nil => exact h.weaken (h.pure _)
    | cons p params ih => exact h.then_ (h.declare p.1 p.2) fun _ => ih
  unfold bodyCheck
  refine h.then_ hparams fun _ => h.then_ (h.weaken (h.block false body hu)) fun found => h.weaken ?_
  split
  · exact h.lift _
  · exact h.pure _

/-- A body is checked in the same way among names that differ only where it mentions nothing. -/
theorem checkBody_congr {g g' : Globals} {own : FnType} {params : List (String × Ty)} {body : Block}
    {st : CheckState} (h : checkBody g own params body = .ok st)
    (hagree : ∀ n, st.Mentions n → g' n = g n)
    (hbuiltins : ∀ n, (.called, n) ∈ Uses.block body → (Builtin.find? n).isSome = true → g n = none →
      g' n = none) : checkBody g' own params body = .ok st := by
  rw [checkBody_eq] at h ⊢
  rcases hrun : (bodyCheck own params body g).run {} with e | ⟨a, t⟩
  · rw [hrun] at h
    cases h
  · rw [hrun] at h
    cases h
    have hown : (⟨g', some own⟩ : CheckContext).own = (⟨g, some own⟩ : CheckContext).own := rfl
    have hframed := (Check.framed hown).body params body
      fun u hu hcalled hfound hnone => hbuiltins u.2 (hcalled ▸ hu) hfound hnone
    rw [(hframed {} a t hrun).2 hagree]
    rfl

theorem checkBody_missing {g : Globals} {own : FnType} {params : List (String × Ty)} {body : Block}
    {st : CheckState} (h : checkBody g own params body = .ok st) {n : String} (hn : n ∈ st.missing) :
    g.Lacks (· ∈ Uses.block body) n := by
  rw [checkBody_eq] at h
  rcases hrun : (bodyCheck own params body g).run {} with e | ⟨a, t⟩
  · rw [hrun] at h
    cases h
  · rw [hrun] at h
    cases h
    have hblames := (Check.blames ⟨g, some own⟩ (· ∈ Uses.block body)).body params body fun _ hu => hu
    exact (hblames {} a t hrun n hn).resolve_left List.not_mem_nil

/-! ## The whole function -/

/-- What the header of a function says: its parameters and its result, and how they are shown. -/
def declaredHeader (g : Globals) (h : FnHeader) :
    StateT Mentions (Except CheckError) (List (String × Ty) × List String × Ty × Option String) := do
  let (params, shown) ← declaredParams g h.params
  let (result, resultShown) ← declaredResult g h.result
  return (params, shown, result, resultShown)

theorem gathers_declaredHeader {g : Globals} (h : FnHeader) :
    Gathers g (Uses.params h.params ++ Uses.result h.result) (declaredHeader · h) := by
  have hboth := (gathers_declaredParams (g := g) h.params).bind fun params =>
    (gathers_declaredResult h.result).bind fun result =>
      gathers_pure (params.1, params.2, result.1, result.2)
  rw [List.append_nil] at hboth
  exact hboth

/-- What a function is understood to be once its header and its body have been read. -/
def understood (h : FnHeader) (body : Block)
    (found : List (String × Ty) × List String × Ty × Option String) (mentions : Mentions)
    (st : CheckState) : Analysis :=
  let missing := st.missing.foldl (fun names n => insertOrdered n names) mentions.missing
  let arrow := match found.2.2.2 with
    | some s => " -> " ++ s
    | none => ""
  { definition := .function {
      name := h.name, params := found.1, result := found.2.2.1, body
      signature := "fn " ++ h.name ++ "(" ++ ", ".intercalate found.2.1 ++ ")" ++ arrow
      doc := String.ofList h.doc }
    status := if missing.isEmpty then .valid else .recoverableDefined
    unresolved := missing
    refs := (st.referenced ++ missing).foldl (fun names n => insertNew n names) mentions.refs }

theorem analyzeFunction_eq {h : FnHeader} (hgenerics : h.generics = none) (body : Block) (g : Globals) :
    analyzeFunction g h body = (declaredHeader g h).run {} >>= fun p =>
      checkBody g ⟨h.name, p.1.1.map (·.2), p.1.2.2.1⟩ p.1.1 body >>= fun st =>
        .ok (understood h body p.1 p.2 st) := by
  unfold analyzeFunction
  rw [hgenerics]
  rfl

/-- A function that is understood has had its header and its body read. -/
theorem understood_of_analyzeFunction {g : Globals} {h : FnHeader} {body : Block} {a : Analysis}
    (ha : analyzeFunction g h body = .ok a) :
    h.generics = none ∧ ∃ found mentions st,
      (declaredHeader g h).run {} = .ok (found, mentions) ∧
      checkBody g ⟨h.name, found.1.map (·.2), found.2.2.1⟩ found.1 body = .ok st ∧
      a = understood h body found mentions st := by
  cases hgenerics : h.generics with
  | some span =>
    unfold analyzeFunction at ha
    rw [hgenerics] at ha
    cases ha
  | none =>
    rw [analyzeFunction_eq hgenerics] at ha
    obtain ⟨⟨found, mentions⟩, hheader, ha⟩ := exists_of_bind_ok ha
    obtain ⟨st, hbody, ha⟩ := exists_of_bind_ok ha
    exact ⟨rfl, found, mentions, st, hheader, hbody, (Except.ok.inj ha).symm⟩

theorem mem_foldl_insertOrdered (a : String) (new names : List String) :
    a ∈ new.foldl (fun names n => insertOrdered n names) names ↔ a ∈ new ∨ a ∈ names := by
  induction new generalizing names with
  | nil => simp
  | cons n new ih =>
    rw [List.foldl_cons, ih, mem_insertOrdered, List.mem_cons]
    tauto

section

variable (h : FnHeader) (body : Block) (found : List (String × Ty) × List String × Ty × Option String)
  (mentions : Mentions) (st : CheckState) (n : String)

theorem mem_unresolved_understood :
    n ∈ (understood h body found mentions st).unresolved ↔ n ∈ st.missing ∨ n ∈ mentions.missing :=
  mem_foldl_insertOrdered n st.missing mentions.missing

theorem mem_refs_understood :
    n ∈ (understood h body found mentions st).refs ↔
      (n ∈ st.referenced ∨ n ∈ st.missing ∨ n ∈ mentions.missing) ∨ n ∈ mentions.refs := by
  rw [← mem_unresolved_understood h body found, ← List.mem_append]
  exact mem_foldl_insertNew n _ mentions.refs

end

/-- A function is valid if it is understood and misses nothing, and else it waits. -/
theorem status_of_analyzeFunction {g : Globals} {h : FnHeader} {body : Block} {a : Analysis}
    (ha : analyzeFunction g h body = .ok a) :
    a.status = if a.unresolved.isEmpty then .valid else .recoverableDefined := by
  obtain ⟨-, found, mentions, st, -, -, rfl⟩ := understood_of_analyzeFunction ha
  rfl

/-- All that a function waits for counts as mentioned. -/
theorem unresolved_subset_refs {g : Globals} {h : FnHeader} {body : Block} {a : Analysis}
    (ha : analyzeFunction g h body = .ok a) {n : String} (hn : n ∈ a.unresolved) : n ∈ a.refs := by
  obtain ⟨-, found, mentions, st, -, -, rfl⟩ := understood_of_analyzeFunction ha
  exact (mem_refs_understood h body found mentions st n).2
    (.inl (.inr ((mem_unresolved_understood h body found mentions st n).1 hn)))

/-- Among names that differ only where a function mentions nothing, it is understood in the same way.
A built-in function that is called is not mentioned, so its name must not be taken. -/
theorem analyzeFunction_congr {g g' : Globals} {h : FnHeader} {body : Block} {a : Analysis}
    (ha : analyzeFunction g h body = .ok a) (hagree : ∀ n ∈ a.refs, g' n = g n)
    (hbuiltins : ∀ n, (.called, n) ∈ Uses.function h body → (Builtin.find? n).isSome = true →
      g n = none → g' n = none) : analyzeFunction g' h body = .ok a := by
  obtain ⟨hgenerics, found, mentions, st, hheader, hbody, rfl⟩ := understood_of_analyzeFunction ha
  have hrefs := mem_refs_understood h body found mentions st
  obtain ⟨-, hus, -, hsame⟩ := gathers_declaredHeader (g := g) h {} found mentions hheader
  rw [analyzeFunction_eq hgenerics, hsame g' fun u hu => hagree u.2 ((hrefs u.2).2 (.inr (hus u hu)))]
  -- all that the body mentions is among what the whole function mentions
  have hagree' (n : String) (hn : st.Mentions n) : g' n = g n :=
    hagree n ((hrefs n).2 (.inl (hn.imp_right .inl)))
  have hbody' := checkBody_congr hbody hagree'
    fun n hn => hbuiltins n (List.mem_append_right _ hn)
  change (checkBody g' _ _ _ >>= _) = _
  rw [hbody']
  rfl

/-- A function waits only for names that stand for nothing, or not for what it uses them as. -/
theorem lacks_of_mem_unresolved {g : Globals} {h : FnHeader} {body : Block} {a : Analysis}
    (ha : analyzeFunction g h body = .ok a) {n : String} (hn : n ∈ a.unresolved) :
    g.Lacks (· ∈ Uses.function h body) n := by
  obtain ⟨-, found, mentions, st, hheader, hbody, rfl⟩ := understood_of_analyzeFunction ha
  rcases (mem_unresolved_understood h body found mentions st n).1 hn with hn | hn
  · exact (checkBody_missing hbody hn).mono fun u hu => List.mem_append_right _ hu
  · obtain ⟨-, -, hmissing, -⟩ := gathers_declaredHeader (g := g) h {} found mentions hheader
    exact ((hmissing n hn).resolve_left List.not_mem_nil).mono fun u hu => List.mem_append_left _ hu

end Notebook.Guest

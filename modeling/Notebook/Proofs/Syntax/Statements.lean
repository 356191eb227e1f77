import Notebook.Syntax.Grammar

/-!
# Statements read part by part

A semicolon outside of brackets ends a part, so trees that are put together behind one have the parts of
both (`parts_append`).  Where the parts of trees are those of several lists one after the other, the
statements are too (`readStmts_of_parts`).
-/

namespace Notebook.Syntax
open Notebook.Text

/-- A semicolon after which nothing is known to follow. -/
def semicolon (s : Span) : TokenTree := .punct ';' false s

/-! ## The parts of token trees -/

theorem parts_semicolon (joint : Bool) (s : Span) (rest : List TokenTree) :
    parts (.punct ';' joint s :: rest) = [semicolon s] :: parts rest := by
  simp only [parts, semicolon]

theorem parts_cons {t : TokenTree} (ht : ∀ joint s, t ≠ .punct ';' joint s) (rest : List TokenTree) :
    parts (t :: rest) =
      match parts rest with
      | [] => [[t]]
      | part :: others => (t :: part) :: others := by
  cases hrest : parts rest <;> cases t <;> simp_all [parts]

theorem parts_ne_nil {trees : List TokenTree} (h : trees ≠ []) : parts trees ≠ [] := by
  cases trees with
  | nil => exact absurd rfl h
  | cons t rest =>
    by_cases ht : ∃ joint s, t = .punct ';' joint s
    · obtain ⟨joint, s, rfl⟩ := ht
      rw [parts_semicolon]
      exact List.cons_ne_nil _ _
    · rw [parts_cons fun joint s h => ht ⟨joint, s, h⟩]
      split <;> exact List.cons_ne_nil _ _

/-- What stands behind a semicolon has its own parts. -/
theorem parts_append (before : List TokenTree) (joint : Bool) (s : Span) (behind : List TokenTree) :
    parts (before ++ .punct ';' joint s :: behind) = parts (before ++ [semicolon s]) ++ parts behind := by
  induction before with
  | nil =>
    show parts (.punct ';' joint s :: behind) = parts [semicolon s] ++ parts behind
    rw [semicolon, parts_semicolon, parts_semicolon]
    rfl
  | cons t before ih =>
    rw [List.cons_append, List.cons_append]
    by_cases ht : ∃ joint s, t = .punct ';' joint s
    · obtain ⟨joint', s', rfl⟩ := ht
      rw [parts_semicolon, parts_semicolon, ih, List.cons_append]
    · have ht : ∀ joint s, t ≠ .punct ';' joint s := fun joint s h => ht ⟨joint, s, h⟩
      rw [parts_cons ht, parts_cons ht, ih]
      -- the first part goes on up to the semicolon at the latest
      cases hparts : parts (before ++ [semicolon s]) with
      | nil => exact absurd hparts (parts_ne_nil (List.append_ne_nil_of_right_ne_nil _ (by simp)))
      | cons part others => rfl

/-- A part holds what there was, but for the semicolon at its end. -/
theorem mem_of_mem_parts {trees part : List TokenTree} (h : part ∈ parts trees) {t : TokenTree}
    (ht : t ∈ part) : t ∈ trees ∨ ∃ s, t = semicolon s := by
  induction trees generalizing part with
  | nil => exact absurd h List.not_mem_nil
  | cons u rest ih =>
    have hrest {part : List TokenTree} (h : part ∈ parts rest) (ht : t ∈ part) :
        t ∈ u :: rest ∨ ∃ s, t = semicolon s := (ih h ht).imp_left (List.mem_cons_of_mem u)
    by_cases hu : ∃ joint s, u = .punct ';' joint s
    · obtain ⟨joint, s, rfl⟩ := hu
      rw [parts_semicolon] at h
      rcases List.mem_cons.1 h with rfl | h
      · exact .inr ⟨s, List.mem_singleton.1 ht⟩
      · exact hrest h ht
    · rw [parts_cons fun joint s h => hu ⟨joint, s, h⟩] at h
      split at h
      · rw [List.mem_singleton.1 h, List.mem_singleton] at ht
        exact .inl (ht ▸ List.mem_cons_self)
      · rename_i first others hparts
        rcases List.mem_cons.1 h with rfl | h
        · rcases List.mem_cons.1 ht with rfl | ht
          · exact .inl List.mem_cons_self
          · exact hrest (hparts ▸ List.mem_cons_self) ht
        · exact hrest (hparts ▸ List.mem_cons_of_mem first h) ht

/-! ## The statements of the parts -/

theorem readPart_eq_ok {part : List TokenTree} {stmts : List Stmt} {leftover : Option ParseError} :
    readPart part = .ok (stmts, leftover) ↔
      ∃ after, (grammar (depthFor part)).stmts.run { rest := part, scope := Span.none } = .ok (stmts, after) ∧
        after.leftover = leftover := by
  unfold readPart
  dsimp only
  cases hrun : (grammar (depthFor part)).stmts.run { rest := part, scope := Span.none } with
  | error e => simp [bind, Except.bind]
  | ok found =>
    obtain ⟨value, after⟩ := found
    simp only [bind, Except.bind, pure, Except.pure, Except.ok.injEq, Prod.mk.injEq]
    constructor
    · rintro ⟨rfl, rfl⟩
      exact ⟨after, ⟨rfl, rfl⟩, rfl⟩
    · rintro ⟨after, ⟨rfl, rfl⟩, rfl⟩
      exact ⟨rfl, rfl⟩

theorem mapM_readPart {ps : List (List TokenTree)} {reads : List (List Stmt × Option ParseError)} :
    ps.mapM readPart = .ok reads ↔ ps.map readPart = reads.map .ok := by
  induction ps generalizing reads with
  | nil => cases reads <;> simp [pure, Except.pure]
  | cons part ps ih =>
    rw [List.mapM_cons, List.map_cons]
    cases hpart : readPart part with
    | error e => cases reads <;> simp [bind, Except.bind]
    | ok read =>
      cases hps : ps.mapM readPart with
      | error e =>
        cases reads with
        | nil => simp [bind, Except.bind]
        | cons _ reads =>
          have hne : ps.map readPart ≠ reads.map .ok := fun h => by
            rw [ih.2 h] at hps
            cases hps
          simp [bind, Except.bind, hne]
      | ok others =>
        cases reads with
        | nil => simp [bind, Except.bind, pure, Except.pure]
        | cons _ reads =>
          have hiff : others = reads ↔ ps.map readPart = reads.map .ok := by
            rw [← ih, hps, Except.ok.injEq]
          simp [bind, Except.bind, pure, Except.pure, hiff]

theorem readStmts_of_findSome?_none {trees : List TokenTree} {reads : List (List Stmt × Option ParseError)}
    (hreads : (parts trees).mapM readPart = .ok reads) (hnone : reads.findSome? (·.2) = none) :
    readStmts trees = .ok (reads.map (·.1)).flatten := by
  unfold readStmts
  rw [hreads, ← List.flatMap_def]
  dsimp only [bind, Except.bind]
  rw [hnone]
  rfl

theorem readStmts_of_findSome?_some {trees : List TokenTree} {reads : List (List Stmt × Option ParseError)}
    {e : ParseError} (hreads : (parts trees).mapM readPart = .ok reads)
    (hsome : reads.findSome? (·.2) = some e) : readStmts trees = .error e := by
  unfold readStmts
  rw [hreads]
  dsimp only [bind, Except.bind]
  rw [hsome]
  rfl

theorem readStmts_of_error {trees : List TokenTree} {e : ParseError}
    (hreads : (parts trees).mapM readPart = .error e) : readStmts trees = .error e := by
  unfold readStmts
  rw [hreads]
  rfl

/-- Trees have statements if all of their parts have some, with nothing left over in a group. -/
theorem readStmts_eq_ok {trees : List TokenTree} {stmts : List Stmt} :
    readStmts trees = .ok stmts ↔
      ∃ each : List (List Stmt), (parts trees).map readPart = each.map (fun ss => .ok (ss, none)) ∧
        stmts = each.flatten := by
  constructor
  · intro h
    cases hreads : (parts trees).mapM readPart with
    | error e =>
      rw [readStmts_of_error hreads] at h
      cases h
    | ok reads =>
      cases hleft : reads.findSome? (·.2) with
      | some e =>
        rw [readStmts_of_findSome?_some hreads hleft] at h
        cases h
      | none =>
        rw [readStmts_of_findSome?_none hreads hleft] at h
        cases h
        refine ⟨reads.map (·.1), ?_, rfl⟩
        rw [mapM_readPart.1 hreads, List.map_map]
        refine List.map_congr_left fun read hread => ?_
        have hnone : read.2 = none := List.findSome?_eq_none_iff.1 hleft read hread
        show Except.ok read = .ok (read.1, none)
        rw [← hnone]
  · rintro ⟨each, hparts, rfl⟩
    have hreads : (parts trees).mapM readPart = .ok (each.map fun ss => (ss, none)) := by
      rw [mapM_readPart, hparts, List.map_map]
      rfl
    have hnone : (each.map fun ss => (ss, (none : Option ParseError))).findSome? (·.2) = none := by
      simp
    rw [readStmts_of_findSome?_none hreads hnone, List.map_map]
    exact congrArg (fun each => Except.ok each.flatten) (List.map_id each)

/-- Trees with the parts of several lists of trees have their statements, one list after the other. -/
theorem readStmts_of_parts {trees : List TokenTree} {lists : List (List TokenTree)} {stmts : List Stmt}
    (hparts : parts trees = lists.flatMap parts) (h : readStmts trees = .ok stmts) :
    ∃ each : List (List Stmt), lists.map readStmts = each.map .ok ∧ stmts = each.flatten := by
  obtain ⟨reads, hreads, rfl⟩ := readStmts_eq_ok.1 h
  rw [hparts] at hreads
  clear h hparts
  induction lists generalizing reads with
  | nil =>
    refine ⟨[], rfl, ?_⟩
    rw [List.flatMap_nil, List.map_nil] at hreads
    rw [List.map_eq_nil_iff.1 hreads.symm]
  | cons first lists ih =>
    rw [List.flatMap_cons, List.map_append] at hreads
    obtain ⟨these, others, rfl, hthese, hothers⟩ := List.map_eq_append_iff.1 hreads.symm
    obtain ⟨each, heach, hflat⟩ := ih others hothers.symm
    refine ⟨these.flatten :: each, ?_, ?_⟩
    · rw [List.map_cons, List.map_cons, heach, readStmts_eq_ok.2 ⟨these, hthese.symm, rfl⟩]
    · rw [List.flatten_append, List.flatten_cons, hflat]

end Notebook.Syntax

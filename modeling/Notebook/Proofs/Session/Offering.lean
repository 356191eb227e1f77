import Notebook.Proofs.Guest.Imported
import Notebook.Proofs.Session.Completion

/-!
# What is offered while code is typed

Every name that means something to code, and every built-in function, is among the suggestions for a caret
behind a start of the name (`usable_names_are_offered`). Suggestions go through the snippets by number and sort
out those that are not what their name stands for; code asks for a name. The two come to the same since a name
is bound to a snippet that has it and takes part in the session, and since no snippet that means something is
passed over as an import.
-/

namespace Notebook
open Notebook.Text Notebook.Scan Notebook.Guest

/-! ## Suggestions without repetition -/

/-- None of the earlier suggestions has the continuation. -/
def isFirst (earlier : List Suggestion) (s : Suggestion) : Bool :=
  earlier.all fun e => e.continuation ≠ s.continuation

/-- The suggestions that no earlier one has the continuation of. -/
def firstOnes (ss : List Suggestion) : List Suggestion :=
  (ss.zipIdx.filter fun p => isFirst (ss.take p.2) p.1).map (·.1)

theorem isFirst_eq {seen : List String} {earlier : List Suggestion}
    (hseen : ∀ c, c ∈ seen ↔ c ∈ earlier.map (·.continuation)) (s : Suggestion) :
    isFirst earlier s = !seen.contains s.continuation := by
  unfold isFirst
  rw [Bool.eq_iff_iff, List.all_eq_true, Bool.not_eq_true', Bool.eq_false_iff, ne_eq, List.contains_iff_mem,
    hseen, List.mem_map]
  simp only [decide_eq_true_eq]
  exact ⟨fun h ⟨e, he, heq⟩ => h e he heq, fun h e he heq => h ⟨e, he, heq⟩⟩

/-- Behind suggestions whose continuations have been seen, those are kept that are the first ones of all. -/
theorem dedupeAfter_eq {seen : List String} (earlier ss : List Suggestion)
    (hseen : ∀ c, c ∈ seen ↔ c ∈ earlier.map (·.continuation)) :
    dedupeAfter seen ss =
      ((ss.zipIdx earlier.length).filter fun p => isFirst ((earlier ++ ss).take p.2) p.1).map (·.1) := by
  induction ss generalizing seen earlier with
  | nil => rfl
  | cons s ss ih =>
    have hsplit : earlier ++ s :: ss = (earlier ++ [s]) ++ ss := by
      rw [List.append_assoc, List.singleton_append]
    have hlength : (earlier ++ [s]).length = earlier.length + 1 := List.length_append
    have hfirst : isFirst ((earlier ++ s :: ss).take earlier.length) s = !seen.contains s.continuation := by
      rw [List.take_left, isFirst_eq hseen]
    rw [dedupeAfter, List.zipIdx_cons]
    cases hs : seen.contains s.continuation with
    | true =>
      rw [hs] at hfirst
      rw [List.filter_cons_of_neg (by exact Bool.eq_false_iff.1 hfirst), hsplit, ← hlength]
      refine ih (earlier ++ [s]) fun c => ?_
      -- the continuation that comes in has been seen before
      rw [hseen, List.map_append, List.mem_append]
      refine ⟨.inl, fun hc => hc.elim id fun hc => ?_⟩
      rw [List.map_singleton, List.mem_singleton] at hc
      rw [hc, ← hseen]
      exact List.contains_iff_mem.1 hs
    | false =>
      rw [hs] at hfirst
      rw [List.filter_cons_of_pos (by exact hfirst), hsplit, ← hlength]
      refine congrArg (s :: ·) (ih (earlier ++ [s]) fun c => ?_)
      rw [List.mem_cons, hseen, List.map_append, List.mem_append, List.map_singleton, List.mem_singleton]
      exact or_comm

theorem dedupe_eq_firstOnes (ss : List Suggestion) : dedupe ss = firstOnes ss :=
  dedupeAfter_eq [] ss fun _ => Iff.rfl

theorem nodup_dedupeAfter (seen : List String) (ss : List Suggestion) :
    (∀ s ∈ dedupeAfter seen ss, s.continuation ∉ seen) ∧
      ((dedupeAfter seen ss).map (·.continuation)).Nodup := by
  fun_induction dedupeAfter seen ss with
  | case1 => exact ⟨fun s hs => absurd hs List.not_mem_nil, List.nodup_nil⟩
  | case2 seen s ss hseen ih => exact ih
  | case3 seen s ss hseen ih =>
    obtain ⟨hnew, hnodup⟩ := ih
    refine ⟨List.forall_mem_cons.2 ⟨fun hs => hseen (List.contains_iff_mem.2 hs), fun e he hes => ?_⟩,
      List.nodup_cons.2 ⟨fun hs => ?_, hnodup⟩⟩
    · exact hnew e he (List.mem_cons_of_mem _ hes)
    · obtain ⟨e, he, heq⟩ := List.mem_map.1 hs
      exact hnew e he (heq ▸ List.mem_cons_self)

/-- No continuation gets lost. -/
theorem exists_mem_dedupeAfter {seen : List String} {ss : List Suggestion} {s : Suggestion} (h : s ∈ ss)
    (hnew : s.continuation ∉ seen) : ∃ s' ∈ dedupeAfter seen ss, s'.continuation = s.continuation := by
  fun_induction dedupeAfter seen ss with
  | case1 => cases h
  | case2 seen e ss hseen ih =>
    rcases List.mem_cons.1 h with rfl | h
    · exact absurd (List.contains_iff_mem.1 hseen) hnew
    · exact ih h hnew
  | case3 seen e ss hseen ih =>
    by_cases hes : s.continuation = e.continuation
    · exact ⟨e, List.mem_cons_self, hes.symm⟩
    · have hrest := (List.mem_cons.1 h).resolve_left fun hse => hes (congrArg _ hse)
      obtain ⟨s', hs', heq⟩ := ih hrest fun hc => (List.mem_cons.1 hc).elim hes hnew
      exact ⟨s', List.mem_cons_of_mem _ hs', heq⟩

/-! ## Names -/

/-- The suggestion is of the name, alone or with the bracket that its arguments open with. -/
def Suggestion.Offers (c : Suggestion) (name : String) : Prop :=
  c.continuation = name ∨ c.continuation = name ++ "("

namespace Guest.Store

variable {s : Store} {name : String}

/-- Code can use the name: it stands for a variable, a function, a struct or a host object, or is the name of
a built-in function. -/
def Usable (s : Store) (name : String) : Prop :=
  (s.globals name).isSome = true ∨ (Builtin.find? name).isSome = true

theorem globals_of_bound? {r : Record} (h : s.bound? name = some r) :
    s.globals name = r.definition.meaning? := by
  unfold globals
  rw [h]
  dsimp only
  cases r.definition <;> rfl

theorem globals_of_bound?_eq_none (h : s.bound? name = none) :
    s.globals name = (s.host? name).map fun object => .host object.typeName object.methods := by
  unfold globals
  rw [h]

/-- The snippet that a name is bound to, if it is defined, is the one that the name stands for. -/
theorem exists_isCurrent (hbound : s.Bound) (hunmixed : s.Each Record.Unmixed) {r : Record}
    (h : s.bound? name = some r) (hmeaning : r.definition.meaning?.isSome = true) :
    ∃ id, s.record? id = some r ∧ r.name = some name ∧ s.isCurrent id r name = true := by
  obtain ⟨id, hid, hr⟩ := Option.bind_eq_some_iff.1 h
  obtain ⟨r', hr', hdefined⟩ := Option.bind_eq_some_iff.1 hr
  split_ifs at hdefined with hactive
  obtain rfl := Option.some.inj hdefined
  obtain ⟨r₁, hr₁, hname, hactive⟩ := hbound name id hid
  cases hr₁.symm.trans hr'
  have hkey : ¬ IsImportKey name := by
    intro hkey
    rw [(hunmixed id r' hr' name hname hkey).2] at hmeaning
    cases hmeaning
  refine ⟨id, hr', hname, ?_⟩
  unfold isCurrent
  rw [hactive, hid, Bool.true_and, beq_self_eq_true, Bool.and_true, Bool.not_eq_true', Bool.eq_false_iff]
  exact fun hprefix => hkey (List.isPrefixOf_iff_prefix.1 hprefix)

theorem exists_snippetSuggestion? {id : SnippetId} {r : Record} (hname : r.name = some name)
    (hcurrent : s.isCurrent id r name = true) (wanted : Ty → Bool) :
    ∃ c, s.snippetSuggestion? wanted (id, r) = some c ∧ c.Offers name := by
  unfold snippetSuggestion?
  dsimp only
  rw [hname, Option.bind_eq_bind, Option.bind_some, hcurrent]
  cases r.definition with
  | function f => exact ⟨_, rfl, .inr rfl⟩
  | «variable» ty v => exact ⟨_, rfl, .inl rfl⟩
  | struct signature doc => exact ⟨_, rfl, .inl rfl⟩
  | none => exact ⟨_, rfl, .inl rfl⟩
  | imports => exact ⟨_, rfl, .inl rfl⟩

/-- What can be used can be named. -/
theorem exists_mem_names (hbound : s.Bound) (hunmixed : s.Each Record.Unmixed) (h : s.Usable name)
    (wanted : Ty → Bool) : ∃ c ∈ s.names wanted, c.Offers name := by
  unfold names
  simp only [List.mem_append]
  rcases h with hmeaning | hbuiltin
  · cases hr : s.bound? name with
    | some r =>
      rw [globals_of_bound? hr] at hmeaning
      obtain ⟨id, hid, hname, hcurrent⟩ := exists_isCurrent hbound hunmixed hr hmeaning
      obtain ⟨c, hc, hoffers⟩ := exists_snippetSuggestion? hname hcurrent wanted
      exact ⟨c, .inl (.inl (.inl (.inl (List.mem_filterMap.2 ⟨_, mem_numbered hid, hc⟩)))), hoffers⟩
    | none =>
      rw [globals_of_bound?_eq_none hr, Option.isSome_map] at hmeaning
      obtain ⟨object, hobject⟩ := Option.isSome_iff_exists.1 hmeaning
      have hmem : (name, object) ∈ s.hosts := Table.mem_of_get? hobject
      exact ⟨_, .inl (.inl (.inl (.inr (List.mem_map_of_mem hmem)))), .inl rfl⟩
  · obtain ⟨b, hb⟩ := Option.isSome_iff_exists.1 hbuiltin
    unfold Builtin.find? at hb
    have hname : b.name = name := by simpa using List.find?_some hb
    have hmem : b ∈ Builtin.all := List.mem_of_find?_eq_some hb
    exact ⟨_, .inl (.inl (.inr (List.mem_map_of_mem hmem))), .inr (congrArg (· ++ "(") hname)⟩

/-- Before the word at the end of a text there is no point if there is none right before the word. -/
theorem beforePoint?_eq_none {before : List Char} (h : ¬ '.' :: lastWord before <:+ before) :
    beforePoint? (before.take (before.length - (lastWord before).length)) = none := by
  have hsplit := take_append_lastWord before
  generalize before.take (before.length - (lastWord before).length) = front at *
  refine if_neg fun hlast => h ?_
  obtain ⟨receiver, rfl⟩ := List.getLast?_eq_some_iff.1 hlast
  rw [List.append_assoc] at hsplit
  exact ⟨receiver, hsplit⟩

/-- Where no point is before the word at the caret, all is offered that can be used and goes on from the
word. -/
theorem exists_mem_completions (hbound : s.Bound) (hunmixed : s.Each Record.Unmixed) (h : s.Usable name)
    {text : List Char} {caret : Nat}
    (hpoint : ¬ '.' :: lastWord (takeBytes text caret) <:+ takeBytes text caret)
    (hfits : lastWord (takeBytes text caret) <+: name.toList) :
    ∃ c ∈ (s.completions text caret).1, c.Offers name := by
  unfold completions
  dsimp only
  rw [beforePoint?_eq_none hpoint]
  dsimp only
  obtain ⟨c, hc, hoffers⟩ := exists_mem_names hbound hunmixed h _
  refine ⟨c, List.mem_filter.2 ⟨hc, List.isPrefixOf_iff_prefix.2 ?_⟩, hoffers⟩
  rcases hoffers with heq | heq
  · rw [heq]
    exact hfits
  · rw [heq, String.toList_append]
    exact hfits.trans (List.prefix_append ..)

end Guest.Store

/-- Whatever has been asked of an engine, and wherever the caret is in a text, the suggestions are those that
the engine finds, in its order and each continuation once, and all go on from the word before the caret. Where
no point is before the word, every name is among them that code can use and that goes on from the word. -/
theorem usable_names_are_offered {σ : Type} (calls : HostCalls σ) (requests : List (Request σ)) (w : σ)
    (k : Kernel) (hk : k.store = (Engine.live calls requests {} w).2.1) (text : List Char) (caret : Nat) :
    let before := takeBytes text (floorOffset text caret)
    let found := (k.complete text caret).suggestions
    (¬ '.' :: lastWord before <:+ before → ∀ name, k.store.Usable name → lastWord before <+: name.toList →
        ∃ c ∈ found, c.Offers name) ∧
      (found.map (·.continuation)).Nodup ∧
      (∀ c ∈ found, lastWord before <+: c.continuation.toList) ∧
      found = firstOnes (k.store.completions text (floorOffset text caret)).1 := by
  intro before found
  have hfound : found = dedupe (k.store.completions text (floorOffset text caret)).1 := rfl
  obtain ⟨hunmixed, hbound⟩ := Engine.each_unmixed_live calls requests Store.each_empty bound_empty w
  rw [← hk] at hunmixed hbound
  refine ⟨fun hpoint name husable hfits => ?_, (nodup_dedupeAfter [] _).2, fun c hc => ?_,
    hfound.trans (dedupe_eq_firstOnes _)⟩
  · obtain ⟨c, hc, hoffers⟩ := Store.exists_mem_completions hbound hunmixed husable hpoint hfits
    obtain ⟨c', hc', heq⟩ := exists_mem_dedupeAfter hc List.not_mem_nil
    refine ⟨c', hc', ?_⟩
    unfold Suggestion.Offers
    rw [heq]
    exact hoffers
  · exact Store.lastWord_prefix_of_mem_completions ((dedupe_sublist _).subset hc)

/-- A host object, a function that takes its name, a variable twice, and a function that waits for another. -/
def competingNames : List (Request Unit) := [
  .bindHost "total" { typeName := "Counter", identity := 1 },
  .evaluate 20 "let tower = 1; let tower = 2;".toList,
  .evaluate 20 "fn total() -> i64 { tower }".toList,
  .evaluate 20 "fn toll() -> i64 { absent() }".toList]

/-- A kernel of which the competing names have been asked. -/
def competingKernel : Kernel :=
  { session := 1, config := {}, store := (Engine.live errorCalls competingNames {} ()).2.1 }

theorem competing_total_is_offered :
    ¬ '.' :: lastWord (takeBytes "1 + to".toList 6) <:+ takeBytes "1 + to".toList 6 ∧
      competingKernel.store.Usable "total" ∧
      ∃ c ∈ (competingKernel.complete "1 + to".toList 6).suggestions, c.Offers "total" := by
  have hpoint : ¬ '.' :: lastWord (takeBytes "1 + to".toList 6) <:+ takeBytes "1 + to".toList 6 := by decide
  have husable : competingKernel.store.Usable "total" := .inl (by decide +kernel)
  exact ⟨hpoint, husable, (usable_names_are_offered errorCalls competingNames () competingKernel rfl
    "1 + to".toList 6).1 hpoint "total" husable (by decide)⟩

end Notebook

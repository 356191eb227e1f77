import Mathlib.Data.List.Perm.Basic
import Mathlib.Data.String.Basic
import Mathlib.Data.List.DropRight
import Mathlib.Order.Basic
import Notebook.Capability.Registry

/-!
# Sessions do not see each other in the registry

All sessions share one registry.  What a call answers, and what it leaves of the entries of its session,
depends on the entries of its session alone; and it leaves those of the others as they are.  So a session
sees just what it would see if it were the only one (`sessions_do_not_interfere`).
-/

namespace Notebook.Registry

variable {σ τ α : Type} [DecidableEq σ]

/-! ## The entries of a session -/

/-- The entries of a session with their keys. -/
def partOf (r : Registry σ τ α) (session : σ) : Registry σ τ α :=
  Table.part r fun key => key.1 = session

theorem ofSession_eq (r : Registry σ τ α) (session : σ) :
    r.ofSession session = (r.partOf session).map (·.2) := rfl

theorem partOf_cleanup {session id : σ} (h : id ≠ session) (r : Registry σ τ α) :
    partOf (r.cleanup session).2 id = partOf r id := by
  unfold partOf Table.part cleanup
  rw [List.filter_filter]
  refine List.filter_congr fun entry _ => ?_
  by_cases hentry : entry.1.1 = id
  · simp [hentry, h]
  · simp [hentry]

theorem partOf_cleanup_self (r : Registry σ τ α) (session : σ) :
    partOf (r.cleanup session).2 session = [] := by
  unfold partOf Table.part cleanup
  rw [List.filter_filter, List.filter_eq_nil_iff]
  simp

theorem ofSession_cleanup {session id : σ} (h : id ≠ session) (r : Registry σ τ α) :
    ofSession (r.cleanup session).2 id = ofSession r id := by
  rw [ofSession_eq, ofSession_eq, partOf_cleanup h]

theorem ofSession_cleanup_self (r : Registry σ τ α) (session : σ) :
    ofSession (r.cleanup session).2 session = [] := by
  rw [ofSession_eq, partOf_cleanup_self, List.map_nil]

variable [DecidableEq τ]

/-- An instance that is taken out again leaves no trace. -/
theorem remove_register {r : Registry σ τ α} {session : σ} {type : τ} (h : r.instance? session type = none)
    (name : String) (a : α) : (r.register session type name a).2.remove session type = r := by
  unfold register
  rw [h]
  exact Table.erase_put_of_get?_none (Option.map_eq_none_iff.1 h) _

theorem partOf_put (r : Registry σ τ α) (session id : σ) (type : τ) (e : RegistryEntry α) :
    partOf (r.put (session, type) e) id =
      if session = id then (r.partOf id).put (session, type) e else r.partOf id := by
  unfold partOf
  rw [Table.part_put]
  simp only [decide_eq_true_eq]

theorem partOf_remove (r : Registry σ τ α) (session id : σ) (type : τ) :
    partOf (r.remove session type) id =
      if session = id then (r.partOf id).remove session type else r.partOf id := by
  unfold partOf remove
  rw [Table.part_erase]
  simp only [decide_eq_true_eq]

theorem instance?_partOf (r : Registry σ τ α) (session : σ) (type : τ) :
    (r.partOf session).instance? session type = r.instance? session type := by
  unfold instance? partOf
  rw [Table.get?_part r (decide_eq_true rfl)]

theorem partOf_register {session id : σ} (h : id ≠ session) (r : Registry σ τ α) (type : τ)
    (name : String) (a : α) : partOf (r.register session type name a).2 id = partOf r id := by
  unfold register
  split
  · rfl
  · exact (partOf_put r session id type _).trans (if_neg h.symm)

theorem ofSession_remove {session id : σ} (h : id ≠ session) (r : Registry σ τ α) (type : τ) :
    ofSession (r.remove session type) id = ofSession r id := by
  rw [ofSession_eq, ofSession_eq, partOf_remove, if_neg h.symm]

theorem ofSession_register {session id : σ} (h : id ≠ session) (r : Registry σ τ α) (type : τ)
    (name : String) (a : α) : ofSession (r.register session type name a).2 id = ofSession r id := by
  rw [ofSession_eq, ofSession_eq, partOf_register h]

/-! ## Calls -/

/-- A call on the registry. It is made for a session. -/
inductive Call (σ τ α : Type)
  | register (session : σ) (type : τ) (name : String) (a : α)
  | remove (session : σ) (type : τ)
  | cleanup (session : σ)

/-- What a call answers: the instance that is registered afterwards, whether there was one to remove, or
how many there were. -/
inductive CallAnswer (α : Type)
  | registered (a : α)
  | removed (found : Bool)
  | cleaned (count : Nat)

namespace Call

/-- The session that a call is made for. -/
def session : Call σ τ α → σ
  | register s _ _ _ | remove s _ | cleanup s => s

/-- Makes a call. -/
def perform (r : Registry σ τ α) : Call σ τ α → CallAnswer α × Registry σ τ α
  | register s type name a => let (b, r) := r.register s type name a; (.registered b, r)
  | remove s type => (.removed (r.instance? s type).isSome, r.remove s type)
  | cleanup s => let (n, r) := r.cleanup s; (.cleaned n, r)

/-- Whether there may be no instance of a type in a session any more. -/
def frees (s : σ) (type : τ) : Call σ τ α → Bool
  | register .. => false
  | remove s' type' => s' = s ∧ type' = type
  | cleanup s' => s' = s

/-- The instance of a type that is offered to a session. -/
def offer? (s : σ) (type : τ) : Call σ τ α → Option α
  | register s' type' _ a => if s' = s ∧ type' = type then some a else none
  | remove .. | cleanup _ => none

end Call

/-- The registry after calls. -/
def after (r : Registry σ τ α) (calls : List (Call σ τ α)) : Registry σ τ α :=
  calls.foldl (fun r c => (c.perform r).2) r

/-- What the calls that are made for a session answer. -/
def answersTo (s : σ) (r : Registry σ τ α) : List (Call σ τ α) → List (CallAnswer α)
  | [] => []
  | c :: calls =>
    let (answer, r) := c.perform r
    if c.session = s then answer :: answersTo s r calls else answersTo s r calls

variable {r r' : Registry σ τ α} {s : σ} {type : τ}

theorem partOf_perform {c : Call σ τ α} (h : s ≠ c.session) : partOf (c.perform r).2 s = partOf r s := by
  cases c with
  | register s' type name a => exact partOf_register h r type name a
  | remove s' type => exact (partOf_remove r s' s type).trans (if_neg h.symm)
  | cleanup s' => exact partOf_cleanup h r

theorem instance?_congr (h : partOf r s = partOf r' s) (type : τ) :
    r.instance? s type = r'.instance? s type := by
  rw [← instance?_partOf, h, instance?_partOf]

/-- A call sees and changes the entries of its own session. -/
theorem perform_congr {c : Call σ τ α} (h : partOf r c.session = partOf r' c.session) :
    (c.perform r).1 = (c.perform r').1 ∧
      partOf (c.perform r).2 c.session = partOf (c.perform r').2 c.session := by
  cases c with
  | register s type name a =>
    replace h : partOf r s = partOf r' s := h
    have hinstance : r.instance? s type = r'.instance? s type := instance?_congr h type
    simp only [Call.perform, Call.session, register]
    rw [← hinstance]
    cases r.instance? s type with
    | some b => exact ⟨rfl, h⟩
    | none =>
      refine ⟨rfl, ?_⟩
      show partOf (r.put (s, type) ⟨name, a⟩) s = partOf (r'.put (s, type) ⟨name, a⟩) s
      rw [partOf_put, partOf_put, if_pos rfl, if_pos rfl, h]
  | remove s type =>
    replace h : partOf r s = partOf r' s := h
    refine ⟨congrArg (fun found => CallAnswer.removed (Option.isSome found)) (instance?_congr h type), ?_⟩
    show partOf (r.remove s type) s = partOf (r'.remove s type) s
    rw [partOf_remove, partOf_remove, if_pos rfl, if_pos rfl, h]
  | cleanup s =>
    replace h : partOf r s = partOf r' s := h
    have hcount : (r.ofSession s).length = (r'.ofSession s).length := by rw [ofSession_eq, h, ofSession_eq]
    refine ⟨congrArg CallAnswer.cleaned hcount, ?_⟩
    show partOf (r.cleanup s).2 s = partOf (r'.cleanup s).2 s
    rw [partOf_cleanup_self, partOf_cleanup_self]

/-- The calls for the other sessions can be left out. -/
theorem answersTo_filter (h : partOf r s = partOf r' s) (calls : List (Call σ τ α)) :
    answersTo s r calls = answersTo s r' (calls.filter (·.session = s)) ∧
      partOf (after r calls) s = partOf (after r' (calls.filter (·.session = s))) s := by
  induction calls generalizing r r' with
  | nil => exact ⟨rfl, h⟩
  | cons c calls ih =>
    by_cases hc : c.session = s
    · subst hc
      obtain ⟨hanswer, hpart⟩ := perform_congr (c := c) h
      obtain ⟨hanswers, hafter⟩ := ih hpart
      rw [List.filter_cons_of_pos (by simp)]
      refine ⟨?_, hafter⟩
      simp only [answersTo, if_pos, hanswer, hanswers]
    · obtain ⟨hanswers, hafter⟩ := ih ((partOf_perform (Ne.symm hc)).trans h)
      rw [List.filter_cons_of_neg (by simpa using hc)]
      refine ⟨?_, hafter⟩
      simp only [answersTo, if_neg hc, hanswers]

/-! ## The first instance stays -/

/-- What a call makes of the instance of a type in a session. -/
theorem instance?_perform (r : Registry σ τ α) (s : σ) (type : τ) (c : Call σ τ α) :
    (c.perform r).2.instance? s type =
      if c.frees s type then none else (r.instance? s type).or (c.offer? s type) := by
  cases c with
  | register s' type' name a =>
    show (r.register s' type' name a).2.instance? s type =
      (r.instance? s type).or (if s' = s ∧ type' = type then some a else none)
    unfold register
    by_cases hkey : s' = s ∧ type' = type
    · obtain ⟨rfl, rfl⟩ := hkey
      rw [if_pos ⟨rfl, rfl⟩]
      cases hinstance : r.instance? s' type' with
      | some b => exact hinstance
      | none => rw [instance?, Table.get?_put, if_pos rfl]; rfl
    · rw [if_neg hkey, Option.or_none]
      split
      · rfl
      · rw [instance?, Table.get?_put, if_neg (by simpa using hkey)]; rfl
  | remove s' type' =>
    show (r.remove s' type').instance? s type =
      if decide (s' = s ∧ type' = type) = true then none else (r.instance? s type).or none
    rw [instance?, remove, Table.get?_erase, Option.or_none]
    by_cases hkey : s' = s ∧ type' = type
    · rw [if_pos (by simpa using hkey), if_pos (by simpa using hkey)]; rfl
    · rw [if_neg (by simpa using hkey), if_neg (by simpa using hkey)]; rfl
  | cleanup s' =>
    show (r.cleanup s').2.instance? s type =
      if decide (s' = s) = true then none else (r.instance? s type).or none
    rw [← instance?_partOf, Option.or_none]
    by_cases hs : s = s'
    · subst hs
      rw [partOf_cleanup_self, if_pos (decide_eq_true rfl)]; rfl
    · rw [partOf_cleanup hs, instance?_partOf, if_neg (by simpa using Ne.symm hs)]

/-- The instance of a type in a session is the first one that was offered since there may have been none. -/
theorem instance?_after (s : σ) (type : τ) (calls : List (Call σ τ α)) :
    instance? (after [] calls) s type =
      (calls.rtakeWhile fun c => !c.frees s type).findSome? (·.offer? s type) := by
  induction calls using List.reverseRecOn with
  | nil => rfl
  | append_singleton calls c ih =>
    rw [after, List.foldl_append, List.foldl_cons, List.foldl_nil, instance?_perform, List.rtakeWhile_concat]
    by_cases hfrees : c.frees s type
    · rw [if_pos hfrees, if_neg (by simpa using hfrees)]; rfl
    · rw [if_neg hfrees, if_pos (by simpa using hfrees), List.findSome?_append, ← ih, List.findSome?_singleton]
      rfl

/-! ## The order of the entries

The entries of a registry may be stored in any order. -/

theorem nodup_keys_perform {r : Registry σ τ α} (hr : (r.map (·.1)).Nodup) (c : Call σ τ α) :
    ((c.perform r).2.map (·.1)).Nodup := by
  cases c with
  | register s type name a =>
    show ((r.register s type name a).2.map (·.1)).Nodup
    unfold register
    split
    · exact hr
    · exact Table.nodup_keys_put hr _ _
  | remove s type => exact Table.nodup_keys_erase hr _
  | cleanup s => exact hr.sublist (List.filter_sublist.map _)

theorem nodup_keys_after {r : Registry σ τ α} (hr : (r.map (·.1)).Nodup) (calls : List (Call σ τ α)) :
    ((after r calls).map (·.1)).Nodup := by
  induction calls generalizing r with
  | nil => exact hr
  | cons c calls ih => exact ih (nodup_keys_perform hr c)

/-- Two registries that a session cannot tell apart. -/
structure LookAlike (r r' : Registry σ τ α) (s : σ) : Prop where
  instances : ∀ type, r.instance? s type = r'.instance? s type
  names : r.names s = r'.names s
  cleaned : (r.cleanup s).1 = (r'.cleanup s).1
  named : ∀ name, (r.names s).count name ≤ 1 → r.named? s name = r'.named? s name

omit [DecidableEq τ] in
theorem count_names (r : Registry σ τ α) (s : σ) (name : String) :
    (r.names s).count name = ((r.ofSession s).filter (·.name == name)).length := by
  rw [names, (List.mergeSort_perm _ _).count_eq, List.count_eq_countP, List.countP_map,
    ← List.countP_eq_length_filter]
  rfl

omit [DecidableEq τ] in
theorem named?_eq_head? (r : Registry σ τ α) (s : σ) (name : String) :
    r.named? s name = ((r.ofSession s).filter (·.name == name)).head?.map (·.value) := by
  rw [named?, List.head?_filter]

/-- Where there is one entry at most, there is one order. -/
theorem eq_of_perm_of_length_le_one {β : Type} {l l' : List β} (h : l.Perm l') (hl : l.length ≤ 1) :
    l = l' := by
  match l, hl with
  | [], _ => exact (List.nil_perm.1 h).symm
  | [entry], _ => exact List.singleton_perm.1 h

/-- The names in a session, sorted, are the same in every order of its entries. -/
theorem mergeSort_perm_congr {names names' : List String} (h : names.Perm names') :
    names.mergeSort (fun a b => !(b < a)) = names'.mergeSort (fun a b => !(b < a)) := by
  have htotal (a b : String) : (!decide (b < a) || !decide (a < b)) = true := by
    rcases le_total a b with hab | hba
    · simp [not_lt.2 hab]
    · simp [not_lt.2 hba]
  have htrans (a b c : String) (hab : (!decide (b < a)) = true) (hbc : (!decide (c < b)) = true) :
      (!decide (c < a)) = true := by
    simp only [Bool.not_eq_true', decide_eq_false_iff_not, not_lt] at hab hbc ⊢
    exact hab.trans hbc
  refine List.Perm.eq_of_pairwise ?_ (List.pairwise_mergeSort htrans htotal names)
    (List.pairwise_mergeSort htrans htotal names')
    (((List.mergeSort_perm _ _).trans h).trans (List.mergeSort_perm _ _).symm)
  intro a b _ _ hab hba
  simp only [Bool.not_eq_true', decide_eq_false_iff_not, not_lt] at hab hba
  exact le_antisymm hab hba

theorem lookAlike_of_perm (hr : (r.map (·.1)).Nodup) (h : (r.partOf s).Perm (r'.partOf s)) :
    LookAlike r r' s := by
  have hof : (r.ofSession s).Perm (r'.ofSession s) := h.map _
  have hkeys : ((r.partOf s).map (·.1)).Nodup := hr.sublist (List.filter_sublist.map _)
  refine ⟨fun type => ?_, mergeSort_perm_congr (hof.map _), hof.length_eq, fun name hcount => ?_⟩
  · rw [← instance?_partOf, ← instance?_partOf r', instance?, instance?, Table.get?_perm hkeys h]
  · rw [count_names] at hcount
    rw [named?_eq_head?, named?_eq_head?, eq_of_perm_of_length_le_one (hof.filter _) hcount]

/-- Whatever calls are made for whichever sessions, the ones for a session answer as if they were the only
ones, and leave a registry in which it sees what it would see then, in whatever order the entries are stored.
A call that registers an instance answers the first one of its type that was offered since one may last
have been taken out. -/
theorem sessions_do_not_interfere (calls : List (Call σ τ α)) (s : σ) :
    answersTo s [] calls = answersTo s [] (calls.filter (·.session = s)) ∧
      (∀ all alone : Registry σ τ α, all.Perm (after [] calls) →
        alone.Perm (after [] (calls.filter (·.session = s))) → LookAlike all alone s) ∧
      ∀ (type : τ) (name : String) (a : α), ((Call.register s type name a).perform (after [] calls)).1 =
        .registered (((calls.rtakeWhile fun c => !c.frees s type).findSome? (·.offer? s type)).getD a) := by
  obtain ⟨hanswers, hpart⟩ := answersTo_filter (s := s) (r := []) rfl calls
  refine ⟨hanswers, fun all alone hall halone => ?_, fun type name a => ?_⟩
  · have hkeys : ((after [] calls).map (·.1)).Nodup := nodup_keys_after (r := []) List.nodup_nil calls
    refine lookAlike_of_perm ((hall.map _).nodup_iff.2 hkeys) ?_
    calc (all.partOf s).Perm (partOf (after [] calls) s) := hall.filter _
      _ = partOf (after [] (calls.filter (·.session = s))) s := hpart
      (List.Perm _ (alone.partOf s)) := (halone.filter _).symm
  · rw [← instance?_after]
    show CallAnswer.registered (register (after [] calls) s type name a).1 = _
    unfold register
    cases instance? (after [] calls) s type <;> rfl

end Notebook.Registry

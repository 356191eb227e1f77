/-!
Tables: pairs of a key and a value in which no key is meant to stand twice. A new key comes last.
-/
namespace Notebook

/-- Keys with values. -/
abbrev Table (κ α : Type) := List (κ × α)

namespace Table

variable {κ α : Type} [DecidableEq κ]

/-- The value of a key. -/
def get? (t : Table κ α) (k : κ) : Option α :=
  match t with
  | [] => none
  | (j, a) :: rest => if j = k then some a else get? rest k

/-- Gives a key a value. -/
def put (t : Table κ α) (k : κ) (a : α) : Table κ α :=
  match t with
  | [] => [(k, a)]
  | (j, b) :: rest => if j = k then (k, a) :: rest else (j, b) :: put rest k a

/-- Takes a key out. -/
def erase (t : Table κ α) (k : κ) : Table κ α :=
  match t with
  | [] => []
  | (j, a) :: rest => if j = k then erase rest k else (j, a) :: erase rest k

theorem get?_put (t : Table κ α) (k j : κ) (a : α) :
    (t.put k a).get? j = if k = j then some a else t.get? j := by
  induction t with
  | nil => simp [put, get?]
  | cons entry rest ih =>
    obtain ⟨i, b⟩ := entry
    by_cases hi : i = k
    · subst hi; by_cases hj : i = j <;> simp [put, get?, hj]
    · by_cases hj : i = j
      · subst hj; simp [put, get?, hi, Ne.symm hi]
      · simp [put, get?, hi, hj, ih]

theorem get?_erase (t : Table κ α) (k j : κ) :
    (t.erase k).get? j = if k = j then none else t.get? j := by
  induction t with
  | nil => simp [erase, get?]
  | cons entry rest ih =>
    obtain ⟨i, b⟩ := entry
    by_cases hi : i = k
    · subst hi; by_cases hj : i = j <;> simp_all [erase, get?]
    · by_cases hj : i = j
      · subst hj; simp [erase, get?, hi, Ne.symm hi]
      · simp [erase, get?, hi, hj, ih]

theorem mem_of_get? {t : Table κ α} {k : κ} {a : α} (h : t.get? k = some a) : (k, a) ∈ t := by
  induction t with
  | nil => cases h
  | cons entry rest ih =>
    obtain ⟨i, b⟩ := entry
    unfold get? at h
    split at h
    · rename_i hi
      cases h
      exact hi ▸ List.mem_cons_self
    · exact List.mem_cons_of_mem _ (ih h)

theorem isSome_get?_iff (t : Table κ α) (k : κ) : (t.get? k).isSome = true ↔ k ∈ t.map (·.1) := by
  induction t with
  | nil => simp [get?]
  | cons entry rest ih =>
    obtain ⟨i, b⟩ := entry
    rw [List.map_cons, List.mem_cons, ← ih]
    by_cases hi : i = k
    · simp [get?, hi]
    · simp [get?, hi, Ne.symm hi]

theorem get?_of_mem {t : Table κ α} (ht : (t.map (·.1)).Nodup) {k : κ} {a : α} (h : (k, a) ∈ t) :
    t.get? k = some a := by
  induction t with
  | nil => cases h
  | cons entry rest ih =>
    obtain ⟨i, b⟩ := entry
    rw [List.map_cons, List.nodup_cons] at ht
    unfold get?
    rcases List.mem_cons.1 h with heq | hrest
    · cases heq
      exact if_pos rfl
    · -- the key stands further on, so it is not the first one
      have hkey : k ∈ rest.map (·.1) := List.mem_map.2 ⟨(k, a), hrest, rfl⟩
      have hi : i ≠ k := fun hi => ht.1 (hi ▸ hkey)
      rw [if_neg hi]
      exact ih ht.2 hrest

theorem get?_perm {t t' : Table κ α} (ht : (t.map (·.1)).Nodup) (h : t.Perm t') (k : κ) :
    t.get? k = t'.get? k := by
  have ht' : (t'.map (·.1)).Nodup := (h.map _).nodup ht
  refine Option.ext fun a => ⟨fun ha => ?_, fun ha => ?_⟩
  · exact get?_of_mem ht' (h.mem_iff.1 (mem_of_get? ha))
  · exact get?_of_mem ht (h.mem_iff.2 (mem_of_get? ha))

theorem mem_keys_put (t : Table κ α) (k j : κ) (a : α) :
    j ∈ (t.put k a).map (·.1) ↔ j = k ∨ j ∈ t.map (·.1) := by
  induction t with
  | nil => simp [put]
  | cons entry rest ih =>
    obtain ⟨i, b⟩ := entry
    by_cases hi : i = k
    · subst hi
      simp [put]
    · rw [put, if_neg hi, List.map_cons, List.mem_cons, ih, List.map_cons, List.mem_cons, or_left_comm]

theorem nodup_keys_put {t : Table κ α} (ht : (t.map (·.1)).Nodup) (k : κ) (a : α) :
    ((t.put k a).map (·.1)).Nodup := by
  induction t with
  | nil => simp [put]
  | cons entry rest ih =>
    obtain ⟨i, b⟩ := entry
    rw [List.map_cons, List.nodup_cons] at ht
    by_cases hi : i = k
    · subst hi
      simpa [put] using ht
    · rw [put, if_neg hi, List.map_cons, List.nodup_cons, mem_keys_put, not_or]
      exact ⟨⟨hi, ht.1⟩, ih ht.2⟩

/-- A new key that is taken out again leaves no trace. -/
theorem erase_put_of_get?_none {t : Table κ α} {k : κ} (h : t.get? k = none) (a : α) :
    (t.put k a).erase k = t := by
  induction t with
  | nil => simp [put, erase]
  | cons entry rest ih =>
    obtain ⟨j, b⟩ := entry
    rw [get?] at h
    by_cases hj : j = k
    · rw [if_pos hj] at h
      cases h
    · rw [if_neg hj] at h
      rw [put, if_neg hj, erase, if_neg hj, ih h]

theorem erase_eq_filter (t : Table κ α) (k : κ) : t.erase k = List.filter (·.1 ≠ k) t := by
  induction t with
  | nil => rfl
  | cons entry rest ih =>
    obtain ⟨i, b⟩ := entry
    unfold erase
    by_cases hi : i = k
    · rw [if_pos hi, List.filter_cons_of_neg (by simpa using hi), ih]
    · rw [if_neg hi, List.filter_cons_of_pos (by simpa using hi), ih]

theorem nodup_keys_erase {t : Table κ α} (ht : (t.map (·.1)).Nodup) (k : κ) :
    ((t.erase k).map (·.1)).Nodup := by
  rw [erase_eq_filter]
  exact ht.sublist (List.filter_sublist.map _)

/-- The entries whose keys have a property. -/
def part (t : Table κ α) (p : κ → Bool) : Table κ α := List.filter (fun entry => p entry.1) t

omit [DecidableEq κ] in
theorem part_cons (entry : κ × α) (rest : Table κ α) (p : κ → Bool) :
    part (entry :: rest) p = if p entry.1 then entry :: part rest p else part rest p := List.filter_cons

theorem get?_part (t : Table κ α) {p : κ → Bool} {k : κ} (hk : p k = true) :
    (t.part p).get? k = t.get? k := by
  induction t with
  | nil => rfl
  | cons entry rest ih =>
    obtain ⟨i, b⟩ := entry
    rw [part_cons]
    by_cases hi : p i = true
    · rw [if_pos hi, get?, get?, ih]
    · have hne : i ≠ k := fun h => hi (h ▸ hk)
      rw [if_neg hi, ih, get?, if_neg hne]

theorem put_cons (i k : κ) (b a : α) (rest : Table κ α) :
    put ((i, b) :: rest) k a = if i = k then (k, a) :: rest else (i, b) :: put rest k a := rfl

theorem part_put (t : Table κ α) (p : κ → Bool) (k : κ) (a : α) :
    (t.put k a).part p = if p k then (t.part p).put k a else t.part p := by
  induction t with
  | nil => exact part_cons (k, a) [] p
  | cons entry rest ih =>
    obtain ⟨i, b⟩ := entry
    rw [put_cons, part_cons (i, b)]
    by_cases hi : i = k
    · subst hi
      rw [if_pos rfl, part_cons]
      by_cases hp : p i = true
      · rw [if_pos hp, if_pos hp, if_pos hp, put_cons, if_pos rfl]
      · rw [if_neg hp, if_neg hp, if_neg hp]
    · rw [if_neg hi, part_cons, ih]
      by_cases hp : p i = true
      · rw [if_pos hp, if_pos hp, put_cons, if_neg hi]
        by_cases hk : p k = true
        · rw [if_pos hk, if_pos hk]
        · rw [if_neg hk, if_neg hk]
      · rw [if_neg hp, if_neg hp]

theorem part_erase (t : Table κ α) (p : κ → Bool) (k : κ) :
    (t.erase k).part p = if p k then (t.part p).erase k else t.part p := by
  rw [erase_eq_filter, part, List.filter_filter]
  split
  · rw [erase_eq_filter, part, List.filter_filter]
    exact List.filter_congr fun entry _ => Bool.and_comm _ _
  · rename_i hk
    refine List.filter_congr fun entry _ => ?_
    by_cases hentry : entry.1 = k
    · simp [hentry, hk]
    · simp [hentry]

end Table

end Notebook

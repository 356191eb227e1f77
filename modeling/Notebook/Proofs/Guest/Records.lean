import Mathlib.Data.List.Nodup
import Notebook.Proofs.Guest.Running

/-!
# The snippets after a change of the store

Every change of the store adds a snippet under the next number or changes the one of a number that
is there.  Code that runs changes a snippet only in the value of the variable that it may be
(`Store.Runs.sameBut`), so a name means the same before and after it (`Store.SameBut.globals_eq`).
-/

namespace Notebook.Guest

namespace Store

/-! ## Numbers -/

theorem record?_eq_none (s : Store) (id : SnippetId) (h : s.records.length < id) :
    s.record? id = none := by
  unfold record?
  split
  · rfl
  · rw [List.getElem?_eq_none_iff]
    omega

theorem record?_empty (id : SnippetId) : ({} : Store).record? id = none := by
  unfold record?
  split <;> rfl

theorem pos_of_record? {s : Store} {id : SnippetId} {r : Record} (h : s.record? id = some r) :
    0 < id := by
  rcases Nat.eq_zero_or_pos id with rfl | hpos
  · cases h
  · exact hpos

theorem le_length_of_record? {s : Store} {id : SnippetId} {r : Record} (h : s.record? id = some r) :
    id ≤ s.records.length := by
  by_contra hlt
  rw [s.record?_eq_none id (Nat.lt_of_not_le hlt)] at h
  cases h

theorem isSome_record? (s : Store) (id : Nat) :
    (s.record? id).isSome = true ↔ 1 ≤ id ∧ id ≤ s.records.length := by
  rcases Nat.eq_zero_or_pos id with rfl | hpos
  · simp [record?]
  · have hid : id ≠ 0 := Nat.ne_of_gt hpos
    rw [record?, if_neg hid, Option.isSome_iff_ne_none, ne_eq, List.getElem?_eq_none_iff]
    omega

theorem mem_numbered {s : Store} {id : SnippetId} {r : Record} (h : s.record? id = some r) :
    (id, r) ∈ s.numbered := by
  have hpos := pos_of_record? h
  rw [record?, if_neg (Nat.ne_of_gt hpos)] at h
  rw [numbered, List.mem_map]
  exact ⟨(r, id - 1), List.mem_zipIdx_iff_getElem?.2 h, congrArg (·, r) (Nat.sub_add_cancel hpos)⟩

theorem mem_numbered_of_record? {s : Store} {id : SnippetId} {r : Record}
    (h : s.record? id = some r) : id ∈ s.numbered.map (·.1) := List.mem_map_of_mem (mem_numbered h)

/-- The numbers of the snippets, which depend on nothing but how many there are. -/
theorem numbers_eq (s : Store) :
    s.numbered.map (·.1) = (List.range' 0 s.records.length).map (· + 1) := by
  rw [numbered, List.map_map, ← List.zipIdx_map_snd 0 s.records, List.map_map]
  rfl

theorem nodup_numbered (s : Store) : (s.numbered.map (·.1)).Nodup := by
  rw [numbers_eq]
  exact List.Nodup.map (fun _ _ hij => Nat.succ.inj hij) List.nodup_range'

/-! ## Changing and adding snippets -/

theorem record?_update (s : Store) (id j : Nat) (f : Record → Record) :
    (s.update id f).record? j = if j = id then (s.record? j).map f else s.record? j := by
  unfold record? update
  by_cases hid : id = 0
  · by_cases hj : j = 0
    · simp [hj]
    · simp [hid, hj]
  · by_cases hj : j = 0
    · simp [hj]
    · rw [if_neg hid, if_neg hj, if_neg hj]
      change (s.records.modify (id - 1) f)[j - 1]? = _
      rw [List.getElem?_modify]
      by_cases heq : j = id
      · rw [if_pos heq, heq]
        simp
      · have hne : id - 1 ≠ j - 1 := by omega
        simp [heq, hne]

theorem record?_update_self {s : Store} {id : SnippetId} {r : Record} (f : Record → Record)
    (h : s.record? id = some r) : (s.update id f).record? id = some (f r) := by
  rw [record?_update, if_pos rfl, h]
  rfl

theorem record?_update_of_ne (s : Store) {id j : SnippetId} (f : Record → Record) (h : j ≠ id) :
    (s.update id f).record? j = s.record? j := by
  rw [record?_update, if_neg h]

theorem update_id (s : Store) (j : SnippetId) : s.update j id = s := by
  unfold update
  rw [List.modify_id]
  split <;> rfl

@[simp] theorem length_update (s : Store) (id : SnippetId) (f : Record → Record) :
    (s.update id f).records.length = s.records.length := by
  unfold update
  split
  · rfl
  · exact List.length_modify ..

@[simp] theorem bindings_update (s : Store) (id : SnippetId) (f : Record → Record) :
    (s.update id f).bindings = s.bindings := by
  unfold update
  split <;> rfl

@[simp] theorem hosts_update (s : Store) (id : SnippetId) (f : Record → Record) :
    (s.update id f).hosts = s.hosts := by
  unfold update
  split <;> rfl

theorem record?_allocate (s : Store) (r : Record) (j : Nat) :
    (s.allocate r).2.record? j = if j = s.records.length + 1 then some r else s.record? j := by
  unfold record? allocate
  by_cases hj : j = 0
  · simp [hj]
  · rw [if_neg hj, if_neg hj]
    change (s.records ++ [r])[j - 1]? = _
    by_cases heq : j = s.records.length + 1
    · rw [if_pos heq, heq]
      simp
    · rw [if_neg heq]
      rcases Nat.lt_or_gt_of_ne heq with hlt | hgt
      · rw [List.getElem?_append_left (by omega)]
      · have hlen : s.records.length + 1 ≤ j - 1 := by omega
        rw [List.getElem?_eq_none_iff.2 (by simpa using hlen),
          List.getElem?_eq_none_iff.2 (by omega)]

@[simp] theorem length_allocate (s : Store) (r : Record) :
    (s.allocate r).2.records.length = s.records.length + 1 := by
  simp [allocate]

end Store

/-! ## Code that runs -/

/-- A definition without the value that a variable has at the moment. -/
def Definition.known : Definition → Definition
  | .variable ty _ => .variable ty .unit
  | d => d

/-- A snippet without the value that it has at the moment. -/
def Record.known (r : Record) : Record := { r with definition := r.definition.known }

/-- Two stores that are the same but for the values of variables and what has been printed. -/
structure Store.SameBut (s t : Store) : Prop where
  records : t.records.map Record.known = s.records.map Record.known
  bindings : t.bindings = s.bindings
  hosts : t.hosts = s.hosts
  stopped : t.stopped = s.stopped

namespace Store

theorem SameBut.refl (s : Store) : s.SameBut s := ⟨rfl, rfl, rfl, rfl⟩

theorem SameBut.trans {s t u : Store} (hst : s.SameBut t) (htu : t.SameBut u) : s.SameBut u :=
  ⟨htu.records.trans hst.records, htu.bindings.trans hst.bindings, htu.hosts.trans hst.hosts,
    htu.stopped.trans hst.stopped⟩

theorem SameBut.length {s t : Store} (h : s.SameBut t) : t.records.length = s.records.length := by
  have := congrArg List.length h.records
  rwa [List.length_map, List.length_map] at this

theorem SameBut.record? {s t : Store} (h : s.SameBut t) (id : SnippetId) :
    (t.record? id).map Record.known = (s.record? id).map Record.known := by
  unfold Store.record?
  split
  · rfl
  · rw [← List.getElem?_map, ← List.getElem?_map, h.records]

/-- The snippet of a number is there after the change, and the same but for its value. -/
theorem SameBut.of_record? {s t : Store} (h : s.SameBut t) {id : SnippetId} {r : Record}
    (hr : s.record? id = some r) : ∃ r', t.record? id = some r' ∧ r'.known = r.known := by
  have hmap := h.record? id
  rw [hr, Option.map_some, Option.map_eq_some_iff] at hmap
  exact hmap

theorem SameBut.symm {s t : Store} (h : s.SameBut t) : t.SameBut s :=
  ⟨h.records.symm, h.bindings.symm, h.hosts.symm, h.stopped.symm⟩

theorem sameBut_print (s : Store) (text : List Char) : s.SameBut (s.print text) :=
  ⟨rfl, rfl, rfl, rfl⟩

theorem sameBut_write {s t : Store} {name : String} {v : Value} (h : s.write? name v = some t) :
    s.SameBut t := by
  simp only [write?, Option.bind_eq_bind, Option.bind_eq_some_iff] at h
  obtain ⟨id, -, r, hr, h⟩ := h
  split at h
  · rename_i ty w hdef
    obtain rfl := Option.some.inj h
    refine ⟨?_, bindings_update .., hosts_update .., ?_⟩
    · have hpos := pos_of_record? hr
      rw [update, if_neg (Nat.ne_of_gt hpos)]
      rw [Store.record?, if_neg (Nat.ne_of_gt hpos)] at hr
      -- only the value of the variable is new, and `known` leaves values out
      apply List.ext_getElem?
      intro i
      rw [List.getElem?_map, List.getElem?_map, List.getElem?_modify]
      by_cases hi : id - 1 = i
      · subst hi
        rw [hr]
        simp [Record.known, hdef, Definition.known]
      · simp [hi]
    · unfold update
      split <;> rfl
  · cases h

theorem Runs.sameBut {s t : Store} (h : s.Runs t) : s.SameBut t := by
  induction h with
  | refl => exact .refl s
  | print text _ ih => exact ih.trans (sameBut_print _ text)
  | write _ hwrite ih => exact ih.trans (sameBut_write hwrite)

end Store

end Notebook.Guest

import Mathlib.Data.List.Dedup
import Mathlib.Data.List.Induction
import Notebook.Staleness.Tracker

/-!
# Staleness over whole histories

Which cells a tracker holds for stale is told by what was noted of cells, and in which order
(`staleness_is_history`).  A cell is stale exactly if, after its own last evaluation, the evaluation of
another cell has touched a snippet that was the cell's at that time.

What a tracker knows of owners, of stale cells, and of the order in which they went stale, is looked at
after one note (`cellOf?_record`, `mem_stale_record`, `stale_record`); the history is then read from its
end.
-/

namespace Notebook

/-- Something that is noted of a cell. -/
inductive Note (κ : Type)
  | evaluated (cell : κ) (r : EvaluationResult)
  | removed (cell : κ)

namespace Note

/-- The cell that a note is about. -/
def cell {κ : Type} : Note κ → κ
  | evaluated cell _ | removed cell => cell

end Note

namespace Tracker

variable {κ : Type} [DecidableEq κ]

/-- The cells that go stale by a note. -/
def newly (t : Tracker κ) : Note κ → List κ
  | .evaluated cell r => (t.record cell r).1
  | .removed _ => []

/-- The tracker after a note. -/
def noted (t : Tracker κ) : Note κ → Tracker κ
  | .evaluated cell r => (t.record cell r).2
  | .removed cell => t.removeCell cell

/-- The tracker after a history of notes. -/
def after (history : List (Note κ)) : Tracker κ := history.foldl noted {}

/-- All the cells that have gone stale in a history that starts with a tracker, each as often as it has. -/
def turned (t : Tracker κ) : List (Note κ) → List κ
  | [] => []
  | note :: history => t.newly note ++ turned (t.noted note) history

/-- An evaluation touches a snippet of a cell that it does not make itself. -/
def Outdates (t : Tracker κ) (r : EvaluationResult) (cell : κ) : Prop :=
  ∃ id ∈ r.touched, id ∉ r.made ∧ t.cellOf? id = some cell

omit [DecidableEq κ] in
/-- A note in a history is the last one, or it has been noted before. -/
theorem concat_eq_append_cons {history before later : List (Note κ)} {last note : Note κ} :
    history ++ [last] = before ++ note :: later ↔
      history = before ∧ last = note ∧ later = [] ∨
        ∃ rest, history = before ++ note :: rest ∧ later = rest ++ [last] := by
  constructor
  · intro h
    rcases List.eq_nil_or_concat later with rfl | ⟨rest, c, rfl⟩
    · obtain ⟨hbefore, hlast⟩ := List.append_inj' h rfl
      exact .inl ⟨hbefore, List.singleton_inj.1 hlast, rfl⟩
    · rw [List.concat_eq_append, ← List.cons_append, ← List.append_assoc] at h
      obtain ⟨hbefore, hlast⟩ := List.append_inj' h rfl
      exact .inr ⟨rest, hbefore, by rw [List.singleton_inj.1 hlast, List.concat_eq_append]⟩
  · rintro (⟨rfl, rfl, rfl⟩ | ⟨rest, rfl, rfl⟩)
    · rfl
    · rw [List.append_assoc, List.cons_append]

theorem after_concat (history : List (Note κ)) (note : Note κ) :
    after (history ++ [note]) = (after history).noted note := by
  rw [after, List.foldl_append]
  rfl

theorem turned_concat (t : Tracker κ) (history : List (Note κ)) (note : Note κ) :
    t.turned (history ++ [note]) = t.turned history ++ (history.foldl noted t).newly note := by
  induction history generalizing t with
  | nil => exact (List.append_nil _).trans (List.nil_append _).symm
  | cons first history ih =>
    rw [List.cons_append, turned, turned, ih, List.append_assoc]
    rfl

/-! ## Owners -/

/-- A snippet that belongs to a cell is one that the cell's last evaluation has made. -/
def Owned (t : Tracker κ) : Prop := ∀ id cell, t.cellOf? id = some cell → id ∈ t.snippets cell

theorem get?_disown (owners : Table SnippetId κ) (cell : κ) (ids : List SnippetId) (id : SnippetId) :
    (disown owners cell ids).get? id =
      if id ∈ ids ∧ owners.get? id = some cell then none else owners.get? id := by
  unfold disown
  induction ids generalizing owners with
  | nil => simp
  | cons first ids ih =>
    rw [List.foldl_cons, ih]
    by_cases hfirst : owners.get? first = some cell
    · by_cases hid : first = id
      · subst hid
        simp [hfirst, Table.get?_erase]
      · simp [hfirst, Table.get?_erase, hid, Ne.symm hid]
    · rw [if_neg hfirst]
      by_cases hid : first = id
      · subst hid
        simp [hfirst]
      · simp [Ne.symm hid]

omit [DecidableEq κ] in
theorem get?_putAll (owners : Table SnippetId κ) (cell : κ) (ids : List SnippetId) (id : SnippetId) :
    (ids.foldl (fun owners id => owners.put id cell) owners).get? id =
      if id ∈ ids then some cell else owners.get? id := by
  induction ids generalizing owners with
  | nil => simp
  | cons first ids ih =>
    rw [List.foldl_cons, ih, Table.get?_put]
    by_cases hid : first = id
    · subst hid
      simp
    · simp [hid, Ne.symm hid]

omit [DecidableEq κ] in
theorem get?_eraseAll (owners : Table SnippetId κ) (ids : List SnippetId) (id : SnippetId) :
    (ids.foldl (fun owners id => owners.erase id) owners).get? id =
      if id ∈ ids then none else owners.get? id := by
  induction ids generalizing owners with
  | nil => simp
  | cons first ids ih =>
    rw [List.foldl_cons, ih, Table.get?_erase]
    by_cases hid : first = id
    · subst hid
      simp
    · simp [hid, Ne.symm hid]

/-- An evaluation gives its cell what it has made, and takes everything else from it. -/
theorem cellOf?_record {t : Tracker κ} (ht : t.Owned) (cell : κ) (r : EvaluationResult) (id : SnippetId) :
    (t.record cell r).2.cellOf? id =
      if id ∈ r.made then some cell else if t.cellOf? id = some cell then none else t.cellOf? id := by
  show Table.get? (r.made.foldl _ _) id = _
  rw [get?_putAll, get?_disown]
  refine ite_congr rfl (fun _ => rfl) fun _ => ?_
  by_cases howner : t.cellOf? id = some cell
  · exact (if_pos ⟨ht id cell howner, howner⟩).trans (if_pos howner).symm
  · exact (if_neg fun h => howner h.2).trans (if_neg howner).symm

theorem snippets_record (t : Tracker κ) (cell : κ) (r : EvaluationResult) (other : κ) :
    (t.record cell r).2.snippets other = if cell = other then r.made else t.snippets other := by
  show ((t.cells.put cell r.made).get? other).getD [] = _
  rw [Table.get?_put]
  split <;> rfl

/-- The snippets of a cell that is removed belong to no cell, to whichever they did. -/
theorem cellOf?_removeCell (t : Tracker κ) (cell : κ) (id : SnippetId) :
    (t.removeCell cell).cellOf? id = if id ∈ t.snippets cell then none else t.cellOf? id :=
  get?_eraseAll t.owners (t.snippets cell) id

theorem snippets_removeCell (t : Tracker κ) (cell other : κ) :
    (t.removeCell cell).snippets other = if cell = other then [] else t.snippets other := by
  show ((t.cells.erase cell).get? other).getD [] = _
  rw [Table.get?_erase]
  split <;> rfl

theorem Owned.noted {t : Tracker κ} (ht : t.Owned) (note : Note κ) : (t.noted note).Owned := by
  intro id owner howner
  cases note with
  | evaluated cell r =>
    change (t.record cell r).2.cellOf? id = some owner at howner
    change id ∈ (t.record cell r).2.snippets owner
    rw [cellOf?_record ht] at howner
    rw [snippets_record]
    split at howner
    · rename_i hmade
      rw [if_pos (Option.some.inj howner)]
      exact hmade
    · split at howner
      · cases howner
      · rename_i hother
        -- the snippet belongs to a cell of which nothing has been noted
        have hcell : cell ≠ owner := fun hcell => hother (hcell ▸ howner)
        rw [if_neg hcell]
        exact ht id owner howner
  | removed cell =>
    change (t.removeCell cell).cellOf? id = some owner at howner
    change id ∈ (t.removeCell cell).snippets owner
    rw [cellOf?_removeCell] at howner
    rw [snippets_removeCell]
    split at howner
    · cases howner
    · rename_i hother
      have hsnippet := ht id owner howner
      have hcell : cell ≠ owner := fun hcell => hother (hcell ▸ hsnippet)
      rw [if_neg hcell]
      exact hsnippet

theorem owned_after (history : List (Note κ)) : (after history).Owned := by
  induction history using List.reverseRecOn with
  | nil => exact fun _ _ h => (Option.some_ne_none _ h.symm).elim
  | append_singleton history note ih =>
    rw [after_concat]
    exact ih.noted note

/-- A cell that owns a snippet has been evaluated, and nothing has been noted of it since. -/
theorem exists_evaluated_of_cellOf? {history : List (Note κ)} {id : SnippetId} {cell : κ}
    (h : (after history).cellOf? id = some cell) :
    ∃ first r rest, history = first ++ .evaluated cell r :: rest ∧ ∀ note ∈ rest, note.cell ≠ cell := by
  induction history using List.reverseRecOn with
  | nil => cases h
  | append_singleton history note ih =>
    rw [after_concat] at h
    -- either this note is the evaluation that is looked for, or the cell has owned the snippet before
    have hcases : (∃ r, note = .evaluated cell r) ∨
        note.cell ≠ cell ∧ (after history).cellOf? id = some cell := by
      cases note with
      | evaluated other r =>
        change ((after history).record other r).2.cellOf? id = some cell at h
        rw [cellOf?_record (owned_after history)] at h
        by_cases hother : other = cell
        · exact .inl ⟨r, hother ▸ rfl⟩
        · split at h
          · exact absurd (Option.some.inj h) hother
          · split at h
            · cases h
            · exact .inr ⟨hother, h⟩
      | removed other =>
        change ((after history).removeCell other).cellOf? id = some cell at h
        rw [cellOf?_removeCell] at h
        split at h
        · cases h
        · rename_i hsnippet
          refine .inr ⟨?_, h⟩
          rintro rfl
          exact hsnippet (owned_after history id _ h)
    rcases hcases with ⟨r, rfl⟩ | ⟨hother, howner⟩
    · exact ⟨history, r, [], rfl, fun _ hmem => (List.not_mem_nil hmem).elim⟩
    · obtain ⟨first, r, rest, rfl, hrest⟩ := ih howner
      refine ⟨first, r, rest ++ [note], by simp, fun other hmem => ?_⟩
      rcases List.mem_append.1 hmem with hmem | hmem
      · exact hrest other hmem
      · exact List.mem_singleton.1 hmem ▸ hother

/-! ## Cells that go stale -/

theorem mem_newlyStale (t : Tracker κ) (cell : κ) (made : List SnippetId) (new : List κ)
    (ids : List SnippetId) (c : κ) :
    c ∈ t.newlyStale cell made new ids ↔
      c ∈ new ∨ c ≠ cell ∧ c ∉ t.stale ∧ ∃ id ∈ ids, id ∉ made ∧ t.cellOf? id = some c := by
  fun_induction newlyStale t cell made new ids with
  | case1 new => simp
  | case2 new id ids hnone ih =>
    rw [ih]
    have hskip : ¬ (id ∉ made ∧ t.cellOf? id = some c) := fun h => by
      rw [if_neg h.1, h.2] at hnone
      cases hnone
    simp [hskip]
  | case3 new id ids owner howner hskip ih =>
    rw [ih]
    obtain ⟨hmade, howner⟩ : id ∉ made ∧ t.cellOf? id = some owner := by
      split at howner
      · cases howner
      · exact ⟨‹_›, howner⟩
    grind
  | case4 new id ids owner howner htake ih =>
    rw [ih]
    obtain ⟨hmade, howner⟩ : id ∉ made ∧ t.cellOf? id = some owner := by
      split at howner
      · cases howner
      · exact ⟨‹_›, howner⟩
    grind

theorem nodup_newlyStale (t : Tracker κ) (cell : κ) (made : List SnippetId) {new : List κ}
    (hnew : new.Nodup) (ids : List SnippetId) : (t.newlyStale cell made new ids).Nodup := by
  fun_induction newlyStale t cell made new ids with
  | case1 new => exact hnew
  | case2 new id ids hnone ih => exact ih hnew
  | case3 new id ids owner howner hskip ih => exact ih hnew
  | case4 new id ids owner howner htake ih =>
    refine ih (hnew.append (List.nodup_singleton _) ?_)
    rw [List.disjoint_singleton]
    exact fun hmem => htake (.inr (.inr hmem))

/-- The cells that go stale are those that the evaluation outdates and that are not stale already. -/
theorem mem_newly_evaluated (t : Tracker κ) (cell : κ) (r : EvaluationResult) (c : κ) :
    c ∈ t.newly (.evaluated cell r) ↔ c ≠ cell ∧ c ∉ t.stale ∧ t.Outdates r c := by
  have h := mem_newlyStale { t with causes := noteCauses t.causes r.outdated, stale := t.stale.filter (· ≠ cell) }
    cell r.made [] r.touched c
  refine h.trans ?_
  rw [List.mem_filter]
  unfold Outdates
  constructor
  · rintro (hnil | ⟨hcell, hstale, houtdates⟩)
    · exact absurd hnil List.not_mem_nil
    · exact ⟨hcell, fun hmem => hstale ⟨hmem, decide_eq_true hcell⟩, houtdates⟩
  · rintro ⟨hcell, hstale, houtdates⟩
    exact .inr ⟨hcell, fun hmem => hstale hmem.1, houtdates⟩

theorem nodup_newly (t : Tracker κ) (note : Note κ) : (t.newly note).Nodup := by
  cases note with
  | evaluated cell r => exact nodup_newlyStale _ cell r.made List.nodup_nil r.touched
  | removed cell => exact List.nodup_nil

theorem of_mem_newly {t : Tracker κ} {note : Note κ} {c : κ} (h : c ∈ t.newly note) :
    c ≠ note.cell ∧ c ∉ t.stale := by
  cases note with
  | evaluated cell r =>
    obtain ⟨hcell, hstale, -⟩ := (mem_newly_evaluated t cell r c).1 h
    exact ⟨hcell, hstale⟩
  | removed cell => exact absurd h List.not_mem_nil

/-- A note takes its cell off the list, and the cells that go stale by it come last. -/
theorem stale_noted (t : Tracker κ) (note : Note κ) :
    (t.noted note).stale = t.stale.filter (· ≠ note.cell) ++ t.newly note := by
  cases note with
  | evaluated cell r => rfl
  | removed cell => exact (List.append_nil _).symm

theorem nodup_stale_after (history : List (Note κ)) : (after history).stale.Nodup := by
  induction history using List.reverseRecOn with
  | nil => exact List.nodup_nil
  | append_singleton history note ih =>
    rw [after_concat, stale_noted]
    refine (ih.filter _).append (nodup_newly _ note) fun c hold hnew => ?_
    exact (of_mem_newly hnew).2 (List.mem_of_mem_filter hold)

/-- The cells that go stale by a note are those that are stale after it and were not before. -/
theorem mem_newly_iff (t : Tracker κ) (note : Note κ) (c : κ) :
    c ∈ t.newly note ↔ c ∈ (t.noted note).stale ∧ c ∉ t.stale := by
  rw [stale_noted, List.mem_append, List.mem_filter]
  constructor
  · exact fun h => ⟨.inr h, (of_mem_newly h).2⟩
  · rintro ⟨⟨hold, -⟩ | hnew, hstale⟩
    · exact absurd hold hstale
    · exact hnew

/-- A cell is stale after a note that is about another cell, if it was stale before or is outdated now. -/
theorem mem_stale_noted (t : Tracker κ) (note : Note κ) (c : κ) :
    c ∈ (t.noted note).stale ↔
      note.cell ≠ c ∧ (c ∈ t.stale ∨ ∃ cell r, note = .evaluated cell r ∧ t.Outdates r c) := by
  rw [stale_noted, List.mem_append, List.mem_filter, decide_eq_true_eq]
  cases note with
  | evaluated cell r =>
    rw [mem_newly_evaluated]
    simp only [Note.cell, Note.evaluated.injEq]
    grind
  | removed cell =>
    simp only [newly, Note.cell, reduceCtorEq, List.not_mem_nil]
    grind

/-- A cell is stale exactly if the evaluation of another cell has outdated it and nothing has been noted of
it since. -/
theorem mem_stale_after (history : List (Note κ)) (c : κ) :
    c ∈ (after history).stale ↔
      ∃ before other r later, history = before ++ .evaluated other r :: later ∧ other ≠ c ∧
        (after before).Outdates r c ∧ ∀ note ∈ later, note.cell ≠ c := by
  induction history using List.reverseRecOn with
  | nil =>
    refine iff_of_false List.not_mem_nil ?_
    rintro ⟨before, other, r, later, h, -⟩
    simp at h
  | append_singleton history note ih =>
    rw [after_concat, mem_stale_noted, ih]
    constructor
    · rintro ⟨hnote, ⟨before, other, r, later, rfl, hother, houtdates, hlater⟩ | ⟨other, r, rfl, houtdates⟩⟩
      · refine ⟨before, other, r, later ++ [note], by simp, hother, houtdates, fun n hn => ?_⟩
        rcases List.mem_append.1 hn with hn | hn
        · exact hlater n hn
        · exact List.mem_singleton.1 hn ▸ hnote
      · exact ⟨history, other, r, [], rfl, hnote, houtdates, fun _ hn => (List.not_mem_nil hn).elim⟩
    · rintro ⟨before, other, r, later, hhistory, hother, houtdates, hlater⟩
      rcases concat_eq_append_cons.1 hhistory with ⟨rfl, rfl, rfl⟩ | ⟨rest, rfl, rfl⟩
      · exact ⟨hother, .inr ⟨other, r, rfl, houtdates⟩⟩
      · refine ⟨hlater note (by simp), .inl ⟨before, other, r, rest, rfl, hother, houtdates, fun n hn => ?_⟩⟩
        exact hlater n (List.mem_append_left _ hn)

/-! ## The order in which cells go stale -/

theorem dedup_append_filter (l l' : List κ) :
    (l ++ l').dedup = l.dedup.filter (· ∉ l') ++ l'.dedup := by
  induction l with
  | nil => rfl
  | cons c l ih =>
    rw [List.cons_append]
    by_cases hl : c ∈ l
    · rw [List.dedup_cons_of_mem (List.mem_append_left l' hl), ih, List.dedup_cons_of_mem hl]
    · by_cases hl' : c ∈ l'
      · rw [List.dedup_cons_of_mem (List.mem_append_right l hl'), ih, List.dedup_cons_of_notMem hl,
          List.filter_cons_of_neg (by simpa using hl')]
      · have hnot : c ∉ l ++ l' := fun h => (List.mem_append.1 h).elim hl hl'
        rw [List.dedup_cons_of_notMem hnot, ih, List.dedup_cons_of_notMem hl,
          List.filter_cons_of_pos (by simpa using hl'), List.cons_append]

/-- The stale cells stand in the order in which they have gone stale for the last time. -/
theorem stale_after (history : List (Note κ)) :
    (after history).stale = (turned {} history).dedup.filter (after history).isStale := by
  induction history using List.reverseRecOn with
  | nil => rfl
  | append_singleton history note ih =>
    have hnodup := nodup_newly (after history) note
    have hstale := stale_noted (after history) note
    have hturned : turned {} (history ++ [note]) = turned {} history ++ (after history).newly note :=
      turned_concat {} history note
    rw [hturned, after_concat, dedup_append_filter, List.filter_append, List.filter_filter, hnodup.dedup,
      hstale]
    congr 1
    · -- of the cells that have gone stale before, those are left that are not the note's
      conv_lhs => rw [ih, List.filter_filter]
      refine List.filter_congr fun c _ => Bool.eq_iff_iff.2 ?_
      have hnew : c ∈ (after history).newly note → c ≠ note.cell ∧ c ∉ (after history).stale := of_mem_newly
      simp only [isStale, hstale, Bool.and_eq_true, decide_eq_true_eq, List.contains_iff_mem,
        List.mem_append, List.mem_filter]
      grind
    · refine (List.filter_eq_self.2 fun c hc => ?_).symm
      rw [isStale, hstale, List.contains_iff_mem]
      exact List.mem_append_right _ hc

/-- Whatever is noted of cells, and in whatever order: a cell is stale exactly if it has been evaluated, and
since its last evaluation, without having been removed, the evaluation of another cell has touched a snippet
that was the cell's at that moment and that it did not make itself.  The stale cells stand in the order in
which they have gone stale for the last time, none of them twice.  Noting an evaluation tells exactly the
cells that have gone stale by it, among which its own cell is not.  A snippet that belongs to a cell is one
of the cell's snippets. -/
theorem staleness_is_history (history : List (Note κ)) :
    let t := after history
    (∀ c, t.isStale c = true ↔
      ∃ first own between other r later,
        history = first ++ .evaluated c own :: between ++ .evaluated other r :: later ∧
        (∀ note ∈ between, note.cell ≠ c) ∧ other ≠ c ∧ (∀ note ∈ later, note.cell ≠ c) ∧
        ∃ id ∈ r.touched, id ∉ r.made ∧
          (after (first ++ .evaluated c own :: between)).cellOf? id = some c) ∧
    t.stale.Nodup ∧ t.stale = (turned {} history).dedup.filter t.isStale ∧
    (∀ cell r, cell ∉ (t.record cell r).1 ∧
      ∀ c, c ∈ (t.record cell r).1 ↔ (t.record cell r).2.isStale c = true ∧ t.isStale c = false) ∧
    (∀ id c, t.cellOf? id = some c → id ∈ t.snippets c) := by
  intro t
  refine ⟨fun c => ?_, nodup_stale_after history, stale_after history, fun cell r => ⟨fun h => ?_, fun c => ?_⟩,
    owned_after history⟩
  · rw [isStale, List.contains_iff_mem, mem_stale_after]
    constructor
    · rintro ⟨before, other, r, later, rfl, hother, ⟨id, htouched, hmade, howner⟩, hlater⟩
      obtain ⟨first, own, between, rfl, hbetween⟩ := exists_evaluated_of_cellOf? howner
      exact ⟨first, own, between, other, r, later, rfl, hbetween, hother, hlater, id, htouched, hmade, howner⟩
    · rintro ⟨first, own, between, other, r, later, rfl, -, hother, hlater, houtdates⟩
      exact ⟨_, other, r, later, rfl, hother, houtdates, hlater⟩
  · have hnewly : cell ∈ t.newly (.evaluated cell r) := h
    exact (of_mem_newly hnewly).1 rfl
  · have hiff := mem_newly_iff t (.evaluated cell r) c
    rw [isStale, isStale, List.contains_iff_mem, ← Bool.not_eq_true, List.contains_iff_mem]
    exact hiff

end Tracker

end Notebook

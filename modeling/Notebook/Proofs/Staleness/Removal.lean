import Notebook.Proofs.Staleness.History

/-!
# What a removed cell leaves behind

Removing a cell changes nothing about the snippets and the staleness of the other cells, and no snippet
belongs to the cell any more.  A snippet of another cell stays with that cell unless the last evaluation of
the removed cell made it too (`removal_takes_what_was_made`).  An evaluation is more careful here: it gives
away only what is still its cell's own (`get?_disown`).

What a cell holds is read off the last thing that was noted of it (`mem_snippets_after`).
-/

namespace Notebook

/-- The snippets that were made when a cell was evaluated; none when it was removed. -/
def Note.made {κ : Type} : Note κ → List SnippetId
  | .evaluated _ r => r.made
  | .removed _ => []

namespace Tracker

variable {κ : Type} [DecidableEq κ]

/-- The last that was noted of a cell is an evaluation that made a snippet. -/
def LastMade (history : List (Note κ)) (cell : κ) (id : SnippetId) : Prop :=
  ∃ first r rest, history = first ++ .evaluated cell r :: rest ∧ id ∈ r.made ∧ ∀ note ∈ rest, note.cell ≠ cell

/-- A history that ends with a note of the cell is decided by that note, and one that ends with a note of
another cell by what came before. -/
theorem lastMade_concat (history : List (Note κ)) (note : Note κ) (cell : κ) (id : SnippetId) :
    LastMade (history ++ [note]) cell id ↔
      if note.cell = cell then id ∈ note.made else LastMade history cell id := by
  constructor
  · rintro ⟨first, r, rest, hhistory, hmade, hrest⟩
    rcases concat_eq_append_cons.1 hhistory with ⟨rfl, rfl, rfl⟩ | ⟨rest, rfl, rfl⟩
    · exact (if_pos rfl).mpr hmade
    · -- the evaluation came before, and the last note is of another cell
      rw [if_neg (hrest note (by simp))]
      exact ⟨first, r, rest, rfl, hmade, fun other hother => hrest other (List.mem_append_left _ hother)⟩
  · intro h
    split at h
    · rename_i hnote
      cases note with
      | evaluated other r =>
        obtain rfl : other = cell := hnote
        exact ⟨history, r, [], rfl, h, nofun⟩
      | removed other => exact absurd h List.not_mem_nil
    · rename_i hnote
      obtain ⟨first, r, rest, rfl, hmade, hrest⟩ := h
      refine ⟨first, r, rest ++ [note], by simp, hmade, fun other hother => ?_⟩
      rcases List.mem_append.1 hother with hother | hother
      · exact hrest other hother
      · exact List.mem_singleton.1 hother ▸ hnote

theorem snippets_noted (t : Tracker κ) (note : Note κ) (cell : κ) :
    (t.noted note).snippets cell = if note.cell = cell then note.made else t.snippets cell := by
  cases note with
  | evaluated other r => exact snippets_record t other r cell
  | removed other => exact snippets_removeCell t other cell

/-- The snippets of a cell are those that its last evaluation made, unless it has been removed since. -/
theorem mem_snippets_after (history : List (Note κ)) (cell : κ) (id : SnippetId) :
    id ∈ (after history).snippets cell ↔ LastMade history cell id := by
  induction history using List.reverseRecOn with
  | nil =>
    refine iff_of_false List.not_mem_nil ?_
    rintro ⟨first, r, rest, h, -⟩
    simp at h
  | append_singleton history note ih =>
    rw [after_concat, snippets_noted, lastMade_concat]
    split
    · exact Iff.rfl
    · exact ih

/-- Whatever was noted of cells: when a cell is removed, the other cells keep their snippets and are stale
just if they were. The cell has no snippets left, is not stale, and no snippet belongs to it. A snippet
belongs to another cell just if it did before and the last that was noted of the removed cell is not an
evaluation that made it too. -/
theorem removal_takes_what_was_made (history : List (Note κ)) (cell : κ) :
    let t := after history
    (∀ other, other ≠ cell → (t.removeCell cell).snippets other = t.snippets other ∧
      (t.removeCell cell).isStale other = t.isStale other) ∧
    (t.removeCell cell).snippets cell = [] ∧ (t.removeCell cell).isStale cell = false ∧
    (∀ id, (t.removeCell cell).cellOf? id ≠ some cell) ∧
    ∀ id other, other ≠ cell → ((t.removeCell cell).cellOf? id = some other ↔
      t.cellOf? id = some other ∧ ¬ LastMade history cell id) := by
  intro t
  refine ⟨fun other hother => ⟨?_, ?_⟩, ?_, ?_, fun id h => ?_, fun id other hother => ?_⟩
  · rw [snippets_removeCell, if_neg (Ne.symm hother)]
  · exact Bool.eq_iff_iff.2 (by simp [isStale, removeCell, hother])
  · rw [snippets_removeCell, if_pos rfl]
  · simp [isStale, removeCell]
  · -- what belonged to the cell was among its snippets, and those belong to no cell now
    rw [cellOf?_removeCell] at h
    split at h
    · cases h
    · rename_i hsnippet
      exact hsnippet (owned_after history id cell h)
  · have hmade : id ∈ t.snippets cell ↔ LastMade history cell id := mem_snippets_after history cell id
    rw [cellOf?_removeCell, ← hmade]
    by_cases hsnippet : id ∈ t.snippets cell
    · simp [hsnippet]
    · simp [hsnippet]

/-- An evaluation that made one snippet. -/
def making (id : SnippetId) : EvaluationResult where
  direct := [{ snippet := id, kind := .expression, source := [], previous := .nonexistent, status := .valid }]

/-- Two cells make the same snippet. When the first is removed, the snippet is taken from the second. -/
theorem removal_takes_foreign_snippet :
    let t := after [.evaluated "a" (making 1), .evaluated "b" (making 1)]
    t.cellOf? 1 = some "b" ∧ t.snippets "b" = [1] ∧ (t.removeCell "a").cellOf? 1 = none := by
  decide

end Tracker

end Notebook

import Notebook.Proofs.Guest.History

/-!
# What holds of every snippet

Most of what an engine does to a snippet is to end it or to look at its declaration again.  A property that
outlasts both (`Record.Lasting`) holds of all snippets afterwards if it holds of those that are new.
-/

namespace Notebook.Guest
open Notebook.Text Notebook.Syntax

/-- Snippets keep the property when their declarations are looked at again, and when they end. -/
structure Record.Lasting (P : Record → Prop) : Prop where
  rechecked : ∀ r d g, P r → r.declaration = some d → P (r.rechecked d g)
  overwritten : ∀ r, P r → P { r with status := .overwritten }
  dropped : ∀ r, P r → P { r with status := .dropped }

namespace Store

variable {P : Record → Prop} {s : Store}

/-- The property holds of every snippet. -/
def Each (P : Record → Prop) (s : Store) : Prop := ∀ id r, s.record? id = some r → P r

theorem each_empty : ({} : Store).Each P := by
  intro id r hr
  rw [record?_empty] at hr
  cases hr

theorem Each.of_records_eq {t : Store} (hs : s.Each P) (h : t.records = s.records) : t.Each P := by
  intro id r hr
  unfold record? at hr
  rw [h] at hr
  exact hs id r hr

theorem Each.allocate (hs : s.Each P) {r : Record} (hr : P r) : (s.allocate r).2.Each P := by
  intro id r' hr'
  rw [record?_allocate] at hr'
  split at hr'
  · cases hr'
    exact hr
  · exact hs id r' hr'

theorem Each.update (hs : s.Each P) {id : SnippetId} {f : Record → Record}
    (hf : ∀ r, s.record? id = some r → P (f r)) : (s.update id f).Each P := by
  intro j r hr
  rw [record?_update] at hr
  split at hr
  · rename_i hj
    subst hj
    obtain ⟨r₀, hr₀, rfl⟩ := Option.map_eq_some_iff.1 hr
    exact hf r₀ hr₀
  · exact hs j r hr

theorem Each.looks (hP : Record.Lasting P) (hs : s.Each P) {s' : Store} {cause : SnippetId}
    {events : List SnippetEvent} (h : Looks cause s events s') : s'.Each P := by
  induction h with
  | done => exact hs
  | @look s s' events id r d hr hd _ _ ih =>
    exact ih (hs.update fun _ _ => hP.rechecked r d s.globals (hs id r hr) hd)

theorem Each.bindName (hP : Record.Lasting P) (hs : s.Each P) (name : String) (id : SnippetId) :
    (s.bindName name id).2.Each P := by
  have hbind : (s.bind name id).Each P := hs.of_records_eq rfl
  rw [bindName_eq]
  refine Each.looks hP ?_ (recheckDependents_looks (s.supersede name id).2 name id)
  unfold supersede
  split
  · -- the snippet that had the name is overwritten, if it still took part in the session
    rename_i p _
    split
    · unfold transition
      cases hr : (s.bind name id).record? p with
      | none => exact hbind
      | some r => exact hbind.update fun r' hr' => hP.overwritten r' (hbind p r' hr')
    · exact hbind
  · exact hbind

/-- A new snippet is given its status, and its name if it is to have it. -/
theorem Each.finish (hP : Record.Lasting P) (hs : s.Each P) {id : SnippetId} {status : Status}
    (hnew : ∀ r, s.record? id = some r → P { r with status }) (fault : Option FaultReport) (binds : Bool) :
    (s.finish id status fault binds).2.Each P := by
  cases hr : s.record? id with
  | none =>
    unfold Store.finish
    rw [hr]
    exact hs
  | some r =>
    have hupdated : (s.update id fun r => { r with status }).Each P := hs.update hnew
    rw [finish_eq hr]
    split
    · exact hupdated
    · exact hupdated.bindName hP _ id

theorem Each.drop (hP : Record.Lasting P) (hs : s.Each P) (hbound : s.Bound) (id : SnippetId) :
    (s.drop id).2.Each P := by
  have hdropped (t : Store) (ht : t.Each P) : (t.update id fun r => { r with status := .dropped }).Each P :=
    ht.update fun r hr => hP.dropped r (ht id r hr)
  rcases drop_cases hbound id with h | ⟨r, -, -, ⟨-, h⟩ | ⟨name, t, -, -, rfl, h⟩⟩
  · rw [h]
    exact hs
  · rw [h]
    exact hdropped s hs
  · rw [h]
    refine Each.looks hP (hdropped _ ?_) (recheckDependents_looks _ name id)
    exact hs.of_records_eq rfl

end Store

end Notebook.Guest

import Mathlib.Data.List.DropRight
import Notebook.Proofs.Session.CommonStart
import Notebook.Session.Kernel

/-!
# Tab only inserts

The suggestions for a caret all start with what is typed before it, from the anchor on.  So does what they
share, and what a press of the tab key puts in its place goes on from there: nothing that was typed is taken
out or changed (`tab_only_inserts`).
-/

namespace Notebook
open Notebook.Text Notebook.Scan Notebook.Guest

/-! ## Stretches of a text -/

/-- A text with more inserted at a caret, and the caret behind it. -/
def inserted (text : List Char) (caret : Nat) (more : List Char) : List Char × Nat :=
  (takeBytes text caret ++ more ++ dropBytes text caret, caret + width more)

section Stretches

variable (front typed behind : List Char)

theorem between_append :
    between (front ++ (typed ++ behind)) (width front) (width (front ++ typed)) = typed := by
  have hstop := isBoundary_append (front ++ typed) behind
  rw [List.append_assoc] at hstop
  have hle : width front ≤ width (front ++ typed) := by
    rw [width_append]
    exact Nat.le_add_right ..
  unfold between
  rw [isBoundary_append, hstop, decide_eq_true hle, Bool.and_self, Bool.and_self, if_pos rfl,
    dropBytes_append, width_append, Nat.add_sub_cancel_left, takeBytes_width_append]

/-- A continuation of what is typed is the same as what it goes on with, at the caret. -/
theorem splice_eq_inserted {caret : Nat}
    (hcaret : floorOffset (front ++ (typed ++ behind)) caret = width (front ++ typed)) (more : List Char) :
    splice (front ++ (typed ++ behind)) (width front) caret (typed ++ more) =
      inserted (front ++ (typed ++ behind)) (width (front ++ typed)) more := by
  have hle : width front ≤ width (front ++ typed) := by
    rw [width_append]
    exact Nat.le_add_right ..
  have htake := takeBytes_width_append (front ++ typed) behind
  have hdrop := dropBytes_append (front ++ typed) behind
  rw [List.append_assoc] at htake hdrop
  unfold splice inserted
  dsimp only
  rw [hcaret, Nat.min_eq_left hle, takeBytes_width_append, htake, hdrop]
  simp only [List.append_assoc, width_append, Nat.add_assoc]

end Stretches

/-! ## Suggestions -/

theorem dedupe_sublist (ss : List Suggestion) : (dedupe ss).Sublist ss := by
  unfold dedupe
  generalize ([] : List String) = seen
  fun_induction dedupeAfter seen ss with
  | case1 => exact .slnil
  | case2 seen s ss hseen ih => exact ih.cons s
  | case3 seen s ss hseen ih => exact ih.cons_cons s

theorem take_append_lastWord (cs : List Char) :
    cs.take (cs.length - (lastWord cs).length) ++ lastWord cs = cs :=
  List.suffix_iff_eq_append.1 (List.rtakeWhile_suffix _ cs)

/-- Every suggestion goes on from the word before the caret. -/
theorem Guest.Store.lastWord_prefix_of_mem_completions {s : Store} {text : List Char} {caret : Nat}
    {suggestion : Suggestion} (h : suggestion ∈ (s.completions text caret).1) :
    lastWord (takeBytes text caret) <+: suggestion.continuation.toList := by
  unfold completions at h
  dsimp only at h
  split at h
  · obtain ⟨name, hname, rfl⟩ := List.mem_map.1 h
    have hfits := List.isPrefixOf_iff_prefix.1 (List.mem_filter.1 hname).2
    rw [String.toList_append]
    exact hfits.trans (List.prefix_append ..)
  · exact List.isPrefixOf_iff_prefix.1 (List.mem_filter.1 h).2

/-- Suggestions that go on from what is typed between an anchor and a caret. -/
structure CompletionResult.GoesOn (r : CompletionResult) (text : List Char) (caret : Nat)
    (front typed behind : List Char) : Prop where
  text_eq : text = front ++ (typed ++ behind)
  floorOffset_eq : floorOffset text caret = width (front ++ typed)
  anchor_eq : r.anchor = width front
  prefixes : ∀ s ∈ r.suggestions, typed <+: s.continuation.toList

theorem Kernel.exists_goesOn_complete (k : Kernel) (text : List Char) (caret : Nat) :
    ∃ front typed behind, (k.complete text caret).GoesOn text caret front typed behind := by
  let c := floorOffset text caret
  let before := takeBytes text c
  let front := before.take (before.length - (lastWord before).length)
  have hsplit : front ++ lastWord before = before := take_append_lastWord before
  have hwidth : width before = c := floorOffset_floorOffset text caret
  refine ⟨front, lastWord before, dropBytes text c, ?_, ?_, Nat.min_eq_left ?_, fun s hs => ?_⟩
  · rw [← List.append_assoc, hsplit, takeBytes_append_dropBytes]
  · rw [hsplit, hwidth]
  · calc width front ≤ width front + width (lastWord before) := Nat.le_add_right ..
      _ = c := by rw [← width_append, hsplit, hwidth]
  · exact Guest.Store.lastWord_prefix_of_mem_completions ((dedupe_sublist _).subset hs)

/-! ## The tab key -/

/-- What the tab key puts in, or offers, goes on from what is typed. -/
def TabAction.GoesOn (typed : List Char) : TabAction → Prop
  | .nothing => True
  | .apply s => typed <+: s.toList
  | .insertShared s => ∃ more, more ≠ [] ∧ typed ++ more = s.toList
  | .choose ss => ∀ s ∈ ss, typed <+: s.toList

namespace CompletionResult.GoesOn

variable {r : CompletionResult} {text : List Char} {caret : Nat} {front typed behind : List Char}

theorem anchor_le (h : r.GoesOn text caret front typed behind) : r.anchor ≤ floorOffset text caret := by
  rw [h.anchor_eq, h.floorOffset_eq, width_append]
  exact Nat.le_add_right ..

theorem takeBytes_anchor (h : r.GoesOn text caret front typed behind) :
    takeBytes text r.anchor = front := by
  rw [h.anchor_eq, h.text_eq, takeBytes_width_append]

theorem takeBytes_caret (h : r.GoesOn text caret front typed behind) :
    takeBytes text (floorOffset text caret) = front ++ typed := by
  rw [h.floorOffset_eq, h.text_eq, ← List.append_assoc, takeBytes_width_append]

theorem between_eq (h : r.GoesOn text caret front typed behind) :
    between text r.anchor (floorOffset text caret) = typed := by
  rw [h.floorOffset_eq, h.anchor_eq, h.text_eq, between_append]

/-- What goes on from what is typed is inserted. -/
theorem splice_eq (h : r.GoesOn text caret front typed behind) (more : List Char) :
    splice text r.anchor caret (typed ++ more) = inserted text (floorOffset text caret) more := by
  have hcaret := h.floorOffset_eq
  rw [hcaret, h.anchor_eq]
  rw [h.text_eq] at hcaret ⊢
  exact splice_eq_inserted front typed behind hcaret more

theorem tab (h : r.GoesOn text caret front typed behind) : (r.tab text caret).GoesOn typed := by
  have hprefixes := h.prefixes
  unfold CompletionResult.tab
  dsimp only
  split
  · trivial
  · rename_i s hs
    rw [hs] at hprefixes
    exact hprefixes s List.mem_cons_self
  · rename_i ss hnil hone
    rw [Nat.min_eq_left h.anchor_le, h.between_eq]
    split
    · rename_i hlonger
      obtain ⟨more, hmore⟩ : typed <+: commonStart (r.suggestions.map (·.continuation.toList)) := by
        refine prefix_commonStart (fun hmap => hnil (List.map_eq_nil_iff.1 hmap)) fun cs hcs => ?_
        obtain ⟨s, hs, rfl⟩ := List.mem_map.1 hcs
        exact hprefixes s hs
      refine ⟨more, ?_, by rw [String.toList_ofList, hmore]⟩
      -- what is shared is longer than what is typed
      rintro rfl
      rw [← hmore, List.append_nil] at hlonger
      exact absurd hlonger (Nat.lt_irrefl _)
    · intro continuation hcontinuation
      obtain ⟨s, hs, rfl⟩ := List.mem_map.1 hcontinuation
      exact hprefixes s hs

end CompletionResult.GoesOn

/-- Whatever is typed, and wherever the caret is, a press of the tab key puts something in at the caret and
changes nothing else. There is something to put in where all suggestions go on in the same way, and those to
choose from start with what is typed. -/
theorem tab_only_inserts (k : Kernel) (text : List Char) (caret : Nat) :
    let c := floorOffset text caret
    let r := k.complete text caret
    takeBytes text c = takeBytes text r.anchor ++ between text r.anchor c ∧
      (∀ s, r.tab text caret = .apply s →
        ∃ more, splice text r.anchor caret s.toList = inserted text c more) ∧
      (∀ s, r.tab text caret = .insertShared s →
        ∃ more, more ≠ [] ∧ splice text r.anchor caret s.toList = inserted text c more) ∧
      ∀ ss, r.tab text caret = .choose ss → ∀ s ∈ ss, between text r.anchor c <+: s.toList := by
  intro c r
  obtain ⟨front, typed, behind, h⟩ := k.exists_goesOn_complete text caret
  have htab : (r.tab text caret).GoesOn typed := h.tab
  refine ⟨?_, fun s hs => ?_, fun s hs => ?_, fun ss hss => ?_⟩
  · rw [h.between_eq, h.takeBytes_anchor, h.takeBytes_caret]
  · rw [hs] at htab
    obtain ⟨more, hmore⟩ : typed <+: s.toList := htab
    exact ⟨more, hmore ▸ h.splice_eq more⟩
  · rw [hs] at htab
    obtain ⟨more, hne, hmore⟩ : ∃ more, more ≠ [] ∧ typed ++ more = s.toList := htab
    exact ⟨more, hne, hmore ▸ h.splice_eq more⟩
  · rw [hss] at htab
    rw [h.between_eq]
    exact htab

end Notebook

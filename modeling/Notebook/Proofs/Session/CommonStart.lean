import Notebook.Completion
import Notebook.Proofs.Text.Places

/-!
# What texts start with in common

The common start of texts is found as an end in the first of them, in bytes, that every other text may move to
the left. Wherever it comes to stand is between two characters, and what lies before it is the greatest start
of all texts (`commonStart_is_greatest`).
-/

namespace Notebook
open Notebook.Text Notebook.Scan

/-! ## Two texts -/

/-- The characters that two texts start with in common. -/
def sharedStart : List Char → List Char → List Char
  | a :: as, b :: bs => if a = b then a :: sharedStart as bs else []
  | _, _ => []

theorem prefix_sharedStart_iff (p as bs : List Char) : p <+: sharedStart as bs ↔ p <+: as ∧ p <+: bs := by
  induction p generalizing as bs with
  | nil => simp only [List.nil_prefix, and_self]
  | cons c p ih =>
    rcases as with _ | ⟨a, as⟩
    · simp only [sharedStart, List.prefix_nil, reduceCtorEq, false_and]
    rcases bs with _ | ⟨b, bs⟩
    · simp only [sharedStart, List.prefix_nil, reduceCtorEq, and_false]
    by_cases hab : a = b
    · rw [sharedStart, if_pos hab, ← hab, List.cons_prefix_cons, List.cons_prefix_cons, List.cons_prefix_cons, ih]
      exact and_and_left
    · rw [sharedStart, if_neg hab, List.prefix_nil, List.cons_prefix_cons, List.cons_prefix_cons]
      simp only [reduceCtorEq, false_iff]
      -- the first character would have to be both
      rintro ⟨⟨rfl, -⟩, rfl, -⟩
      exact hab rfl

/-- The first difference stands behind what two texts share. Texts without one share the shorter of them. -/
theorem differenceFrom?_getD (offset : Nat) (as bs : List Char) :
    (differenceFrom? offset as bs).getD (offset + min (width as) (width bs)) =
      offset + width (sharedStart as bs) := by
  induction as generalizing offset bs with
  | nil => simp only [differenceFrom?, sharedStart, width, Nat.zero_min, Option.getD_none]
  | cons a as ih =>
    rcases bs with _ | ⟨b, bs⟩
    · simp only [differenceFrom?, sharedStart, width, Nat.min_zero, Option.getD_none]
    by_cases hab : a = b
    · rw [differenceFrom?, sharedStart, if_pos hab, if_pos hab, ← hab, width, width, width,
        Nat.add_min_add_left, ← Nat.add_assoc, ← Nat.add_assoc]
      exact ih (offset + a.utf8Size) bs
    · rw [differenceFrom?, sharedStart, if_neg hab, if_neg hab]
      rfl

theorem sharedBytes_eq (as bs : List Char) : sharedBytes as bs = width (sharedStart as bs) := by
  have hdifference := differenceFrom?_getD 0 as bs
  rw [Nat.zero_add, Nat.zero_add] at hdifference
  exact hdifference

/-! ## The end in the first text -/

/-- What starts all texts of a list, and is the greatest that does. -/
def IsCommonStart (texts : List (List Char)) (front : List Char) : Prop :=
  ∀ p, p <+: front ↔ ∀ text ∈ texts, p <+: text

section Loop

variable {texts : List (List Char)} {first front : List Char}

theorem IsCommonStart.prefix_of_mem (h : IsCommonStart texts front) {text : List Char} (htext : text ∈ texts) :
    front <+: text := (h front).1 (List.prefix_refl front) text htext

/-- One more text moves the end to where it parts from the first text, if that is further left. -/
theorem IsCommonStart.concat (h : IsCommonStart texts front) (hfirst : first ∈ texts) (cs : List Char) :
    ∃ shorter, width shorter = min (sharedBytes first cs) (width front) ∧
      IsCommonStart (texts ++ [cs]) shorter := by
  have hshared : sharedStart first cs <+: first :=
    ((prefix_sharedStart_iff _ first cs).1 (List.prefix_refl _)).1
  have hfront : front <+: first := h.prefix_of_mem hfirst
  have hboth (p : List Char) :
      (∀ text ∈ texts ++ [cs], p <+: text) ↔ p <+: front ∧ p <+: sharedStart first cs := by
    rw [List.forall_mem_append, List.forall_mem_singleton, ← h p, prefix_sharedStart_iff]
    constructor
    · intro hp
      exact ⟨hp.1, hp.1.trans hfront, hp.2⟩
    · intro hp
      exact ⟨hp.1, hp.2.2⟩
  rw [sharedBytes_eq]
  -- both are starts of the first text, so one of them goes on from the other
  rcases Nat.le_total (width (sharedStart first cs)) (width front) with hle | hle
  · refine ⟨sharedStart first cs, (Nat.min_eq_left hle).symm, fun p => ?_⟩
    have hstart : sharedStart first cs <+: front := prefix_of_width_le hshared hfront hle
    rw [hboth]
    exact ⟨fun hp => ⟨hp.trans hstart, hp⟩, fun hp => hp.2⟩
  · refine ⟨front, (Nat.min_eq_right hle).symm, fun p => ?_⟩
    have hstart : front <+: sharedStart first cs := prefix_of_width_le hfront hshared hle
    rw [hboth]
    exact ⟨fun hp => ⟨hp, hp.trans hstart⟩, fun hp => hp.1⟩

/-- The end stands behind the common start of the texts seen so far, from one text to the next. -/
theorem IsCommonStart.foldl (h : IsCommonStart texts front) (hfirst : first ∈ texts) (rest : List (List Char)) :
    ∃ common, width common = rest.foldl (fun stop cs => min (sharedBytes first cs) stop) (width front) ∧
      IsCommonStart (texts ++ rest) common := by
  induction rest generalizing texts front with
  | nil => exact ⟨front, rfl, by rw [List.append_nil]; exact h⟩
  | cons cs rest ih =>
    obtain ⟨shorter, hwidth, hshorter⟩ := h.concat hfirst cs
    have hmem : first ∈ texts ++ [cs] := List.mem_append_left _ hfirst
    obtain ⟨common, hcommon, hgreatest⟩ := ih hshorter hmem
    rw [List.append_assoc, List.singleton_append] at hgreatest
    rw [hwidth] at hcommon
    exact ⟨common, hcommon, hgreatest⟩

end Loop

theorem exists_commonEnd (first : List Char) (rest : List (List Char)) :
    ∃ common behind, first = common ++ behind ∧ commonEnd first rest = width common ∧
      IsCommonStart (first :: rest) common := by
  have hself : IsCommonStart [first] first := by
    intro p
    rw [List.forall_mem_singleton]
  obtain ⟨common, hwidth, hcommon⟩ := hself.foldl List.mem_cons_self rest
  obtain ⟨behind, hbehind⟩ := hcommon.prefix_of_mem List.mem_cons_self
  exact ⟨common, behind, hbehind.symm, hwidth.symm, hcommon⟩

theorem isCommonStart_commonStart (first : List Char) (rest : List (List Char)) :
    IsCommonStart (first :: rest) (commonStart (first :: rest)) := by
  obtain ⟨common, behind, hfirst, hend, hcommon⟩ := exists_commonEnd first rest
  have hstart : commonStart (first :: rest) = common := by
    rw [commonStart, hend, hfirst, takeBytes_width_append]
  rw [hstart]
  exact hcommon

theorem prefix_commonStart {typed : List Char} {texts : List (List Char)} (hne : texts ≠ [])
    (h : ∀ text ∈ texts, typed <+: text) : typed <+: commonStart texts := by
  cases texts with
  | nil => exact absurd rfl hne
  | cons first rest => exact (isCommonStart_commonStart first rest typed).2 h

/-- Whatever characters texts are made of, the end that is found in the first of them is between two of its
characters, what lies before it starts every text, and all that starts every text starts it. -/
theorem commonStart_is_greatest (first : List Char) (rest : List (List Char)) :
    takeBytes? first (commonEnd first rest) = some (commonStart (first :: rest)) ∧
      (∀ text ∈ first :: rest, commonStart (first :: rest) <+: text) ∧
      ∀ p, (∀ text ∈ first :: rest, p <+: text) → p <+: commonStart (first :: rest) := by
  have hgreatest := isCommonStart_commonStart first rest
  refine ⟨?_, fun text htext => hgreatest.prefix_of_mem htext, fun p hp => (hgreatest p).2 hp⟩
  obtain ⟨common, behind, hfirst, hend, -⟩ := exists_commonEnd first rest
  have hboundary : isBoundary first (commonEnd first rest) = true := by
    rw [hend, hfirst]
    exact isBoundary_append common behind
  rw [takeBytes?, if_pos hboundary, commonStart]

example : commonStart ["héllo".toList, "hélp".toList, "hé".toList] = "hé".toList := by decide

end Notebook

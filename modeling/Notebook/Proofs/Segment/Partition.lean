import Notebook.Proofs.Segment.Resplit

/-!
# Units partition the text

Whatever an analysis answers, the units of a text and its rest are stretches of the text in order, with
nothing but blanks before and between them (`split_partitions`).

That no character is cut, and nothing is taken from beyond the end, is said of a second form of the search
(`Segment.next?`), in which every slice fails that is not taken between two characters.
-/

namespace Notebook
open Notebook.Text Notebook.Scan

/-! ## Slices that may fail -/

namespace Text

/-- The text from an offset on, which has to stand between two characters. -/
def dropBytes? (cs : List Char) (n : Nat) : Option (List Char) :=
  if isBoundary cs n then some (dropBytes cs n) else none

/-- The text up to an offset, which has to stand between two characters. -/
def takeBytes? (cs : List Char) (n : Nat) : Option (List Char) :=
  if isBoundary cs n then some (takeBytes cs n) else none

/-- The first place between two characters that is met on the way back from an offset. -/
def lastBoundary (cs : List Char) : Nat → Nat
  | 0 => 0
  | n + 1 => if isBoundary cs (n + 1) then n + 1 else lastBoundary cs n

theorem floorOffset_append (front back : List Char) :
    floorOffset (front ++ back) (width front) = width front := by
  rw [floorOffset, takeBytes_width_append]

theorem dropBytes_append (front back : List Char) :
    dropBytes (front ++ back) (width front) = back := by
  have hall := takeBytes_append_dropBytes (front ++ back) (width front)
  rw [takeBytes_width_append] at hall
  exact List.append_cancel_left hall

theorem isBoundary_append (front back : List Char) :
    isBoundary (front ++ back) (width front) = true := by
  rw [isBoundary, floorOffset_append, beq_self_eq_true]

theorem slice_append (front middle back : List Char) :
    slice (front ++ (middle ++ back)) (width front) (width front + width middle) = middle := by
  rw [slice, dropBytes_append, floorOffset_append, Nat.add_sub_cancel_left, takeBytes_width_append]

theorem floorOffset_floorOffset (cs : List Char) (n : Nat) :
    floorOffset cs (floorOffset cs n) = floorOffset cs n := by
  have happend := floorOffset_append (takeBytes cs n) (dropBytes cs n)
  rwa [takeBytes_append_dropBytes] at happend

theorem dropBytes_floorOffset (cs : List Char) (n : Nat) :
    dropBytes cs (floorOffset cs n) = dropBytes cs n := by
  have happend := dropBytes_append (takeBytes cs n) (dropBytes cs n)
  rwa [takeBytes_append_dropBytes] at happend

theorem isBoundary_floorOffset (cs : List Char) (n : Nat) :
    isBoundary cs (floorOffset cs n) = true := by
  rw [isBoundary, floorOffset_floorOffset, beq_self_eq_true]

theorem le_width_of_isBoundary {cs : List Char} {n : Nat} (h : isBoundary cs n = true) :
    n ≤ width cs := by
  have hfloor : floorOffset cs n = n := beq_iff_eq.1 h
  have hsum := width_takeBytes_add cs n
  rw [floorOffset] at hfloor
  omega

/-- No character ends at an offset that is no boundary, so one byte less takes the same characters. -/
theorem takeBytes_succ {cs : List Char} {n : Nat} (h : isBoundary cs (n + 1) = false) :
    takeBytes cs (n + 1) = takeBytes cs n := by
  induction cs generalizing n with
  | nil => rfl
  | cons c cs ih =>
    unfold takeBytes
    by_cases hle : c.utf8Size ≤ n
    · have hsub : n + 1 - c.utf8Size = n - c.utf8Size + 1 := Nat.sub_add_comm hle
      rw [if_pos hle, if_pos (Nat.le_succ_of_le hle), hsub, ih]
      -- a boundary of the rest is one of the whole text
      rw [isBoundary, beq_eq_false_iff_ne, floorOffset] at h ⊢
      rw [takeBytes, if_pos (Nat.le_succ_of_le hle), width, hsub] at h
      omega
    · rw [if_neg hle]
      split
      · rename_i hsucc
        -- the first character ends just here
        have hsize : n + 1 = c.utf8Size := Nat.le_antisymm (Nat.succ_le_of_lt (Nat.lt_of_not_le hle)) hsucc
        have hboundary := isBoundary_append [c] cs
        rw [width, width, Nat.add_zero, ← hsize] at hboundary
        rw [List.singleton_append, h] at hboundary
        cases hboundary
      · rfl

theorem lastBoundary_eq (cs : List Char) (n : Nat) : lastBoundary cs n = floorOffset cs n := by
  induction n with
  | zero => exact (floorOffset_zero cs).symm
  | succ n ih =>
    unfold lastBoundary
    split
    · rename_i h
      exact (beq_iff_eq.1 h).symm
    · rename_i h
      rw [ih, floorOffset, floorOffset, takeBytes_succ (Bool.eq_false_iff.2 h)]

theorem floorOffset_of_width_le {cs : List Char} {n : Nat} (h : width cs ≤ n) :
    floorOffset cs n = width cs := by
  unfold floorOffset
  induction cs generalizing n with
  | nil => rfl
  | cons c cs ih =>
    rw [width] at h
    have hle : c.utf8Size ≤ n := Nat.le_trans (Nat.le_add_right ..) h
    rw [takeBytes, if_pos hle, width, width, ih (Nat.le_sub_of_add_le' h)]

theorem floorOffset_min_width (cs : List Char) (n : Nat) :
    floorOffset cs (min n (width cs)) = floorOffset cs n := by
  rcases Nat.le_total n (width cs) with h | h
  · rw [Nat.min_eq_left h]
  · rw [Nat.min_eq_right h, floorOffset_of_width_le h, floorOffset_of_width_le (Nat.le_refl _)]

/-- Blanks stand before what is left when they are dropped. -/
theorem exists_blanks_append (cs : List Char) :
    ∃ blanks, cs = blanks ++ trimStart cs ∧ blanks.all isBlank = true := by
  exact ⟨cs.takeWhile isBlank, List.takeWhile_append_dropWhile.symm, List.all_takeWhile⟩

theorem head?_trimStart {cs : List Char} (h : trimStart cs ≠ []) :
    ∃ c, (trimStart cs).head? = some c ∧ isBlank c = false := by
  have hhead := List.head?_dropWhile_not isBlank cs
  unfold trimStart at h ⊢
  cases htrim : cs.dropWhile isBlank with
  | nil => exact absurd htrim h
  | cons c rest =>
    rw [htrim] at hhead
    exact ⟨c, rfl, hhead⟩

end Text

/-! ## One step -/

namespace Segment

/-- The next unit of `source` from an offset on, found with slices that may fail. -/
def next? (analyze : List Char → Completeness) (source : List Char) (start : Nat) : Option Step := do
  let start := lastBoundary source (min start (width source))
  let rest ← dropBytes? source start
  let text := trimStart rest
  let offset := start + (width rest - width text)
  if text.isEmpty then return .done
  match analyze text with
  | .empty => return .done
  | .incomplete => return .incomplete ⟨offset, text⟩
  | .complete length =>
    if length = 0 || width text < length || !isBoundary text length then
      return .incomplete ⟨offset, text⟩
    else return .unit ⟨offset, ← takeBytes? text length⟩

theorem isUnitLength_iff (text : List Char) (length : Nat) :
    isUnitLength text length =
      !(length = 0 || width text < length || !isBoundary text length) := by
  unfold isUnitLength
  by_cases hboundary : isBoundary text length = true
  · have hle := le_width_of_isBoundary hboundary
    have hlt : ¬ width text < length := Nat.not_lt.2 hle
    rw [hboundary]
    simp [hlt, Nat.pos_iff_ne_zero]
  · rw [Bool.not_eq_true] at hboundary
    simp [hboundary]

/-- No slice fails on the way. -/
theorem next?_eq (analyze : List Char → Completeness) (source : List Char) (start : Nat) :
    next? analyze source start = some (next analyze source start) := by
  unfold next? next dropBytes? takeBytes?
  simp only [lastBoundary_eq, floorOffset_min_width, isBoundary_floorOffset, if_true,
    dropBytes_floorOffset, Option.bind_eq_bind, Option.bind_some]
  split
  · rfl
  cases analyze (trimStart (dropBytes source start)) with
  | empty => rfl
  | incomplete => rfl
  | complete length =>
    simp only [isUnitLength_iff]
    cases hbad : (length = 0 || width (trimStart (dropBytes source start)) < length ||
        !isBoundary (trimStart (dropBytes source start)) length : Bool) with
    | true => rfl
    | false =>
      have hboundary : isBoundary (trimStart (dropBytes source start)) length = true := by
        simp only [Bool.or_eq_false_iff, Bool.not_eq_false'] at hbad
        exact hbad.2
      rw [hboundary]
      rfl

/-- The segment is the stretch of the text between its two offsets, which cut no character. -/
structure IsSliceOf (s : Segment) (source : List Char) : Prop where
  offset : isBoundary source s.offset = true
  stop : isBoundary source s.stop = true
  text : slice source s.offset s.stop = s.text

theorem isSliceOf_append (front text back : List Char) :
    IsSliceOf ⟨width front, text⟩ (front ++ (text ++ back)) := by
  refine ⟨isBoundary_append front _, ?_, slice_append front text back⟩
  have hstop := isBoundary_append (front ++ text) back
  rwa [List.append_assoc, width_append] at hstop

/-- The law of one step: what it finds is cut out of the text behind nothing but blanks. A unit is one for
the analysis of the text from its offset on, and a rest that is incomplete runs to the end. -/
def Step.Lawful (analyze : List Char → Completeness) (source : List Char) (start : Nat) : Step → Prop
  | .unit s =>
    s.IsSliceOf source ∧ s.text ≠ [] ∧ analyze (dropBytes source s.offset) = .complete (width s.text) ∧
      floorOffset source start ≤ s.offset ∧ (slice source start s.offset).all isBlank = true
  | .incomplete s =>
    s.IsSliceOf source ∧ s.stop = width source ∧ (∃ c, s.text.head? = some c ∧ isBlank c = false) ∧
      floorOffset source start ≤ s.offset ∧ (slice source start s.offset).all isBlank = true
  | .done =>
    (dropBytes source start).all isBlank = true ∨
      analyze (trimStart (dropBytes source start)) = .empty

theorem next_lawful (analyze : List Char → Completeness) (source : List Char) (start : Nat) :
    (next analyze source start).Lawful analyze source start := by
  -- the text is what stands before the offset, blanks, and what is analyzed
  obtain ⟨blanks, hrest, hblanks⟩ := exists_blanks_append (dropBytes source start)
  generalize htext : trimStart (dropBytes source start) = text at hrest
  have hsource : source = takeBytes source start ++ (blanks ++ text) := by
    rw [← hrest, takeBytes_append_dropBytes]
  have hoffset : floorOffset source start + (width (dropBytes source start) - width text) =
      width (takeBytes source start ++ blanks) := by
    rw [hrest, width_append, width_append, Nat.add_sub_cancel, floorOffset]
  have hgap : slice source start (width (takeBytes source start ++ blanks)) = blanks := by
    rw [slice, hrest, width_append, floorOffset, Nat.add_sub_cancel_left, takeBytes_width_append]
  have hle : floorOffset source start ≤ width (takeBytes source start ++ blanks) := by
    rw [width_append, floorOffset]
    exact Nat.le_add_right ..
  have hincomplete (hne : text ≠ []) :
      (Step.incomplete ⟨width (takeBytes source start ++ blanks), text⟩).Lawful analyze source start := by
    refine ⟨?_, ?_, ?_, hle, ?_⟩
    · have hslice := isSliceOf_append (takeBytes source start ++ blanks) text []
      rwa [List.append_nil, List.append_assoc, ← hsource] at hslice
    · have hwidth := congrArg width hsource
      rw [width_append, width_append] at hwidth
      rw [stop, width_append, hwidth, Nat.add_assoc]
    · subst htext
      exact head?_trimStart hne
    · rw [hgap]
      exact hblanks
  unfold next
  simp only [htext, hoffset]
  split
  · rename_i hempty
    -- nothing but blanks is left
    rw [List.isEmpty_iff] at hempty
    refine .inl ?_
    rw [hrest, hempty, List.append_nil]
    exact hblanks
  · rename_i hne
    rw [List.isEmpty_iff] at hne
    split
    · rename_i hanswer
      exact .inr (htext ▸ hanswer)
    · exact hincomplete hne
    · rename_i length hanswer
      split
      · rename_i hlength
        rw [isUnitLength, Bool.and_eq_true, decide_eq_true_eq] at hlength
        have hwidth : width (takeBytes text length) = length := beq_iff_eq.1 hlength.2
        have hslice := isSliceOf_append (takeBytes source start ++ blanks) (takeBytes text length)
          (dropBytes text length)
        rw [takeBytes_append_dropBytes, List.append_assoc, ← hsource] at hslice
        refine ⟨hslice, ?_, ?_, hle, ?_⟩
        · intro hnil
          change takeBytes text length = [] at hnil
          rw [hnil, width] at hwidth
          exact absurd hwidth.symm (Nat.ne_of_gt hlength.1)
        · have hdrop := dropBytes_append (takeBytes source start ++ blanks) text
          rw [List.append_assoc, ← hsource] at hdrop
          change analyze (dropBytes source (width (takeBytes source start ++ blanks))) =
            .complete (width (takeBytes text length))
          rw [hdrop, hwidth]
          exact hanswer
        · rw [hgap]
          exact hblanks
      · exact hincomplete hne

end Segment

/-! ## The whole text -/

/-- The loop that cuts a text, run with slices that may fail, comes to an end with this result. -/
inductive Splits (analyze : List Char → Completeness) (source : List Char) : Nat → Split → Prop
  | done {start : Nat} (h : Segment.next? analyze source start = some .done) :
      Splits analyze source start ⟨[], none⟩
  | incomplete {start : Nat} {s : Segment}
      (h : Segment.next? analyze source start = some (.incomplete s)) :
      Splits analyze source start ⟨[], some s⟩
  | unit {start : Nat} {s : Segment} {r : Split}
      (h : Segment.next? analyze source start = some (.unit s)) (rest : Splits analyze source s.stop r) :
      Splits analyze source start ⟨s :: r.units, r.remainder⟩

theorem splits_splitFrom (analyze : List Char → Completeness) (source : List Char) (start : Nat) :
    Splits analyze source start (splitFrom analyze source start) := by
  fun_induction splitFrom analyze source start with
  | case1 start hnext => exact .done (hnext ▸ Segment.next?_eq analyze source start)
  | case2 start s hnext => exact .incomplete (hnext ▸ Segment.next?_eq analyze source start)
  | case3 start s hnext rest ih => exact .unit (hnext ▸ Segment.next?_eq analyze source start) ih

namespace Split

/-- The stretches of a split: its units, and the rest if there is one. -/
def segments (r : Split) : List Segment := r.units ++ r.remainder.toList

end Split

/-- Segments stand one behind the other from an offset on, with nothing but blanks before and between
them. -/
def Spaced (source : List Char) : Nat → List Segment → Prop
  | _, [] => True
  | start, s :: rest =>
    floorOffset source start ≤ s.offset ∧ (slice source start s.offset).all isBlank = true ∧
      Spaced source s.stop rest

/-- The offset up to which segments take up a text. -/
def endOf (start : Nat) (segments : List Segment) : Nat := (segments.getLast?.map Segment.stop).getD start

theorem endOf_cons (start : Nat) (s : Segment) (rest : List Segment) :
    endOf start (s :: rest) = endOf s.stop rest := by
  cases rest with
  | nil => rfl
  | cons t rest =>
    unfold endOf
    rw [List.getLast?_cons_cons]
    cases h : (t :: rest).getLast? with
    | none => exact absurd (List.getLast?_eq_none_iff.1 h) (List.cons_ne_nil t rest)
    | some u => rfl

/-- What holds of a split from an offset on. -/
structure Split.Partitions (analyze : List Char → Completeness) (source : List Char) (start : Nat)
    (r : Split) : Prop where
  slices : ∀ s ∈ r.segments, s.IsSliceOf source
  units : ∀ u ∈ r.units, u.text ≠ [] ∧ analyze (dropBytes source u.offset) = .complete (width u.text)
  spaced : Spaced source start r.segments
  remainder : ∀ s, r.remainder = some s →
    s.stop = width source ∧ ∃ c, s.text.head? = some c ∧ isBlank c = false
  tail : r.remainder = none →
    (dropBytes source (endOf start r.units)).all isBlank = true ∨
      analyze (trimStart (dropBytes source (endOf start r.units))) = .empty

theorem partitions_splitFrom (analyze : List Char → Completeness) (source : List Char) (start : Nat) :
    (splitFrom analyze source start).Partitions analyze source start := by
  fun_induction splitFrom analyze source start with
  | case1 start hnext =>
    have hlaw := Segment.next_lawful analyze source start
    rw [hnext] at hlaw
    exact ⟨fun _ h => absurd h List.not_mem_nil, fun _ h => absurd h List.not_mem_nil, trivial,
      fun _ h => (Option.some_ne_none _ h.symm).elim, fun _ => hlaw⟩
  | case2 start s hnext =>
    have hlaw := Segment.next_lawful analyze source start
    rw [hnext] at hlaw
    obtain ⟨hslice, hstop, hhead, hle, hblank⟩ := hlaw
    refine ⟨fun t ht => ?_, fun _ h => absurd h List.not_mem_nil, ⟨hle, hblank, trivial⟩, fun t ht => ?_,
      fun h => (Option.some_ne_none _ h).elim⟩
    · rw [List.mem_singleton.1 ht]
      exact hslice
    · cases ht
      exact ⟨hstop, hhead⟩
  | case3 start s hnext rest ih =>
    have hlaw := Segment.next_lawful analyze source start
    rw [hnext] at hlaw
    obtain ⟨hslice, hne, hanswer, hle, hblank⟩ := hlaw
    refine ⟨fun t ht => ?_, fun u hu => ?_, ⟨hle, hblank, ih.spaced⟩, ih.remainder, fun hnone => ?_⟩
    · rcases List.mem_cons.1 ht with rfl | ht
      · exact hslice
      · exact ih.slices t ht
    · rcases List.mem_cons.1 hu with rfl | hu
      · exact ⟨hne, hanswer⟩
      · exact ih.units u hu
    · rw [endOf_cons]
      exact ih.tail hnone

/-- Segments that stand one behind the other do not overlap. -/
theorem Spaced.pairwise {source : List Char} {start : Nat} {segments : List Segment}
    (hslices : ∀ s ∈ segments, s.IsSliceOf source) (h : Spaced source start segments) :
    (∀ s ∈ segments, floorOffset source start ≤ s.offset) ∧
      segments.Pairwise fun s t => s.stop ≤ t.offset := by
  induction segments generalizing start with
  | nil => exact ⟨fun _ h => absurd h List.not_mem_nil, .nil⟩
  | cons s rest ih =>
    obtain ⟨hle, -, hrest⟩ := h
    obtain ⟨hafter, hpairwise⟩ := ih (fun t ht => hslices t (List.mem_cons_of_mem s ht)) hrest
    have hstop : floorOffset source s.stop = s.stop :=
      beq_iff_eq.1 (hslices s List.mem_cons_self).stop
    rw [hstop] at hafter
    refine ⟨fun t ht => ?_, List.pairwise_cons.2 ⟨hafter, hpairwise⟩⟩
    rcases List.mem_cons.1 ht with rfl | ht
    · exact hle
    · exact Nat.le_trans hle (Nat.le_trans (Nat.le_add_right ..) (hafter t ht))

/-- Whatever the analysis answers, cutting a text comes to an end, and cuts no character.  The units are
stretches of the text in order, none of them empty; each is one for the analysis of the text from its
offset on.  Nothing but blanks stands before the units, between them, and between the last one and the
rest.  The rest, if there is one, starts with no blank and runs to the end of the text; if there is none,
nothing but blanks follows the last unit, or what the analysis calls empty.  One step, from whatever
offset it is taken, obeys the same law. -/
theorem split_partitions (analyze : List Char → Completeness) (source : List Char) :
    let r := split analyze source
    Splits analyze source 0 r ∧
      (∀ u ∈ r.units, u.text ≠ [] ∧ u.IsSliceOf source ∧
        analyze (dropBytes source u.offset) = .complete (width u.text)) ∧
      (r.segments.Pairwise fun s t => s.stop ≤ t.offset) ∧
      Spaced source 0 r.segments ∧
      (∀ s, r.remainder = some s → s.IsSliceOf source ∧ s.stop = width source ∧
        ∃ c, s.text.head? = some c ∧ isBlank c = false) ∧
      (r.remainder = none →
        (dropBytes source (endOf 0 r.units)).all isBlank = true ∨
          analyze (trimStart (dropBytes source (endOf 0 r.units))) = .empty) ∧
      ∀ start, Segment.next? analyze source start = some (Segment.next analyze source start) ∧
        (Segment.next analyze source start).Lawful analyze source start := by
  intro r
  have hr : r.Partitions analyze source 0 := partitions_splitFrom analyze source 0
  refine ⟨splits_splitFrom analyze source 0, fun u hu => ?_, (hr.spaced.pairwise hr.slices).2, hr.spaced,
    fun s hs => ?_, hr.tail, fun start => ?_⟩
  · obtain ⟨hne, hanswer⟩ := hr.units u hu
    exact ⟨hne, hr.slices u (List.mem_append_left _ hu), hanswer⟩
  · refine ⟨hr.slices s (List.mem_append_right _ ?_), hr.remainder s hs⟩
    rw [hs]
    exact List.mem_singleton_self s
  · exact ⟨Segment.next?_eq analyze source start, Segment.next_lawful analyze source start⟩

/-- An analysis that takes every byte for a unit finds one where a character has one byte, and none where
it has two. -/
example : split (fun _ => .complete 1) " x é".toList = ⟨[⟨1, ['x']⟩], some ⟨3, ['é']⟩⟩ := by
  decide +kernel

end Notebook

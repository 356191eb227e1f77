import Notebook.Scan.Completeness

/-!
Cutting a submitted text into units. What a unit is, an analysis says that is handed in; here a text is
cut by it, and an answer that is no proper length counts as incomplete.
-/
namespace Notebook
open Notebook.Text Notebook.Scan

/-- A stretch of a text and the offset at which it starts. -/
structure Segment where
  offset : Nat
  text : List Char
  deriving DecidableEq, Repr

namespace Segment

/-- The offset just past the segment. -/
def stop (s : Segment) : Nat := s.offset + width s.text

/-- What is found in a text from an offset on. -/
inductive Step
  /-- A unit to evaluate. -/
  | unit (s : Segment)
  /-- Nothing but blanks and comments. -/
  | done
  /-- A rest that needs more input. -/
  | incomplete (s : Segment)
  deriving DecidableEq, Repr

/-- Lengths that cut a text between two characters and take something. -/
def isUnitLength (text : List Char) (length : Nat) : Bool :=
  0 < length && isBoundary text length

/-- The next unit of `source` from an offset on. -/
def next (analyze : List Char → Completeness) (source : List Char) (start : Nat) : Step :=
  let rest := dropBytes source start
  let text := trimStart rest
  let offset := floorOffset source start + (width rest - width text)
  if text.isEmpty then .done
  else
    match analyze text with
    | .empty => .done
    | .incomplete => .incomplete ⟨offset, text⟩
    | .complete length =>
      if isUnitLength text length then .unit ⟨offset, takeBytes text length⟩
      else .incomplete ⟨offset, text⟩

/-- A unit ends beyond the offset from which it was looked for, and within the text. -/
theorem lt_stop_of_next {analyze : List Char → Completeness} {source : List Char} {start : Nat}
    {s : Segment} (h : next analyze source start = .unit s) :
    start < s.stop ∧ s.stop ≤ width source := by
  unfold next at h
  simp only at h
  split at h
  · cases h
  · split at h
    · cases h
    · cases h
    · rename_i length _
      split at h
      · rename_i hlen
        simp only [Step.unit.injEq] at h
        subst h
        simp only [isUnitLength, isBoundary, floorOffset, Bool.and_eq_true, decide_eq_true_eq,
          beq_iff_eq] at hlen
        have hle := width_trimStart_le (dropBytes source start)
        have hsum := width_takeBytes_add source start
        have htext := width_takeBytes_add (trimStart (dropBytes source start)) length
        simp only [stop, floorOffset]
        refine ⟨?_, by omega⟩
        cases hd : dropBytes source start with
        | nil => simp_all [trimStart]
        | cons c rest =>
          have hlt := lt_floorOffset_add hd
          simp only [floorOffset] at hlt
          rw [hd] at hle htext hlen
          by_cases hb : isBlank c = true
          · have : trimStart (c :: rest) = trimStart rest := by simp [trimStart, hb]
            rw [this] at hle htext hlen ⊢
            have := width_trimStart_le rest
            simp only [width]
            omega
          · have : trimStart (c :: rest) = c :: rest := by simp [trimStart, hb]
            rw [this] at hle htext hlen ⊢
            have hc : c.utf8Size ≤ length := by
              by_cases hc : c.utf8Size ≤ length
              · exact hc
              · simp only [takeBytes, hc, if_false, width] at hlen
                omega
            omega
      · cases h

end Segment

/-- The units of a text, and the rest that is incomplete, if there is one. -/
structure Split where
  units : List Segment
  remainder : Option Segment
  deriving DecidableEq, Repr

/-- The units of a text from an offset on. -/
def splitFrom (analyze : List Char → Completeness) (source : List Char) (start : Nat) : Split :=
  match _h : Segment.next analyze source start with
  | .done => ⟨[], none⟩
  | .incomplete s => ⟨[], some s⟩
  | .unit s =>
    let rest := splitFrom analyze source s.stop
    ⟨s :: rest.units, rest.remainder⟩
termination_by width source - start
decreasing_by have := Segment.lt_stop_of_next _h; omega

/-- The units of a text. -/
def split (analyze : List Char → Completeness) (source : List Char) : Split :=
  splitFrom analyze source 0

end Notebook

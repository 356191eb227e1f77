import Notebook.Guest.Slice
import Notebook.Proofs.Syntax.Lacking
import Notebook.Proofs.Text.Blanks
import Notebook.Proofs.Text.Places

/-!
# Places in the pieces of a unit

The pieces of the statements of a unit are stretches of it, one behind the other, and a place in a unit seen
from where a piece starts is the place of the same character in the piece (`pieces_keep_places`).

A last declaration may lack its semicolon. It is then read with one that the unit does not hold, and its span
may end a column behind what there is of the unit. The semicolon is no statement by itself, so every statement
starts in the unit (`exists_row`).
-/

namespace Notebook.Guest
open Notebook.Text Notebook.Syntax

/-! ## Stretches of a unit -/

/-- A piece is what stands in a unit from an offset on, and places in it are told from there: the place of an
offset of the unit, seen from the origin of the piece, leads to the same character of the piece. -/
structure Slice.StandsAt (piece : Slice) (unit : List Char) (start : Nat) : Prop where
  segment : (⟨start, piece.source⟩ : Segment).IsSliceOf unit
  origin : piece.origin = positionOf unit start
  offset : offsetOf? unit piece.origin = some start
  places : ∀ p q, isBoundary unit p = true → isBoundary unit q = true →
    start ≤ p → p ≤ start + width piece.source → start ≤ q → q ≤ start + width piece.source →
      ∃ seen, Span.relativeTo? ⟨positionOf unit p, positionOf unit q⟩ piece.origin = some seen ∧
        offsetOf? piece.source seen.start = some (p - start) ∧
        offsetOf? piece.source seen.stop = some (q - start)

/-- Offsets of a text within a part of it. -/
theorem exists_within {front source back : List Char} {p : Nat}
    (hp : isBoundary (front ++ (source ++ back)) p = true) (hfirst : width front ≤ p)
    (hlast : p ≤ width front + width source) :
    ∃ u v, source = u ++ v ∧ p = width (front ++ u) := by
  obtain ⟨before, behind, hsplit, rfl⟩ := exists_append_of_isBoundary hp
  obtain ⟨u, rfl⟩ : front <+: before :=
    prefix_of_width_le (List.prefix_append _ _) ⟨behind, hsplit.symm⟩ hfirst
  rw [List.append_assoc] at hsplit
  have hrest : source ++ back = u ++ behind := List.append_cancel_left hsplit
  rw [width_append, Nat.add_le_add_iff_left] at hlast
  obtain ⟨v, hv⟩ : u <+: source :=
    prefix_of_width_le ⟨behind, hrest.symm⟩ (List.prefix_append _ _) hlast
  exact ⟨u, v, hv.symm, rfl⟩

theorem Slice.standsAt_append (front source back : List Char) :
    Slice.StandsAt ⟨source, Position.origin.after front⟩ (front ++ (source ++ back)) (width front) := by
  refine ⟨Segment.isSliceOf_append front source back, (positionOf_append _ _).symm, offsetOf?_after _ _, ?_⟩
  intro p q hp hq hp₁ hp₂ hq₁ hq₂
  obtain ⟨u, u', hu, rfl⟩ := exists_within hp hp₁ hp₂
  obtain ⟨v, v', hv, rfl⟩ := exists_within hq hq₁ hq₂
  have hplace {w w' : List Char} (hw : source = w ++ w') :
      positionOf (front ++ (source ++ back)) (width (front ++ w)) = (Position.origin.after front).after w := by
    rw [hw, List.append_assoc, ← List.append_assoc, positionOf_append, Position.after_append]
  refine ⟨⟨Position.origin.after u, Position.origin.after v⟩, ?_, ?_, ?_⟩
  · rw [hplace hu, hplace hv]
    exact Span.relativeTo?_after (Position.line_after_pos front) u v
  · rw [hu, offsetOf?_after, width_append, Nat.add_sub_cancel_left]
  · rw [hv, offsetOf?_after, width_append, Nat.add_sub_cancel_left]

/-! ## The text that the statements are read from -/

/-- The statements of a unit are read from the unit, or from what stands before the blanks at its end with a
semicolon behind. -/
def ReadFrom (unit cs : List Char) : Prop := cs = unit ∨ cs = trimEnd unit ++ [';']

theorem exists_readFrom {unit : List Char} {stmts : List Stmt} (h : parseUnit unit = .ok stmts) :
    parse unit = .ok stmts ∨ (∃ e, parse unit = .error e) ∧ parse (trimEnd unit ++ [';']) = .ok stmts := by
  unfold parseUnit at h
  cases hparse : parse unit with
  | ok found =>
    rw [hparse] at h
    exact .inl h
  | error e =>
    rw [hparse] at h
    dsimp only at h
    split at h
    · cases h
    · split at h
      · rename_i found hfound
        cases h
        exact .inr ⟨⟨e, rfl⟩, hfound⟩
      · cases h

section ReadFrom

variable {unit cs : List Char} {a b : Nat}

theorem take_append_take_drop (cs : List Char) (h : a ≤ b) : cs.take a ++ (cs.drop a).take (b - a) = cs.take b := by
  rw [← List.take_add, Nat.add_sub_cancel' h]

theorem width_take_le (cs : List Char) (h : a ≤ b) : width (cs.take a) ≤ width (cs.take b) := by
  rw [← take_append_take_drop cs h, width_append]
  exact Nat.le_add_right _ _

theorem width_take_lt (h : a < b) (hlength : a < cs.length) : width (cs.take a) < width (cs.take b) := by
  rw [← take_append_take_drop cs h.le, width_append]
  refine Nat.lt_add_of_pos_right (width_pos fun hnil => ?_)
  have hlength' := congrArg List.length hnil
  rw [List.length_take, List.length_drop, List.length_nil] at hlength'
  omega

theorem dropBytes_width_take (cs : List Char) (n : Nat) : dropBytes cs (width (cs.take n)) = cs.drop n := by
  have hdrop := dropBytes_append (cs.take n) (cs.drop n)
  rwa [List.take_append_drop] at hdrop

theorem takeBytes_dropBytes (h : a ≤ b) :
    takeBytes (dropBytes unit (width (unit.take a))) (width (unit.take b) - width (unit.take a)) =
      (unit.drop a).take (b - a) := by
  rw [dropBytes_width_take, ← take_append_take_drop unit h, width_append, Nat.add_sub_cancel_left]
  have htake := Scan.takeBytes_width_append ((unit.drop a).take (b - a)) ((unit.drop a).drop (b - a))
  rwa [List.take_append_drop] at htake

theorem standsAt_take (unit : List Char) (a n : Nat) :
    Slice.StandsAt ⟨(unit.drop a).take n, Position.origin.after (unit.take a)⟩ unit (width (unit.take a)) := by
  have hstands := Slice.standsAt_append (unit.take a) ((unit.drop a).take n) ((unit.drop a).drop n)
  rwa [List.take_append_drop, List.take_append_drop] at hstands

theorem take_of_le_trimEnd (h : ReadFrom unit cs) (ha : a ≤ (trimEnd unit).length) : cs.take a = unit.take a := by
  obtain ⟨blanks, hunit, -⟩ := exists_trimEnd_append unit
  rcases h with rfl | rfl
  · rfl
  · conv_rhs => rw [hunit]
    rw [List.take_append_of_le_length ha, List.take_append_of_le_length ha]

theorem trimEnd_eq_take (unit : List Char) : trimEnd unit = unit.take (trimEnd unit).length := by
  obtain ⟨blanks, hunit, -⟩ := exists_trimEnd_append unit
  have htake : (trimEnd unit ++ blanks).take (trimEnd unit).length = trimEnd unit := List.take_left
  rw [← hunit] at htake
  exact htake.symm

theorem length_trimEnd_le (unit : List Char) : (trimEnd unit).length ≤ unit.length := by
  obtain ⟨blanks, hunit, -⟩ := exists_trimEnd_append unit
  have hlength := congrArg List.length hunit
  rw [List.length_append] at hlength
  omega

/-- A place in the text that is read stands at as many characters of the unit, if it has as many. -/
theorem offsetOf?_take (h : ReadFrom unit cs) (hb : b ≤ cs.length) :
    offsetOf? unit (Position.origin.after (cs.take b)) = some (width (unit.take b)) := by
  by_cases hle : b ≤ (trimEnd unit).length
  · rw [take_of_le_trimEnd h hle]
    exact offsetOf?_after_take unit b
  rcases h with rfl | rfl
  · exact offsetOf?_after_take cs b
  · -- behind the semicolon that the unit lacks
    obtain ⟨blanks, hunit, -⟩ := exists_trimEnd_append unit
    have hlength : b = (trimEnd unit).length + 1 := by
      rw [List.length_append, List.length_singleton] at hb
      omega
    have hplace : Position.origin.after (trimEnd unit ++ [';']) =
        ⟨(Position.origin.after (trimEnd unit)).line, (Position.origin.after (trimEnd unit)).column + 1⟩ := by
      rw [Position.after_concat]
      rfl
    have htake : unit.take b = trimEnd unit ++ blanks.take 1 := by
      have htake : (trimEnd unit ++ blanks).take ((trimEnd unit).length + 1) = trimEnd unit ++ blanks.take 1 :=
        List.take_length_add_append 1
      rwa [← hunit, ← hlength] at htake
    have hoffset := offsetOf?_after_add (trimEnd unit) blanks 1
    rw [List.take_of_length_le (by simp [hlength]), hplace, htake, width_append]
    rwa [← hunit] at hoffset

variable {s : Stmt}

theorem offsetOf?_start (h : ReadFrom unit cs) (hs : Stretch cs s.span a b) :
    offsetOf? unit s.span.start = some (width (unit.take a)) := by
  rw [hs.first.place, offsetOf?_take h hs.first.lt_length.le]

theorem offsetOf?_stop (h : ReadFrom unit cs) (hs : Stretch cs s.span a b) :
    offsetOf? unit s.span.stop = some (width (unit.take b)) := by
  rw [hs.stop, offsetOf?_take h hs.le]

/-- The statement has text of the unit: it does not start at its end. -/
def StartsIn (unit : List Char) (s : Stmt) : Prop :=
  ∃ n < width (trimEnd unit), offsetOf? unit s.span.start = some n

/-- A statement that stands in the text it is read from, and starts before the blanks at the end of the unit. -/
structure Stands (unit cs : List Char) (s : Stmt) (a b : Nat) : Prop where
  stretch : Stretch cs s.span a b
  lt : a < (trimEnd unit).length

variable (h : ReadFrom unit cs) (hs : Stands unit cs s a b)

include h hs

theorem Stands.startsIn : StartsIn unit s := by
  refine ⟨_, ?_, offsetOf?_start h hs.stretch⟩
  rw [trimEnd_eq_take unit]
  exact width_take_lt hs.lt (hs.lt.trans_le (length_trimEnd_le unit))

theorem Stands.start_eq : s.span.start = Position.origin.after (unit.take a) := by
  rw [hs.stretch.first.place, take_of_le_trimEnd h hs.lt.le]

omit h in
theorem Stands.width_lt : width (unit.take a) < width (unit.take b) :=
  width_take_lt hs.stretch.lt (hs.lt.trans_le (length_trimEnd_le unit))

/-! ## Pieces of statements -/

theorem Stands.ofStmt_eq :
    Slice.ofStmt unit s = ⟨(unit.drop a).take (b - a), Position.origin.after (unit.take a)⟩ := by
  rw [Slice.ofStmt, offsetOf?_start h hs.stretch, offsetOf?_stop h hs.stretch]
  dsimp only
  rw [if_pos hs.width_lt, takeBytes_dropBytes hs.stretch.lt.le, hs.start_eq h]

/-- The first character of a statement stands in the unit. -/
theorem Stands.exists_drop : ∃ c rest, unit.drop a = c :: rest ∧ isBlank c = false := by
  obtain ⟨c, hc, hblank⟩ := hs.stretch.first.solid
  have hunit : unit[a]? = some c := by
    have htake := congrArg (·[a]?) (take_of_le_trimEnd h (Nat.succ_le_of_lt hs.lt))
    rw [List.getElem?_take_of_lt (Nat.lt_succ_self a), List.getElem?_take_of_lt (Nat.lt_succ_self a), hc] at htake
    exact htake.symm
  obtain ⟨hlength, rfl⟩ := List.getElem?_eq_some_iff.1 hunit
  exact ⟨_, _, List.drop_eq_getElem_cons hlength, hblank⟩

theorem Stands.ofSingle_eq :
    Slice.ofSingle unit s = ⟨trimEnd (unit.drop a), Position.origin.after (unit.take a)⟩ := by
  obtain ⟨c, rest, hdrop, hblank⟩ := hs.exists_drop h
  have htrim : trim (unit.drop a) = trimEnd (unit.drop a) := by
    rw [trim, hdrop, trimStart, List.dropWhile_cons_of_neg (by simp [hblank])]
  have hne : trimEnd (unit.drop a) ≠ [] := by
    intro hnil
    have := trimEnd_eq_nil_iff.1 hnil c (by simp [hdrop])
    rw [hblank] at this
    cases this
  rw [Slice.ofSingle, offsetOf?_start h hs.stretch]
  dsimp only
  rw [dropBytes_width_take, htrim, if_neg (by simpa using hne), hs.start_eq h]

/-! ## Pieces in a row -/

/-- The piece of a statement ends before that of the next one starts. -/
theorem Stands.width_le {s' : Stmt} {c d : Nat} (hs' : Stands unit cs s' c d)
    (hrow : s.span.stop.key ≤ s'.span.start.key) :
    ∃ i j, (Slice.ofStmt unit s).StandsAt unit i ∧ (Slice.ofStmt unit s').StandsAt unit j ∧
      i + width (Slice.ofStmt unit s).source ≤ j := by
  rw [hs.ofStmt_eq h, hs'.ofStmt_eq h]
  refine ⟨_, _, standsAt_take unit a (b - a), standsAt_take unit c (d - c), ?_⟩
  rw [← width_append, take_append_take_drop unit hs.stretch.lt.le]
  exact width_take_le unit (hs.stretch.le_of_key_le hs'.stretch hrow)

end ReadFrom

theorem ofStmts_eq (unit : List Char) (stmts : List Stmt) :
    (∃ s, stmts = [s] ∧ Slice.ofStmts unit stmts = [Slice.ofSingle unit s]) ∨
      Slice.ofStmts unit stmts = stmts.map (Slice.ofStmt unit) := by
  unfold Slice.ofStmts
  split
  · exact .inl ⟨_, rfl, rfl⟩
  · exact .inr rfl

variable {unit : List Char} {stmts : List Stmt}

/-- The statements of a unit stand one behind the other in the text that they are read from, and start in the unit. -/
theorem exists_row (h : parseUnit unit = .ok stmts) :
    ∃ cs, ReadFrom unit cs ∧ (∀ s ∈ stmts, ∃ a b, Stands unit cs s a b) ∧
      stmts.Pairwise fun s s' => s.span.stop.key ≤ s'.span.start.key := by
  rcases exists_readFrom h with hparse | ⟨⟨e, herror⟩, hparse⟩
  · obtain ⟨hstands, hrow⟩ := stretches_of_parse hparse
    refine ⟨unit, .inl rfl, fun s hs => ?_, hrow⟩
    obtain ⟨a, b, hab⟩ := hstands s hs
    obtain ⟨c, hc, hblank⟩ := hab.first.solid
    exact ⟨a, b, hab, lt_length_trimEnd hc hblank⟩
  · obtain ⟨hstands, hrow⟩ := stretches_of_parse hparse
    refine ⟨_, .inr rfl, fun s hs => ?_, hrow⟩
    obtain ⟨a, b, hab⟩ := hstands s hs
    have hlt := hab.first.lt_length
    rw [List.length_append, List.length_singleton] at hlt
    refine ⟨a, b, hab, (Nat.lt_succ_iff_lt_or_eq.1 hlt).resolve_right fun heq => ?_⟩
    -- with a semicolon by itself behind it the unit could be read as it is
    obtain ⟨blanks, hunit, hblanks⟩ := exists_trimEnd_append unit
    have hstart : s.span.start = Position.origin.after (trimEnd unit) := by
      rw [hab.first.place, heq, List.take_left]
    obtain ⟨found, hfound⟩ := exists_parse_of_starts hblanks hparse hs hstart
    rw [← hunit, herror] at hfound
    cases hfound

/-- The pieces of the statements of a unit stand in it in order, and do not overlap. A place of the unit in a
piece, seen from the origin of the piece, is the place of the same character in the piece. -/
theorem pieces_keep_places (h : parseUnit unit = .ok stmts) :
    (∀ p, isBoundary unit p = true → offsetOf? unit (positionOf unit p) = some p) ∧
      List.Forall₂ (fun s piece => (∃ start, piece.StandsAt unit start) ∧ piece.origin = s.span.start)
        stmts (Slice.ofStmts unit stmts) ∧
      ((Slice.ofStmts unit stmts).Pairwise fun piece next =>
        ∃ i j, piece.StandsAt unit i ∧ next.StandsAt unit j ∧ i + width piece.source ≤ j) ∧
      ∀ s ∈ stmts, StartsIn unit s := by
  obtain ⟨cs, hread, hstands, hrow⟩ := exists_row h
  refine ⟨fun p hp => offsetOf?_positionOf hp, ?_, ?_, fun s hs => ?_⟩
  · rcases ofStmts_eq unit stmts with ⟨s, rfl, heq⟩ | heq
    · obtain ⟨a, b, hab⟩ := hstands s (List.mem_singleton_self s)
      rw [heq, hab.ofSingle_eq hread, trimEnd_eq_take (unit.drop a)]
      exact .cons ⟨⟨_, standsAt_take unit a _⟩, (hab.start_eq hread).symm⟩ .nil
    · rw [heq, List.forall₂_map_right_iff]
      refine List.forall₂_same.2 fun s hs => ?_
      obtain ⟨a, b, hab⟩ := hstands s hs
      rw [hab.ofStmt_eq hread]
      exact ⟨⟨_, standsAt_take unit a _⟩, (hab.start_eq hread).symm⟩
  · rcases ofStmts_eq unit stmts with ⟨s, rfl, heq⟩ | heq
    · rw [heq]
      exact List.pairwise_singleton _ _
    · rw [heq, List.pairwise_map]
      refine hrow.imp_of_mem fun {s s'} hs hs' hnext => ?_
      obtain ⟨a, b, hab⟩ := hstands s hs
      obtain ⟨c, d, hcd⟩ := hstands s' hs'
      exact hab.width_le hread hcd hnext
  · obtain ⟨a, b, hab⟩ := hstands s hs
    exact hab.startsIn hread

/-- Two declarations among comments, of which the last one lacks its semicolon. -/
def openDeclarations : List Char := "// compute\nlet s = \"é\"; /* é */ let y = s ".toList

theorem openDeclarations_keep_places :
    ∃ stmts, parseUnit openDeclarations = .ok stmts ∧
      Slice.ofStmts openDeclarations stmts =
        [⟨"let s = \"é\";".toList, ⟨2, 0⟩⟩, ⟨"let y = s ".toList, ⟨2, 21⟩⟩] ∧
      (∀ p, isBoundary openDeclarations p = true →
        offsetOf? openDeclarations (positionOf openDeclarations p) = some p) ∧
      List.Forall₂ (fun s piece => (∃ start, piece.StandsAt openDeclarations start) ∧ piece.origin = s.span.start)
        stmts (Slice.ofStmts openDeclarations stmts) ∧
      ((Slice.ofStmts openDeclarations stmts).Pairwise fun piece next =>
        ∃ i j, piece.StandsAt openDeclarations i ∧ next.StandsAt openDeclarations j ∧
          i + width piece.source ≤ j) ∧
      ∀ s ∈ stmts, StartsIn openDeclarations s := by
  have hruns : (parseUnit openDeclarations).toOption.any (fun stmts =>
      Slice.ofStmts openDeclarations stmts =
        [⟨"let s = \"é\";".toList, ⟨2, 0⟩⟩, ⟨"let y = s ".toList, ⟨2, 21⟩⟩]) = true := by
    decide +kernel
  cases hparse : parseUnit openDeclarations with
  | error e =>
    rw [hparse] at hruns
    cases hruns
  | ok stmts =>
    rw [hparse] at hruns
    exact ⟨stmts, rfl, of_decide_eq_true hruns, pieces_keep_places hparse⟩

end Notebook.Guest

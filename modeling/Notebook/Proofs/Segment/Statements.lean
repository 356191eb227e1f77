import Notebook.Proofs.Segment.Agreement
import Notebook.Proofs.Segment.Gaps
import Notebook.Proofs.Syntax.Seam.Parts
import Notebook.Proofs.Text.Places

/-!
# The statements of units

Where the scanner and the lexer read a text alike, the units of the text and what is held back of it are
read, one after the other, as the tokens of the whole text (`split_tokens`), and as its statements
unless one of these goes over a closing brace that ends a unit (`split_statements`).
-/

namespace Notebook
open Notebook.Text Notebook.Scan Notebook.Syntax

/-! ## One unit -/

/-- A statement starts before a place and stops behind it. -/
def GoesOver (s : Stmt) (p : Position) : Prop := s.span.start.key < p.key ∧ p.key < s.span.stop.key

/-- The tokens of a text that carry meaning. -/
def significant (cs : List Char) : List Token := (tokens cs).filter (·.isSignificant)

/-- A text starts like an item or a block, or the last token of it wants more. -/
def WantsMore (cs : List Char) : Prop :=
  ∃ first last, (significant cs).head? = some first ∧ (significant cs).getLast? = some last ∧
    (UnitClass.ofToken first ≠ .simple ∨ last.dangles = true)

theorem parseAt_of_lexed {p : Position} {cs : List Char} {trees : List TokenTree}
    (h : lexFrom p [] [] cs = .ok trees) : parseAt p cs = readStmts trees := by
  rw [parseAt, h]
  rfl

section Unit

variable {p : Position} {trees alone others : List TokenTree} {unit rest : List Char} {stmts : List Stmt}

/-- No statement goes on behind a semicolon, or where nothing follows. -/
theorem UnitOf.readStmts_of_semicolon (h : UnitOf p trees unit rest alone others)
    (hend : unit.getLast? = some ';' ∨ others = []) (hread : readStmts trees = .ok stmts) :
    ∃ first behind, readStmts alone = .ok first ∧ readStmts others = .ok behind ∧ stmts = first ++ behind := by
  have hparts : Syntax.parts trees = [alone, others].flatMap Syntax.parts := by
    rw [h.parts hend]
    simp
  obtain ⟨each, heach, rfl⟩ := readStmts_of_parts hparts hread
  obtain ⟨first, each, rfl, hfirst, heach⟩ := List.map_eq_cons_iff.1 heach.symm
  obtain ⟨behind, each, rfl, hbehind, heach⟩ := List.map_eq_cons_iff.1 heach
  rw [List.map_eq_nil_iff.1 heach]
  exact ⟨first, behind, hfirst.symm, hbehind.symm, by simp⟩

/-- The tokens before the end of a unit in braces start before it, and those behind it stop behind it. -/
theorem UnitOf.noneAcross {front : List Char} (h : UnitOf (Position.origin.after front) trees unit rest alone others)
    (htrees : lexFrom (Position.origin.after front) [] [] (unit ++ rest) = .ok trees) {body : List TokenTree}
    {start : Position}
    (hlast : alone.getLast? = some (.group .brace body ⟨start, (Position.origin.after front).after unit⟩))
    (hwhole : ∀ s ∈ stmts, ¬GoesOver s ((Position.origin.after front).after unit)) :
    NoneAcross stmts alone others := by
  obtain ⟨hstands, hrow⟩ := laid_of_lexFrom front htrees
  have hrow : (alone ++ others).Pairwise TokenTree.Precedes := by
    have hsettled := List.pairwise_map.2 (hrow.imp precedes_settle.2)
    rw [h.settled] at hsettled
    exact (List.pairwise_map.1 hsettled).imp precedes_settle.1
  have hlt : ∀ t ∈ alone ++ others, t.span.start.key < t.span.stop.key := fun t ht => by
    have hmem : t.settle ∈ trees.map TokenTree.settle := h.settled ▸ List.mem_map_of_mem ht
    obtain ⟨u, hu, hut⟩ := List.mem_map.1 hmem
    obtain ⟨a, b, hstretch⟩ := hstands u hu
    rw [← span_settle t, ← hut, span_settle]
    exact hstretch.key_lt
  obtain ⟨before, rfl⟩ := List.getLast?_eq_some_iff.1 hlast
  have hlast_lt := hlt _ (List.mem_append_left others (List.mem_append_right before (List.mem_singleton_self _)))
  obtain ⟨hfront, -, hacross⟩ := List.pairwise_append.1 hrow
  intro s hs t ht t' ht' hspan
  refine hwhole s hs ⟨?_, ?_⟩
  · rw [hspan]
    rcases List.mem_append.1 ht with ht | ht
    · have hprecedes := (List.pairwise_append.1 hfront).2.2 t ht _ (List.mem_singleton_self _)
      exact hprecedes.start.trans_lt hlast_lt
    · rw [List.mem_singleton.1 ht]
      exact hlast_lt
  · rw [hspan]
    have hprecedes := hacross _ (List.mem_append_right before (List.mem_singleton_self _)) t' ht'
    exact (hprecedes.stop rfl).trans_lt (hlt t' (List.mem_append_right _ ht'))

/-- No statement goes on behind a closing brace if none goes over it. -/
theorem UnitOf.readStmts_of_brace {front : List Char}
    (h : UnitOf (Position.origin.after front) trees unit rest alone others)
    (htrees : lexFrom (Position.origin.after front) [] [] (unit ++ rest) = .ok trees)
    (hend : unit.getLast? = some '\x7d')
    (hwhole : ∀ s ∈ stmts, ¬GoesOver s ((Position.origin.after front).after unit))
    (hread : readStmts trees = .ok stmts) :
    ∃ first behind, readStmts alone = .ok first ∧ readStmts others = .ok behind ∧ stmts = first ++ behind := by
  obtain hnil | ⟨body, start, hlast⟩ := h.braces hend
  · exact h.readStmts_of_semicolon (.inr hnil) hread
  · have hshut : Shut alone := by
      obtain ⟨before, hbefore⟩ := List.getLast?_eq_some_iff.1 hlast
      exact ⟨before, body, _, hbefore⟩
    have hall : readStmts (alone ++ others) = .ok stmts := by
      rw [← hread]
      exact readStmts_of_settle h.settled.symm
    exact readStmts_append hshut hall (h.noneAcross htrees hlast hwhole)

end Unit

/-! ## What is found next -/

/-- What the next step of the search means for the tokens of the rest of a text. -/
def Found (source : List Char) (trees : List TokenTree) : Segment.Step → Prop
  | .done => trees = []
  | .incomplete s => ReadAlike (positionOf source s.offset) s.text trees ∧ WantsMore s.text
  | .unit u =>
    ∃ alone others,
      UnitOf (positionOf source u.offset) trees u.text (dropBytes source u.stop) alone others ∧
      lexFrom (positionOf source u.offset) [] [] (u.text ++ dropBytes source u.stop) = .ok trees ∧
      positionOf source u.stop = (positionOf source u.offset).after u.text ∧
      (u.text.getLast? = some ';' ∨ u.text.getLast? = some '\x7d' ∨ others = [])

namespace ReadAlike

variable {p : Position} {cs : List Char} {trees : List TokenTree}

theorem means (h : ReadAlike p cs trees) : Means {} 0 p (lexemes cs) (completeness cs) :=
  means_completenessFrom (width cs) 0 h.terminated h.readAll

/-- A text that is held back wants more. -/
theorem wantsMore (h : ReadAlike p cs trees) (hanswer : completeness cs = .incomplete) : WantsMore cs := by
  have hmeans := h.means
  rw [hanswer] at hmeans
  obtain ⟨unit, last, hunit, hlast, hwhy⟩ := hmeans
  rw [Option.map_none, Option.none_or] at hunit
  rw [Option.map_none, Option.or_none] at hlast
  obtain ⟨first, hfirst, rfl⟩ := Option.map_eq_some_iff.1 hunit
  exact ⟨first, last, hfirst, hlast, hwhy⟩

theorem exists_unit {n : Nat} (h : ReadAlike p cs trees) (hanswer : completeness cs = .complete n) :
    ∃ unit rest alone others, cs = unit ++ rest ∧ unit ≠ [] ∧ n = width unit ∧
      UnitOf p trees unit rest alone others ∧
      (unit.getLast? = some ';' ∨ unit.getLast? = some '\x7d' ∨ others = []) := by
  have hmeans := h.means
  rw [hanswer] at hmeans
  rcases hmeans with ⟨first, last, behind, hcut, hn, hends⟩ | ⟨-, hbegun, -⟩
  · have hcut' : lexemes cs = (first ++ [last]) ++ behind := by rw [hcut, List.append_cons]
    obtain ⟨alone, others, hunit⟩ := h.exists_unitOf hcut' hends
    refine ⟨_, _, alone, others, ?_, ?_, ?_, hunit, ?_⟩
    · rw [← List.flatMap_append, ← hcut', flatMap_text_lexemes]
    · have hmem : last ∈ lexemes cs := by simp [hcut]
      simp [text_ne_nil_of_mem hmem]
    · rw [hn, Nat.zero_add]
    · rcases hends.ends with hlast | htrivia
      · obtain ⟨c, hc, -, htext⟩ := exists_mark_of_endsUnit hlast
        have hgetLast : ((first ++ [last]).flatMap (·.text)).getLast? = some c := by simp [htext]
        rw [hgetLast, Option.some.injEq, Option.some.injEq]
        exact hc.imp id .inl
      · refine .inr (.inr (hunit.rest.trees_eq_nil ?_))
        rwa [lexemes_of_append hcut']
  · cases hbegun

/-- Every step of the search finds what it should in a text that is read alike. -/
theorem found {source : List Char} {start : Nat}
    (h : ReadAlike (positionOf source start) (dropBytes source start) trees) :
    Found source trees (Segment.next completeness source start) := by
  -- the text is what stands before the offset, blanks, and what is looked at
  have hrest : dropBytes source start =
      (dropBytes source start).takeWhile isBlank ++ trimStart (dropBytes source start) :=
    List.takeWhile_append_dropWhile.symm
  have hsource := (takeBytes_append_dropBytes source start).symm
  have htrimmed := h.trimmed
  rw [positionOf, ← Position.after_append] at htrimmed
  unfold Segment.next
  simp only [floorOffset]
  generalize takeBytes source start = front at hsource htrimmed
  generalize (dropBytes source start).takeWhile isBlank = blanks at hrest htrimmed
  generalize trimStart (dropBytes source start) = text at hrest htrimmed
  rw [hrest, ← List.append_assoc] at hsource
  have hoffset : width front + (width (dropBytes source start) - width text) = width (front ++ blanks) := by
    rw [hrest, width_append, width_append, Nat.add_sub_cancel]
  rw [hoffset]
  generalize front ++ blanks = front at hsource htrimmed
  have hplace : positionOf source (width front) = Position.origin.after front := by
    rw [hsource, positionOf_append]
  split
  · rename_i hempty
    rw [List.isEmpty_iff] at hempty
    exact htrimmed.trees_eq_nil (by simp [hempty, lexemes])
  · cases hanswer : completeness text with
    | empty =>
      have hmeans := htrimmed.means
      rw [hanswer] at hmeans
      exact htrimmed.trees_eq_nil hmeans.2
    | incomplete => exact ⟨hplace.symm ▸ htrimmed, htrimmed.wantsMore hanswer⟩
    | complete length =>
      obtain ⟨unit, rest, alone, others, rfl, hne, rfl, hunit, hend⟩ := htrimmed.exists_unit hanswer
      have hlength : Segment.isUnitLength (unit ++ rest) (width unit) = true := by
        rw [Segment.isUnitLength, isBoundary_append, decide_eq_true (width_pos hne)]
        rfl
      have hstop : Segment.stop ⟨width front, unit⟩ = width (front ++ unit) := (width_append ..).symm
      rw [← List.append_assoc] at hsource
      have hbehind : dropBytes source (width (front ++ unit)) = rest := by rw [hsource, dropBytes_append]
      have hstopPlace : positionOf source (width (front ++ unit)) = Position.origin.after (front ++ unit) := by
        rw [hsource, positionOf_append]
      simp only [hlength, if_true, takeBytes_width_append]
      refine ⟨alone, others, ?_, ?_, ?_, hend⟩
      · rw [hstop, hbehind, hplace]
        exact hunit
      · rw [hstop, hbehind, hplace]
        exact htrimmed.lexed
      · rw [hstop, hstopPlace, hplace, Position.after_append]

end ReadAlike

/-! ## All units -/

section Run

variable {source : List Char} {start : Nat} {trees : List TokenTree}

/-- The tokens of the units and of what is held back are those of the text: none is cut, and no group. -/
theorem splitFrom_tokens (h : ReadAlike (positionOf source start) (dropBytes source start) trees) :
    ∃ each : List (List TokenTree),
      (splitFrom completeness source start).segments.map
          (fun s => lexFrom (positionOf source s.offset) [] [] s.text) = each.map .ok ∧
        trees.map TokenTree.settle = each.flatten.map TokenTree.settle := by
  have hfound := h.found
  fun_induction splitFrom completeness source start generalizing trees with
  | case1 start hnext =>
    rw [hnext] at hfound
    exact ⟨[], rfl, by rw [hfound]; rfl⟩
  | case2 start s hnext =>
    rw [hnext] at hfound
    refine ⟨[trees], ?_, by simp⟩
    show [lexFrom (positionOf source s.offset) [] [] s.text] = [.ok trees]
    rw [hfound.1.lexed]
  | case3 start u hnext rest =>
    rename_i ih
    rw [hnext] at hfound
    obtain ⟨alone, others, hunit, -, hplace, -⟩ := hfound
    have hrest := hplace.symm ▸ hunit.rest
    obtain ⟨each, heach, htrees⟩ := ih hrest hrest.found
    refine ⟨alone :: each, ?_, ?_⟩
    · show lexFrom _ [] [] u.text :: rest.segments.map _ = _
      rw [heach, hunit.lexed]
      rfl
    · rw [hunit.settled, List.flatten_cons, List.map_append, List.map_append, htrees]

/-- What is held back wants more. -/
theorem splitFrom_wantsMore (h : ReadAlike (positionOf source start) (dropBytes source start) trees)
    {s : Segment} (hs : (splitFrom completeness source start).remainder = some s) : WantsMore s.text := by
  have hfound := h.found
  fun_induction splitFrom completeness source start generalizing trees with
  | case1 => cases hs
  | case2 start s' hnext =>
    rw [hnext] at hfound
    cases hs
    exact hfound.2
  | case3 start u hnext rest =>
    rename_i ih
    rw [hnext] at hfound
    obtain ⟨alone, others, hunit, -, hplace, -⟩ := hfound
    have hrest := hplace.symm ▸ hunit.rest
    exact ih hrest hs hrest.found

/-- The statements of the units and of what is held back are those of the text. -/
theorem splitFrom_statements (h : ReadAlike (positionOf source start) (dropBytes source start) trees)
    {stmts : List Stmt} (hparse : parseAt (positionOf source start) (dropBytes source start) = .ok stmts)
    (hbraces : ∀ u ∈ (splitFrom completeness source start).units, u.text.getLast? = some '\x7d' →
      ∀ s ∈ stmts, ¬GoesOver s (positionOf source u.stop)) :
    ∃ each : List (List Stmt),
      (splitFrom completeness source start).segments.map
          (fun s => parseAt (positionOf source s.offset) s.text) = each.map .ok ∧
        stmts = each.flatten := by
  have hfound := h.found
  rw [parseAt_of_lexed h.lexed] at hparse
  fun_induction splitFrom completeness source start generalizing trees stmts with
  | case1 start hnext =>
    rw [hnext] at hfound
    rw [hfound] at hparse
    cases hparse
    exact ⟨[], rfl, rfl⟩
  | case2 start s hnext =>
    rw [hnext] at hfound
    refine ⟨[stmts], ?_, by simp⟩
    show [parseAt (positionOf source s.offset) s.text] = [.ok stmts]
    rw [parseAt_of_lexed hfound.1.lexed, hparse]
  | case3 start u hnext rest =>
    rename_i ih
    rw [hnext] at hfound
    obtain ⟨alone, others, hunit, hlexed, hplace, hend⟩ := hfound
    have hrest := hplace.symm ▸ hunit.rest
    obtain ⟨first, behind, hfirst, hbehind, rfl⟩ : ∃ first behind, readStmts alone = .ok first ∧
        readStmts others = .ok behind ∧ stmts = first ++ behind := by
      rcases hend with hend | hend | hend
      · exact hunit.readStmts_of_semicolon (.inl hend) hparse
      · have hwhole := hbraces u List.mem_cons_self hend
        rw [hplace] at hwhole
        exact hunit.readStmts_of_brace hlexed hend hwhole hparse
      · exact hunit.readStmts_of_semicolon (.inr hend) hparse
    obtain ⟨each, heach, rfl⟩ :=
      ih hrest hbehind (fun v hv hend s hs => hbraces v (List.mem_cons_of_mem u hv) hend s
        (List.mem_append_right _ hs))
        hrest.found
    refine ⟨first :: each, ?_, rfl⟩
    show parseAt _ u.text :: rest.segments.map _ = _
    rw [heach, parseAt_of_lexed hunit.lexed, hfirst]
    rfl

end Run

/-! ## Where units end -/

section Ends

variable {source : List Char}

theorem key_positionOf_le {a b : Nat} (ha : isBoundary source a = true) (hb : isBoundary source b = true)
    (h : a ≤ b) : (positionOf source a).key ≤ (positionOf source b).key := by
  have hwidth {n : Nat} (hn : isBoundary source n = true) : width (takeBytes source n) = n := beq_iff_eq.1 hn
  have hbegins (n : Nat) : takeBytes source n <+: source := ⟨_, takeBytes_append_dropBytes source n⟩
  obtain ⟨between, hbetween⟩ := prefix_of_width_le (hbegins a) (hbegins b) (by rwa [hwidth ha, hwidth hb])
  rw [positionOf, positionOf, ← hbetween, Position.after_append]
  exact Position.key_le_after _ _

theorem Segment.IsSliceOf.positionOf_stop {s : Segment} (h : s.IsSliceOf source) :
    positionOf source s.stop = (positionOf source s.offset).after s.text := by
  have hwidth : width (takeBytes source s.offset) = s.offset := beq_iff_eq.1 h.offset
  have hsource : source = (takeBytes source s.offset ++ s.text) ++ dropBytes source s.stop := by
    rw [List.append_assoc, ← h.dropBytes_eq, takeBytes_append_dropBytes]
  have hstop : s.stop = width (takeBytes source s.offset ++ s.text) := by
    rw [width_append, hwidth]
    rfl
  rw [positionOf, positionOf, ← Position.after_append]
  conv_lhs => rw [hsource, hstop, takeBytes_width_append]

/-- Statements that are read segment by segment go over no end of one. -/
theorem not_goesOver_of_segments {segments : List Segment} (hslices : ∀ s ∈ segments, s.IsSliceOf source)
    (hrow : segments.Pairwise fun s t => s.stop ≤ t.offset) {each : List (List Stmt)}
    (heach : segments.map (fun s => parseAt (positionOf source s.offset) s.text) = each.map .ok) {u : Segment}
    (hu : u ∈ segments) {s : Stmt} (hs : s ∈ each.flatten) : ¬GoesOver s (positionOf source u.stop) := by
  obtain ⟨ss, hss, hs⟩ := List.mem_flatten.1 hs
  have hmem : Except.ok ss ∈ segments.map (fun s => parseAt (positionOf source s.offset) s.text) :=
    heach ▸ List.mem_map_of_mem hss
  obtain ⟨v, hv, hparse⟩ := List.mem_map.1 hmem
  obtain ⟨hstart, hstop⟩ : (positionOf source v.offset).key ≤ s.span.start.key ∧
      s.span.stop.key ≤ ((positionOf source v.offset).after v.text).key := within_of_parseAt hparse hs
  rw [← (hslices v hv).positionOf_stop] at hstop
  rintro ⟨hleft, hright⟩
  -- the segment that has the statement ends where the other one does or before it, or stands behind it
  have hsides : v.stop ≤ u.stop ∨ u.stop ≤ v.offset := by
    let beside (v u : Segment) : Prop := v.stop ≤ u.stop ∨ u.stop ≤ v.offset
    have hbefore : segments.Pairwise beside := hrow.imp fun hle => .inl (hle.trans (Nat.le_add_right ..))
    have hbehind : segments.Pairwise (flip beside) := hrow.imp .inr
    exact hbefore.forall_of_forall_of_flip (fun _ _ => .inl le_rfl) hbehind hv hu
  rcases hsides with hle | hle
  · have hkey := key_positionOf_le (hslices v hv).stop (hslices u hu).stop hle
    exact absurd (hstop.trans hkey) (not_le_of_gt hright)
  · have hkey := key_positionOf_le (hslices u hu).stop (hslices v hv).offset hle
    exact absurd (hkey.trans hstart) (not_le_of_gt hleft)

end Ends

/-! ## The whole text -/

/-- No token starts with a byte order mark. -/
theorem leaf?_byteOrderMark (rest : List Char) : leaf? ('\ufeff' :: rest) = none := by
  have hstart : isIdentifierStart '\ufeff' = false := by decide +kernel
  have hpunct : punctuation.contains '\ufeff' = false := by decide
  have hliteral : literalLength? ('\ufeff' :: rest) = none := by
    have hdigits : digitsLength? 10 true ('\ufeff' :: rest) = none := by
      unfold digitsLength?
      rfl
    have hinteger : integerLength? ('\ufeff' :: rest) = none := by
      unfold integerLength?
      rw [hdigits]
      rfl
    unfold literalLength?
    rw [hinteger]
    rfl
  have hword : wordLength? ('\ufeff' :: rest) = none := by
    rw [wordLength?, startsWith_of_ne (a := 'r') rest rfl (by decide), identifierLength?, hstart]
    rfl
  rw [leaf?, hliteral, startsPunct_of_ne rest (by decide), hpunct, hword,
    startsWith_of_ne rest (a := '(') (by decide) (by decide)]
  simp

/-- A text that can be read from where texts start on has no byte order mark. -/
theorem lex_of_lexFrom {cs : List Char} {trees : List TokenTree}
    (h : lexFrom Position.origin [] [] cs = .ok trees) : lex cs = .ok trees := by
  unfold lex
  split
  · rename_i rest
    have hmark : NoTrivia ('\ufeff' :: rest) := noTrivia_of_ne (by decide) (by decide +kernel)
    rw [lexFrom_of_noTrivia hmark, lexToken, docComment?_of_ne _ (by decide), leaf?_byteOrderMark] at h
    cases h
  · exact h

theorem ReadAlike.whole {cs : List Char} {trees : List TokenTree} (h : ReadAlike Position.origin cs trees) :
    ReadAlike (positionOf cs 0) (dropBytes cs 0) trees := by
  have hplace : positionOf cs 0 = Position.origin := positionOf_append [] cs
  rw [hplace, dropBytes_zero]
  exact h

/-- No token and no group is cut: the units and what is held back, read one after the other where they stand,
have the tokens of the text.  Only whether punctuation follows a semicolon at once is not known in a unit. -/
theorem split_tokens {cs : List Char} {trees : List TokenTree} (h : ReadAlike Position.origin cs trees) :
    ∃ each : List (List TokenTree),
      (split completeness cs).segments.map (fun s => lexFrom (positionOf cs s.offset) [] [] s.text) =
          each.map .ok ∧
        trees.map TokenTree.settle = each.flatten.map TokenTree.settle :=
  splitFrom_tokens h.whole

/-- In a text that scanner and lexer read alike, what is held back starts like an item or a block, or its
last token wants more.  The units and what is held back, read one after the other where they stand, have just
the statements of the text, in order, if and only if no statement goes over a closing brace that ends a
unit. -/
theorem split_statements {cs : List Char} {stmts : List Stmt}
    (halike : readsAlike Position.origin cs = true) (hparse : parse cs = .ok stmts) :
    let r := split completeness cs
    (∀ s, r.remainder = some s → WantsMore s.text) ∧
      ((∃ each : List (List Stmt),
          r.segments.map (fun s => parseAt (positionOf cs s.offset) s.text) = each.map .ok ∧
            stmts = each.flatten) ↔
        ∀ u ∈ r.units, u.text.getLast? = some '\x7d' → ∀ s ∈ stmts, ¬GoesOver s (positionOf cs u.stop)) := by
  intro r
  obtain ⟨trees, h⟩ := readsAlike_iff.1 halike
  rw [parse, lex_of_lexFrom h.lexed] at hparse
  have hstmts : parseAt (positionOf cs 0) (dropBytes cs 0) = .ok stmts := by
    rw [parseAt_of_lexed h.whole.lexed]
    exact hparse
  have hr : r.Partitions completeness cs 0 := partitions_splitFrom completeness cs 0
  refine ⟨fun s hs => splitFrom_wantsMore h.whole hs, ?_, splitFrom_statements h.whole hstmts⟩
  rintro ⟨each, heach, rfl⟩ u hu -
  exact fun s => not_goesOver_of_segments hr.slices (hr.spaced.pairwise hr.slices).2 heach
    (List.mem_append_left _ hu)

/-! ## Texts on which they agree and do not -/

/-- A binding, a function and a name on one line. -/
def functionBetween : List Char := "let n = 1; fn f() \x7b\x7d n".toList

theorem functionBetween_statements :
    ∃ (stmts : List Stmt) (each : List (List Stmt)), parse functionBetween = .ok stmts ∧
      (split completeness functionBetween).units.map
          (fun s => parseAt (positionOf functionBetween s.offset) s.text) = each.map .ok ∧
        each.length = 3 ∧ stmts = each.flatten := by
  have hspans : (parse functionBetween).map (List.map Stmt.span) =
      .ok [⟨⟨1, 0⟩, ⟨1, 10⟩⟩, ⟨⟨1, 11⟩, ⟨1, 20⟩⟩, ⟨⟨1, 21⟩, ⟨1, 22⟩⟩] := by
    decide +kernel
  have hsplit : split completeness functionBetween =
      ⟨[⟨0, "let n = 1;".toList⟩, ⟨11, "fn f() \x7b\x7d".toList⟩, ⟨21, "n".toList⟩], none⟩ := by
    decide +kernel
  cases hparse : parse functionBetween with
  | error e =>
    rw [hparse] at hspans
    cases hspans
  | ok stmts =>
    rw [hparse] at hspans
    have hbraces : ∀ u ∈ (split completeness functionBetween).units, u.text.getLast? = some '\x7d' →
        ∀ s ∈ stmts, ¬GoesOver s (positionOf functionBetween u.stop) := by
      rw [hsplit]
      intro u hu hlast s hs
      have hspan : s.span ∈ stmts.map Stmt.span := List.mem_map_of_mem hs
      rw [Except.ok.inj hspans] at hspan
      simp only [List.mem_cons, List.not_mem_nil, or_false] at hu hspan
      rcases hu with rfl | rfl | rfl
      · exact absurd hlast (by decide)
      · have hplace : positionOf functionBetween (Segment.stop ⟨11, "fn f() \x7b\x7d".toList⟩) = ⟨1, 20⟩ := by
          decide +kernel
        rw [hplace, GoesOver]
        rcases hspan with hspan | hspan | hspan
        all_goals
          rw [hspan]
          simp [Position.key, Prod.Lex.toLex_lt_toLex]
      · exact absurd hlast (by decide)
    obtain ⟨each, heach, hstmts⟩ := (split_statements (by decide +kernel) hparse).2.2 hbraces
    have hunits : (split completeness functionBetween).segments = (split completeness functionBetween).units := by
      rw [hsplit]
      rfl
    rw [hunits] at heach
    refine ⟨stmts, each, rfl, heach, ?_, hstmts⟩
    have hlength := congrArg List.length heach
    rw [List.length_map, List.length_map, hsplit] at hlength
    exact hlength.symm

/-- Each of these texts is one statement for the parser.  The first ends in punctuation that wants more, and
the second starts like a block that has no end: both are held back.  The third is cut behind the condition,
which is no statement. -/
theorem statements_heldBack_or_cut :
    ((parse "0..".toList).map List.length = .ok 1 ∧
        split completeness "0..".toList = ⟨[], some ⟨0, "0..".toList⟩⟩) ∧
      ((parse "if true \x7b1\x7d else \x7b2\x7d.abs()".toList).map List.length = .ok 1 ∧
        split completeness "if true \x7b1\x7d else \x7b2\x7d.abs()".toList =
          ⟨[], some ⟨0, "if true \x7b1\x7d else \x7b2\x7d.abs()".toList⟩⟩) ∧
      ((parse "if \x7btrue\x7d \x7b1\x7d".toList).map List.length = .ok 1 ∧
        split completeness "if \x7btrue\x7d \x7b1\x7d".toList =
          ⟨[⟨0, "if \x7btrue\x7d".toList⟩, ⟨10, "\x7b1\x7d".toList⟩], none⟩ ∧
        (parseUnit "if \x7btrue\x7d".toList).isOk = false) := by
  decide +kernel

end Notebook

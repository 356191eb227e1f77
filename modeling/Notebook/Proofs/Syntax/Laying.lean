import Notebook.Proofs.Syntax.Reaching

/-!
# Where token trees stand

The token trees of a text are stretches of it, one behind the other (`laid_of_lex`). A comment that
documents something stands for several trees with one span; what a statement may end with is the last of
them, so it ends before all that follows.
-/

namespace Notebook.Syntax
open Notebook.Text

/-! ## Stretches of a text -/

/-- A character that is not blank stands at a place in a text. -/
structure SolidAt (cs : List Char) (p : Position) (a : Nat) : Prop where
  place : p = Position.origin.after (cs.take a)
  solid : ∃ c, cs[a]? = some c ∧ isBlank c = false

/-- The span of the characters from `a` up to `b`, the first of which is not blank. -/
structure Stretch (cs : List Char) (s : Span) (a b : Nat) : Prop where
  first : SolidAt cs s.start a
  stop : s.stop = Position.origin.after (cs.take b)
  lt : a < b
  le : b ≤ cs.length

theorem SolidAt.lt_length {cs : List Char} {p : Position} {a : Nat} (h : SolidAt cs p a) : a < cs.length := by
  obtain ⟨c, hc, -⟩ := h.solid
  exact (List.getElem?_eq_some_iff.1 hc).1

theorem SolidAt.stretch {cs : List Char} {s : Span} {a b : Nat} (h : SolidAt cs s.start a)
    (hstop : s.stop = Position.origin.after (cs.take b)) (hlt : a < b) : ∃ b, Stretch cs s a b := by
  refine ⟨min b cs.length, h, ?_, lt_min hlt h.lt_length, min_le_right _ _⟩
  rw [hstop, List.take_eq_take_min]

/-- Places in a text follow each other as their offsets do. -/
theorem Position.key_after_take_lt {cs : List Char} {a b : Nat} (hlt : a < b) (hle : b ≤ cs.length) :
    (Position.origin.after (cs.take a)).key < (Position.origin.after (cs.take b)).key := by
  have hsplit : cs.take b = cs.take a ++ (cs.drop a).take (b - a) := by
    rw [← List.take_add, Nat.add_sub_cancel' hlt.le]
  rw [hsplit, Position.after_append]
  refine Position.key_lt_after _ fun hnil => ?_
  have hlength := congrArg List.length hnil
  rw [List.length_take, List.length_drop, List.length_nil] at hlength
  omega

theorem Stretch.key_lt {cs : List Char} {s : Span} {a b : Nat} (h : Stretch cs s a b) :
    s.start.key < s.stop.key := by
  rw [h.first.place, h.stop]
  exact Position.key_after_take_lt h.lt h.le

theorem SolidAt.stretch_of_key_lt {cs : List Char} {s : Span} {a b : Nat} (h : SolidAt cs s.start a)
    (hstop : s.stop = Position.origin.after (cs.take b)) (hle : b ≤ cs.length)
    (hlt : s.start.key < s.stop.key) : Stretch cs s a b := by
  refine ⟨h, hstop, ?_, hle⟩
  rw [h.place, hstop] at hlt
  by_contra hab
  rcases (Nat.le_of_not_lt hab).eq_or_lt with rfl | hba
  · exact lt_irrefl _ hlt
  · exact lt_asymm hlt (Position.key_after_take_lt hba h.lt_length.le)

/-- A stretch that ends before another one starts has smaller offsets. -/
theorem Stretch.le_of_key_le {cs : List Char} {s t : Span} {a b c d : Nat} (hs : Stretch cs s a b)
    (ht : Stretch cs t c d) (h : s.stop.key ≤ t.start.key) : b ≤ c := by
  by_contra hlt
  rw [hs.stop, ht.first.place] at h
  exact absurd h (not_le_of_gt (Position.key_after_take_lt (Nat.lt_of_not_le hlt) hs.le))

/-! ## Trees in a row -/

/-- What a statement may end with: a group in braces or a semicolon. -/
def TokenTree.mayEnd : TokenTree → Bool
  | .group d _ _ => d = .brace
  | .punct c _ _ => c = ';'
  | _ => false

/-- One tree starts before another one. What a statement may end with also ends before it. -/
structure TokenTree.Precedes (t u : TokenTree) : Prop where
  start : t.span.start.key ≤ u.span.start.key
  stop : t.mayEnd = true → t.span.stop.key ≤ u.span.start.key

/-- Trees, the last one first, that stand in a text before a place. -/
structure Laid (cs : List Char) (trees : List TokenTree) (p : Position) : Prop where
  stands : ∀ t ∈ trees, ∃ a b, Stretch cs t.span a b
  row : trees.Pairwise fun u t => t.Precedes u
  started : ∀ t ∈ trees, t.span.start.key ≤ p.key
  ended : ∀ t ∈ trees, t.mayEnd = true → t.span.stop.key ≤ p.key

namespace Laid

variable {cs : List Char} {trees : List TokenTree} {t : TokenTree} {p q : Position}

theorem nil : Laid cs [] p := ⟨List.forall_mem_nil _, .nil, List.forall_mem_nil _, List.forall_mem_nil _⟩

theorem mono (h : Laid cs trees p) (hpq : p.key ≤ q.key) : Laid cs trees q :=
  ⟨h.stands, h.row, fun t ht => (h.started t ht).trans hpq, fun t ht hend => (h.ended t ht hend).trans hpq⟩

/-- One more tree. -/
theorem cons (h : Laid cs trees p) (hstands : ∃ a b, Stretch cs t.span a b) (hp : p.key ≤ t.span.start.key)
    (hstarted : t.span.start.key ≤ q.key) (hended : t.mayEnd = true → t.span.stop.key ≤ q.key) :
    Laid cs (t :: trees) q := by
  have hq := h.mono (hp.trans hstarted)
  refine ⟨List.forall_mem_cons.2 ⟨hstands, h.stands⟩, List.pairwise_cons.2 ⟨fun u hu => ?_, h.row⟩,
    List.forall_mem_cons.2 ⟨hstarted, hq.started⟩, List.forall_mem_cons.2 ⟨hended, hq.ended⟩⟩
  exact ⟨(h.started u hu).trans hp, fun hend => (h.ended u hu hend).trans hp⟩

/-- One more tree, up to its end. -/
theorem add (h : Laid cs trees p) (hstands : ∃ a b, Stretch cs t.span a b) (hstart : t.span.start = p) :
    Laid cs (t :: trees) t.span.stop := by
  obtain ⟨a, b, hstretch⟩ := hstands
  exact h.cons ⟨a, b, hstretch⟩ (congrArg Position.key hstart).ge hstretch.key_lt.le fun _ => le_refl _

/-- The trees that a documenting comment stands for. -/
theorem doc (h : Laid cs trees p) (d : DocComment) {s : Span} (hstands : ∃ a b, Stretch cs s a b)
    (hstart : s.start = p) : Laid cs ((d.trees s).reverse ++ trees) s.stop := by
  have hkeep {c : Char} (hc : c ≠ ';') {ts : List TokenTree} (h : Laid cs ts p) :
      Laid cs (.punct c false s :: ts) p :=
    h.cons hstands (congrArg Position.key hstart).ge (congrArg Position.key hstart).le
      fun hend => absurd (of_decide_eq_true hend) hc
  have hnumber := hkeep (c := '#') (by decide) h
  have hmarks : Laid cs (([TokenTree.punct '#' false s] ++
      if d.inner then [TokenTree.punct '!' false s] else []).reverse ++ trees) p := by
    cases d.inner with
    | false => exact hnumber
    | true => exact hkeep (c := '!') (by decide) hnumber
  have hgroup := hmarks.add
    (t := .group .bracket [.word "doc" s, .punct '=' false s, .literal (quoted d.content) s] s) hstands hstart
  rw [DocComment.trees, List.reverse_append, List.append_assoc]
  exact hgroup

end Laid

/-! ## The lexer -/

theorem span_of_mem_doc {d : DocComment} {s : Span} {t : TokenTree} (ht : t ∈ d.trees s) : t.span = s := by
  unfold DocComment.trees at ht
  simp only [List.mem_append, List.mem_singleton, List.mem_ite_nil_right] at ht
  rcases ht with (rfl | ⟨-, rfl⟩) | rfl <;> rfl

/-- A blank is left out. -/
theorem isBlank_of_noTrivia {c : Char} {rest : List Char} (h : NoTrivia (c :: rest)) : isBlank c = false := by
  refine Bool.eq_false_iff.2 fun hblank => ?_
  have hc : c ≠ '/' := by
    rintro rfl
    revert hblank
    decide
  refine h 0 ?_
  rw [triviaLength?_of_ne _ hc, if_pos]
  rw [isTokenBlank, hblank, Bool.true_or, Bool.true_or]

namespace LexState

variable {s s' : LexState} {cs out : List Char} {n k : Nat}

/-- The lexer stands at the `k`-th character of a text, and what it has found outside of brackets stands
before it. -/
structure Lays (cs : List Char) (s : LexState) (k : Nat) : Prop where
  place : s.place = Position.origin.after (cs.take k)
  trees : s.stack = [] → Laid cs s.trees s.place
  outermost : ∀ g, s.stack.getLast? = some g → Laid cs g.before g.start ∧ ∃ a < k, SolidAt cs g.start a

theorem Lays.after_take (hs : s.Lays cs k) (n : Nat) :
    s.place.after ((cs.drop k).take n) = Position.origin.after (cs.take (k + n)) := by
  rw [hs.place, ← Position.after_append, ← List.take_add]

/-- A step that neither opens nor closes a group. -/
theorem Lays.within (hs : s.Lays cs k) {trees : List TokenTree}
    (htrees : s.stack = [] → Laid cs trees (s.place.after ((cs.drop k).take n))) :
    Lays cs { s with place := s.place.after ((cs.drop k).take n), trees } (k + n) := by
  refine ⟨hs.after_take n, htrees, fun g hg => ?_⟩
  obtain ⟨hlaid, a, ha, hsolid⟩ := hs.outermost g hg
  exact ⟨hlaid, a, Nat.lt_add_right n ha, hsolid⟩

theorem Step.lays (hs : s.Lays cs k) (h : Step s (cs.drop k) n s') : s'.Lays cs (k + n) := by
  have hsolid {c : Char} {rest : List Char} (hcs : cs.drop k = c :: rest) (hc : isBlank c = false) :
      SolidAt cs s.place k := by
    refine ⟨hs.place, c, ?_, hc⟩
    rw [← List.head?_drop, hcs]
    rfl
  have hstands {stop : Position} (h : SolidAt cs s.place k) (hn : 0 < n)
      (hstop : stop = s.place.after ((cs.drop k).take n)) : ∃ a b, Stretch cs ⟨s.place, stop⟩ a b := by
    obtain ⟨b, hb⟩ := SolidAt.stretch (s := ⟨s.place, stop⟩) h (hstop.trans (hs.after_take n))
      (Nat.lt_add_of_pos_right hn)
    exact ⟨k, b, hb⟩
  generalize hcs : cs.drop k = rest at h
  have hpos := h.pos
  cases h with
  | trivia h =>
    subst hcs
    exact hs.within fun hstack => (hs.trees hstack).mono (Position.key_le_after _ _)
  | doc hno h =>
    subst hcs
    refine hs.within fun hstack => ?_
    cases hrest : cs.drop k with
    | nil =>
      rw [hrest] at h
      simp [docComment?, startsWith] at h
    | cons c rest =>
      rw [hrest] at hno
      have hdoc := hstands (hsolid hrest (isBlank_of_noTrivia hno)) hpos rfl
      rw [← hrest]
      exact (hs.trees hstack).doc _ hdoc rfl
  | opening h =>
    rename_i c rest d
    have hnext : s.place.next c = Position.origin.after (cs.take (k + 1)) := by
      rw [← hs.after_take, hcs]
      rfl
    refine ⟨hnext, fun hstack => absurd hstack (List.cons_ne_nil _ _), fun g hg => ?_⟩
    cases hstack : s.stack with
    | nil =>
      rw [hstack] at hg
      cases hg
      have hblank : isBlank c = false := by
        have htoken := (ne_slash_of_opening? h).2
        simp only [isTokenBlank, Bool.or_eq_false_iff] at htoken
        exact htoken.1.1
      exact ⟨hs.trees hstack, k, Nat.lt_succ_self k, hsolid hcs hblank⟩
    | cons g' stack =>
      have hlast : s.stack.getLast? = some g := by
        rw [← hg, hstack, List.getLast?_cons_cons]
      obtain ⟨hlaid, a, ha, hat⟩ := hs.outermost g hlast
      exact ⟨hlaid, a, Nat.lt_succ_of_lt ha, hat⟩
  | closing hstack h =>
    rename_i c rest g stack
    have hnext : s.place.next c = Position.origin.after (cs.take (k + 1)) := by
      rw [← hs.after_take, hcs]
      rfl
    refine ⟨hnext, fun hnil => ?_, fun g' hg' => ?_⟩
    · -- the outermost group is closed
      have hnil : stack = [] := hnil
      obtain ⟨hlaid, a, ha, hat⟩ := hs.outermost g (by rw [hstack, hnil]; rfl)
      obtain ⟨b, hb⟩ := SolidAt.stretch (s := ⟨g.start, s.place.next c⟩) hat hnext (Nat.lt_succ_of_lt ha)
      exact hlaid.add (t := .group g.delimiter s.trees.reverse ⟨g.start, s.place.next c⟩) ⟨a, b, hb⟩ rfl
    · have hlast : s.stack.getLast? = some g' := by
        have hg' : stack.getLast? = some g' := hg'
        rw [hstack]
        cases stack with
        | nil => cases hg'
        | cons _ _ => rw [List.getLast?_cons_cons, hg']
      obtain ⟨hlaid, a, ha, hat⟩ := hs.outermost g' hlast
      exact ⟨hlaid, a, Nat.lt_succ_of_lt ha, hat⟩
  | leaf hno hdoc hopen hclose h =>
    rename_i c rest token
    have htoken := span_leaf h ⟨s.place, s.place.after ((c :: rest).take n)⟩
    have hleaf := hstands (hsolid hcs (isBlank_of_noTrivia hno)) hpos
      (congrArg (fun z => s.place.after (z.take n)) hcs.symm)
    rw [← hcs] at htoken hleaf ⊢
    refine hs.within fun hstack => ?_
    have hadd := (hs.trees hstack).add (t := token ⟨s.place, s.place.after ((cs.drop k).take n)⟩)
      (by rwa [htoken]) (by rw [htoken])
    rwa [htoken] at hadd

/-- Nothing that the lexer has found starts before a place. -/
structure StartsAt (p : Position) (s : LexState) : Prop where
  place : p.key ≤ s.place.key
  trees : ∀ t ∈ s.trees, p.key ≤ t.span.start.key
  stack : ∀ g ∈ s.stack, p.key ≤ g.start.key ∧ ∀ t ∈ g.before, p.key ≤ t.span.start.key

theorem Step.startsAt {p : Position} {rest : List Char} (hs : s.StartsAt p) (h : Step s rest n s') :
    s'.StartsAt p := by
  have hplace : p.key ≤ s'.place.key := by
    rw [h.place]
    exact hs.place.trans (Position.key_le_after _ _)
  cases h with
  | trivia h => exact ⟨hplace, hs.trees, hs.stack⟩
  | doc hno h =>
    refine ⟨hplace, fun t ht => ?_, hs.stack⟩
    rcases List.mem_append.1 ht with ht | ht
    · rw [span_of_mem_doc (List.mem_reverse.1 ht)]
      exact hs.place
    · exact hs.trees t ht
  | opening h => exact ⟨hplace, List.forall_mem_nil _, List.forall_mem_cons.2 ⟨⟨hs.place, hs.trees⟩, hs.stack⟩⟩
  | closing hstack h =>
    rename_i g stack
    obtain ⟨⟨hstart, hbefore⟩, hothers⟩ := List.forall_mem_cons.1 (hstack ▸ hs.stack)
    exact ⟨hplace, List.forall_mem_cons.2 ⟨hstart, hbefore⟩, hothers⟩
  | leaf hno hdoc hopen hclose h =>
    refine ⟨hplace, List.forall_mem_cons.2 ⟨?_, hs.trees⟩, hs.stack⟩
    rw [span_leaf h]
    exact hs.place

theorem Runs.startsAt {p : Position} {out : List TokenTree} {rest : List Char} (h : Runs out s rest)
    (hs : s.StartsAt p) : ∀ t ∈ out, p.key ≤ t.span.start.key := by
  induction h with
  | done hstack hout =>
    subst hout
    exact fun t ht => hs.trees t (List.mem_reverse.1 ht)
  | step h rest ih => exact ih (h.startsAt hs)

/-- All that the lexer finds stands in the text. -/
theorem Runs.laid {out : List TokenTree} {rest : List Char} (h : Runs out s rest) (hs : s.Lays cs k)
    (hrest : rest = cs.drop k) : ∃ p, Laid cs out.reverse p := by
  induction h generalizing k with
  | @done s hstack hout =>
    refine ⟨s.place, ?_⟩
    rw [hout, List.reverse_reverse]
    exact hs.trees hstack
  | step h rest ih =>
    subst hrest
    exact ih (h.lays hs) (List.drop_drop ..)

end LexState

/-- The token trees of a text that stands behind another one are stretches of both together, in a row. -/
theorem laid_of_lexFrom (front : List Char) {back : List Char} {trees : List TokenTree}
    (h : lexFrom (Position.origin.after front) [] [] back = .ok trees) :
    (∀ t ∈ trees, ∃ a b, Stretch (front ++ back) t.span a b) ∧ trees.Pairwise TokenTree.Precedes := by
  have hs : LexState.Lays (front ++ back) ⟨Position.origin.after front, [], []⟩ front.length :=
    ⟨by rw [List.take_left], fun _ => .nil, fun g hg => by cases hg⟩
  obtain ⟨p, hlaid⟩ := (LexState.runs_of_lex (s := ⟨_, [], []⟩) h).laid hs List.drop_left.symm
  exact ⟨fun t ht => hlaid.stands t (List.mem_reverse.2 ht), List.pairwise_reverse.1 hlaid.row⟩

/-- No token tree of a text starts before it. -/
theorem le_start_of_lexFrom {p : Position} {cs : List Char} {trees : List TokenTree}
    (h : lexFrom p [] [] cs = .ok trees) : ∀ t ∈ trees, p.key ≤ t.span.start.key :=
  (LexState.runs_of_lex (s := ⟨p, [], []⟩) h).startsAt
    ⟨le_refl _, List.forall_mem_nil _, List.forall_mem_nil _⟩

/-- Every token tree of a text is a stretch of it, and they stand in a row. -/
theorem laid_of_lex {cs : List Char} {trees : List TokenTree} (h : lex cs = .ok trees) :
    (∀ t ∈ trees, ∃ a b, Stretch cs t.span a b) ∧ trees.Pairwise TokenTree.Precedes := by
  unfold lex at h
  split at h
  · -- the byte order mark is a column
    rename_i rest
    exact laid_of_lexFrom ['\ufeff'] h
  · exact laid_of_lexFrom [] h

end Notebook.Syntax

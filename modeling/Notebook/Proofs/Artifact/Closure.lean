import Mathlib.Data.List.DropRight
import Mathlib.Logic.Relation
import Notebook.Artifact.Repository

/-!
# Resolving an artifact finds all that it needs

An artifact reaches what it needs, what that needs, and so on.  Resolving it fails if something that it
reaches is not there or has a list that cannot be read, and for no other reason.  Otherwise the tree holds
just what the artifact reaches, and no artifact stands below itself (`resolve_closes`).  That cutting the
tree there loses nothing comes from this: what an artifact needs is a child of it or an ancestor, and the
ancestors of the whole tree are none (`Resolved.closed`).
-/

namespace Notebook.Artifact
open Notebook.Text

/-! ## What a repository says -/

namespace Repository

/-- The artifact is there. -/
def Has (r : Repository) (c : Coordinate) : Prop := artifactFile c ∈ r.files.map (·.1)

/-- The lines of the list of what an artifact needs. -/
def listLines (r : Repository) (c : Coordinate) : List (List Char) :=
  ((r.files.lookup (listFile c)).map lines).getD []

/-- What an artifact needs: the lines of its list that are coordinates, in order. -/
def needed (r : Repository) (c : Coordinate) : List Coordinate :=
  (r.listLines c).filterMap fun line => (Coordinate.parse line).toOption

/-- A line that is neither blank nor a comment nor a coordinate. -/
structure Garbled (line : List Char) : Prop where
  notBlank : trim line ≠ []
  notComment : (trim line).head? ≠ some '#'
  notCoordinate : ∀ c, Coordinate.parse line ≠ .ok c

/-- The list of what an artifact needs cannot be read. -/
def Unreadable (r : Repository) (c : Coordinate) : Prop := ∃ line ∈ r.listLines c, Garbled line

/-- What an artifact needs, itself included, and what that needs in turn. -/
def Reaches (r : Repository) : Coordinate → Coordinate → Prop :=
  Relation.ReflTransGen fun c d => d ∈ r.needed c

/-- An artifact because of which nothing can be resolved that reaches it. -/
def Broken (r : Repository) (c : Coordinate) : Prop := ¬ r.Has c ∨ r.Unreadable c

/-! ## Lists as they are read -/

theorem trim_trim (cs : List Char) : trim (trim cs) = trim cs := by
  have hstart : trimStart (trim cs) = trim cs := by
    unfold trimStart
    rw [List.dropWhile_eq_self_iff]
    intro hpos hblank
    -- the first character that is left is the one that was left at the start
    have hbegins : trim cs <+: trimStart cs := List.rdropWhile_prefix isBlank (trimStart cs)
    obtain ⟨rest, hrest⟩ := hbegins
    have hhead := List.head?_dropWhile_not isBlank cs
    rw [show cs.dropWhile isBlank = trim cs ++ rest from hrest.symm] at hhead
    cases htrim : trim cs with
    | nil => simp [htrim] at hpos
    | cons c ds =>
      simp only [htrim, List.getElem_cons_zero] at hblank
      rw [htrim] at hhead
      exact Bool.false_ne_true (hhead.symm.trans hblank)
  have hend : trimEnd (trim cs) = trim cs := List.rdropWhile_idempotent isBlank (trimStart cs)
  show trimEnd (trimStart (trim cs)) = trim cs
  rw [hstart, hend]

theorem parse_trim (line : List Char) : Coordinate.parse (trim line) = Coordinate.parse line := by
  unfold Coordinate.parse
  rw [trim_trim]

/-- No coordinate stands in a line that is blank or a comment. -/
theorem parse_ne_ok {line : List Char} (h : trim line = [] ∨ (trim line).head? = some '#')
    (c : Coordinate) : Coordinate.parse line ≠ .ok c := by
  intro hparse
  obtain ⟨hparts, -, hgroup, -⟩ := Coordinate.parse_eq_ok.1 hparse
  cases htrim : trim line with
  | nil => simp [htrim] at hparts
  | cons d rest =>
    obtain rfl : d = '#' := by simpa [htrim] using h
    rw [htrim, List.splitOnP_cons_eq_if_modifyHead, if_neg (by decide)] at hparts
    -- the group starts with the mark of a comment
    cases hrest : rest.splitOnP (· = ':') with
    | nil => exact absurd hrest (List.splitOnP_ne_nil _ _)
    | cons first others =>
      rw [hrest, List.modifyHead_cons, List.cons.injEq] at hparts
      have hmark : Coordinate.isPartChar '#' = false := by decide
      simp [← hparts.1, Coordinate.isPart, hmark] at hgroup

theorem listed?_eq (line : List Char) :
    listed? line =
      if trim line = [] ∨ (trim line).head? = some '#' then none else some (Coordinate.parse line) := by
  unfold listed?
  split
  · rename_i h
    simp [h]
  · rename_i h
    simp [h]
  · rename_i hnil hcomment
    rw [if_neg, parse_trim]
    rintro (h | h)
    · exact hnil h
    · obtain ⟨rest, hrest⟩ := List.head?_eq_some_iff.1 h
      exact hcomment rest hrest

theorem needs_eq (r : Repository) (c : Coordinate) : r.needs c = (r.listLines c).filterMap listed? := by
  unfold needs listLines
  cases r.files.lookup (listFile c) <;> rfl

/-- A list that can be read names what is needed. -/
theorem needs_of_readable {r : Repository} {c : Coordinate} (h : ¬ r.Unreadable c) :
    r.needs c = (r.needed c).map .ok := by
  rw [needs_eq, needed, List.map_filterMap]
  refine List.filterMap_congr fun line hline => ?_
  rw [listed?_eq]
  split
  · rename_i hskip
    cases hparse : Coordinate.parse line with
    | ok d => exact absurd hparse (parse_ne_ok hskip d)
    | error e => rfl
  · rename_i hskip
    cases hparse : Coordinate.parse line with
    | ok d => rfl
    | error e =>
      rw [not_or] at hskip
      exact absurd ⟨line, hline, hskip.1, hskip.2, fun d hd => by simp [hparse] at hd⟩ h

theorem exists_error_of_unreadable {r : Repository} {c : Coordinate} (h : r.Unreadable c) :
    ∃ e, .error e ∈ r.needs c := by
  obtain ⟨line, hline, hgarbled⟩ := h
  cases hparse : Coordinate.parse line with
  | ok d => exact absurd hparse (hgarbled.notCoordinate d)
  | error e =>
    refine ⟨e, ?_⟩
    rw [needs_eq, List.mem_filterMap]
    refine ⟨line, hline, ?_⟩
    rw [listed?_eq, if_neg (not_or.2 ⟨hgarbled.notBlank, hgarbled.notComment⟩), hparse]

end Repository

/-! ## Trees of artifacts -/

namespace DependencyNode

/-- What holds of an artifact if it holds of all that it needs, holds of every tree. -/
@[elab_as_elim]
theorem induction {P : DependencyNode → Prop}
    (step : ∀ c p ns, (∀ n ∈ ns, P n) → P (.mk c p ns)) : ∀ t, P t
  | .mk c p ns => step c p ns fun n hn =>
    have := List.sizeOf_lt_of_mem hn
    induction step n
termination_by t => sizeOf t
decreasing_by simp only [mk.sizeOf_spec]; omega

/-- The artifacts on the way from the root of a tree to a leaf. -/
inductive IsBranch : DependencyNode → List Coordinate → Prop
  | leaf (c : Coordinate) (p : List Char) : IsBranch (.mk c p []) [c]
  | node (c : Coordinate) (p : List Char) {ns : List DependencyNode} {n : DependencyNode}
      {branch : List Coordinate} (hn : n ∈ ns) (h : IsBranch n branch) : IsBranch (.mk c p ns) (c :: branch)

/-- Every node stands before its children, and every node but the first one behind its parent. -/
structure ParentsFirst (nodes : List DependencyNode) : Prop where
  children : ∀ before n behind, nodes = before ++ n :: behind → ∀ m ∈ n.children, m ∈ behind
  parent : ∀ before n behind, nodes = before ++ n :: behind → before ≠ [] → ∃ m ∈ before, n ∈ m.children

theorem flattenEach_eq (ns : List DependencyNode) : flattenEach ns = ns.flatMap flatten := by
  induction ns with
  | nil => rfl
  | cons n ns ih => rw [flattenEach, ih, List.flatMap_cons]

theorem flatten_mk (c : Coordinate) (p : List Char) (ns : List DependencyNode) :
    (mk c p ns).flatten = mk c p ns :: ns.flatMap flatten := by
  rw [flatten, flattenEach_eq]

theorem mem_flatten_self (t : DependencyNode) : t ∈ t.flatten := by
  cases t
  rw [flatten_mk]
  exact List.mem_cons_self

/-- An entry of several lists in a row is an entry of one of them. -/
theorem exists_of_flatMap_eq {ns : List DependencyNode} {before behind : List DependencyNode}
    {n : DependencyNode} (h : ns.flatMap flatten = before ++ n :: behind) :
    ∃ m ∈ ns, ∃ before' behind', m.flatten = before' ++ n :: behind' ∧ before' <:+ before ∧
      behind' <+: behind := by
  induction ns generalizing before with
  | nil => simp at h
  | cons m ns ih =>
    rw [List.flatMap_cons] at h
    obtain ⟨as, hbefore, hns⟩ | ⟨bs, hm, hbehind⟩ := List.append_eq_append_iff.1 h
    · obtain ⟨k, hk, before', behind', hflat, hsuffix, hbegins⟩ := ih hns
      exact ⟨k, .tail _ hk, before', behind', hflat, hsuffix.trans (hbefore ▸ List.suffix_append ..), hbegins⟩
    · cases bs with
      | nil =>
        have htail : ns.flatMap flatten = [] ++ n :: behind := hbehind.symm
        obtain ⟨k, hk, before', behind', hflat, hsuffix, hbegins⟩ := ih htail
        exact ⟨k, .tail _ hk, before', behind', hflat, hsuffix.trans (List.nil_suffix), hbegins⟩
      | cons b bs =>
        obtain ⟨rfl, rfl⟩ := List.cons.inj hbehind
        exact ⟨m, List.mem_cons_self, before, bs, hm, List.suffix_refl _, List.prefix_append ..⟩

theorem parentsFirst_flatten (t : DependencyNode) : ParentsFirst t.flatten := by
  induction t using induction with
  | step c p ns ih =>
    have hinside {before behind : List DependencyNode} {first n : DependencyNode}
        (h : (mk c p ns).flatten = first :: before ++ n :: behind) :
        first = mk c p ns ∧ ns.flatMap flatten = before ++ n :: behind := by
      rw [flatten_mk, List.cons_append, List.cons.injEq] at h
      exact ⟨h.1.symm, h.2⟩
    constructor
    · intro before n behind h m hm
      cases before with
      | nil =>
        rw [flatten_mk, List.nil_append, List.cons.injEq] at h
        obtain ⟨rfl, rfl⟩ := h
        exact List.mem_flatMap.2 ⟨m, hm, mem_flatten_self m⟩
      | cons first before =>
        obtain ⟨k, hk, before', behind', hflat, -, hbegins⟩ := exists_of_flatMap_eq (hinside h).2
        exact hbegins.subset ((ih k hk).children before' n behind' hflat m hm)
    · intro before n behind h hne
      cases before with
      | nil => exact absurd rfl hne
      | cons first before =>
        obtain ⟨rfl, hns⟩ := hinside h
        obtain ⟨k, hk, before', behind', hflat, hsuffix, -⟩ := exists_of_flatMap_eq hns
        cases before' with
        | nil =>
          -- the root of a tree below is a child of the whole tree's root
          obtain ⟨d, q, ms⟩ := k
          rw [flatten_mk, List.nil_append, List.cons.injEq] at hflat
          exact ⟨_, List.mem_cons_self, hflat.1 ▸ hk⟩
        | cons b before' =>
          obtain ⟨m, hm, hn⟩ := (ih k hk).parent _ n behind' hflat (List.cons_ne_nil _ _)
          exact ⟨m, .tail _ (hsuffix.subset hm), hn⟩

end DependencyNode

namespace Repository

/-! ## What a resolved tree holds -/

/-- A tree below `ancestors`: every artifact of it is there, has a list that can be read, and stands above
what it needs, but for what it stands below itself, and for itself. -/
inductive Resolved (r : Repository) : List Coordinate → DependencyNode → Prop
  | mk {ancestors : List Coordinate} {c : Coordinate} {ns : List DependencyNode} (hbroken : ¬ r.Broken c)
      (hneeded : ns.map (·.coordinate) = (r.needed c).filter (· ∉ c :: ancestors))
      (hns : ∀ n ∈ ns, Resolved r (c :: ancestors) n) : Resolved r ancestors (.mk c (r.pathOf c) ns)

variable {r : Repository} {ancestors : List Coordinate} {t : DependencyNode}

theorem Resolved.not_broken (h : r.Resolved ancestors t) : ∀ n ∈ t.flatten, ¬ r.Broken n.coordinate := by
  induction h with
  | mk hbroken hneeded hns ih =>
    intro n hn
    rw [DependencyNode.flatten_mk] at hn
    rcases List.mem_cons.1 hn with rfl | hn
    · exact hbroken
    · obtain ⟨m, hm, hn⟩ := List.mem_flatMap.1 hn
      exact ih m hm n hn

/-- All that stands in a tree is reached from its root. -/
theorem Resolved.reaches (h : r.Resolved ancestors t) :
    ∀ n ∈ t.flatten, r.Reaches t.coordinate n.coordinate := by
  induction h with
  | @mk ancestors c ns hbroken hneeded hns ih =>
    intro n hn
    rw [DependencyNode.flatten_mk] at hn
    rcases List.mem_cons.1 hn with rfl | hn
    · exact .refl
    · obtain ⟨m, hm, hn⟩ := List.mem_flatMap.1 hn
      have hchild : m.coordinate ∈ (r.needed c).filter (· ∉ c :: ancestors) :=
        hneeded ▸ List.mem_map_of_mem hm
      exact (ih m hm n hn).head (List.mem_of_mem_filter hchild)

/-- What an artifact in a tree needs stands in the tree or above it. -/
theorem Resolved.closed (h : r.Resolved ancestors t) : ∀ n ∈ t.flatten, ∀ d ∈ r.needed n.coordinate,
    d ∈ ancestors ∨ d ∈ t.flatten.map (·.coordinate) := by
  induction h with
  | @mk ancestors c ns hbroken hneeded hns ih =>
    intro n hn d hd
    have hself : c ∈ (DependencyNode.mk c (r.pathOf c) ns).flatten.map (·.coordinate) :=
      List.mem_map_of_mem (DependencyNode.mem_flatten_self _)
    have hbelow {m : DependencyNode} (hm : m ∈ ns) :
        m.flatten.map (·.coordinate) ⊆ (DependencyNode.mk c (r.pathOf c) ns).flatten.map (·.coordinate) := by
      refine List.map_subset _ fun k hk => ?_
      rw [DependencyNode.flatten_mk]
      exact .tail _ (List.mem_flatMap.2 ⟨m, hm, hk⟩)
    rw [DependencyNode.flatten_mk] at hn
    rcases List.mem_cons.1 hn with rfl | hn
    · by_cases hseen : d ∈ c :: ancestors
      · rcases List.mem_cons.1 hseen with rfl | hseen
        · exact .inr hself
        · exact .inl hseen
      · have hchild : d ∈ ns.map (·.coordinate) := hneeded ▸ List.mem_filter.2 ⟨hd, decide_eq_true hseen⟩
        obtain ⟨m, hm, rfl⟩ := List.mem_map.1 hchild
        exact .inr (hbelow hm (List.mem_map_of_mem (DependencyNode.mem_flatten_self m)))
    · obtain ⟨m, hm, hn⟩ := List.mem_flatMap.1 hn
      rcases ih m hm n hn d hd with hseen | hfound
      · rcases List.mem_cons.1 hseen with rfl | hseen
        · exact .inr hself
        · exact .inl hseen
      · exact .inr (hbelow hm hfound)

/-- A whole tree holds all that is reached from its root. -/
theorem Resolved.mem_of_reaches (h : r.Resolved [] t) {c : Coordinate} (hc : r.Reaches t.coordinate c) :
    c ∈ t.flatten.map (·.coordinate) := by
  induction hc with
  | refl => exact List.mem_map_of_mem (DependencyNode.mem_flatten_self t)
  | tail _ hd ih =>
    obtain ⟨n, hn, rfl⟩ := List.mem_map.1 ih
    exact (h.closed n hn _ hd).resolve_left List.not_mem_nil

/-- No artifact stands below itself. -/
theorem Resolved.nodup_branch (h : r.Resolved ancestors t) (hnew : t.coordinate ∉ ancestors)
    {branch : List Coordinate} (hbranch : t.IsBranch branch) :
    branch.Nodup ∧ ∀ c ∈ branch, c ∉ ancestors := by
  induction hbranch generalizing ancestors with
  | leaf c p => exact ⟨List.pairwise_singleton _ c, fun d hd => List.mem_singleton.1 hd ▸ hnew⟩
  | node c p hn hbranch ih =>
    cases h with
    | mk hbroken hneeded hns =>
      have hchild := List.mem_map_of_mem (f := DependencyNode.coordinate) hn
      rw [hneeded, List.mem_filter, decide_eq_true_eq] at hchild
      obtain ⟨hnodup, hapart⟩ := ih (hns _ hn) hchild.2
      refine ⟨List.nodup_cons.2 ⟨fun hc => hapart c hc List.mem_cons_self, hnodup⟩, fun d hd => ?_⟩
      rcases List.mem_cons.1 hd with rfl | hd
      · exact hnew
      · exact fun hseen => hapart d hd (.tail _ hseen)

/-! ## Resolving -/

section Steps

variable {α β : Type} {x : Except Failure α} {f : α → Except Failure β}

theorem bind_eq_ok {b : β} (h : (x >>= f) = .ok b) : ∃ a, x = .ok a ∧ f a = .ok b := by
  cases x with
  | error e => cases h
  | ok a => exact ⟨a, rfl, h⟩

theorem bind_eq_error {e : Failure} (h : (x >>= f) = .error e) :
    x = .error e ∨ ∃ a, x = .ok a ∧ f a = .error e := by
  cases x with
  | error e' => exact .inl (Except.error.inj h ▸ rfl)
  | ok a => exact .inr ⟨a, rfl, h⟩

end Steps

theorem exists_of_resolveNode {c : Coordinate} {children : Unit → Except Failure (List DependencyNode)}
    (h : r.resolveNode c children = .ok t) :
    r.Has c ∧ ∃ ns, children () = .ok ns ∧ t = .mk c (r.pathOf c) ns := by
  unfold resolveNode at h
  split at h
  · obtain ⟨ns, hns, hmk⟩ := bind_eq_ok h
    exact ⟨‹_›, ns, hns, (Except.ok.inj hmk).symm⟩
  · cases h

theorem of_resolveNode_eq_error {c : Coordinate} {children : Unit → Except Failure (List DependencyNode)}
    {e : Failure} (h : r.resolveNode c children = .error e) :
    ¬ r.Has c ∨ children () = .error e := by
  unfold resolveNode at h
  split at h
  · rcases bind_eq_error h with h | ⟨ns, -, h⟩
    · exact .inr h
    · cases h
  · exact .inl ‹_›

/-- What resolving several artifacts below `ancestors` comes to: a tree for each that is no ancestor. -/
structure ResolvesEach (r : Repository) (ancestors : List Coordinate)
    (needs : List (Except Failure Coordinate)) (nodes : List DependencyNode) : Prop where
  needs : ∃ cs : List Coordinate, needs = cs.map .ok ∧ nodes.map (·.coordinate) = cs.filter (· ∉ ancestors)
  resolved : ∀ n ∈ nodes, r.Resolved ancestors n

/-- An artifact above the trees of what it needs is resolved. -/
theorem ResolvesEach.resolved_mk {c : Coordinate} {ns : List DependencyNode} (hhas : r.Has c)
    (h : r.ResolvesEach (c :: ancestors) (r.needs c) ns) : r.Resolved ancestors (.mk c (r.pathOf c) ns) := by
  obtain ⟨⟨cs, hcs, hcoordinates⟩, hns⟩ := h
  have hreadable : ¬ r.Unreadable c := by
    intro hunreadable
    obtain ⟨e, he⟩ := exists_error_of_unreadable hunreadable
    rw [hcs] at he
    simp at he
  have hneeded : cs = r.needed c :=
    List.map_injective_iff.2 (fun _ _ => Except.ok.inj) (hcs.symm.trans (needs_of_readable hreadable))
  subst hneeded
  exact .mk (not_or.2 ⟨not_not.2 hhas, hreadable⟩) hcoordinates hns

theorem resolvesEach_of_ok {needs : List (Except Failure Coordinate)}
    {hm : ∀ d, .ok d ∈ needs → d ∈ r.mentioned} {nodes : List DependencyNode}
    (h : r.resolveEach ancestors needs hm = .ok nodes) : r.ResolvesEach ancestors needs nodes := by
  fun_induction resolveEach r ancestors needs hm generalizing nodes with
  | case1 ancestors =>
    cases h
    exact ⟨⟨[], rfl, rfl⟩, fun n hn => absurd hn List.not_mem_nil⟩
  | case2 => cases h
  | case3 ancestors c rest hm hseen _ ih =>
    obtain ⟨⟨cs, hcs, hcoordinates⟩, hnodes⟩ := ih h
    refine ⟨⟨c :: cs, by rw [hcs, List.map_cons], ?_⟩, hnodes⟩
    rw [List.filter_cons_of_neg (by simpa using hseen), hcoordinates]
  | case4 ancestors c rest hm hnew _ ihbelow ihrest =>
    obtain ⟨node, hnode, h⟩ := bind_eq_ok h
    obtain ⟨others, hothers, h⟩ := bind_eq_ok h
    cases h
    obtain ⟨hhas, ns, hns, rfl⟩ := exists_of_resolveNode hnode
    obtain ⟨⟨cs, hcs, hcoordinates⟩, hresolved⟩ := ihrest hothers
    refine ⟨⟨c :: cs, by rw [hcs, List.map_cons], ?_⟩, ?_⟩
    · rw [List.filter_cons_of_pos (by simpa using hnew), ← hcoordinates]
      rfl
    · intro n hn
      rcases List.mem_cons.1 hn with rfl | hn
      · exact (ihbelow hns).resolved_mk hhas
      · exact hresolved n hn

/-- An artifact cannot be resolved if what it needs cannot, and then it reaches something broken. -/
theorem exists_broken_of_needs {c : Coordinate}
    (h : (∃ e, .error e ∈ r.needs c) ∨ ∃ d b, .ok d ∈ r.needs c ∧ r.Reaches d b ∧ r.Broken b) :
    ∃ b, r.Reaches c b ∧ r.Broken b := by
  by_cases hunreadable : r.Unreadable c
  · exact ⟨c, .refl, .inr hunreadable⟩
  · rw [needs_of_readable hunreadable] at h
    rcases h with ⟨e, he⟩ | ⟨d, b, hd, hreaches, hbroken⟩
    · simp at he
    · have hneeded : d ∈ r.needed c := by simpa using hd
      exact ⟨b, hreaches.head hneeded, hbroken⟩

theorem exists_broken_of_error {needs : List (Except Failure Coordinate)}
    {hm : ∀ d, .ok d ∈ needs → d ∈ r.mentioned} {e : Failure}
    (h : r.resolveEach ancestors needs hm = .error e) :
    (∃ e, .error e ∈ needs) ∨ ∃ d b, .ok d ∈ needs ∧ r.Reaches d b ∧ r.Broken b := by
  fun_induction resolveEach r ancestors needs hm with
  | case1 => cases h
  | case2 ancestors e' rest => exact .inl ⟨e', List.mem_cons_self⟩
  | case3 ancestors c rest hm hseen _ ih =>
    rcases ih h with ⟨e, he⟩ | ⟨d, b, hd, hb⟩
    · exact .inl ⟨e, .tail _ he⟩
    · exact .inr ⟨d, b, .tail _ hd, hb⟩
  | case4 ancestors c rest hm hnew _ ihbelow ihrest =>
    rcases bind_eq_error h with hnode | ⟨node, -, h⟩
    · have hbroken : ∃ b, r.Reaches c b ∧ r.Broken b := by
        rcases of_resolveNode_eq_error hnode with hmissing | hbelow
        · exact ⟨c, .refl, .inl hmissing⟩
        · exact exists_broken_of_needs (ihbelow hbelow)
      obtain ⟨b, hb⟩ := hbroken
      exact .inr ⟨c, b, List.mem_cons_self, hb⟩
    · rcases bind_eq_error h with hrest | ⟨others, -, h⟩
      · rcases ihrest hrest with ⟨e, he⟩ | ⟨d, b, hd, hb⟩
        · exact .inl ⟨e, .tail _ he⟩
        · exact .inr ⟨d, b, .tail _ hd, hb⟩
      · cases h

theorem resolved_of_resolve {root : Coordinate} (h : r.resolve root = .ok t) :
    t.coordinate = root ∧ r.Resolved [] t := by
  obtain ⟨hhas, ns, hns, rfl⟩ := exists_of_resolveNode h
  exact ⟨rfl, (resolvesEach_of_ok hns).resolved_mk hhas⟩

/-- Resolving an artifact comes to an end.  It fails just if something that the artifact reaches is not
there or has a list that cannot be read.  The tree that it gives has the artifact on top; below each
artifact stands what it needs, in the order of its list, without itself and what it stands below, so that
no way from the top to a leaf has an artifact twice; and flattened, the tree lists just what is reached,
each artifact before what it needs. -/
theorem resolve_closes (r : Repository) (root : Coordinate) :
    ((∃ e, r.resolve root = .error e) ↔ ∃ c, r.Reaches root c ∧ (¬ r.Has c ∨ r.Unreadable c)) ∧
    ∀ t, r.resolve root = .ok t →
      t.coordinate = root ∧ r.Resolved [] t ∧
      (∀ branch, t.IsBranch branch → branch.Nodup) ∧
      (∀ c, c ∈ t.flatten.map (·.coordinate) ↔ r.Reaches root c) ∧
      DependencyNode.ParentsFirst t.flatten := by
  refine ⟨⟨?_, ?_⟩, ?_⟩
  · rintro ⟨e, he⟩
    rcases of_resolveNode_eq_error he with hmissing | hbelow
    · exact ⟨root, .refl, .inl hmissing⟩
    · exact exists_broken_of_needs (exists_broken_of_error hbelow)
  · rintro ⟨c, hreaches, hbroken⟩
    cases hresolve : r.resolve root with
    | error e => exact ⟨e, rfl⟩
    | ok t =>
      -- what is reached stands in the tree, and nothing in it is broken
      obtain ⟨rfl, ht⟩ := resolved_of_resolve hresolve
      obtain ⟨n, hn, rfl⟩ := List.mem_map.1 (ht.mem_of_reaches hreaches)
      exact absurd hbroken (ht.not_broken n hn)
  · intro t hresolve
    obtain ⟨rfl, ht⟩ := resolved_of_resolve hresolve
    refine ⟨rfl, ht, fun branch h => (ht.nodup_branch List.not_mem_nil h).1, fun c => ⟨fun hc => ?_, ?_⟩,
      t.parentsFirst_flatten⟩
    · obtain ⟨n, hn, rfl⟩ := List.mem_map.1 hc
      exact ht.reaches n hn
    · exact ht.mem_of_reaches

end Repository

end Notebook.Artifact

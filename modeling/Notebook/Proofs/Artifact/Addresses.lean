import Notebook.Proofs.Artifact.Closure

/-!
# Addresses lead into a repository, each to a place of its own

A text is the address of an artifact if, without the blanks around it, it is three proper parts with colons
between them; it is then also what is written for the address.  The directory of an artifact is the root of
its repository followed by ordinary names, so it lies below the root, and no other artifact has the same one
(`coordinates_are_addresses`).
-/

namespace Notebook.Artifact
open Notebook.Text

/-- What stands between two separators has none in it, and comes from the text. -/
theorem of_mem_splitOnP {α : Type} {p : α → Bool} {xs piece : List α} (h : piece ∈ xs.splitOnP p) :
    ∀ x ∈ piece, x ∈ xs ∧ p x = false := by
  induction xs generalizing piece with
  | nil =>
    rw [List.splitOnP_nil, List.mem_singleton] at h
    subst h
    exact fun x hx => absurd hx List.not_mem_nil
  | cons y ys ih =>
    have hlater {piece : List α} (h : piece ∈ ys.splitOnP p) : ∀ x ∈ piece, x ∈ y :: ys ∧ p x = false :=
      fun x hx => ⟨.tail _ (ih h x hx).1, (ih h x hx).2⟩
    rw [List.splitOnP_cons_eq_if_modifyHead] at h
    split at h
    · rcases List.mem_cons.1 h with rfl | h
      · exact fun x hx => absurd hx List.not_mem_nil
      · exact hlater h
    · rename_i hy
      cases hsplit : ys.splitOnP p with
      | nil => exact absurd hsplit (List.splitOnP_ne_nil p ys)
      | cons first rest =>
        rw [hsplit] at h hlater
        rcases List.mem_cons.1 h with rfl | h
        · intro x hx
          rcases List.mem_cons.1 hx with rfl | hx
          · exact ⟨List.mem_cons_self, by simpa using hy⟩
          · exact hlater List.mem_cons_self x hx
        · exact hlater (.tail _ h)

/-! ## Addresses in writing -/

namespace Coordinate

/-- What may be a part of an address. -/
structure IsProperPart (part : List Char) : Prop where
  nonempty : part ≠ []
  notPoint : part ≠ ['.']
  notPoints : part ≠ ['.', '.']
  characters : ∀ c ∈ part, isAlphanumeric c = true ∨ c = '.' ∨ c = '-' ∨ c = '_'

/-- An address that has been read: its parts are proper, and no name in its group is empty. -/
structure IsProper (c : Coordinate) : Prop where
  group : IsProperPart c.group
  artifact : IsProperPart c.artifact
  version : IsProperPart c.version
  segments : ∀ segment ∈ segments c.group, segment ≠ []

theorem isPart_iff {part : List Char} : isPart part = true ↔ IsProperPart part := by
  simp only [isPart, isPartChar, Bool.and_eq_true, Bool.not_eq_true', List.isEmpty_eq_false_iff,
    decide_eq_true_eq, List.all_eq_true, Bool.or_eq_true, or_assoc]
  constructor
  · rintro ⟨⟨⟨hne, hpoint⟩, hpoints⟩, hall⟩
    exact ⟨hne, hpoint, hpoints, hall⟩
  · rintro ⟨hne, hpoint, hpoints, hall⟩
    exact ⟨⟨⟨hne, hpoint⟩, hpoints⟩, hall⟩

/-- Separators of addresses and of paths are no characters of a part. -/
theorem IsProperPart.not_mem {part : List Char} (h : IsProperPart part) {c : Char}
    (hc : isPartChar c = false) : c ∉ part := by
  intro hmem
  have hproper := isPart_iff.2 h
  simp only [isPart, Bool.and_eq_true, List.all_eq_true] at hproper
  rw [hproper.2 c hmem] at hc
  cases hc

/-- A text falls at its colons into the parts of an address if it is what is written for it. -/
theorem splitOnP_eq_parts_iff {cs : List Char} {c : Coordinate} (hgroup : ':' ∉ c.group)
    (hartifact : ':' ∉ c.artifact) (hversion : ':' ∉ c.version) :
    cs.splitOnP (· = ':') = [c.group, c.artifact, c.version] ↔ cs = c.text := by
  have hjoin : [':'].intercalate [c.group, c.artifact, c.version] = c.text := by
    simp [List.intercalate, text]
  have hapart : ∀ part ∈ [c.group, c.artifact, c.version], ':' ∉ part := by
    simp [hgroup, hartifact, hversion]
  constructor
  · intro hparts
    have hcs : [':'].intercalate (cs.splitOnP (· = ':')) = cs := List.intercalate_splitOn ':'
    rw [← hcs, hparts, hjoin]
  · rintro rfl
    rw [← hjoin]
    exact List.splitOn_intercalate ':' hapart (List.cons_ne_nil _ _)

/-- What can be read is what is written for a proper address, with blanks around it. -/
theorem parse_eq_ok_iff_text {cs : List Char} {c : Coordinate} :
    parse cs = .ok c ↔ trim cs = c.text ∧ c.IsProper := by
  have hcolon : isPartChar ':' = false := by decide
  have hsplit (hc : c.IsProper) :
      (trim cs).splitOnP (· = ':') = [c.group, c.artifact, c.version] ↔ trim cs = c.text :=
    splitOnP_eq_parts_iff (hc.group.not_mem hcolon) (hc.artifact.not_mem hcolon) (hc.version.not_mem hcolon)
  rw [parse_eq_ok]
  constructor
  · rintro ⟨hparts, hsegments, hgroup, hartifact, hversion⟩
    have hc : c.IsProper := by
      refine ⟨isPart_iff.1 hgroup, isPart_iff.1 hartifact, isPart_iff.1 hversion, fun segment hmem => ?_⟩
      simpa using List.all_eq_true.1 hsegments segment hmem
    exact ⟨(hsplit hc).1 hparts, hc⟩
  · rintro ⟨htext, hc⟩
    refine ⟨(hsplit hc).2 htext, List.all_eq_true.2 fun segment hmem => ?_, isPart_iff.2 hc.group,
      isPart_iff.2 hc.artifact, isPart_iff.2 hc.version⟩
    simpa using hc.segments segment hmem

/-- What cannot be read is complained about as it is written, without the blanks around it. -/
theorem parse_eq_error {cs : List Char} (h : ∀ c, parse cs ≠ .ok c) :
    parse cs = .error (.invalidCoordinate (String.ofList (trim cs))) := by
  unfold parse at h ⊢
  split
  · rename_i group artifact version hparts
    simp only [hparts] at h
    split
    · rename_i hproper
      rw [if_pos hproper] at h
      exact absurd rfl (h _)
    · rfl
  · rfl

/-- What is written for an address that has been read is read as this address. -/
theorem parse_text {cs : List Char} {c : Coordinate} (h : parse cs = .ok c) : parse c.text = .ok c := by
  obtain ⟨htext, hc⟩ := parse_eq_ok_iff_text.1 h
  refine parse_eq_ok_iff_text.2 ⟨?_, hc⟩
  rw [← htext, Repository.trim_trim]

end Coordinate

/-! ## Paths -/

/-- A name that means a file or a directory right where it stands. -/
structure IsOrdinary (name : List Char) : Prop where
  nonempty : name ≠ []
  notPoint : name ≠ ['.']
  notPoints : name ≠ ['.', '.']
  noSlash : '/' ∉ name

namespace IsOrdinary

variable {name : List Char} (h : IsOrdinary name)
include h

theorem ofPiece? : Component.ofPiece? name = some (.name name) := by
  unfold Component.ofPiece?
  rw [if_neg (not_or.2 ⟨h.nonempty, h.notPoint⟩), if_neg h.notPoints]

theorem splitOnP : name.splitOnP (· = '/') = [name] :=
  List.splitOnP_eq_singleton fun _ hc => decide_eq_false fun hslash => h.noSlash (hslash ▸ hc)

theorem head?_ne : name.head? ≠ some '/' := fun hhead => h.noSlash (List.mem_of_mem_head? hhead)

/-- A name by itself is a path. -/
theorem components : components name = [.name name] := by
  unfold Artifact.components startOf
  rw [if_neg h.head?_ne, h.splitOnP, if_neg (by simpa using h.notPoint), List.filterMap_cons_some h.ofPiece?]
  rfl

end IsOrdinary

theorem components_slash (path : List Char) :
    components ('/' :: path) = .top :: (path.splitOnP (· = '/')).filterMap Component.ofPiece? := by
  have hsplit : ('/' :: path).splitOnP (· = '/') = [] :: path.splitOnP (· = '/') := by
    rw [List.splitOnP_cons_eq_if_modifyHead, if_pos (by decide)]
  have hstart : startOf ('/' :: path) = [.top] := if_pos rfl
  unfold components
  rw [hstart, hsplit, List.filterMap_cons_none rfl]
  rfl

/-- What stands behind a slash is added to the components of what stands before it. -/
theorem components_append_slash {path : List Char} (hpath : path ≠ []) (more : List Char) :
    components (path ++ '/' :: more) =
      components path ++ (more.splitOnP (· = '/')).filterMap Component.ofPiece? := by
  have hsplit : (path ++ '/' :: more).splitOnP (· = '/') =
      path.splitOnP (· = '/') ++ more.splitOnP (· = '/') :=
    List.splitOnP_append_cons _ _ (by decide)
  have hstart : startOf (path ++ '/' :: more) = startOf path := by
    unfold startOf
    rw [hsplit, List.head?_append_of_ne_nil _ hpath,
      List.head?_append_of_ne_nil _ (List.splitOnP_ne_nil _ path)]
  unfold components
  rw [hstart, hsplit, List.filterMap_append, List.append_assoc]

/-- An ordinary name in a directory is one component more. -/
theorem components_inDirectory (directory : List Char) {name : List Char} (hname : IsOrdinary name) :
    components (inDirectory directory name) = components directory ++ [.name name] := by
  have hadded : (name.splitOnP (· = '/')).filterMap Component.ofPiece? = [.name name] := by
    rw [hname.splitOnP, List.filterMap_cons_some hname.ofPiece?]
    rfl
  unfold inDirectory
  rw [if_neg hname.head?_ne]
  split
  · rename_i hdirectory
    rcases List.eq_nil_or_concat directory with rfl | ⟨outer, last, rfl⟩
    · exact hname.components
    · -- the directory is written with a slash at its end
      rw [List.concat_eq_append] at hdirectory ⊢
      obtain rfl : last = '/' := by simpa using hdirectory
      rw [List.append_assoc, List.singleton_append]
      cases outer with
      | nil =>
        rw [List.nil_append, List.nil_append, components_slash, components_slash, hadded]
        rfl
      | cons c outer =>
        rw [components_append_slash (List.cons_ne_nil _ _), components_append_slash (List.cons_ne_nil _ _),
          hadded, List.splitOnP_nil, List.filterMap_cons_none rfl, List.filterMap_nil, List.append_nil]
  · rename_i hdirectory
    have hne : directory ≠ [] := fun h => hdirectory (by rw [h]; rfl)
    rw [components_append_slash hne, hadded]

theorem components_foldl_inDirectory (names : List (List Char)) (hnames : ∀ name ∈ names, IsOrdinary name)
    (root : List Char) :
    components (names.foldl inDirectory root) = components root ++ names.map .name := by
  induction names generalizing root with
  | nil => exact (List.append_nil _).symm
  | cons name names ih =>
    obtain ⟨hname, hrest⟩ := List.forall_mem_cons.1 hnames
    rw [List.foldl_cons, ih hrest, components_inDirectory root hname, List.append_assoc]
    rfl

/-! ## Directories of artifacts -/

theorem Coordinate.IsProperPart.isOrdinary {part : List Char} (h : Coordinate.IsProperPart part) :
    IsOrdinary part := ⟨h.nonempty, h.notPoint, h.notPoints, h.not_mem (by decide)⟩

namespace Repository

variable {c d : Coordinate}

theorem isOrdinary_of_mem_levels (hc : c.IsProper) : ∀ name ∈ levels c, IsOrdinary name := by
  intro name hmem
  rcases List.mem_append.1 hmem with hsegment | hlast
  · have hchars := of_mem_splitOnP hsegment
    have hpoint : '.' ∉ name := fun h => by simpa using (hchars '.' h).2
    refine ⟨hc.segments name hsegment, ?_, ?_, fun h => hc.group.isOrdinary.noSlash (hchars '/' h).1⟩
    · rintro rfl
      exact hpoint List.mem_cons_self
    · rintro rfl
      exact hpoint List.mem_cons_self
  · rcases List.mem_cons.1 hlast with rfl | hlast
    · exact hc.artifact.isOrdinary
    · rw [List.mem_singleton.1 hlast]
      exact hc.version.isOrdinary

/-- The group can be told from the directories that are named after its names. -/
theorem levels_injective (h : levels c = levels d) : c = d := by
  obtain ⟨hsegments, hlast⟩ := List.append_inj' h rfl
  obtain ⟨hartifact, hversion⟩ := List.cons.inj hlast
  have hgroup (c : Coordinate) : ['.'].intercalate (Coordinate.segments c.group) = c.group :=
    List.intercalate_splitOn '.'
  obtain ⟨group, artifact, version⟩ := c
  obtain ⟨group', artifact', version'⟩ := d
  obtain rfl : group = group' := (hgroup ⟨group, artifact, version⟩).symm.trans <|
    (congrArg _ hsegments).trans (hgroup ⟨group', artifact', version'⟩)
  cases hartifact
  cases hversion
  rfl

/-- The directory of an artifact is the root of the repository and then the ordinary names of the address. -/
theorem components_versionDirectory (r : Repository) (hc : c.IsProper) :
    components (r.versionDirectory c) = components r.root ++ (levels c).map .name :=
  components_foldl_inDirectory (levels c) (isOrdinary_of_mem_levels hc) r.root

end Repository

open Repository in
/-- A text is read as an address just if, without the blanks around it, it is what is written for this address,
and the address is proper; any other text is complained about.  What is written for an address that has been
read is the text, and is read as the same address again.  The directory of the artifact is the root of its
repository, however that is written, and behind it ordinary names only, none of which leads up or elsewhere.
Two addresses that are not the same have directories that are not the same either, however these are written. -/
theorem coordinates_are_addresses (cs : List Char) :
    (∀ c, Coordinate.parse cs = .ok c ↔ trim cs = c.text ∧ c.IsProper) ∧
    ((∀ c : Coordinate, ¬ (trim cs = c.text ∧ c.IsProper)) →
      Coordinate.parse cs = .error (.invalidCoordinate (String.ofList (trim cs)))) ∧
    ∀ c, Coordinate.parse cs = .ok c →
      c.text = trim cs ∧ Coordinate.parse c.text = .ok c ∧
      ∀ r : Repository,
        components (r.versionDirectory c) = components r.root ++ (levels c).map .name ∧
        (∀ name ∈ levels c, IsOrdinary name) ∧
        ∀ ds d, Coordinate.parse ds = .ok d →
          components (r.versionDirectory c) = components (r.versionDirectory d) → c = d := by
  refine ⟨fun c => Coordinate.parse_eq_ok_iff_text, fun hnone => ?_, fun c hparse => ?_⟩
  · exact Coordinate.parse_eq_error fun c hparse => hnone c (Coordinate.parse_eq_ok_iff_text.1 hparse)
  · obtain ⟨htext, hc⟩ := Coordinate.parse_eq_ok_iff_text.1 hparse
    refine ⟨htext.symm, Coordinate.parse_text hparse, fun r => ?_⟩
    have hdirectory := components_versionDirectory r hc
    refine ⟨hdirectory, isOrdinary_of_mem_levels hc, fun ds d hparse' hsame => ?_⟩
    obtain ⟨-, hd⟩ := Coordinate.parse_eq_ok_iff_text.1 hparse'
    rw [hdirectory, components_versionDirectory r hd] at hsame
    have hnames : (levels c).map Component.name = (levels d).map Component.name :=
      List.append_cancel_left hsame
    exact levels_injective (List.map_injective_iff.2 (fun _ _ => Component.name.inj) hnames)

end Notebook.Artifact

import Notebook.Artifact.Repository
import Notebook.Proofs.Guest.Chronicle
import Notebook.Proofs.Syntax.Imports

/-!
# Importing an artifact of a repository

A repository writes the name of an artifact and its version, with a hyphen between them, into the name of a
file, and the engine reads the name of a library off the name of a file.  It finds the artifact's own name
just where the version starts with a digit and has no hyphen of its own; then, and else only by chance, the
library can be imported (`import_of_artifact`).
-/

namespace Notebook.Guest
open Notebook.Text Notebook.Scan Notebook.Syntax Notebook.Artifact

/-! ## Names of files -/

theorem fileName?_append (directory : List Char) {file : List Char} (hslash : '/' ∉ file)
    (hfile : file ∉ [[], ['.'], ['.', '.']]) : fileName? (directory ++ '/' :: file) = some file := by
  simp only [List.mem_cons, List.not_mem_nil, or_false, not_or] at hfile
  obtain ⟨hne, hpoint, hpoints⟩ := hfile
  have hwhole : file.splitOnP (· = '/') = [file] :=
    List.splitOnP_eq_singleton fun c hc => decide_eq_false fun h => hslash (h ▸ hc)
  have hsplit : (directory ++ '/' :: file).splitOnP (· = '/') =
      directory.splitOnP (· = '/') ++ [file] := by
    rw [List.splitOnP_append_cons _ _ (by decide), hwhole]
  obtain ⟨first, rest, hfirst⟩ := List.exists_cons_of_ne_nil (List.splitOnP_ne_nil (· = '/') directory)
  have hkept : ([file].filter fun p => !p.isEmpty && p ≠ ['.']) = [file] := by
    simp [hne, hpoint]
  unfold fileName? pathParts
  rw [hsplit, hfirst, List.cons_append]
  dsimp only
  rw [List.filter_append, hkept, ← List.append_assoc, List.getLast?_concat]
  simp [hpoint, hpoints]

theorem splitLast?_append (c : Char) (before : List Char) {after : List Char} (h : c ∉ after) :
    splitLast? c (before ++ c :: after) = some (before, after) := by
  have hafter : (((before ++ c :: after).reverse.takeWhile (· ≠ c)).reverse) = after := by
    have hpos : ∀ d ∈ after.reverse, decide (d ≠ c) = true :=
      fun d hd => decide_eq_true fun hdc => h (hdc ▸ List.mem_reverse.1 hd)
    rw [List.reverse_append, List.reverse_cons, List.append_assoc, List.takeWhile_append_of_pos hpos,
      List.singleton_append, List.takeWhile_cons_of_neg (by simp), List.append_nil, List.reverse_reverse]
  have hlength : (before ++ c :: after).length = before.length + (after.length + 1) := by simp
  unfold splitLast?
  dsimp only
  rw [hafter, if_neg (by omega), hlength, show before.length + (after.length + 1) - after.length - 1 =
    before.length by omega, List.take_left' rfl]

/-- What contains a character falls into what stands before its last occurrence and what stands behind it. -/
theorem exists_append_last {c : Char} {cs : List Char} (h : c ∈ cs) :
    ∃ before after, cs = before ++ c :: after ∧ c ∉ after := by
  obtain ⟨after, before, heq, hafter⟩ := List.eq_append_cons_of_mem (List.mem_reverse.2 h)
  refine ⟨before.reverse, after.reverse, ?_, fun hmem => hafter (List.mem_reverse.1 hmem)⟩
  rw [← List.reverse_reverse cs, heq, List.reverse_append, List.reverse_cons, List.append_assoc,
    List.singleton_append]

theorem fileStem_append {stem ending : List Char} (hstem : stem ≠ []) (h : '.' ∉ ending) :
    fileStem (stem ++ '.' :: ending) = stem := by
  unfold fileStem
  rw [splitLast?_append '.' stem h]
  dsimp only
  rw [if_neg (by simpa using hstem)]

/-! ## Versions -/

/-- Versions that start with a digit and have no hyphen. -/
def isPlainVersion (version : List Char) : Bool := !version.contains '-' && version.head?.any Char.isDigit

theorem unversioned_of_isPlainVersion (name : List Char) {version : List Char}
    (h : isPlainVersion version = true) : unversioned (name ++ '-' :: version) = name := by
  simp only [isPlainVersion, Bool.and_eq_true, Bool.not_eq_true', List.contains_eq_mem,
    decide_eq_false_iff_not] at h
  unfold unversioned
  rw [splitLast?_append '-' name h.1]
  exact if_pos h.2

/-- Of any other version at least a part is taken for a part of the name. -/
theorem unversioned_of_not_isPlainVersion (name : List Char) {version : List Char}
    (h : isPlainVersion version = false) :
    ∃ more, unversioned (name ++ '-' :: version) = name ++ '-' :: more := by
  unfold unversioned
  by_cases hhyphen : '-' ∈ version
  · obtain ⟨before, after, rfl, hafter⟩ := exists_append_last hhyphen
    have hsplit := splitLast?_append '-' (name ++ '-' :: before) hafter
    rw [List.append_assoc, List.cons_append] at hsplit
    rw [hsplit]
    dsimp only
    split
    · exact ⟨before, rfl⟩
    · exact ⟨before ++ '-' :: after, rfl⟩
  · have hdigit : ¬version.head?.any Char.isDigit = true := by
      simpa [isPlainVersion, hhyphen] using h
    rw [splitLast?_append '-' name hhyphen]
    dsimp only
    rw [if_neg hdigit]
    exact ⟨version, rfl⟩

theorem rootName_append (name more : List Char) :
    ∃ longer, rootName (name ++ '-' :: more) = rootName name ++ '_' :: longer := by
  have hlibs : "lib".toList.isPrefixOf (name ++ '-' :: more) = "lib".toList.isPrefixOf name := by
    match name with
    | [] => rfl
    | [a] => simp [List.isPrefixOf]
    | [a, b] => simp [List.isPrefixOf]
    | a :: b :: c :: rest => simp [List.isPrefixOf]
  unfold rootName
  rw [hlibs]
  split
  · rename_i hlib
    have hlength : 3 ≤ name.length := (List.isPrefixOf_iff_prefix.1 hlib).length_le
    rw [List.drop_append_of_le_length hlength, List.map_append]
    exact ⟨_, rfl⟩
  · rw [List.map_append]
    exact ⟨_, rfl⟩

/-! ## Artifacts as libraries -/

section Artifact

variable {c : Coordinate} (r : Repository)

theorem slash_not_mem_of_isPart {part : List Char} (h : Coordinate.isPart part = true) : '/' ∉ part := by
  intro hmem
  simp only [Coordinate.isPart, Bool.and_eq_true, List.all_eq_true] at h
  have hslash : Coordinate.isPartChar '/' = false := by decide
  rw [h.2 '/' hmem] at hslash
  cases hslash

theorem ne_nil_of_isPart {part : List Char} (h : Coordinate.isPart part = true) : part ≠ [] := by
  rintro rfl
  cases h

theorem pathOf_eq (hartifact : Coordinate.isPart c.artifact = true)
    (hversion : Coordinate.isPart c.version = true) :
    ∃ directory, r.pathOf c =
      directory ++ '/' :: (c.artifact ++ '-' :: c.version ++ '.' :: "rlib".toList) := by
  have hdirectory : r.versionDirectory c ≠ [] := by
    unfold Repository.versionDirectory Repository.levels
    rw [List.foldl_append]
    exact inDirectory_ne_nil _ (ne_nil_of_isPart hversion)
  have hhead : (Repository.fileName c ".rlib").head? ≠ some '/' := by
    unfold Repository.fileName
    rw [List.append_assoc, List.head?_append_of_ne_nil _ (ne_nil_of_isPart hartifact)]
    exact fun h => slash_not_mem_of_isPart hartifact (List.mem_of_mem_head? h)
  exact exists_inDirectory hdirectory hhead

/-- The name that the engine knows the library of an artifact by. -/
theorem libraryName?_pathOf (hartifact : Coordinate.isPart c.artifact = true)
    (hversion : Coordinate.isPart c.version = true) :
    libraryName? (r.pathOf c) =
      some (String.ofList (rootName (unversioned (c.artifact ++ '-' :: c.version)))) := by
  obtain ⟨directory, hpath⟩ := pathOf_eq r hartifact hversion
  have hslash : '/' ∉ c.artifact ++ '-' :: c.version ++ '.' :: "rlib".toList := by
    simp [slash_not_mem_of_isPart hartifact, slash_not_mem_of_isPart hversion]
  have hlong : 5 ≤ (c.artifact ++ '-' :: c.version ++ '.' :: "rlib".toList).length := by
    simp only [List.length_append, List.length_cons, show "rlib".toList.length = 4 from rfl]
    omega
  have hfile : c.artifact ++ '-' :: c.version ++ '.' :: "rlib".toList ∉ [[], ['.'], ['.', '.']] := by
    rintro hmem
    generalize c.artifact ++ '-' :: c.version ++ '.' :: "rlib".toList = file at hlong hmem
    simp only [List.mem_cons, List.not_mem_nil, or_false] at hmem
    rcases hmem with rfl | rfl | rfl <;> simp at hlong
  unfold libraryName?
  rw [hpath, fileName?_append directory hslash hfile, Option.map_some,
    fileStem_append (by simp) (by decide)]

/-- The engine finds the name of an artifact where the version is plain. -/
theorem libraryName?_eq_iff (hartifact : Coordinate.isPart c.artifact = true)
    (hversion : Coordinate.isPart c.version = true) :
    libraryName? (r.pathOf c) = some (String.ofList (rootName c.artifact)) ↔
      isPlainVersion c.version = true := by
  rw [libraryName?_pathOf r hartifact hversion, Option.some.injEq, String.ofList_inj]
  cases hplain : isPlainVersion c.version with
  | true => exact iff_of_true (congrArg rootName (unversioned_of_isPlainVersion _ hplain)) rfl
  | false =>
    obtain ⟨more, hmore⟩ := unversioned_of_not_isPlainVersion c.artifact hplain
    obtain ⟨longer, hlonger⟩ := rootName_append c.artifact more
    rw [hmore, hlonger]
    refine iff_of_false (fun h => ?_) Bool.false_ne_true
    exact absurd (List.append_cancel_left (h.trans (List.append_nil _).symm)) (List.cons_ne_nil _ _)

/-- What can be imported when the library of an artifact has been added. -/
theorem mem_libraries_addLibrary (hartifact : Coordinate.isPart c.artifact = true)
    (hversion : Coordinate.isPart c.version = true) (s : Store) :
    String.ofList (rootName c.artifact) ∈ (s.addLibrary (r.pathOf c)).libraries ↔
      isPlainVersion c.version = true ∨ String.ofList (rootName c.artifact) ∈ s.libraries := by
  have hname := libraryName?_pathOf r hartifact hversion
  rw [← libraryName?_eq_iff r hartifact hversion, hname, Option.some.injEq]
  unfold Store.addLibrary
  rw [hname]
  exact (mem_insertNew ..).trans (or_congr_left eq_comm)

end Artifact

/-! ## Nesting of an import -/

theorem depth_step_le (n : Nesting) (t : Token) : (n.step t).depth ≤ n.depth + 1 := by
  unfold Nesting.step
  split
  · split
    · exact Nat.le_refl _
    · split
      · split
        · exact Nat.le_succ _
        · dsimp only; omega
      · split
        · dsimp only; omega
        · exact Nat.le_refl _
  · split
    · exact Nat.le_refl _
    · exact Nat.le_succ _

theorem overflowFrom?_eq_none {limit : Nat} {n : Nesting} {ts : List Token}
    (h : n.depth + ts.length ≤ limit) : overflowFrom? limit n ts = none := by
  induction ts generalizing n with
  | nil => rfl
  | cons t ts ih =>
    have hstep := depth_step_le n t
    rw [List.length_cons] at h
    unfold overflowFrom?
    dsimp only
    rw [if_neg (by omega)]
    exact ih (by omega)

theorem length_placed (offset : Nat) (ls : List Lexeme) : (placed offset ls).length = ls.length := by
  induction ls generalizing offset with
  | nil => rfl
  | cons l ls ih => rw [placed, List.length_cons, List.length_cons, ih]

/-- Few lexemes do not nest deep. -/
theorem nestingOverflow?_eq_none {cs : List Char} {limit : Nat} (h : (lexemes cs).length < limit) :
    nestingOverflow? cs limit = none := by
  refine overflowFrom?_eq_none ?_
  have hle : ((tokens cs).filter (·.isSignificant)).length ≤ (lexemes cs).length := by
    rw [← length_placed 0 (lexemes cs)]
    exact List.length_filter_le _ _
  show 1 + _ ≤ limit
  omega

theorem marked_of_rawStringAhead (letters : List Char) {cs : List Char}
    (hletters : letters.all goesOn = true) (h : rawStringAhead cs = true) : Marked (letters ++ cs) := by
  cases cs with
  | nil => cases h
  | cons c cs =>
    by_cases hhash : c = '#'
    · exact ⟨letters, c, cs, rfl, hletters, by rw [hhash]; decide, by rw [hhash]; decide⟩
    · unfold rawStringAhead at h
      rw [List.dropWhile_cons_of_neg (by simpa using hhash)] at h
      have hquote : c = '"' := by simpa using h
      exact ⟨letters, c, cs, rfl, hletters, by rw [hquote]; decide, by rw [hquote]; decide⟩

theorem more_extent_identifier {c : Char} {cs z : List Char} (hw : IsIdentifier (c :: cs))
    (hchars : ∀ d ∈ c :: cs, isWordChar d = true) (hz : Stops z) (hnext : z.takeWhile isWordChar = []) :
    (extent c (cs ++ z)).more = cs.length := by
  have hmarked : ¬ Marked (c :: cs ++ z) := not_marked_append hw.goesOn hz
  have hstart := startsWord (isIdentifier_cons.1 hw).1
  have hraw : (decide (c = 'r') && rawStringAhead (cs ++ z)) = false := by
    rw [Bool.eq_false_iff, ne_eq, Bool.and_eq_true, decide_eq_true_eq]
    rintro ⟨rfl, h⟩
    exact hmarked (marked_of_rawStringAhead ['r'] (by decide) h)
  have hbytes : (decide (c = 'b') && (cs ++ z).head? == some '"') = false := by
    rw [Bool.eq_false_iff, ne_eq, Bool.and_eq_true, decide_eq_true_eq, beq_iff_eq]
    rintro ⟨rfl, h⟩
    obtain ⟨rest, hrest⟩ := List.head?_eq_some_iff.1 h
    rw [List.cons_append, hrest] at hmarked
    exact hmarked (marked_append ['b'] '"' rest (by decide))
  have hquote : c ≠ '"' := by
    rintro rfl
    exact hmarked (marked_append [] '"' (cs ++ z) (by decide))
  have happostrophe : c ≠ '\x27' := by
    rintro rfl
    exact hmarked (marked_append [] '\x27' (cs ++ z) (by decide))
  have hcount : countWhile isWordChar (cs ++ z) = cs.length := by
    unfold countWhile
    rw [List.takeWhile_append_of_pos fun d hd => hchars d (List.mem_cons_of_mem _ hd), hnext, List.append_nil]
  unfold extent
  rw [hstart.isBlank_eq, decide_eq_false hstart.ne_slash, hraw, hbytes, hstart.not_digit,
    hchars c List.mem_cons_self, hcount, if_neg hquote, if_neg happostrophe]
  rfl

/-- An identifier of word characters is a lexeme. -/
theorem exists_lexeme_identifier {w z : List Char} (hw : IsIdentifier w) (hchars : ∀ c ∈ w, isWordChar c = true)
    (hz : Stops z) (hnext : z.takeWhile isWordChar = []) : ∃ l, lexemes (w ++ z) = l :: lexemes z := by
  cases w with
  | nil => cases hw
  | cons c cs =>
    rw [List.cons_append, lexemes, more_extent_identifier hw hchars hz hnext, List.drop_left' rfl]
    exact ⟨_, rfl⟩

theorem length_lexemes_importText {w : List Char} (hw : IsIdentifier w)
    (hchars : ∀ c ∈ w, isWordChar c = true) : (lexemes (importText w)).length = 4 := by
  have hsplit : importText w = "use".toList ++ ' ' :: (w ++ [';']) := by simp [importText]
  obtain ⟨use, huse⟩ := exists_lexeme_identifier (w := "use".toList) (z := ' ' :: (w ++ [';'])) (by decide)
    (List.all_eq_true.1 (by decide)) (stops_cons (by decide)) (by rw [List.takeWhile_cons_of_neg (by decide)])
  obtain ⟨name, hname⟩ := exists_lexeme_identifier (z := [';']) hw hchars (stops_cons (by decide)) rfl
  have hspace : ∃ space, lexemes (' ' :: (w ++ [';'])) = space :: lexemes (w ++ [';']) := by
    have hblanks : (extent ' ' (w ++ [';'])).more = 0 := by
      cases w with
      | nil => cases hw
      | cons c cs =>
        have hc := (startsWord (isIdentifier_cons.1 hw).1).isBlank_eq
        show countWhile isBlank (c :: (cs ++ [';'])) = 0
        rw [countWhile, List.takeWhile_cons_of_neg (by simp [hc]), List.length_nil]
    rw [lexemes, hblanks]
    exact ⟨_, rfl⟩
  have hend : (lexemes [';']).length = 1 := by
    simp [lexemes]
  obtain ⟨space, hspace⟩ := hspace
  rw [hsplit, huse, hspace, hname, List.length_cons, List.length_cons, List.length_cons, hend]

/-- The characters that a coordinate and an identifier may have are word characters. -/
theorem isWordChar_rootName {artifact : List Char} (hartifact : Coordinate.isPart artifact = true)
    (hident : IsIdentifier (rootName artifact)) : ∀ d ∈ rootName artifact, isWordChar d = true := by
  intro d hd
  have hpoint : d ≠ '.' := by
    rintro rfl
    rcases hident.mem hd with h | h
    · exact absurd h (by decide)
    · exact absurd h (by decide)
  obtain ⟨e, he, rfl⟩ := List.mem_map.1 hd
  have hmem : e ∈ artifact := by
    split at he
    · exact List.mem_of_mem_drop he
    · exact he
  simp only [Coordinate.isPart, Bool.and_eq_true, List.all_eq_true] at hartifact
  have hpart := hartifact.2 e hmem
  split at hpoint
  · rename_i hhyphen
    rw [if_pos hhyphen]
    decide
  · rename_i hhyphen
    rw [if_neg hhyphen]
    simpa [Coordinate.isPartChar, isWordChar, hpoint, hhyphen] using hpart

/-! ## Importing -/

/-- The first thing that is told of a new snippet is how it begins. -/
theorem exists_finish (s : Store) (r : Record) (status : Status) (fault : Option FaultReport) (binds : Bool) :
    ∃ events s', (s.allocate r).2.finish (s.records.length + 1) status fault binds =
      (r.begun (s.records.length + 1) status fault :: events, s') := by
  have hnew : (s.allocate r).2.record? (s.records.length + 1) = some r := by
    rw [Store.record?_allocate, if_pos rfl]
  rw [Store.finish_eq hnew]
  split
  · exact ⟨_, _, rfl⟩
  · exact ⟨_, _, rfl⟩

namespace Engine

variable {σ : Type} (calls : HostCalls σ) (fuel : Nat) (s : Store) (w : σ)

/-- An import is accepted if there is a library of its root, and else it is refused. -/
theorem outcome_importTree (t : ImportTree) (piece : Slice) :
    ∃ e events s', outcome (importTree t piece) s w = (.ok (e :: events), s', w) ∧
      e.snippet = s.records.length + 1 ∧ e.kind = .imports ∧
      e.status =
        if t.root ∈ standardRoots ∨ t.root ∈ s.libraries then .valid else .rejected := by
  have hroot : (standardRoots.contains t.root || s.libraries.contains t.root) = true ↔
      t.root ∈ standardRoots ∨ t.root ∈ s.libraries := by
    rw [Bool.or_eq_true, List.contains_iff_mem, List.contains_iff_mem]
  unfold importTree
  rw [outcome_bind, outcome_store]
  dsimp only
  split
  · rename_i h
    rw [if_pos (hroot.1 h), outcome_bind, outcome_onStore]
    let r : Record := {
      kind := .imports, source := piece.source, origin := piece.origin, definition := .imports
      name := some ("use " ++ String.ofList (compactTokens t.text)) }
    obtain ⟨events, s', hfinish⟩ := exists_finish s r .valid none true
    refine ⟨r.begun _ .valid none, events, s', ?_, rfl, rfl, rfl⟩
    show (Except.ok ((s.allocate r).2.finish (s.records.length + 1) .valid none true).1,
      ((s.allocate r).2.finish (s.records.length + 1) .valid none true).2, w) = _
    rw [hfinish]
  · rename_i h
    rw [if_neg fun hmem => h (hroot.2 hmem)]
    let r : Record := {
      kind := .imports, source := piece.source, origin := piece.origin, name := none
      diagnostics := [CheckError.diagnostic ⟨.unresolvedImport t.root, t.span⟩ piece.origin] }
    obtain ⟨events, s', hfinish⟩ := exists_finish s r .rejected none false
    refine ⟨r.begun _ .rejected none, events, s', ?_, rfl, rfl, rfl⟩
    show (Except.ok ((s.allocate r).2.finish (s.records.length + 1) .rejected none false).1,
      ((s.allocate r).2.finish (s.records.length + 1) .rejected none false).2, w) = _
    rw [hfinish]

theorem outcome_evaluate_import {name : List Char} (hname : IsIdentifier name)
    (hchars : ∀ c ∈ name, isWordChar c = true) (hfree : String.ofList name ∉ reserved)
    (hs : s.stopped = false) :
    ∃ e events s', outcome (evaluate calls fuel (importText name)) s w = (.ok (e :: events), s', w) ∧
      e.snippet = s.records.length + 1 ∧ e.kind = .imports ∧
      e.status =
        if String.ofList name ∈ standardRoots ∨ String.ofList name ∈ s.libraries then .valid else .rejected := by
  obtain ⟨span, place, hparse⟩ := parseUnit_import hname hfree
  have hflat : nestingOverflow? (importText name) nestingLimit = none :=
    nestingOverflow?_eq_none (by rw [length_lexemes_importText hname hchars]; decide)
  obtain ⟨e, events, s', houtcome, he⟩ := outcome_importTree s w ⟨String.ofList name, name, span⟩
    (Slice.ofSingle (importText name) (.item (.imports ⟨String.ofList name, name, span⟩) place))
  refine ⟨e, events, s', ?_, he⟩
  unfold evaluate
  rw [outcome_bind, outcome_store]
  dsimp only
  rw [hs, if_neg Bool.false_ne_true, hflat]
  dsimp only
  rw [hparse]
  show outcome (importTree _ _ >>= _) s w = _
  rw [outcome_bind, houtcome]
  show (_, _, _) = _
  rw [List.append_nil]

end Engine

theorem Store.exists_addLibrary (s : Store) (path : List Char) :
    ∃ libraries, s.addLibrary path = { s with libraries } := by
  unfold addLibrary
  split
  · exact ⟨_, rfl⟩
  · exact ⟨s.libraries, rfl⟩

/-- Whether the library of an artifact can be imported by the artifact's name once it has been added: the
version has to be plain, unless there is a library of the name anyway. -/
theorem import_of_artifact {σ : Type} {text : List Char} {c : Coordinate} (hc : Coordinate.parse text = .ok c)
    (hident : IsIdentifier (rootName c.artifact)) (hfree : String.ofList (rootName c.artifact) ∉ reserved)
    (r : Repository) (calls : HostCalls σ) (fuel : Nat) {s : Store} (hs : s.stopped = false) (w : σ) :
    ∃ e events s', Engine.outcome (Engine.evaluate calls fuel (importText (rootName c.artifact)))
        (s.addLibrary (r.pathOf c)) w = (.ok (e :: events), s', w) ∧
      e.snippet = s.records.length + 1 ∧ e.kind = .imports ∧
      e.status =
        if isPlainVersion c.version = true ∨ String.ofList (rootName c.artifact) ∈ standardRoots ++ s.libraries
        then .valid else .rejected := by
  obtain ⟨-, -, -, hartifact, hversion⟩ := Coordinate.parse_eq_ok.1 hc
  obtain ⟨libraries, hadd⟩ := s.exists_addLibrary (r.pathOf c)
  have hrunning : (s.addLibrary (r.pathOf c)).stopped = false := by rw [hadd]; exact hs
  obtain ⟨e, events, s', houtcome, hid, hkind, hstatus⟩ := Engine.outcome_evaluate_import calls fuel
    (s.addLibrary (r.pathOf c)) w hident (isWordChar_rootName hartifact hident) hfree hrunning
  refine ⟨e, events, s', houtcome, ?_, hkind, hstatus.trans (if_congr ?_ rfl rfl)⟩
  · rw [hid, hadd]
  · rw [mem_libraries_addLibrary r hartifact hversion, List.mem_append, or_left_comm]

/-- A repository in which nothing lies yet. -/
def emptyRepository : Repository := ⟨"repo".toList, []⟩

/-- A release can be imported. -/
theorem import_of_release :
    ∃ e events s', Engine.outcome (Engine.evaluate errorCalls 20 "use util;".toList)
        (({} : Store).addLibrary (emptyRepository.pathOf ⟨"a".toList, "util".toList, "1.0".toList⟩)) () =
          (.ok (e :: events), s', ()) ∧ e.snippet = 1 ∧ e.kind = .imports ∧ e.status = .valid :=
  have hparse : Coordinate.parse "a:util:1.0".toList = .ok ⟨"a".toList, "util".toList, "1.0".toList⟩ := rfl
  import_of_artifact hparse (by decide) (by decide) emptyRepository errorCalls 20 rfl ()

/-- A release candidate cannot be imported. -/
theorem import_of_candidate :
    let c : Coordinate := ⟨"a".toList, "util".toList, "1.0-rc.1".toList⟩
    Coordinate.parse "a:util:1.0-rc.1".toList = .ok c ∧ rootName c.artifact = "util".toList ∧
      IsIdentifier "util".toList ∧ "util" ∉ reserved ∧
      (Engine.outcome (Engine.evaluate errorCalls 20 "use util;".toList)
        (({} : Store).addLibrary (emptyRepository.pathOf c)) ()).1.toOption.map (·.map (·.status)) =
          some [.rejected] := by
  refine ⟨rfl, rfl, by decide, by decide, ?_⟩
  decide +kernel

end Notebook.Guest

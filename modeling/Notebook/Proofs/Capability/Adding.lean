import Mathlib.Data.List.Induction
import Mathlib.Data.List.Nodup
import Notebook.Capability.Host

/-!
# Each file is made importable once

An instance that adds libraries answers every call with the files that were not there before.  All answers
in a row, the demands that it leaves behind and the files that it remembers are one list: the files of all
trees that were found, each where it comes up first, however it is written (`files_are_added_once`).  A call
that finds nothing changes none of this.  The resolver may answer otherwise each time that it is asked.
-/

namespace Notebook.Capability
open Notebook.Guest Notebook.Artifact

/-! ## First occurrences -/

theorem nodup_eraseDups {α : Type} [BEq α] [LawfulBEq α] (as : List α) : as.eraseDups.Nodup := by
  induction as using List.reverseRecOn with
  | nil => exact List.nodup_nil
  | append_singleton as a ih =>
    rw [List.eraseDups_append]
    refine List.Nodup.append ih ?_ ?_
    · by_cases ha : a ∈ as <;> simp [List.removeAll, ha, List.eraseDups_cons]
    · intro b hb hnew
      simp only [List.mem_eraseDups, List.removeAll, List.mem_filter] at hb hnew
      simp [hb] at hnew

/-- The paths that do not come up before, however they are written there. -/
def firstPaths : List (List Char) → List (List Char)
  | [] => []
  | path :: rest => path :: (firstPaths rest).filter (components · ≠ components path)

theorem mem_map_components_firstPaths {paths : List (List Char)} {c : List Component} :
    c ∈ (firstPaths paths).map components ↔ c ∈ paths.map components := by
  induction paths with
  | nil => rfl
  | cons path rest ih =>
    have hrest : c ∈ ((firstPaths rest).filter (components · ≠ components path)).map components ↔
        c ∈ rest.map components ∧ c ≠ components path := by
      rw [← ih]
      simp only [List.mem_map, List.mem_filter, decide_eq_true_eq]
      grind
    rw [firstPaths, List.map_cons, List.map_cons, List.mem_cons, List.mem_cons, hrest]
    by_cases hc : c = components path <;> simp [hc]

theorem nodup_firstPaths (paths : List (List Char)) : ((firstPaths paths).map components).Nodup := by
  induction paths with
  | nil => exact List.nodup_nil
  | cons path rest ih =>
    rw [firstPaths, List.map_cons, List.nodup_cons]
    refine ⟨fun hmem => ?_, ih.sublist (List.filter_sublist.map _)⟩
    obtain ⟨other, hother, hsame⟩ := List.mem_map.1 hmem
    exact of_decide_eq_true (List.mem_filter.1 hother).2 hsame

theorem firstPaths_append (before paths : List (List Char)) :
    firstPaths (before ++ paths) =
      firstPaths before ++ (firstPaths paths).filter (components · ∉ before.map components) := by
  induction before with
  | nil => exact (List.filter_eq_self.2 fun path _ => decide_eq_true List.not_mem_nil).symm
  | cons path rest ih =>
    rw [List.cons_append, firstPaths, ih, List.filter_append, List.filter_filter, firstPaths, List.cons_append]
    -- of the second list, a path is left out if it is this one or comes up in the rest of the first
    congr 2
    refine List.filter_congr fun other _ => ?_
    simp only [List.map_cons, List.mem_cons, not_or, Bool.decide_and]

namespace Added

/-- Paths that have not been seen are the first ones of the others. -/
theorem newPaths_eq (seen : List (List Component)) (paths : List (List Char)) :
    newPaths seen paths = (firstPaths paths).filter (components · ∉ seen) := by
  induction paths generalizing seen with
  | nil => rfl
  | cons path rest ih =>
    rw [newPaths, firstPaths, List.filter_cons, List.filter_filter]
    by_cases hpath : components path ∈ seen
    · rw [if_pos hpath, if_neg (by simpa using hpath), ih]
      -- a path that is new is not this one
      refine List.filter_congr fun other _ => ?_
      rw [Bool.eq_iff_iff, Bool.and_eq_true, decide_eq_true_eq, decide_eq_true_eq]
      exact ⟨fun hother => ⟨hother, fun hsame => hother (hsame ▸ hpath)⟩, And.left⟩
    · rw [if_neg hpath, if_pos (by simpa using hpath), ih]
      congr 1
      refine List.filter_congr fun other _ => ?_
      simp only [List.mem_cons, not_or, Bool.decide_and]
      exact Bool.and_comm ..

theorem newPaths_congr {seen seen' : List (List Component)} (h : ∀ c, c ∈ seen ↔ c ∈ seen')
    (paths : List (List Char)) : newPaths seen paths = newPaths seen' paths := by
  rw [newPaths_eq, newPaths_eq]
  exact List.filter_congr fun path _ => decide_eq_decide.2 (not_congr (h _))

end Added

/-! ## What is found -/

/-- A request to add an artifact: how it is written, and what the resolver does at that time. -/
structure AddRequest where
  text : String
  resolve : Coordinate → Except Failure DependencyNode

namespace AddRequest

/-- The artifact that is asked for with its tree, or why there is none. -/
def outcome (r : AddRequest) : Except Failure (Coordinate × DependencyNode) := do
  let coordinate ← Coordinate.parse r.text.toList
  let tree ← r.resolve coordinate
  return (coordinate, tree)

/-- All that is found for requests. -/
def found (rs : List AddRequest) : List (Coordinate × DependencyNode) :=
  rs.filterMap (·.outcome.toOption)

end AddRequest

/-- The artifacts that have been found, each where it comes up first. -/
def coordinatesOf (found : List (Coordinate × DependencyNode)) : List Coordinate :=
  (found.map (·.1)).eraseDups

/-- The files of the trees that have been found, those of an artifact before those of what it needs, each
where it comes up first. -/
def pathsOf (found : List (Coordinate × DependencyNode)) : List (List Char) :=
  firstPaths (found.flatMap fun f => f.2.flatten.map (·.path))

theorem coordinatesOf_append (found : List (Coordinate × DependencyNode)) (f : Coordinate × DependencyNode) :
    coordinatesOf (found ++ [f]) =
      if f.1 ∈ coordinatesOf found then coordinatesOf found else coordinatesOf found ++ [f.1] := by
  unfold coordinatesOf
  rw [List.map_append, List.eraseDups_append]
  by_cases hf : f.1 ∈ found.map (·.1)
  · simp [List.mem_eraseDups, hf, List.removeAll]
  · simp [List.mem_eraseDups, hf, List.removeAll, List.eraseDups_cons]

theorem pathsOf_append (found : List (Coordinate × DependencyNode)) (f : Coordinate × DependencyNode) :
    pathsOf (found ++ [f]) =
      pathsOf found ++ Added.newPaths ((pathsOf found).map components) (f.2.flatten.map (·.path)) := by
  unfold pathsOf
  rw [List.flatMap_append, List.flatMap_singleton, firstPaths_append, ← Added.newPaths_eq]
  congr 1
  exact Added.newPaths_congr (fun _ => mem_map_components_firstPaths.symm) _

/-- What an instance keeps once this has been found. -/
def Added.ofFound (found : List (Coordinate × DependencyNode)) : Added := ⟨coordinatesOf found, pathsOf found⟩

theorem Added.add_ofFound (found : List (Coordinate × DependencyNode)) (r : AddRequest) :
    (Added.ofFound found).add r.resolve r.text.toList = r.outcome.map fun f =>
      (Added.newPaths ((pathsOf found).map components) (f.2.flatten.map (·.path)), Added.ofFound (found ++ [f])) := by
  unfold Added.add AddRequest.outcome
  cases Coordinate.parse r.text.toList with
  | error e => rfl
  | ok c =>
    cases htree : r.resolve c with
    | error e => simp [htree, bind, Except.bind, Except.map]
    | ok tree =>
      have hcoordinates := coordinatesOf_append found (c, tree)
      have hpaths := pathsOf_append found (c, tree)
      by_cases hc : c ∈ coordinatesOf found <;>
        simp [htree, bind, Except.bind, Except.map, pure, Except.pure, Added.ofFound, hcoordinates, hpaths, hc]

/-! ## Calls of the instance -/

/-- The value that a reply brings. -/
def replyValue? : HostReply → Option Value
  | .value v => some v
  | .error _ | .panic _ => none

namespace Host

theorem addedBy_put (h : Host) (identity : Nat) (a : Added) :
    addedBy { h with added := h.added.put identity a } identity = a := by
  simp [addedBy, Table.get?_put]

theorem call_add {h : Host} {object : HostObject} {resolve : Coordinate → Except Failure DependencyNode}
    (hservice : h.services[object.identity]? = some (.dependencies resolve)) (text : String) :
    h.call object "add" [.str text] =
      match (h.addedBy object.identity).add resolve text.toList with
      | .ok (new, added) =>
        (.value (Adding.texts new),
          { h with added := h.added.put object.identity added, demands := h.demands ++ new.map .library })
      | .error e => (.error e.message, h) := by
  unfold call
  rw [hservice]
  simp only [Adding.answer]
  cases (h.addedBy object.identity).add resolve text.toList with
  | ok answer => rfl
  | error e => rfl

variable (object : HostObject)

/-- Asks an instance to add an artifact. -/
def add (r : AddRequest) (h : Host) : HostReply × Host :=
  call object "add" [.str r.text]
    { h with services := h.services.set object.identity (.dependencies r.resolve) }

/-- Asks an instance to add one artifact after another. -/
def addEach : List AddRequest → Host → List HostReply × Host
  | [], h => ([], h)
  | r :: rs, h =>
    let (reply, h) := h.add object r
    let (replies, h) := addEach rs h
    (reply :: replies, h)

/-- The instance adds libraries, and it has added what was found. -/
structure HasAdded (found : List (Coordinate × DependencyNode)) (h : Host) : Prop where
  service : ∃ resolve, h.services[object.identity]? = some (.dependencies resolve)
  addedBy_eq : h.addedBy object.identity = .ofFound found

variable {object} {h : Host} {found : List (Coordinate × DependencyNode)}

theorem HasAdded.getElem?_set (hkept : h.HasAdded object found) (service : Service) :
    (h.services.set object.identity service)[object.identity]? = some service := by
  obtain ⟨_, hservice⟩ := hkept.service
  obtain ⟨hlt, -⟩ := List.getElem?_eq_some_iff.1 hservice
  exact List.getElem?_set_self hlt

theorem HasAdded.add_eq (hkept : h.HasAdded object found) (r : AddRequest) :
    h.add object r =
      let h := { h with services := h.services.set object.identity (.dependencies r.resolve) }
      match (Added.ofFound found).add r.resolve r.text.toList with
      | .ok (new, added) =>
        (.value (Adding.texts new),
          { h with added := h.added.put object.identity added, demands := h.demands ++ new.map .library })
      | .error e => (.error e.message, h) := by
  unfold add
  rw [call_add (hkept.getElem?_set _)]
  have hadded : addedBy { h with services := h.services.set object.identity (.dependencies r.resolve) }
      object.identity = .ofFound found := hkept.addedBy_eq
  rw [hadded]

/-- A request that finds nothing is refused and changes nothing. -/
theorem HasAdded.refused (hkept : h.HasAdded object found) {r : AddRequest} {e : Failure}
    (hfails : r.outcome = .error e) :
    (h.add object r).1 = .error e.message ∧ (h.add object r).2.demands = h.demands ∧
      (h.add object r).2.HasAdded object found := by
  have hadd : h.add object r = (.error e.message,
      { h with services := h.services.set object.identity (.dependencies r.resolve) }) := by
    rw [hkept.add_eq, Added.add_ofFound, hfails]
    rfl
  rw [hadd]
  exact ⟨rfl, rfl, ⟨r.resolve, hkept.getElem?_set _⟩, hkept.addedBy_eq⟩

/-- A request that finds a tree is answered with the files of it that have not come up. -/
theorem HasAdded.answered (hkept : h.HasAdded object found) {r : AddRequest}
    {f : Coordinate × DependencyNode} (hfinds : r.outcome = .ok f) :
    ∃ new, (h.add object r).1 = .value (Adding.texts new) ∧ pathsOf (found ++ [f]) = pathsOf found ++ new ∧
      (h.add object r).2.demands = h.demands ++ new.map .library ∧
      (h.add object r).2.HasAdded object (found ++ [f]) := by
  refine ⟨Added.newPaths ((pathsOf found).map components) (f.2.flatten.map (·.path)), ?_⟩
  rw [hkept.add_eq, Added.add_ofFound, hfinds]
  exact ⟨rfl, pathsOf_append found f, rfl, ⟨r.resolve, hkept.getElem?_set _⟩, addedBy_put ..⟩

/-- What requests in a row are answered and leave behind. -/
theorem HasAdded.run (hkept : h.HasAdded object found) (rs : List AddRequest) :
    ∃ news : List (List (List Char)),
      (h.addEach object rs).1.filterMap replyValue? = news.map Adding.texts ∧
      pathsOf (found ++ AddRequest.found rs) = pathsOf found ++ news.flatten ∧
      (h.addEach object rs).2.demands = h.demands ++ news.flatten.map .library ∧
      (h.addEach object rs).2.HasAdded object (found ++ AddRequest.found rs) := by
  induction rs generalizing h found with
  | nil =>
    have hnone : found ++ AddRequest.found [] = found := List.append_nil found
    rw [hnone]
    exact ⟨[], rfl, (List.append_nil _).symm, (List.append_nil _).symm, hkept⟩
  | cons r rs ih =>
    cases houtcome : r.outcome with
    | error e =>
      -- what is found is what the requests behind this one find
      obtain ⟨hreply, hdemands, hkept⟩ := hkept.refused houtcome
      obtain ⟨news, hvalues, hpaths, hrun, hend⟩ := ih hkept
      have hfound : AddRequest.found (r :: rs) = AddRequest.found rs := by
        simp [AddRequest.found, houtcome, Except.toOption]
      rw [hfound]
      refine ⟨news, ?_, hpaths, hdemands ▸ hrun, hend⟩
      simpa [addEach, hreply, List.filterMap_cons, replyValue?] using hvalues
    | ok f =>
      obtain ⟨new, hreply, hnew, hdemands, hkept⟩ := hkept.answered houtcome
      obtain ⟨news, hvalues, hpaths, hrun, hend⟩ := ih hkept
      have hfound : found ++ AddRequest.found (r :: rs) = found ++ [f] ++ AddRequest.found rs := by
        simp [AddRequest.found, houtcome, Except.toOption]
      rw [hfound]
      refine ⟨new :: news, ?_, ?_, ?_, hend⟩
      · simpa [addEach, hreply, replyValue?] using hvalues
      · rw [hpaths, hnew, List.flatten_cons, List.append_assoc]
      · rw [hdemands] at hrun
        simpa [addEach] using hrun

/-- The instance lists what has been asked for and found. -/
theorem HasAdded.listed (hkept : h.HasAdded object found) :
    (h.call object "list" []).1 = .value (Adding.texts ((coordinatesOf found).map (·.text))) := by
  obtain ⟨resolve, hservice⟩ := hkept.service
  unfold call
  rw [hservice, hkept.addedBy_eq]
  rfl

/-- Calls that add artifacts to an instance that is new. The lists that they answer with, the demands that
they leave and the files of the trees that were found, each where it comes up first, are the same; the
instance lists the artifacts that were found, each once. After any such calls a further one changes none of
this if it finds nothing. -/
theorem files_are_added_once (object : HostObject) (rs : List AddRequest) (h : Host)
    (hservice : ∃ resolve, h.services[object.identity]? = some (.dependencies resolve))
    (hnew : h.addedBy object.identity = {}) :
    let found := AddRequest.found rs
    let after := (h.addEach object rs).2
    (∃ news : List (List (List Char)),
        (h.addEach object rs).1.filterMap replyValue? = news.map Adding.texts ∧
        news.flatten = pathsOf found ∧ (news.flatten.map components).Nodup ∧
        after.demands = h.demands ++ news.flatten.map .library) ∧
      (after.call object "list" []).1 = .value (Adding.texts ((coordinatesOf found).map (·.text))) ∧
      (coordinatesOf found).Nodup ∧
      (∀ r f, r.outcome = .ok f → ∃ new, (after.add object r).1 = .value (Adding.texts new) ∧
        pathsOf (found ++ [f]) = pathsOf found ++ new ∧
        (after.add object r).2.demands = after.demands ++ new.map .library) ∧
      ∀ r e, r.outcome = .error e → (after.add object r).1 = .error e.message ∧
        (after.add object r).2.demands = after.demands ∧
        (after.add object r).2.addedBy object.identity = after.addedBy object.identity := by
  intro found after
  have hkept : h.HasAdded object [] := ⟨hservice, hnew⟩
  obtain ⟨news, hvalues, hpaths, hdemands, hafter⟩ := hkept.run rs
  have hflat : news.flatten = pathsOf found := hpaths.symm
  refine ⟨⟨news, hvalues, hflat, ?_, hdemands⟩, hafter.listed, nodup_eraseDups _, ?_, ?_⟩
  · rw [hflat]
    exact nodup_firstPaths _
  · intro r f hfinds
    obtain ⟨new, hreply, hnew, hleft, -⟩ := hafter.answered hfinds
    exact ⟨new, hreply, hnew, hleft⟩
  · intro r e hfails
    obtain ⟨hreply, hleft, hstill⟩ := hafter.refused hfails
    exact ⟨hreply, hleft, hstill.addedBy_eq.trans hafter.addedBy_eq.symm⟩

/-- Two artifacts that need the same one, whose file the second one writes in another way, and between them a text
that is no artifact. -/
theorem files_are_added_once_diamond :
    let shared (path : List Char) : DependencyNode := .mk ⟨['g'], ['c'], ['1']⟩ path []
    let tree (c : Coordinate) : DependencyNode :=
      .mk c c.artifact [shared (if c.artifact = ['a'] then "x/c".toList else "x//c/.".toList)]
    let resolve (c : Coordinate) : Except Failure DependencyNode := .ok (tree c)
    let object : HostObject := ⟨Adding.typeName, 0, Adding.methods⟩
    let h : Host := { services := [.dependencies resolve] }
    let rs : List AddRequest := [⟨"g:a:1", resolve⟩, ⟨"g:a", resolve⟩, ⟨" g:b:1", resolve⟩, ⟨"g:a:1", resolve⟩]
    (∃ resolve, h.services[object.identity]? = some (.dependencies resolve)) ∧
      h.addedBy object.identity = {} ∧
      pathsOf (AddRequest.found rs) = [['a'], "x/c".toList, ['b']] ∧
      (h.addEach object rs).2.demands = [.library ['a'], .library "x/c".toList, .library ['b']] := by
  intro shared tree resolve object h rs
  have hservice : ∃ resolve, h.services[object.identity]? = some (.dependencies resolve) := ⟨resolve, rfl⟩
  have hnew : h.addedBy object.identity = {} := rfl
  have hpaths : pathsOf (AddRequest.found rs) = [['a'], "x/c".toList, ['b']] := by
    decide +kernel
  obtain ⟨⟨news, -, hnews, -, hdemands⟩, -⟩ := files_are_added_once object rs h hservice hnew
  refine ⟨hservice, hnew, hpaths, ?_⟩
  rw [hdemands, hnews, hpaths]
  rfl

end Host

end Notebook.Capability

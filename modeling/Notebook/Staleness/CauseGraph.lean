import Notebook.Snippet
import Notebook.Table

/-!
Which snippet outdated which, and what a snippet outdated in the end. The snippets are nodes of a network
in which an arc leads from each cause to its effect.
-/
namespace Notebook

/-- Which way along the arcs of a network. -/
inductive Direction
  | forwards
  | backwards
  deriving DecidableEq, Repr

namespace Direction

variable {α : Type}

/-- The end of an arc at which one sets out. -/
def near (d : Direction) (arc : α × α) : α :=
  match d with
  | forwards => arc.1
  | backwards => arc.2

/-- The end of an arc to which one comes. -/
def far (d : Direction) (arc : α × α) : α :=
  match d with
  | forwards => arc.2
  | backwards => arc.1

end Direction

/-- Nodes and arcs between them. A node is known by its place among the nodes. -/
structure Network (α : Type) where
  nodes : List α := []
  /-- The places of both ends of each arc, the newest arc first. -/
  arcs : List (Nat × Nat) := []
  deriving DecidableEq, Repr

namespace Network

variable {α : Type}

/-- Adds a node. Its place comes along. -/
def addNode (n : Network α) (a : α) : Nat × Network α :=
  (n.nodes.length, { n with nodes := n.nodes ++ [a] })

/-- Whether an arc leads from one place to another. -/
def hasArc (n : Network α) (start stop : Nat) : Bool := n.arcs.contains (start, stop)

/-- Adds an arc. -/
def addArc (n : Network α) (start stop : Nat) : Network α := { n with arcs := (start, stop) :: n.arcs }

/-- The other ends of the arcs at a place, those of the newest arcs first. -/
def neighbours (n : Network α) (d : Direction) (place : Nat) : List Nat :=
  (n.arcs.filter (d.near · = place)).map d.far

end Network

/-- A network of snippets, no two of which are the same, and the place of each of them. -/
structure CauseGraph where
  network : Network SnippetId := {}
  places : Table SnippetId Nat := []
  deriving DecidableEq, Repr

namespace CauseGraph

/-- The place of a snippet. A snippet that has none is given one. -/
def place (g : CauseGraph) (id : SnippetId) : Nat × CauseGraph :=
  match g.places.get? id with
  | some place => (place, g)
  | none =>
    let (place, network) := g.network.addNode id
    (place, { network, places := g.places.put id place })

/-- Notes that a snippet outdated another one. It makes no difference to do so again. -/
def add (g : CauseGraph) (cause effect : SnippetId) : CauseGraph :=
  let (start, g) := g.place cause
  let (stop, g) := g.place effect
  if g.network.hasArc start stop then g else { g with network := g.network.addArc start stop }

/-- The snippets next to a snippet, those of the oldest arcs first. -/
def neighbours (g : CauseGraph) (d : Direction) (id : SnippetId) : List SnippetId :=
  match g.places.get? id with
  | none => []
  | some place => ((g.network.neighbours d place).filterMap (g.network.nodes[·]?)).reverse

/-- The snippets that outdated a snippet. -/
def causesOf (g : CauseGraph) (effect : SnippetId) : List SnippetId := g.neighbours .backwards effect

/-- The snippets that a snippet outdated. -/
def effectsOf (g : CauseGraph) (cause : SnippetId) : List SnippetId := g.neighbours .forwards cause

def edgeCount (g : CauseGraph) : Nat := g.network.arcs.length

/-- What is new in a list, each thing once. -/
def fresh (seen : List SnippetId) : List SnippetId → List SnippetId
  | [] => []
  | id :: ids => if id ∈ seen then fresh seen ids else id :: fresh (id :: seen) ids

/-- How many nodes have not been seen. -/
def unseen (g : CauseGraph) (seen : List SnippetId) : Nat :=
  (g.network.nodes.filter (· ∉ seen)).length

theorem unseen_congr (g : CauseGraph) {seen seen' : List SnippetId} (h : ∀ id, id ∈ seen ↔ id ∈ seen') :
    g.unseen seen = g.unseen seen' := by
  unfold unseen
  simp only [h]

theorem unseen_cons_lt {g : CauseGraph} {seen : List SnippetId} {id : SnippetId}
    (hid : id ∈ g.network.nodes) (hnew : id ∉ seen) : g.unseen (id :: seen) < g.unseen seen := by
  have hfilter : g.network.nodes.filter (· ∉ id :: seen) =
      (g.network.nodes.filter (· ∉ seen)).filter (· ≠ id) := by
    rw [List.filter_filter]
    refine List.filter_congr fun other _ => ?_
    simp only [List.mem_cons, not_or, Bool.decide_and, ne_eq]
  unfold unseen
  rw [hfilter, List.length_filter_lt_length_iff_exists]
  exact ⟨id, List.mem_filter.2 ⟨hid, decide_eq_true hnew⟩, by simp⟩

/-- When what is new has been seen, so many nodes less are left. -/
theorem unseen_fresh_le (g : CauseGraph) (seen : List SnippetId) {ids : List SnippetId}
    (hids : ∀ id ∈ ids, id ∈ g.network.nodes) :
    g.unseen (fresh seen ids ++ seen) + (fresh seen ids).length ≤ g.unseen seen := by
  induction ids generalizing seen with
  | nil => simp [fresh]
  | cons id ids ih =>
    obtain ⟨hid, hrest⟩ := List.forall_mem_cons.1 hids
    unfold fresh
    split
    · exact ih seen hrest
    · rename_i hnew
      have hsame : g.unseen (id :: fresh (id :: seen) ids ++ seen) =
          g.unseen (fresh (id :: seen) ids ++ id :: seen) :=
        g.unseen_congr fun other => by
          simp only [List.cons_append, List.mem_cons, List.mem_append]
          exact or_left_comm
      have hlater := ih (id :: seen) hrest
      have hless := unseen_cons_lt hid hnew
      rw [hsame, List.length_cons]
      omega

theorem mem_nodes_of_mem_neighbours {g : CauseGraph} {d : Direction} {id other : SnippetId}
    (h : other ∈ g.neighbours d id) : other ∈ g.network.nodes := by
  unfold neighbours at h
  split at h
  · exact absurd h List.not_mem_nil
  · obtain ⟨place, -, hplace⟩ := List.mem_filterMap.1 (List.mem_reverse.1 h)
    exact List.mem_of_getElem? hplace

/-- Goes on from the snippets in the queue. Whatever has not been seen is found, and put into the queue
in its turn. -/
def spread (g : CauseGraph) (seen found : List SnippetId) : List SnippetId → List SnippetId
  | [] => found
  | id :: queue =>
    let new := fresh seen (g.effectsOf id)
    spread g (new ++ seen) (found ++ new) (queue ++ new)
termination_by queue => g.unseen seen + queue.length
decreasing_by
  have h := g.unseen_fresh_le seen fun other (h : other ∈ g.effectsOf id) => mem_nodes_of_mem_neighbours h
  simp only [List.length_append, List.length_cons]
  omega

/-- All snippets that can be reached from a snippet, the nearest first, without the snippet itself. -/
def affectedBy (g : CauseGraph) (cause : SnippetId) : List SnippetId := g.spread [cause] [] [cause]

end CauseGraph

end Notebook

import OntologyGuard.Data.DistinctList
import OntologyGuard.Diagnostic
import OntologyGuard.Document

/-!
The subclass relation of an ontology: the direct edges in the order of their declaration, what they
reach, and the removal of edges that lie on a cycle.
-/

namespace OntologyGuard

structure Hierarchy where
  parents : OrderedMap Iri (List Iri) := .empty
  children : OrderedMap Iri (List Iri) := .empty
  deriving DecidableEq, Inhabited

namespace Hierarchy

def addNew (iri : Iri) (list : List Iri) : List Iri := if iri ∈ list then list else list ++ [iri]

def addClass (h : Hierarchy) (iri : Iri) : Hierarchy :=
  { h with parents := h.parents.update iri [] id }

def addEdge (h : Hierarchy) (parent child : Iri) : Hierarchy where
  children := h.children.update parent [] (addNew child)
  parents := h.parents.update child [] (addNew parent)

def addDescription (h : Hierarchy) (description : ClassDescription) : Hierarchy :=
  description.parents.foldl (fun h parent ↦ h.addEdge parent description.iri)
    (h.addClass description.iri)

def ofClasses (classes : List ClassDescription) : Hierarchy := classes.foldl addDescription {}

def parentsOf (h : Hierarchy) (iri : Iri) : List Iri := (h.parents.get? iri).getD []

def childrenOf (h : Hierarchy) (iri : Iri) : List Iri := (h.children.get? iri).getD []

def edges (h : Hierarchy) : List (Iri × Iri) :=
  h.children.entries.flatMap fun entry ↦ entry.2.map (entry.1, ·)

def edgeCount (h : Hierarchy) : Nat := h.edges.length

/-- Adds the frontier to what was seen, then what follows its new members, and so on until nothing
is new or the given number of rounds is over. Nearer classes come first. -/
def explore (next : Iri → List Iri) : Nat → DistinctList Iri → List Iri → DistinctList Iri
  | 0, seen, _ => seen
  | rounds + 1, seen, frontier =>
    let grown := seen.append frontier
    match grown.toList.drop seen.size with
    | [] => seen
    | fresh => explore next rounds grown (fresh.flatMap next)

/-- What one or more steps reach. Every round but the last reaches a new key of the map that the
steps are taken from. -/
def reach (steps : OrderedMap Iri (List Iri)) (start : Iri) : DistinctList Iri :=
  let next (iri : Iri) := (steps.get? iri).getD []
  explore next (steps.size + 2) .empty (next start)

def ancestors (h : Hierarchy) (iri : Iri) : List Iri :=
  (reach h.parents iri).toList.filter (· ≠ iri)

def isBelow (h : Hierarchy) (lower upper : Iri) : Bool := lower ∈ reach h.children upper

/-- An edge lies on a cycle when its parent is below its child. -/
def onCycle (h : Hierarchy) (parent child : Iri) : Bool :=
  parent = child || h.isBelow parent child

def cyclicEdges (h : Hierarchy) : List (Iri × Iri) :=
  h.edges.filter fun edge ↦ h.onCycle edge.1 edge.2

def cyclicClasses (h : Hierarchy) : DistinctList Iri :=
  .ofList (h.cyclicEdges.flatMap fun edge ↦ [edge.1, edge.2])

/-- The hierarchy without the edges that lie on a cycle, and a report on each class of one. -/
def breakCycles (h : Hierarchy) : Hierarchy × List Diagnostic :=
  let cyclic := h.cyclicEdges
  ({ children := h.children.mapValues fun parent children ↦
        children.filter fun child ↦ (parent, child) ∉ cyclic
     parents := h.parents.mapValues fun child parents ↦
        parents.filter fun parent ↦ (parent, child) ∉ cyclic },
    h.cyclicClasses.toList.map fun iri ↦
      { kind := .ontologyError
        message := "class is part of a subclass cycle"
        «class» := some iri })

end Hierarchy

end OntologyGuard

import OntologyGuard.Hierarchy
import OntologyGuard.Ontology.Definition

/-!
Constraints travel from classes to their subclasses, pass by pass, until a pass changes nothing. A
class without constraints takes a copy of its parent's; one with constraints takes the properties it
lacks and merges the others.
-/

namespace OntologyGuard

namespace ClassConstraints

/-- A child's constraints on the way through one merge, with what was found and how many properties
changed. -/
structure Merge where
  child : ClassConstraints
  diagnostics : List Diagnostic := []
  changes : Nat := 0

def mergeProperty (state : Merge) (entry : Iri × PropertyConstraints) : Merge :=
  match state.child.get? entry.1 with
  | some own =>
    let (merged, found) := own.mergeParent entry.2
    if merged.agrees own then { state with diagnostics := state.diagnostics ++ found }
    else
      { child := state.child.set entry.1 merged
        diagnostics := state.diagnostics ++ found
        changes := state.changes + 1 }
  | none =>
    { state with
      child := state.child.set entry.1 (entry.2.relabel state.child.class)
      changes := state.changes + 1 }

def mergeParent (child parent : ClassConstraints) : Merge :=
  parent.properties.entries.foldl mergeProperty { child }

end ClassConstraints

structure Inheritance.Pass where
  definitions : Definitions
  diagnostics : List Diagnostic := []
  changes : Nat := 0

structure Inheritance where
  definitions : Definitions
  diagnostics : List Diagnostic
  passes : Nat
  quiet : Bool

namespace Inheritance

namespace Pass

def inheritFrom (parent : ClassConstraints) (pass : Pass) (child : Iri) : Pass :=
  match pass.definitions.get? child with
  | some (.restricted own) =>
    let merge := own.mergeParent parent
    { definitions := pass.definitions.insert child (.restricted merge.child)
      diagnostics := pass.diagnostics ++ merge.diagnostics
      changes := pass.changes + merge.changes }
  | some (.datatype _) => pass
  | some .unconstrained | none =>
    { pass with
      definitions := pass.definitions.insert child (.restricted (parent.relabel child))
      changes := pass.changes + 1 }

/-- Hands the constraints of one class, as they are when its turn comes, to all its children. -/
def visit (pass : Pass) (edges : Iri × List Iri) : Pass :=
  match pass.definitions.get? edges.1 with
  | some (.restricted parent) => edges.2.foldl (inheritFrom parent) pass
  | _ => pass

def run (children : OrderedMap Iri (List Iri)) (definitions : Definitions) : Pass :=
  children.entries.foldl visit { definitions }

end Pass

def iterate (children : OrderedMap Iri (List Iri)) : Nat → Inheritance → Inheritance
  | 0, state => state
  | remaining + 1, state =>
    let pass := Pass.run children state.definitions
    let next : Inheritance :=
      { definitions := pass.definitions
        diagnostics := state.diagnostics ++ pass.diagnostics
        passes := state.passes + 1
        quiet := pass.changes = 0 }
    if next.quiet then next else iterate children remaining next

def unfinishedReport (passes : Nat) : Diagnostic where
  kind := .softwareBug
  message := "constraint inheritance did not converge after " ++ passes.repr ++ " passes"

/-- Lets the classes inherit, in at most the given number of passes. A run that ends otherwise than
by a quiet pass is reported. -/
def run (definitions : Definitions) (children : OrderedMap Iri (List Iri)) (maxPasses : Nat) :
    Inheritance :=
  let last := iterate children maxPasses
    { definitions, diagnostics := [], passes := 0, quiet := false }
  let found :=
    if last.quiet then last.diagnostics else last.diagnostics ++ [unfinishedReport last.passes]
  { last with diagnostics := Diagnostic.distinct found }

/-- More passes than any run over these definitions needs: each pass but the last fills one of three
fields of a class and property, or gives constraints to a class that has none. -/
def defaultMaxPasses (definitions : Definitions) : Nat :=
  let properties := DistinctList.ofList
    (definitions.restrictions.flatMap fun entry ↦ entry.2.properties.keys)
  definitions.size * (3 * properties.size + 1) + 2

end Inheritance

end OntologyGuard

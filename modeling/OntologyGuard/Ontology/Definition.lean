import OntologyGuard.Constraint.Datatype
import OntologyGuard.Constraint.Restriction
import OntologyGuard.Document

namespace OntologyGuard

inductive ClassDefinition where
  | restricted (constraints : ClassConstraints)
  | datatype (constraints : DatatypeConstraints)
  | unconstrained
  deriving DecidableEq, Inhabited

namespace ClassDefinition

def asRestricted? : ClassDefinition → Option ClassConstraints
  | restricted c => some c
  | _ => none

def asDatatype? : ClassDefinition → Option DatatypeConstraints
  | datatype d => some d
  | _ => none

def describe (definition : ClassDefinition) (context : Context) : String :=
  match definition with
  | restricted c => c.describe context
  | datatype d => d.describe
  | unconstrained => "Unconstrained"

def ofDescription (description : ClassDescription) : ClassDefinition × List Diagnostic :=
  match description.kind with
  | .owlClass =>
    let (constraints, found) := ClassConstraints.ofTriples description.iri description.triples
    (if constraints.properties.isEmpty then unconstrained else restricted constraints, found)
  | .datatype =>
    match DatatypeConstraints.ofTriples description.iri description.triples with
    | (some constraints, found) => (datatype constraints, found)
    | (none, found) => (unconstrained, found)
  | .other => (unconstrained, [])

end ClassDefinition

abbrev Definitions := OrderedMap Iri ClassDefinition

namespace Definitions

/-- The definitions that the classes give themselves; of two descriptions of a class the later one
counts. -/
def ofClasses (classes : List ClassDescription) : Definitions × List Diagnostic :=
  classes.foldl
    (fun state description ↦
      let (definition, found) := ClassDefinition.ofDescription description
      (state.1.insert description.iri definition, state.2 ++ found))
    (.empty, [])

def restrictions (definitions : Definitions) : List (Iri × ClassConstraints) :=
  definitions.entries.filterMap fun entry ↦ entry.2.asRestricted?.map (entry.1, ·)

end Definitions

end OntologyGuard

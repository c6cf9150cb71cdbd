import OntologyGuard.Ontology.PropertyRange

namespace OntologyGuard

abbrev AncestorTable := OrderedMap Iri (List Iri)

structure Ontology where
  bindings : List (String × String) := []
  definitions : Definitions := .empty
  propertyRanges : PropertyRanges := .empty
  /-- The classes and datatypes in whose place a value of each class may stand. -/
  ancestors : AncestorTable := .empty
  diagnostics : List Diagnostic := []
  deriving DecidableEq, Inhabited

namespace Ontology

def context (o : Ontology) : Context := .ofBindings o.bindings

def get? (o : Ontology) (iri : Iri) : Option ClassDefinition := o.definitions.get? iri

def classConstraints? (o : Ontology) (iri : Iri) : Option ClassConstraints :=
  (o.get? iri).bind ClassDefinition.asRestricted?

def datatypeConstraints? (o : Ontology) (iri : Iri) : Option DatatypeConstraints :=
  (o.get? iri).bind ClassDefinition.asDatatype?

def propertyRange? (o : Ontology) (property : Iri) : Option Iri :=
  (o.propertyRanges.get? property).bind id

def ancestorsOf (o : Ontology) (iri : Iri) : List Iri := (o.ancestors.get? iri).getD []

/-- Whether a value of one type may stand where another is expected. -/
def isCompatible (o : Ontology) (type expected : Iri) : Bool :=
  type = expected || (o.ancestorsOf type).contains expected

end Ontology

end OntologyGuard

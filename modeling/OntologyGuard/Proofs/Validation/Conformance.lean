import Mathlib.Data.Finset.Card
import OntologyGuard.Proofs.Validation.ValueType

/-!
What validation accepts, said of the triples of a graph and not of the program: one known class,
typed values, as many of them as the class asks for, of the ranges expected, and literals written as
their types demand.
-/

namespace OntologyGuard.Validator

/-- How many distinct values a property of a subject has; the class does not count as a value. -/
def valueCount (graph : DataGraph) (s : Term) (property : Iri) : Nat :=
  if property = Rdf.type then 0
  else (TripleIndex.objectsOf graph.triples s property).toFinset.card

/-- A number of values is within the bounds; no value at all is allowed for the identity property. -/
structure CountAllowed (config : ValidationConfig) (property : Iri) (own : PropertyConstraints)
    (n : Nat) : Prop where
  max : ∀ m, own.max = some m → n ≤ m.toNat
  min : ∀ m, own.min = some m → m.toNat ≤ n ∨ n = 0 ∧ config.identityProperty = some property

def OwnRange (definition : ClassDefinition) (property range : Iri) : Prop :=
  ∃ constraints own, definition = .restricted constraints ∧ constraints.get? property = some own ∧
    own.range = some range

/-- The range that a class sets itself, or else the one declared for the property. -/
def ExpectedRange (ontology : Ontology) (definition : ClassDefinition) (property range : Iri) :
    Prop :=
  OwnRange definition property range ∨
    (¬ ∃ own, OwnRange definition property own) ∧
      ontology.propertyRanges.get? property = some (some range)

inductive WellWritten (ontology : Ontology) (config : ValidationConfig) (lexical : String) :
    Iri → Prop where
  | ignored {type : Iri} (h : type ∈ config.ignoredDatatypes) :
    WellWritten ontology config lexical type
  | schema (type : Xsd.Datatype) (h : type.accepts lexical = true) :
    WellWritten ontology config lexical (Xsd.namespaceIri ++ type.localName)
  | vocabulary {type : Iri} {words : DatatypeConstraints}
    (outside : ¬ ∃ name, type = Xsd.namespaceIri ++ name)
    (defined : ontology.definitions.get? type = some (.datatype words))
    (h : lexical ∈ words.vocabulary.toList) : WellWritten ontology config lexical type

structure Conforms (ontology : Ontology) (config : ValidationConfig) (graph : DataGraph) (s : Term)
    («class» : Iri) (definition : ClassDefinition) : Prop where
  only : OnlyType graph s (.iri «class»)
  defined : ontology.definitions.get? «class» = some definition
  notDatatype : ∀ words, definition ≠ .datatype words
  typed : ∀ p o, p ≠ Rdf.type → ⟨s, p, o⟩ ∈ graph.triples → ∃ type, HasType ontology graph o type
  counts : ∀ constraints p own, definition = .restricted constraints →
    constraints.get? p = some own → CountAllowed config p own (valueCount graph s p)
  ranges : ∀ p o range, p ≠ Rdf.type → ⟨s, p, o⟩ ∈ graph.triples →
    ExpectedRange ontology definition p range →
    ∃ type, HasType ontology graph o type ∧ (type = range ∨ range ∈ ontology.ancestorsOf type)
  literals : ∀ p lexical datatype type, p ≠ Rdf.type →
    ⟨s, p, .literal ⟨lexical, some datatype⟩⟩ ∈ graph.triples →
    HasType ontology graph (.literal ⟨lexical, some datatype⟩) type →
    WellWritten ontology config lexical type

end OntologyGuard.Validator

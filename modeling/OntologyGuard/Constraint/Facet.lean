import OntologyGuard.Rdf.Vocabulary

namespace OntologyGuard

inductive CardinalityBound where
  | min
  | max
  | exact
  deriving DecidableEq, Inhabited

namespace CardinalityBound

def name : CardinalityBound → String
  | min => "min_cardinality"
  | max => "max_cardinality"
  | exact => "cardinality"

end CardinalityBound

inductive Facet where
  | cardinality (bound : CardinalityBound) (qualified : Bool) (n : UInt32)
  | range (iri : Iri)
  deriving DecidableEq, Inhabited

inductive Facet.Role where
  | cardinality (bound : CardinalityBound) (qualified : Bool)
  | range
  deriving DecidableEq

def Facet.Role.ofPredicate? (predicate : Iri) : Option Facet.Role :=
  if predicate = Owl.onDataRange ∨ predicate = Owl.onClass then some .range
  else if predicate = Owl.minCardinality then some (.cardinality .min false)
  else if predicate = Owl.maxCardinality then some (.cardinality .max false)
  else if predicate = Owl.cardinality then some (.cardinality .exact false)
  else if predicate = Owl.minQualifiedCardinality then some (.cardinality .min true)
  else if predicate = Owl.maxQualifiedCardinality then some (.cardinality .max true)
  else if predicate = Owl.qualifiedCardinality then some (.cardinality .exact true)
  else none

end OntologyGuard

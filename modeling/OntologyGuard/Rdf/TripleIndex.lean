import OntologyGuard.Data.DistinctList
import OntologyGuard.Data.OrderedMap
import OntologyGuard.Rdf.Term

/-!
Triples grouped by subject and predicate. Repeated triples count once, and every group is in the
order of first appearance.
-/

namespace OntologyGuard

abbrev ObjectSet := DistinctList Term

abbrev PredicateMap := OrderedMap Iri ObjectSet

structure TripleIndex where
  subjects : OrderedMap Term PredicateMap := .empty
  deriving DecidableEq, Inhabited

namespace TripleIndex

def insert (index : TripleIndex) (triple : Triple) : TripleIndex where
  subjects := index.subjects.update triple.subject .empty fun predicates ↦
    predicates.update triple.predicate .empty fun objects ↦ objects.push triple.object

def ofTriples (triples : List Triple) : TripleIndex := triples.foldl insert {}

def size (index : TripleIndex) : Nat := index.subjects.size

def get? (index : TripleIndex) (subject : Term) : Option PredicateMap :=
  index.subjects.get? subject

def objects? (index : TripleIndex) (subject : Term) (predicate : Iri) : Option ObjectSet :=
  (index.get? subject).bind (·.get? predicate)

end TripleIndex

end OntologyGuard

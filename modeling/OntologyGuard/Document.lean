import OntologyGuard.Rdf.TripleIndex

namespace OntologyGuard

inductive ClassKind where
  | owlClass
  | datatype
  | other
  deriving DecidableEq, Inhabited

structure ClassDescription where
  iri : Iri
  kind : ClassKind := .owlClass
  /-- The restrictions of a class, or the enumeration of a datatype. -/
  triples : List Triple := []
  parents : List Iri := []
  /-- All superclasses, nearest first, where the source lists them itself. -/
  ancestors : Option (List Iri) := none
  deriving DecidableEq, Inhabited

structure PropertyDescription where
  iri : Iri
  ranges : List Iri := []
  triples : List Triple := []
  deriving DecidableEq, Inhabited

structure OntologyDocument where
  bindings : List (String × String) := []
  classes : List ClassDescription := []
  properties : List PropertyDescription := []
  deriving DecidableEq, Inhabited

def OntologyDocument.merge (documents : List OntologyDocument) : OntologyDocument where
  bindings := documents.flatMap (·.bindings)
  classes := documents.flatMap (·.classes)
  properties := documents.flatMap (·.properties)

structure LineNumber where
  node : Term
  line : UInt32
  deriving DecidableEq, Inhabited

structure DataGraph where
  bindings : List (String × String) := []
  triples : List Triple := []
  lineNumbers : List LineNumber := []
  deriving DecidableEq, Inhabited

namespace DataGraph

def index (graph : DataGraph) : TripleIndex := .ofTriples graph.triples

def lines (graph : DataGraph) : OrderedMap Term UInt32 :=
  .ofList (graph.lineNumbers.map fun entry ↦ (entry.node, entry.line))

def sortedLines (graph : DataGraph) : List (Term × UInt32) :=
  graph.lines.entries.mergeSort fun a b ↦ a.1.precedes b.1

end DataGraph

end OntologyGuard

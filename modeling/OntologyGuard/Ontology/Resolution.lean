import OntologyGuard.Ontology.Basic
import OntologyGuard.Ontology.Inheritance

namespace OntologyGuard

structure ResolverConfig where
  /-- The namespaces whose classes accept plain strings as values. -/
  vocabularyNamespaces : List String :=
    [CyberOntology.sharedVocabularies, CyberOntology.caseVocabularies]
  /-- Pairs of a narrow and a wide type: the narrow one may stand for the wide one. -/
  numericWidening : List (Iri × Iri) := [(Xsd.integer, Xsd.long), (Xsd.decimal, Xsd.float)]
  /-- A limit on the passes of inheritance; without one it follows from the definitions. -/
  maxPasses : Option Nat := none
  deriving DecidableEq, Inhabited

namespace AncestorTable

def addAncestor (table : AncestorTable) (iri ancestor : Iri) : AncestorTable :=
  table.update iri [] (Hierarchy.addNew ancestor)

/-- The superclasses that each description lists itself, or else those of the hierarchy. -/
def ofClasses (hierarchy : Hierarchy) (classes : List ClassDescription) : AncestorTable :=
  .ofList (classes.map fun c ↦ (c.iri, c.ancestors.getD (hierarchy.ancestors c.iri)))

def vocabularyClasses (namespaces : List String) (classes : List ClassDescription) : List Iri :=
  (classes.filter fun c ↦ namespaces.any (Text.startsWith c.iri)).map (·.iri)

/-- The superclasses, the widening of numbers, and the vocabularies as superclasses of strings. -/
def build (config : ResolverConfig) (hierarchy : Hierarchy) (classes : List ClassDescription) :
    AncestorTable :=
  let widened := config.numericWidening.foldl (fun table pair ↦ table.addAncestor pair.1 pair.2)
    (ofClasses hierarchy classes)
  (vocabularyClasses config.vocabularyNamespaces classes).foldl
    (fun table iri ↦ table.addAncestor Xsd.string iri) widened

end AncestorTable

namespace Diagnostic

def iriPrecedes : Option Iri → Option Iri → Bool
  | none, _ => true
  | some _, none => false
  | some a, some b => a ≤ b

def sortBySubject (ds : List Diagnostic) : List Diagnostic :=
  ds.mergeSort fun a b ↦
    if a.class = b.class then iriPrecedes a.property b.property else iriPrecedes a.class b.class

end Diagnostic

/-- Resolves a document. The problems of all stages are listed once each, by class and property. -/
def Ontology.resolve (config : ResolverConfig) (document : OntologyDocument) : Ontology :=
  let context := Context.ofBindings document.bindings
  let (own, inOwn) := Definitions.ofClasses document.classes
  let (hierarchy, inHierarchy) := (Hierarchy.ofClasses document.classes).breakCycles
  let inheritance := Inheritance.run own hierarchy.children
    (config.maxPasses.getD (Inheritance.defaultMaxPasses own))
  let (ranges, inRanges) := PropertyRanges.ofProperties context document.properties
  let inconsistent := ranges.checkDefinitions context inheritance.definitions
  { bindings := document.bindings
    definitions := inheritance.definitions
    propertyRanges := ranges
    ancestors := .build config hierarchy document.classes
    diagnostics := Diagnostic.sortBySubject <| Diagnostic.distinct <|
      inOwn ++ inHierarchy ++ inheritance.diagnostics ++ inRanges ++ inconsistent }

end OntologyGuard

import OntologyGuard.Data.WordSet
import OntologyGuard.Diagnostic
import OntologyGuard.Rdf.TripleIndex
import OntologyGuard.Text.Quoted

namespace OntologyGuard

structure DatatypeConstraints where
  «class» : Iri
  vocabulary : WordSet := .empty
  deriving DecidableEq, Inhabited

namespace DatatypeConstraints

def validate (d : DatatypeConstraints) (value : String) : List Diagnostic :=
  if d.vocabulary.contains value then []
  else
    [{ kind := .constraintError
       message := "value \"" ++ value ++ "\" not in vocabulary "
        ++ Text.quotedSet d.vocabulary.toList
       «class» := some d.class }]

def describe (d : DatatypeConstraints) : String :=
  "VocabularyDatatypeConstraint: one of " ++ Text.quotedSet d.vocabulary.toList

inductive Fault where
  | noParent (triples : Nat)
  | severalParents (parents : List Term)
  | unknownForm (triples : Nat)
  | severalFirsts (firsts : List Term)

namespace Fault

def kind : Fault → Diagnostic.Kind
  | unknownForm _ => .unsupportedFeature
  | _ => .ontologyError

def message : Fault → String
  | noParent n => "No parent node in " ++ n.repr ++ " triples"
  | severalParents parents =>
    "Multiple parent nodes in triples: " ++ ", ".intercalate (parents.map Term.text)
  | unknownForm n => "Cannot figure out datatype for " ++ n.repr ++ " triples"
  | severalFirsts firsts =>
    "Multiple values for rdf:first in linked list: " ++ ", ".intercalate (firsts.map Term.text)

def report (fault : Fault) («class» : Iri) : Diagnostic where
  kind := fault.kind
  message := fault.message
  «class» := some «class»

end Fault

/-- Whether a subject is a subclass of `rdfs:Resource` alone and has an enumeration. -/
def isEnumeration (index : TripleIndex) (subject : Term) : Bool :=
  ((index.objects? subject Rdfs.subClassOf).bind (·.single?)).bind Term.asIri?
      = some Rdfs.resource
    && (index.objects? subject Owl.oneOf).any fun objects ↦ !objects.toList.isEmpty

/-- The first elements of the list cells. The cells are taken as they come, not from head to end. -/
def cells (index : TripleIndex) : List ObjectSet :=
  index.subjects.entries.filterMap fun entry ↦
    if entry.1.isBlank then entry.2.get? Rdf.first else none

/-- Reads an enumeration: one named node that is a subclass of `rdfs:Resource` and has a list of
values. -/
def ofTriples («class» : Iri) (triples : List Triple) :
    Option DatatypeConstraints × List Diagnostic :=
  let index := TripleIndex.ofTriples triples
  let refuse (fault : Fault) := (none, [fault.report «class»])
  match index.subjects.keys.filter fun subject ↦ !subject.isBlank with
  | [] => refuse (.noParent triples.length)
  | [parent] =>
    if isEnumeration index parent then
      let several := (cells index).filter fun objects ↦ 1 < objects.size
      if several.isEmpty then
        let words := (cells index).flatMap fun objects ↦ objects.toList.map Term.identifier
        (some { «class», vocabulary := .ofList words }, [])
      else (none, several.map fun objects ↦ (Fault.severalFirsts objects.toList).report «class»)
    else refuse (.unknownForm triples.length)
  | parents => refuse (.severalParents parents)

end DatatypeConstraints

end OntologyGuard

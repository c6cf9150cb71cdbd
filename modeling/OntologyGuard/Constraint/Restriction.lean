import OntologyGuard.Constraint.Class
import OntologyGuard.Rdf.TripleIndex
import OntologyGuard.Text.Blank
import OntologyGuard.Text.Numeral

/-!
Reading the constraints of a class from its restrictions. Each blank node describes one property:
its type is a restriction, it names the property, and every other predicate states a facet.
-/

namespace OntologyGuard

namespace Restriction

/-- What keeps a restriction node, or one predicate of it, from being read. -/
inductive Fault where
  | ambiguous (predicate : Iri) (objects : List Term)
  | unsupportedType (type : Option Term)
  | noProperty
  | rangeNotNamed (object : Term)
  | invalidCardinality (object : Term)
  | unsupportedPredicate (predicate : Iri)

namespace Fault

def kind : Fault → Diagnostic.Kind
  | unsupportedType _ | unsupportedPredicate _ => .unsupportedFeature
  | _ => .ontologyError

def message : Fault → String
  | ambiguous predicate objects =>
    "conflicting specification of " ++ predicate ++ " as ["
      ++ ", ".intercalate (objects.map Term.text) ++ "]"
  | unsupportedType type => "unsupported constraints type " ++ (type.map Term.text).getD "None"
  | noProperty => "constraints has no property value"
  | rangeNotNamed object => "value range " ++ object.text ++ " is not a named class"
  | invalidCardinality object => "invalid cardinality " ++ object.text
  | unsupportedPredicate predicate => "unsupported predicate " ++ predicate

def report (fault : Fault) («class» : Iri) (property : Option Iri) : Diagnostic where
  kind := fault.kind
  message := fault.message
  «class» := some «class»
  property := property

end Fault

def cardinality? (object : Term) : Option UInt32 :=
  object.asLiteral?.bind fun literal ↦ Text.word? (Text.trim literal.lexical.toList)

def facet (predicate : Iri) (object : Term) : Except Fault Facet :=
  match Facet.Role.ofPredicate? predicate with
  | none => .error (.unsupportedPredicate predicate)
  | some .range =>
    match object with
    | .iri range => .ok (.range range)
    | _ => .error (.rangeNotNamed object)
  | some (.cardinality bound qualified) =>
    match cardinality? object with
    | some n => .ok (.cardinality bound qualified n)
    | none => .error (.invalidCardinality object)

def fact? (node : PredicateMap) (predicate : Iri) : Option Term :=
  (node.get? predicate).bind (·.single?)

def facts (node : PredicateMap) : List (Iri × Term) :=
  node.entries.filterMap fun entry ↦ entry.2.single?.map (entry.1, ·)

def property? (node : PredicateMap) : Option Iri :=
  (fact? node Owl.onProperty).bind Term.asIri?

def ambiguities («class» : Iri) (node : PredicateMap) : List Diagnostic :=
  (node.entries.filter fun entry ↦ entry.2.single?.isNone).map fun entry ↦
    (Fault.ambiguous entry.1 entry.2.toList).report «class» (property? node)

def addFact («class» property : Iri) (state : PropertyConstraints × List Diagnostic)
    (fact : Iri × Term) : PropertyConstraints × List Diagnostic :=
  match facet fact.1 fact.2 with
  | .ok facet => (state.1.apply facet).map id (state.2 ++ ·)
  | .error fault => (state.1, state.2 ++ [fault.report «class» property])

def constraints («class» property : Iri) (node : PredicateMap) :
    PropertyConstraints × List Diagnostic :=
  let stated := (facts node).filter fun fact ↦ fact.1 ≠ Rdf.type ∧ fact.1 ≠ Owl.onProperty
  let (result, found) := stated.foldl (addFact «class» property) (.unset «class» property, [])
  (result, found ++ result.checkQualification)

def read («class» : Iri) (node : PredicateMap) :
    Option (Iri × PropertyConstraints) × List Diagnostic :=
  let ambiguous := ambiguities «class» node
  let type := fact? node Rdf.type
  if type.bind Term.asIri? ≠ some Owl.restriction then
    (none, ambiguous ++ [(Fault.unsupportedType type).report «class» (property? node)])
  else
    match property? node with
    | none => (none, ambiguous ++ [Fault.noProperty.report «class» none])
    | some property =>
      let (result, found) := constraints «class» property node
      (some (property, result), ambiguous ++ found)

end Restriction

namespace ClassConstraints

/-- Takes the restriction at one subject into the constraints; other subjects than blank nodes say
nothing about them. -/
def addSubject (state : ClassConstraints × List Diagnostic) (subject : Term × PredicateMap) :
    ClassConstraints × List Diagnostic :=
  if subject.1.isBlank then
    match Restriction.read state.1.class subject.2 with
    | (some (property, constraints), found) =>
      (state.1.set property constraints, state.2 ++ found)
    | (none, found) => (state.1, state.2 ++ found)
  else state

/-- The constraints that the restrictions among a class's triples state. Of two nodes about one
property the later one counts. -/
def ofTriples («class» : Iri) (triples : List Triple) : ClassConstraints × List Diagnostic :=
  (TripleIndex.ofTriples triples).subjects.entries.foldl addSubject ({ «class» }, [])

end ClassConstraints

end OntologyGuard

import OntologyGuard.Diagnostic
import OntologyGuard.Rdf.TripleIndex

/-!
The types of subjects and values. A literal has its datatype, a node the single type that the data
gives it.
-/

namespace OntologyGuard

inductive TypeFault where
  | noSubjectType (subject : Term)
  | subjectTypeNotIri (subject type : Term)
  | severalSubjectTypes (subject : Term) (types : List Term)
  | unboundQualifier (datatype : String)
  | unsupportedDatatype (datatype : String)
  | missingNode (value : Term)
  | noNodeType (value : Term)
  | severalNodeTypes (value : Term) (types : List Term)

namespace TypeFault

def message (fault : TypeFault) (context : Context) : String :=
  let name (term : Term) : String := context.format term.identifier
  let names (terms : List Term) : String := context.formatList (terms.map Term.identifier)
  match fault with
  | noSubjectType subject => subject.text ++ " has no ranges"
  | subjectTypeNotIri subject type =>
    subject.text ++ " has a type that is not an IRI: " ++ type.text
  | severalSubjectTypes subject types =>
    name subject ++ " has " ++ types.length.repr ++ " types: " ++ names types
  | unboundQualifier datatype => "unknown prefix in literal datatype " ++ datatype
  | unsupportedDatatype datatype => "unsupported datatype " ++ datatype
  | missingNode value => "malformed case data: missing link <" ++ value.identifier ++ ">"
  | noNodeType value =>
    "malformed case data: " ++ value.kindName ++ " " ++ name value ++ " has no datatypes"
  | severalNodeTypes value types =>
    "malformed case data: " ++ value.kindName ++ " " ++ name value ++ " has "
      ++ types.length.repr ++ " datatypes " ++ names types

def report (fault : TypeFault) (context : Context) : Diagnostic where
  kind := .dataError
  message := fault.message context

end TypeFault

namespace PredicateMap

def types (predicates : PredicateMap) : List Term :=
  ((predicates.get? Rdf.type).map (·.toList)).getD []

end PredicateMap

def subjectType (subject : Term) (predicates : PredicateMap) : Except TypeFault Iri :=
  match PredicateMap.types predicates with
  | [] => .error (.noSubjectType subject)
  | [.iri iri] => .ok iri
  | [type] => .error (.subjectTypeNotIri subject type)
  | types => .error (.severalSubjectTypes subject types)

def resolveDatatype (context : Context) (datatype : String) : Except TypeFault Iri :=
  if Text.startsWith datatype "http://" || Text.startsWith datatype "https://" then .ok datatype
  else
    match Text.splitOnce? ':' datatype with
    | none => .error (.unsupportedDatatype datatype)
    | some (qualifier, name) =>
      match context.namespace? qualifier with
      | some iri => .ok (iri ++ name)
      | none => .error (.unboundQualifier datatype)

def nodeType (index : TripleIndex) (node : Term) : Except TypeFault Iri :=
  match index.get? node with
  | none => .error (.missingNode node)
  | some predicates =>
    match PredicateMap.types predicates with
    | [] => .error (.noNodeType node)
    | [type] => .ok type.identifier
    | types => .error (.severalNodeTypes node types)

def valueType (index : TripleIndex) (context : Context) : Term → Except TypeFault Iri
  | .literal ⟨_, none⟩ => .ok Xsd.string
  | .literal ⟨_, some datatype⟩ => resolveDatatype context datatype
  | node => nodeType index node

end OntologyGuard

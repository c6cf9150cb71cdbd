import OntologyGuard.Ontology.Basic
import OntologyGuard.Validation.Report
import OntologyGuard.Validation.ValueType
import OntologyGuard.Xsd.Checker

/-!
Validating data graphs against an ontology. Each subject must have one known class and the number
and kinds of values that the class requires; literals must be written as their datatypes demand.
-/

namespace OntologyGuard

structure ValidationConfig where
  /-- A property that is never missing, even where it is required. -/
  identityProperty : Option Iri := some CyberOntology.objectId
  ignoredDatatypes : List Iri := [Xsd.base64Binary]
  deriving DecidableEq, Inhabited

/-- A validator keeps the checker of literals from one graph to the next. -/
structure Validator where
  ontology : Ontology
  config : ValidationConfig := {}
  checker : Xsd.Checker := {}

namespace Validator

abbrev TypedValue := Term × Option Iri

abbrev Observed := List (Iri × List TypedValue)

inductive Violation where
  | missing
  | tooFew (count : Nat) (min : UInt32)
  | tooMany (count : Nat) (max : UInt32)
  | wrongType (value : Term) (type : Option Iri) (expected : Iri)

def Violation.message (context : Context) : Violation → String
  | missing => "data is missing required property"
  | tooFew count min =>
    "property has " ++ count.repr ++ " values but must have at least " ++ min.toNat.repr
  | tooMany count max =>
    "property has " ++ count.repr ++ " values but must have at most " ++ max.toNat.repr
  | wrongType value type expected =>
    "property's value " ++ value.text ++ " is a " ++ (type.map context.format).getD "None"
      ++ " but must be a " ++ context.format expected

def Violation.report (context : Context) (property : Iri) (violation : Violation) : Diagnostic where
  kind := .constraintError
  message := violation.message context
  property := some property

/-- Hands the state of each step to the next and collects what the steps find. -/
def collect {σ α : Type} (step : σ → α → List Diagnostic × σ) : σ → List α → List Diagnostic × σ
  | state, [] => ([], state)
  | state, item :: rest =>
    let (found, state) := step state item
    let (more, state) := collect step state rest
    (found ++ more, state)

def observe (index : TripleIndex) (context : Context) (predicates : PredicateMap) : Observed :=
  (predicates.entries.filter fun entry ↦ entry.1 ≠ Rdf.type).map fun (property, objects) ↦
    (property, objects.toList.map fun value ↦ (value, (valueType index context value).toOption))

def untypedValues (index : TripleIndex) (context : Context) (predicates : PredicateMap) :
    List Diagnostic :=
  (predicates.entries.filter fun entry ↦ entry.1 ≠ Rdf.type).flatMap fun (_, objects) ↦
    objects.toList.flatMap fun value ↦
      match valueType index context value with
      | .ok _ => []
      | .error fault => [fault.report context]

def missing (config : ValidationConfig) (constraints : ClassConstraints) (observed : Observed) :
    List Iri :=
  constraints.required.filter fun property ↦
    config.identityProperty ≠ some property && !(observed.map Prod.fst).contains property

def countViolations (constraints : PropertyConstraints) (count : Nat) : List Violation :=
  ((constraints.min.filter (count < ·.toNat)).map (Violation.tooFew count)).toList
    ++ ((constraints.max.filter (·.toNat < count)).map (Violation.tooMany count)).toList

def checkCardinality (config : ValidationConfig) (context : Context)
    (constraints : ClassConstraints) (observed : Observed) : List Diagnostic :=
  (missing config constraints observed).map (Violation.missing.report context)
    ++ observed.flatMap fun (property, values) ↦
      match constraints.get? property with
      | none => []
      | some bounds => (countViolations bounds values.length).map (Violation.report context property)

/-- The range for a property: the class's own, or else the declared one. -/
def expectedRange? (ontology : Ontology) (constraints : Option ClassConstraints) (property : Iri) :
    Option Iri :=
  ((constraints.bind (·.get? property)).bind (·.range)).or (ontology.propertyRange? property)

def checkRanges (ontology : Ontology) (context : Context) (constraints : Option ClassConstraints)
    (observed : Observed) : List Diagnostic :=
  observed.flatMap fun (property, values) ↦
    match expectedRange? ontology constraints property with
    | none => []
    | some expected =>
      (values.filter fun value ↦ !value.2.any (ontology.isCompatible · expected)).map fun value ↦
        (Violation.wrongType value.1 value.2 expected).report context property

/-- Checks how a literal of a given type is written. Plain strings and ignored datatypes may be
anything. -/
def checkLiteral (ontology : Ontology) (config : ValidationConfig) (checker : Xsd.Checker)
    (value : Term) (type : Iri) : List Diagnostic × Xsd.Checker :=
  match value with
  | .literal ⟨lexical, some _⟩ =>
    if config.ignoredDatatypes.contains type then ([], checker)
    else if Text.startsWith type Xsd.namespaceIri then checker.validate lexical type
    else
      match ontology.datatypeConstraints? type with
      | some constraints => (constraints.validate lexical, checker)
      | none =>
        ([{ kind := .unsupportedFeature
            message := "Literal has unrecognized datatype: " ++ value.text }], checker)
  | _ => ([], checker)

def checkValues (ontology : Ontology) (config : ValidationConfig) (checker : Xsd.Checker)
    (entry : Iri × List TypedValue) : List Diagnostic × Xsd.Checker :=
  collect
    (fun checker value ↦
      match value.2 with
      | none => ([], checker)
      | some type =>
        let (found, checker) := checkLiteral ontology config checker value.1 type
        (found.map fun d ↦ { d with property := some entry.1 }, checker))
    checker entry.2

def datatypeAsClass : Diagnostic where
  kind := .unsupportedFeature
  message := "expected ClassConstraints, found DatatypeConstraints"

def checkSubject (ontology : Ontology) (config : ValidationConfig) (context : Context)
    (index : TripleIndex) (checker : Xsd.Checker) (definition : ClassDefinition)
    (predicates : PredicateMap) : List Diagnostic × Xsd.Checker :=
  let observed := observe index context predicates
  let constraints := definition.asRestricted?
  let inLiterals := collect (checkValues ontology config) checker observed
  (untypedValues index context predicates
      ++ (if definition.asDatatype?.isSome then [datatypeAsClass] else [])
      ++ ((constraints.map fun own ↦ checkCardinality config context own observed).getD [])
      ++ checkRanges ontology context constraints observed
      ++ inLiterals.1,
    inLiterals.2)

def validateSubject (ontology : Ontology) (config : ValidationConfig) (context : Context)
    (index : TripleIndex) (checker : Xsd.Checker) (subject : Term × PredicateMap) :
    List Diagnostic × Xsd.Checker :=
  match subjectType subject.1 subject.2 with
  | .error fault => ([fault.report context], checker)
  | .ok «class» =>
    match ontology.get? «class» with
    | none =>
      ([{ kind := .dataError, message := "class not in ontology", «class» := some «class» }],
        checker)
    | some definition =>
      let (found, checker) :=
        checkSubject ontology config context index checker definition subject.2
      (found.map fun d ↦ { d with «class» := some «class» }, checker)

def contextFor (ontology : Ontology) (graph : DataGraph) : Context :=
  ontology.context.populate graph.bindings

/-- Validates a graph. The diagnostics are in the order of their lines. -/
def validate (v : Validator) (graph : DataGraph) : Report × Validator :=
  let context := contextFor v.ontology graph
  let index := graph.index
  let lines := graph.lines
  let (found, checker) :=
    collect
      (fun checker subject ↦
        let (found, checker) :=
          validateSubject v.ontology v.config context index checker subject
        (found.map fun d ↦ { d with line := lines.get? subject.1 }, checker))
      v.checker index.subjects.entries
  ({ subjects := index.size, diagnostics := Diagnostic.sortByLine found }, { v with checker })

def validateAll (v : Validator) : List DataGraph → List Report
  | [] => []
  | graph :: rest =>
    let (report, v) := v.validate graph
    report :: v.validateAll rest

end Validator

end OntologyGuard

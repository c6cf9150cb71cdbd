import OntologyGuard.Ontology.Definition

namespace OntologyGuard

abbrev PropertyRanges := OrderedMap Iri (Option Iri)

namespace PropertyRanges

def ofDescription (context : Context) (description : PropertyDescription) :
    Option Iri × List Diagnostic :=
  let report (kind : Diagnostic.Kind) (message : String) : Diagnostic :=
    { kind, message, property := some description.iri }
  match (DistinctList.ofList description.ranges).toList with
  | [] =>
    (none,
      [if description.triples.any (·.predicate == Rdfs.range) then
        report .unsupportedFeature "Property has unsupported property type"
      else report .ontologyError "Property has no ranges"])
  | [range] => (some range, [])
  | ranges =>
    (none,
      [report .ontologyError
        ("Property has " ++ ranges.length.repr ++ " ranges " ++ context.formatList ranges)])

/-- The ranges of all properties; of two descriptions of a property the later one counts. -/
def ofProperties (context : Context) (properties : List PropertyDescription) :
    PropertyRanges × List Diagnostic :=
  properties.foldl
    (fun state description ↦
      let (range, found) := ofDescription context description
      (state.1.insert description.iri range, state.2 ++ found))
    (.empty, [])

/-- Compares the range that a class sets for a property with the declared one. -/
def check (ranges : PropertyRanges) (context : Context) («class» property : Iri)
    (constraints : PropertyConstraints) : List Diagnostic :=
  let report (message : String) : Diagnostic :=
    { kind := .ontologyError, message, «class» := some «class», property := some property }
  match constraints.range with
  | none => []
  | some range =>
    match ranges.get? property with
    | none =>
      [report ("property " ++ context.format property ++ " missing from ontology property list")]
    | some (some declared) =>
      if declared = range then []
      else
        [report ("owl subclass constraint " ++ context.format range
          ++ " does not match explicit property constraint " ++ context.format declared)]
    | some none => []

def checkDefinitions (ranges : PropertyRanges) (context : Context) (definitions : Definitions) :
    List Diagnostic :=
  definitions.restrictions.flatMap fun («class», constraints) ↦
    constraints.properties.entries.flatMap fun (property, own) ↦
      ranges.check context «class» property own

end PropertyRanges

end OntologyGuard

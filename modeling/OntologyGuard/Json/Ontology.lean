import OntologyGuard.Json.Document
import OntologyGuard.Ontology.Basic
import OntologyGuard.Validation.Report

namespace OntologyGuard

open Json (Fields)

namespace OrderedMap

variable {ν : Type}

def toJson (encode : ν → Json) (m : OrderedMap String ν) : Json :=
  .record (m.entries.map fun entry ↦ (entry.1, encode entry.2))

def ofJson? (read : Json → Option ν) (json : Json) : Option (OrderedMap String ν) := do
  let members ← json.asMembers?
  let entries ← members.mapM fun member ↦ (read member.2).map (member.1, ·)
  return .ofList entries

end OrderedMap

namespace PropertyConstraints

def toJson (c : PropertyConstraints) : Json :=
  let number (n : UInt32) : Json := .nat n.toNat
  .record [("class_iri", .option .text c.class), ("property_iri", .option .text c.property),
    ("min_cardinality", .option number c.min), ("max_cardinality", .option number c.max),
    ("value_range", .option .text c.range), ("qualified", .option .bool c.qualified)]

def ofJson? (json : Json) : Option PropertyConstraints := do
  let fields ← Fields.ofJson?
    ["class_iri", "property_iri", "min_cardinality", "max_cardinality", "value_range", "qualified"]
    json
  return {
    «class» := ← fields.nullable? "class_iri" Json.asText?
    property := ← fields.nullable? "property_iri" Json.asText?
    min := ← fields.nullable? "min_cardinality" Json.asWord?
    max := ← fields.nullable? "max_cardinality" Json.asWord?
    range := ← fields.nullable? "value_range" Json.asText?
    qualified := ← fields.nullable? "qualified" Json.asBool? }

end PropertyConstraints

namespace ClassConstraints

def toJson (c : ClassConstraints) : Json :=
  .record [("class_iri", .text c.class),
    ("properties", c.properties.toJson PropertyConstraints.toJson)]

def ofJson? (json : Json) : Option ClassConstraints := do
  let fields ← Fields.ofJson? ["class_iri", "properties"] json
  return {
    «class» := ← fields.required? "class_iri" Json.asText?
    properties := ← fields.required? "properties"
      (OrderedMap.ofJson? PropertyConstraints.ofJson?) }

end ClassConstraints

namespace DatatypeConstraints

def toJson (d : DatatypeConstraints) : Json :=
  .record [("class_iri", .text d.class), ("vocabulary", .list .text d.vocabulary.toList)]

def ofJson? (json : Json) : Option DatatypeConstraints := do
  let fields ← Fields.ofJson? ["class_iri", "vocabulary"] json
  return {
    «class» := ← fields.required? "class_iri" Json.asText?
    vocabulary := .ofList (← fields.required? "vocabulary" (Json.asList? Json.asText?)) }

end DatatypeConstraints

namespace ClassDefinition

def toJson : ClassDefinition → Json
  | restricted c => .record [("Restricted", c.toJson)]
  | datatype d => .record [("Datatype", d.toJson)]
  | unconstrained => .text "Unconstrained"

def ofJson? : Json → Option ClassDefinition
  | .object [(some "Restricted", json)] => (ClassConstraints.ofJson? json).map restricted
  | .object [(some "Datatype", json)] => (DatatypeConstraints.ofJson? json).map datatype
  | json => if json.asName? = some "Unconstrained" then some unconstrained else none

end ClassDefinition

namespace Ontology

def toJson (o : Ontology) : Json :=
  .record [("bindings", Bindings.toJson o.bindings),
    ("class_definitions", o.definitions.toJson ClassDefinition.toJson),
    ("property_ranges", o.propertyRanges.toJson (.option .text)),
    ("ancestor_classes", o.ancestors.toJson (.list .text)),
    ("diagnostics", .list Diagnostic.toJson o.diagnostics)]

def ofJson? (json : Json) : Option Ontology := do
  let fields ← Fields.ofJson?
    ["bindings", "class_definitions", "property_ranges", "ancestor_classes", "diagnostics"] json
  return {
    bindings := ← fields.required? "bindings" Bindings.ofJson?
    definitions := ← fields.required? "class_definitions"
      (OrderedMap.ofJson? ClassDefinition.ofJson?)
    propertyRanges := ← fields.required? "property_ranges"
      (OrderedMap.ofJson? (Json.asOption? Json.asText?))
    ancestors := ← fields.required? "ancestor_classes"
      (OrderedMap.ofJson? (Json.asList? Json.asText?))
    diagnostics := ← fields.required? "diagnostics" (Json.asList? Diagnostic.ofJson?) }

end Ontology

def Report.toJson (r : Report) : Json :=
  .record [("subjects", .nat r.subjects), ("diagnostics", .list Diagnostic.toJson r.diagnostics)]

end OntologyGuard

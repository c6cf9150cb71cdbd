import OntologyGuard.Diagnostic
import OntologyGuard.Document
import OntologyGuard.Json.Fields

namespace OntologyGuard

open Json (Fields)

namespace Literal

def toJson (l : Literal) : Json :=
  .record [("lexical", .text l.lexical), ("datatype", .option .text l.datatype)]

def ofJson? (json : Json) : Option Literal := do
  let fields ← Fields.ofJson? ["lexical", "datatype"] json
  return {
    lexical := ← fields.required? "lexical" Json.asText?
    datatype := ← fields.orDefault? "datatype" none (Json.asOption? Json.asText?) }

end Literal

namespace Term

def toJson : Term → Json
  | iri i => .record [("iri", .text i)]
  | blank label => .record [("blank_node", .text label)]
  | literal l => .record [("literal", l.toJson)]

def ofJson? : Json → Option Term
  | .object [(some "iri", json)] => json.asText?.map iri
  | .object [(some "blank_node", json)] => json.asText?.map blank
  | .object [(some "literal", json)] => (Literal.ofJson? json).map literal
  | _ => none

end Term

namespace Triple

def toJson (t : Triple) : Json :=
  .record [("subject", t.subject.toJson), ("predicate", .text t.predicate),
    ("object", t.object.toJson)]

def ofJson? (json : Json) : Option Triple := do
  let fields ← Fields.ofJson? ["subject", "predicate", "object"] json
  return {
    subject := ← fields.required? "subject" Term.ofJson?
    predicate := ← fields.required? "predicate" Json.asText?
    object := ← fields.required? "object" Term.ofJson? }

end Triple

namespace Diagnostic

def Kind.ofJson? (json : Json) : Option Kind := json.asName?.bind Kind.ofName?

def toJson (d : Diagnostic) : Json :=
  .record [("kind", .text d.kind.name), ("message", .text d.message),
    ("class_iri", .option .text d.class), ("property_iri", .option .text d.property),
    ("line_number", .option (fun n ↦ .nat n.toNat) d.line)]

def ofJson? (json : Json) : Option Diagnostic := do
  let fields ←
    Fields.ofJson? ["kind", "message", "class_iri", "property_iri", "line_number"] json
  return {
    kind := ← fields.required? "kind" Kind.ofJson?
    message := ← fields.required? "message" Json.asText?
    «class» := ← fields.nullable? "class_iri" Json.asText?
    property := ← fields.nullable? "property_iri" Json.asText?
    line := ← fields.nullable? "line_number" Json.asWord? }

end Diagnostic

abbrev Bindings := List (String × String)

namespace Bindings

def toJson (bindings : Bindings) : Json :=
  .list (fun binding ↦ .array [.text binding.1, .text binding.2]) bindings

def ofJson? : Json → Option Bindings := Json.asList? (Json.asPair? Json.asText? Json.asText?)

end Bindings

namespace ClassKind

def name : ClassKind → String
  | owlClass => "owl_class"
  | datatype => "datatype"
  | other => "other"

def ofName? : String → Option ClassKind
  | "owl_class" => some owlClass
  | "datatype" => some datatype
  | "other" => some other
  | _ => none

def ofJson? (json : Json) : Option ClassKind := json.asName?.bind ofName?

end ClassKind

namespace ClassDescription

def toJson (c : ClassDescription) : Json :=
  .record [("iri", .text c.iri), ("kind", .text c.kind.name),
    ("triples", .list Triple.toJson c.triples), ("parents", .list .text c.parents),
    ("ancestors", .option (.list .text) c.ancestors)]

def ofJson? (json : Json) : Option ClassDescription := do
  let fields ← Fields.ofJson? ["iri", "kind", "triples", "parents", "ancestors"] json
  return {
    iri := ← fields.required? "iri" Json.asText?
    kind := ← fields.orDefault? "kind" .owlClass ClassKind.ofJson?
    triples := ← fields.orDefault? "triples" [] (Json.asList? Triple.ofJson?)
    parents := ← fields.orDefault? "parents" [] (Json.asList? Json.asText?)
    ancestors := ← fields.orDefault? "ancestors" none
      (Json.asOption? (Json.asList? Json.asText?)) }

end ClassDescription

namespace PropertyDescription

def toJson (p : PropertyDescription) : Json :=
  .record [("iri", .text p.iri), ("ranges", .list .text p.ranges),
    ("triples", .list Triple.toJson p.triples)]

def ofJson? (json : Json) : Option PropertyDescription := do
  let fields ← Fields.ofJson? ["iri", "ranges", "triples"] json
  return {
    iri := ← fields.required? "iri" Json.asText?
    ranges := ← fields.orDefault? "ranges" [] (Json.asList? Json.asText?)
    triples := ← fields.orDefault? "triples" [] (Json.asList? Triple.ofJson?) }

end PropertyDescription

namespace OntologyDocument

def toJson (d : OntologyDocument) : Json :=
  .record [("bindings", Bindings.toJson d.bindings),
    ("classes", .list ClassDescription.toJson d.classes),
    ("properties", .list PropertyDescription.toJson d.properties)]

def ofJson? (json : Json) : Option OntologyDocument := do
  let fields ← Fields.ofJson? ["bindings", "classes", "properties"] json
  return {
    bindings := ← fields.orDefault? "bindings" [] Bindings.ofJson?
    classes := ← fields.orDefault? "classes" [] (Json.asList? ClassDescription.ofJson?)
    properties := ← fields.orDefault? "properties" [] (Json.asList? PropertyDescription.ofJson?) }

end OntologyDocument

namespace LineNumber

def toJson (l : LineNumber) : Json :=
  .record [("node", l.node.toJson), ("line", .nat l.line.toNat)]

def ofJson? (json : Json) : Option LineNumber := do
  let fields ← Fields.ofJson? ["node", "line"] json
  return {
    node := ← fields.required? "node" Term.ofJson?
    line := ← fields.required? "line" Json.asWord? }

end LineNumber

namespace DataGraph

def toJson (g : DataGraph) : Json :=
  .record [("bindings", Bindings.toJson g.bindings), ("triples", .list Triple.toJson g.triples),
    ("line_numbers", .list LineNumber.toJson g.lineNumbers)]

def ofJson? (json : Json) : Option DataGraph := do
  let fields ← Fields.ofJson? ["bindings", "triples", "line_numbers"] json
  return {
    bindings := ← fields.orDefault? "bindings" [] Bindings.ofJson?
    triples := ← fields.orDefault? "triples" [] (Json.asList? Triple.ofJson?)
    lineNumbers := ← fields.orDefault? "line_numbers" [] (Json.asList? LineNumber.ofJson?) }

end DataGraph

end OntologyGuard

import OntologyGuard.Proofs.Json.Document

namespace OntologyGuard

open Json (Form RoundTrips)

namespace Diagnostic

namespace Kind

def form (kind : Kind) : Form := .text kind.name

theorem roundTrips : RoundTrips form (fun kind ↦ .text kind.name) ofJson? :=
  RoundTrips.exactly (fun kind : Kind ↦ Json.spelled_text kind.name) fun kind ↦ by cases kind <;> rfl

end Kind

def form (d : Diagnostic) : Form :=
  .record [.required "kind" Kind.form d.kind, .required "message" .text d.message,
    .nullable "class_iri" .text d.class, .nullable "property_iri" .text d.property,
    .nullable "line_number" .word d.line]

theorem roundTrips : RoundTrips form toJson ofJson? where
  allows d := ⟨_, rfl, .present (Kind.roundTrips.allows d.kind)
    (.present (RoundTrips.text.allows d.message)
    (.present (RoundTrips.optionalText.allows d.class)
    (.present (RoundTrips.optionalText.allows d.property)
    (.present (RoundTrips.optionalWord.allows d.line) .nil))))⟩
  reads d json h := by
    refine Form.read_record h rfl (by decide) fun members ⟨hkind, hmessage, hclass, hproperty, hline⟩ ↦ ?_
    simp [Kind.roundTrips.required? hkind, RoundTrips.text.required? hmessage,
      RoundTrips.optionalText.nullable? hclass, RoundTrips.optionalText.nullable? hproperty,
      RoundTrips.optionalWord.nullable? hline]

end Diagnostic

namespace PropertyConstraints

def form (c : PropertyConstraints) : Form :=
  .record [.nullable "class_iri" .text c.class, .nullable "property_iri" .text c.property,
    .nullable "min_cardinality" .word c.min, .nullable "max_cardinality" .word c.max,
    .nullable "value_range" .text c.range, .nullable "qualified" .bool c.qualified]

theorem roundTrips : RoundTrips form toJson ofJson? where
  allows c := ⟨_, rfl, .present (RoundTrips.optionalText.allows c.class)
    (.present (RoundTrips.optionalText.allows c.property)
    (.present (RoundTrips.optionalWord.allows c.min)
    (.present (RoundTrips.optionalWord.allows c.max)
    (.present (RoundTrips.optionalText.allows c.range)
    (.present (RoundTrips.optionalBool.allows c.qualified) .nil)))))⟩
  reads c json h := by
    refine Form.read_record h rfl (by decide) fun members
      ⟨hclass, hproperty, hmin, hmax, hrange, hqualified⟩ ↦ ?_
    simp [RoundTrips.optionalText.nullable? hclass, RoundTrips.optionalText.nullable? hproperty,
      RoundTrips.optionalWord.nullable? hmin, RoundTrips.optionalWord.nullable? hmax,
      RoundTrips.optionalText.nullable? hrange, RoundTrips.optionalBool.nullable? hqualified]

end PropertyConstraints

namespace ClassConstraints

def form (c : ClassConstraints) : Form :=
  .record [.required "class_iri" .text c.class,
    .required "properties" (.entries PropertyConstraints.form) c.properties]

theorem roundTrips : RoundTrips form toJson ofJson? where
  allows c := ⟨_, rfl, .present (RoundTrips.text.allows c.class)
    (.present (PropertyConstraints.roundTrips.entries.allows c.properties) .nil)⟩
  reads c json h := by
    refine Form.read_record h rfl (by decide) fun members ⟨hclass, hproperties⟩ ↦ ?_
    simp [RoundTrips.text.required? hclass, PropertyConstraints.roundTrips.entries.required? hproperties]

end ClassConstraints

namespace DatatypeConstraints

def form (d : DatatypeConstraints) : Form :=
  .record [.required "class_iri" .text d.class, .required "vocabulary" (.list .text) d.vocabulary.toList]

theorem roundTrips : RoundTrips form toJson ofJson? where
  allows d := ⟨_, rfl, .present (RoundTrips.text.allows d.class)
    (.present (RoundTrips.text.list.allows d.vocabulary.toList) .nil)⟩
  reads d json h := by
    refine Form.read_record h rfl (by decide) fun members ⟨hclass, hvocabulary⟩ ↦ ?_
    simp [RoundTrips.text.required? hclass, RoundTrips.text.list.required? hvocabulary,
      WordSet.ofList_toList]

end DatatypeConstraints

namespace ClassDefinition

def form : ClassDefinition → Form
  | restricted c => .tagged "Restricted" c.form
  | datatype d => .tagged "Datatype" d.form
  | unconstrained => .text "Unconstrained"

theorem roundTrips : RoundTrips form toJson ofJson? where
  allows definition := by
    cases definition with
    | restricted c => exact ⟨_, rfl, ClassConstraints.roundTrips.allows c⟩
    | datatype d => exact ⟨_, rfl, DatatypeConstraints.roundTrips.allows d⟩
    | unconstrained => exact RoundTrips.text.allows "Unconstrained"
  reads definition json h := by
    cases definition with
    | restricted c => exact ClassConstraints.roundTrips.read_tagged h fun _ ↦ rfl
    | datatype d => exact DatatypeConstraints.roundTrips.read_tagged h fun _ ↦ rfl
    | unconstrained =>
      rw [show json = .text "Unconstrained" from h]
      rfl

end ClassDefinition

namespace Ontology

def form (o : Ontology) : Form :=
  .record [.required "bindings" Bindings.form o.bindings,
    .required "class_definitions" (.entries ClassDefinition.form) o.definitions,
    .required "property_ranges" (.entries (.option .text)) o.propertyRanges,
    .required "ancestor_classes" (.entries (.list .text)) o.ancestors,
    .required "diagnostics" (.list Diagnostic.form) o.diagnostics]

theorem roundTrips : RoundTrips form toJson ofJson? where
  allows o := ⟨_, rfl, .present (Bindings.roundTrips.allows o.bindings)
    (.present (ClassDefinition.roundTrips.entries.allows o.definitions)
    (.present (RoundTrips.optionalText.entries.allows o.propertyRanges)
    (.present (RoundTrips.text.list.entries.allows o.ancestors)
    (.present (Diagnostic.roundTrips.list.allows o.diagnostics) .nil))))⟩
  reads o json h := by
    refine Form.read_record h rfl (by decide) fun members
      ⟨hbindings, hdefinitions, hranges, hancestors, hdiagnostics⟩ ↦ ?_
    simp [Bindings.roundTrips.required? hbindings,
      ClassDefinition.roundTrips.entries.required? hdefinitions,
      RoundTrips.optionalText.entries.required? hranges,
      RoundTrips.text.list.entries.required? hancestors,
      Diagnostic.roundTrips.list.required? hdiagnostics]

end Ontology

namespace Json

/-- Resolved ontologies, documents and data graphs are read back from their text as they were. Of the
last two, fields may be left out of any record in the text where they hold their default. -/
theorem readsAs_of_written :
    (∀ o : Ontology, o.toJson.ReadsAs Ontology.ofJson? o) ∧
    (∀ d : OntologyDocument, d.toJson.ReadsAs OntologyDocument.ofJson? d ∧
      ∀ json, d.form.Allows json → json.ReadsAs OntologyDocument.ofJson? d) ∧
    ∀ g : DataGraph, g.toJson.ReadsAs DataGraph.ofJson? g ∧
      ∀ json, g.form.Allows json → json.ReadsAs DataGraph.ofJson? g := by
  refine ⟨fun o ↦ ?_, fun d ↦ ⟨?_, fun json hjson ↦ ?_⟩, fun g ↦ ⟨?_, fun json hjson ↦ ?_⟩⟩
  · exact Ontology.roundTrips.readsAs (Ontology.roundTrips.allows o)
  · exact OntologyDocument.roundTrips.readsAs (OntologyDocument.roundTrips.allows d)
  · exact OntologyDocument.roundTrips.readsAs hjson
  · exact DataGraph.roundTrips.readsAs (DataGraph.roundTrips.allows g)
  · exact DataGraph.roundTrips.readsAs hjson

def plainTriple : Triple := ⟨.iri "s", "p", .literal { lexical := "a" }⟩

def plainTripleJson : Json :=
  .record [("subject", .record [("iri", .text "s")]), ("predicate", .text "p"),
    ("object", .record [("literal", .record [("lexical", .text "a")])])]

theorem allows_plainTripleJson : plainTriple.form.Allows plainTripleJson := by
  have hliteral : (Literal.form { lexical := "a" }).Allows (.record [("lexical", .text "a")]) :=
    ⟨_, rfl, .present rfl (.omitted rfl .nil)⟩
  exact ⟨_, rfl, .present ⟨_, rfl, rfl⟩ (.present rfl (.present ⟨_, rfl, hliteral⟩ .nil))⟩

/-- One class with one triple, and a graph with that triple, both without the fields they leave at
their defaults. -/
theorem readsAs_of_plainTriple :
    (Json.record [("classes", .array [.record [("iri", .text "c"),
      ("triples", .array [plainTripleJson])]])]).ReadsAs OntologyDocument.ofJson?
        { classes := [{ iri := "c", triples := [plainTriple] }] } ∧
    (Json.record [("triples", .array [plainTripleJson])]).ReadsAs DataGraph.ofJson?
      { triples := [plainTriple] } := by
  have htriples : (Form.list Triple.form [plainTriple]).Allows (.array [plainTripleJson]) :=
    ⟨_, rfl, .cons allows_plainTripleJson .nil⟩
  have hclass : (ClassDescription.form { iri := "c", triples := [plainTriple] }).Allows
      (.record [("iri", .text "c"), ("triples", .array [plainTripleJson])]) :=
    ⟨_, rfl, .present rfl (.omitted rfl (.present htriples (.omitted rfl (.omitted rfl .nil))))⟩
  have hclasses : (Form.list ClassDescription.form [{ iri := "c", triples := [plainTriple] }]).Allows
      (.array [.record [("iri", .text "c"), ("triples", .array [plainTripleJson])]]) :=
    ⟨_, rfl, .cons hclass .nil⟩
  exact ⟨(readsAs_of_written.2.1 _).2 _ ⟨_, rfl, .omitted rfl (.present hclasses (.omitted rfl .nil))⟩,
    (readsAs_of_written.2.2 _).2 _ ⟨_, rfl, .omitted rfl (.present htriples (.omitted rfl .nil))⟩⟩

end Json

end OntologyGuard

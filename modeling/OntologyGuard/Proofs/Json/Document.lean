import OntologyGuard.Proofs.Json.Form

namespace OntologyGuard

open Json (Form RoundTrips)

namespace Literal

def form (l : Literal) : Form :=
  .record [.required "lexical" .text l.lexical, .orDefault "datatype" none (.option .text) l.datatype]

theorem roundTrips : RoundTrips form toJson ofJson? where
  allows l := ⟨_, rfl, .present (RoundTrips.text.allows l.lexical)
    (.present (RoundTrips.optionalText.allows l.datatype) .nil)⟩
  reads l json h := by
    refine Form.read_record h rfl (by decide) fun members ⟨hlexical, hdatatype⟩ ↦ ?_
    simp [RoundTrips.text.required? hlexical, RoundTrips.optionalText.orDefault? hdatatype]

end Literal

namespace Term

def form : Term → Form
  | iri i => .tagged "iri" (.text i)
  | blank label => .tagged "blank_node" (.text label)
  | literal l => .tagged "literal" l.form

theorem roundTrips : RoundTrips form toJson ofJson? where
  allows t := by
    cases t with
    | iri i => exact ⟨_, rfl, RoundTrips.text.allows i⟩
    | blank label => exact ⟨_, rfl, RoundTrips.text.allows label⟩
    | literal l => exact ⟨_, rfl, Literal.roundTrips.allows l⟩
  reads t json h := by
    cases t with
    | iri i => exact RoundTrips.text.read_tagged h fun _ ↦ rfl
    | blank label => exact RoundTrips.text.read_tagged h fun _ ↦ rfl
    | literal l => exact Literal.roundTrips.read_tagged h fun _ ↦ rfl

end Term

namespace Triple

def form (t : Triple) : Form :=
  .record [.required "subject" Term.form t.subject, .required "predicate" .text t.predicate,
    .required "object" Term.form t.object]

theorem roundTrips : RoundTrips form toJson ofJson? where
  allows t := ⟨_, rfl, .present (Term.roundTrips.allows t.subject)
    (.present (RoundTrips.text.allows t.predicate) (.present (Term.roundTrips.allows t.object) .nil))⟩
  reads t json h := by
    refine Form.read_record h rfl (by decide) fun members ⟨hsubject, hpredicate, hobject⟩ ↦ ?_
    simp [Term.roundTrips.required? hsubject, RoundTrips.text.required? hpredicate,
      Term.roundTrips.required? hobject]

end Triple

namespace Bindings

theorem spelled_binding (binding : String × String) :
    Json.Spelled (.array [.text binding.1, .text binding.2]) :=
  ⟨rfl, rfl, trivial⟩

def form : Bindings → Form := .list fun binding ↦ .exactly _ (spelled_binding binding)

theorem roundTrips : RoundTrips form toJson ofJson? :=
  RoundTrips.list (RoundTrips.exactly spelled_binding fun _ ↦ rfl)

end Bindings

namespace ClassKind

def form (kind : ClassKind) : Form := .text kind.name

theorem roundTrips : RoundTrips form (fun kind ↦ .text kind.name) ofJson? :=
  RoundTrips.exactly (fun kind : ClassKind ↦ Json.spelled_text kind.name) fun kind ↦ by cases kind <;> rfl

end ClassKind

namespace ClassDescription

def form (c : ClassDescription) : Form :=
  .record [.required "iri" .text c.iri, .orDefault "kind" .owlClass ClassKind.form c.kind,
    .orDefault "triples" [] (.list Triple.form) c.triples, .orDefault "parents" [] (.list .text) c.parents,
    .orDefault "ancestors" none (.option (.list .text)) c.ancestors]

theorem roundTrips_ancestors : RoundTrips (Form.option (.list .text)) (.option (.list .text))
    (Json.asOption? (Json.asList? Json.asText?)) :=
  RoundTrips.text.list.option fun _ ⟨_, heq, _⟩ ↦ by cases heq

theorem roundTrips : RoundTrips form toJson ofJson? where
  allows c := ⟨_, rfl, .present (RoundTrips.text.allows c.iri)
    (.present (ClassKind.roundTrips.allows c.kind)
    (.present (Triple.roundTrips.list.allows c.triples)
    (.present (RoundTrips.text.list.allows c.parents)
    (.present (roundTrips_ancestors.allows c.ancestors) .nil))))⟩
  reads c json h := by
    refine Form.read_record h rfl (by decide) fun members ⟨hiri, hkind, htriples, hparents, hancestors⟩ ↦ ?_
    simp [RoundTrips.text.required? hiri, ClassKind.roundTrips.orDefault? hkind,
      Triple.roundTrips.list.orDefault? htriples, RoundTrips.text.list.orDefault? hparents,
      roundTrips_ancestors.orDefault? hancestors]

end ClassDescription

namespace PropertyDescription

def form (p : PropertyDescription) : Form :=
  .record [.required "iri" .text p.iri, .orDefault "ranges" [] (.list .text) p.ranges,
    .orDefault "triples" [] (.list Triple.form) p.triples]

theorem roundTrips : RoundTrips form toJson ofJson? where
  allows p := ⟨_, rfl, .present (RoundTrips.text.allows p.iri)
    (.present (RoundTrips.text.list.allows p.ranges)
    (.present (Triple.roundTrips.list.allows p.triples) .nil))⟩
  reads p json h := by
    refine Form.read_record h rfl (by decide) fun members ⟨hiri, hranges, htriples⟩ ↦ ?_
    simp [RoundTrips.text.required? hiri, RoundTrips.text.list.orDefault? hranges,
      Triple.roundTrips.list.orDefault? htriples]

end PropertyDescription

namespace OntologyDocument

def form (d : OntologyDocument) : Form :=
  .record [.orDefault "bindings" [] Bindings.form d.bindings,
    .orDefault "classes" [] (.list ClassDescription.form) d.classes,
    .orDefault "properties" [] (.list PropertyDescription.form) d.properties]

theorem roundTrips : RoundTrips form toJson ofJson? where
  allows d := ⟨_, rfl, .present (Bindings.roundTrips.allows d.bindings)
    (.present (ClassDescription.roundTrips.list.allows d.classes)
    (.present (PropertyDescription.roundTrips.list.allows d.properties) .nil))⟩
  reads d json h := by
    refine Form.read_record h rfl (by decide) fun members ⟨hbindings, hclasses, hproperties⟩ ↦ ?_
    simp [Bindings.roundTrips.orDefault? hbindings, ClassDescription.roundTrips.list.orDefault? hclasses,
      PropertyDescription.roundTrips.list.orDefault? hproperties]

end OntologyDocument

namespace LineNumber

def form (l : LineNumber) : Form :=
  .record [.required "node" Term.form l.node, .required "line" .word l.line]

theorem roundTrips : RoundTrips form toJson ofJson? where
  allows l := ⟨_, rfl, .present (Term.roundTrips.allows l.node)
    (.present (RoundTrips.word.allows l.line) .nil)⟩
  reads l json h := by
    refine Form.read_record h rfl (by decide) fun members ⟨hnode, hline⟩ ↦ ?_
    simp [Term.roundTrips.required? hnode, RoundTrips.word.required? hline]

end LineNumber

namespace DataGraph

def form (g : DataGraph) : Form :=
  .record [.orDefault "bindings" [] Bindings.form g.bindings,
    .orDefault "triples" [] (.list Triple.form) g.triples,
    .orDefault "line_numbers" [] (.list LineNumber.form) g.lineNumbers]

theorem roundTrips : RoundTrips form toJson ofJson? where
  allows g := ⟨_, rfl, .present (Bindings.roundTrips.allows g.bindings)
    (.present (Triple.roundTrips.list.allows g.triples)
    (.present (LineNumber.roundTrips.list.allows g.lineNumbers) .nil))⟩
  reads g json h := by
    refine Form.read_record h rfl (by decide) fun members ⟨hbindings, htriples, hlines⟩ ↦ ?_
    simp [Bindings.roundTrips.orDefault? hbindings, Triple.roundTrips.list.orDefault? htriples,
      LineNumber.roundTrips.list.orDefault? hlines]

end DataGraph

end OntologyGuard

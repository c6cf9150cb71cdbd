import OntologyGuard.Binary.Ontology
import OntologyGuard.Proofs.Binary.Codec

namespace OntologyGuard

open Binary (Codec)

theorem Literal.codec_lawful : Literal.codec.Lawful :=
  (Codec.Lawful.text.pair Codec.Lawful.text.option).map fun _ ↦ rfl

theorem Term.codec_lawful : Term.codec.Lawful := by
  refine .choice (by decide) fun t ↦ ?_
  cases t with
  | iri i => exact ⟨_, rfl, Codec.Lawful.text.reading Term.iri i⟩
  | blank label => exact ⟨_, rfl, Codec.Lawful.text.reading Term.blank label⟩
  | literal l => exact ⟨_, rfl, Literal.codec_lawful.reading Term.literal l⟩

theorem Triple.codec_lawful : Triple.codec.Lawful :=
  (Term.codec_lawful.pair (Codec.Lawful.text.pair Term.codec_lawful)).map fun _ ↦ rfl

theorem LineNumber.codec_lawful : LineNumber.codec.Lawful :=
  (Term.codec_lawful.pair .word).map fun _ ↦ rfl

theorem Binary.bindings_lawful : Binary.bindings.Lawful :=
  (Codec.Lawful.text.pair .text).list

theorem DataGraph.codec_lawful : DataGraph.codec.Lawful :=
  (Binary.bindings_lawful.pair
    (Triple.codec_lawful.list.pair LineNumber.codec_lawful.list)).map fun _ ↦ rfl

theorem Diagnostic.Kind.codec_lawful : Diagnostic.Kind.codec.Lawful := by
  refine .choice (by decide) fun kind ↦ ⟨Codec.constant kind, ?_, fun _ _ ↦ rfl⟩
  cases kind <;> rfl

theorem Diagnostic.codec_lawful : Diagnostic.codec.Lawful :=
  (Diagnostic.Kind.codec_lawful.pair (Codec.Lawful.text.pair (Codec.Lawful.text.option.pair
    (Codec.Lawful.text.option.pair Codec.Lawful.word.option)))).map fun _ ↦ rfl

theorem PropertyConstraints.codec_lawful : PropertyConstraints.codec.Lawful :=
  (Codec.Lawful.text.option.pair (Codec.Lawful.text.option.pair (Codec.Lawful.word.option.pair
    (Codec.Lawful.word.option.pair (Codec.Lawful.text.option.pair
      (Codec.Lawful.flag .invalidBool).option))))).map fun _ ↦ rfl

theorem ClassConstraints.codec_lawful : ClassConstraints.codec.Lawful :=
  (Codec.Lawful.text.pair (.orderedMap .text PropertyConstraints.codec_lawful)).map fun _ ↦ rfl

theorem DatatypeConstraints.codec_lawful : DatatypeConstraints.codec.Lawful := by
  refine (Codec.Lawful.text.pair Codec.Lawful.text.list).map fun d ↦ ?_
  simp only [WordSet.ofList_toList]

theorem ClassDefinition.codec_lawful : ClassDefinition.codec.Lawful := by
  refine .choice (by decide) fun definition ↦ ?_
  cases definition with
  | restricted c => exact ⟨_, rfl, ClassConstraints.codec_lawful.reading ClassDefinition.restricted c⟩
  | datatype d => exact ⟨_, rfl, DatatypeConstraints.codec_lawful.reading ClassDefinition.datatype d⟩
  | unconstrained => exact ⟨_, rfl, fun _ _ ↦ rfl⟩

theorem Ontology.codec_lawful : Ontology.codec.Lawful :=
  (Binary.bindings_lawful.pair ((Codec.Lawful.orderedMap .text ClassDefinition.codec_lawful).pair
    ((Codec.Lawful.orderedMap .text Codec.Lawful.text.option).pair
      ((Codec.Lawful.orderedMap .text Codec.Lawful.text.list).pair
        Diagnostic.codec_lawful.list)))).map fun _ ↦ rfl

end OntologyGuard

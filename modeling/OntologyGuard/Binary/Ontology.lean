import OntologyGuard.Binary.Document
import OntologyGuard.Ontology.Basic

namespace OntologyGuard

open Binary (Codec)

def PropertyConstraints.codec : Codec PropertyConstraints :=
  (Codec.text.option.pair (Codec.text.option.pair (Codec.word.option.pair
      (Codec.word.option.pair (Codec.text.option.pair Codec.bool.option))))).map
    (fun c ↦ (c.class, c.property, c.min, c.max, c.range, c.qualified))
    fun (c, p, min, max, r, q) ↦ ⟨c, p, min, max, r, q⟩

def ClassConstraints.codec : Codec ClassConstraints :=
  (Codec.text.pair (Codec.orderedMap Codec.text PropertyConstraints.codec)).map
    (fun c ↦ (c.class, c.properties)) fun (c, p) ↦ ⟨c, p⟩

def DatatypeConstraints.codec : Codec DatatypeConstraints :=
  (Codec.text.pair Codec.text.list).map
    (fun d ↦ (d.class, d.vocabulary.toList)) fun (c, words) ↦ ⟨c, .ofList words⟩

def ClassDefinition.codec : Codec ClassDefinition :=
  .choice
    (fun
      | .restricted _ => 0
      | .datatype _ => 1
      | .unconstrained => 2)
    (fun
      | .restricted c => ClassConstraints.codec.write c
      | .datatype d => DatatypeConstraints.codec.write d
      | .unconstrained => [])
    [ClassConstraints.codec.reading .restricted, DatatypeConstraints.codec.reading .datatype,
      Codec.constant .unconstrained]

def Ontology.codec : Codec Ontology :=
  (Binary.bindings.pair ((Codec.orderedMap Codec.text ClassDefinition.codec).pair
      ((Codec.orderedMap Codec.text Codec.text.option).pair
        ((Codec.orderedMap Codec.text Codec.text.list).pair Diagnostic.codec.list)))).map
    (fun o ↦ (o.bindings, o.definitions, o.propertyRanges, o.ancestors, o.diagnostics))
    fun (b, d, r, a, f) ↦ ⟨b, d, r, a, f⟩

end OntologyGuard

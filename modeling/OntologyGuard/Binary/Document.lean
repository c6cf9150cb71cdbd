import OntologyGuard.Binary.Codec
import OntologyGuard.Diagnostic
import OntologyGuard.Document

namespace OntologyGuard

open Binary (Codec)

def Literal.codec : Codec Literal :=
  (Codec.text.pair Codec.text.option).map (fun l ↦ (l.lexical, l.datatype)) fun (l, d) ↦ ⟨l, d⟩

def Term.codec : Codec Term :=
  .choice
    (fun
      | .iri _ => 0
      | .blank _ => 1
      | .literal _ => 2)
    (fun
      | .iri i => Codec.text.write i
      | .blank label => Codec.text.write label
      | .literal l => Literal.codec.write l)
    [Codec.text.reading .iri, Codec.text.reading .blank, Literal.codec.reading .literal]

def Triple.codec : Codec Triple :=
  (Term.codec.pair (Codec.text.pair Term.codec)).map
    (fun t ↦ (t.subject, t.predicate, t.object)) fun (s, p, o) ↦ ⟨s, p, o⟩

def LineNumber.codec : Codec LineNumber :=
  (Term.codec.pair Codec.word).map (fun l ↦ (l.node, l.line)) fun (n, l) ↦ ⟨n, l⟩

namespace Binary

def bindings : Codec (List (String × String)) := (Codec.text.pair Codec.text).list

end Binary

def DataGraph.codec : Codec DataGraph :=
  (Binary.bindings.pair (Triple.codec.list.pair LineNumber.codec.list)).map
    (fun g ↦ (g.bindings, g.triples, g.lineNumbers)) fun (b, t, l) ↦ ⟨b, t, l⟩

namespace Diagnostic

def Kind.codec : Codec Kind :=
  .choice Kind.index (fun _ ↦ []) (Kind.all.map Codec.constant)

def codec : Codec Diagnostic :=
  (Kind.codec.pair (Codec.text.pair (Codec.text.option.pair
      (Codec.text.option.pair Codec.word.option)))).map
    (fun d ↦ (d.kind, d.message, d.class, d.property, d.line))
    fun (k, m, c, p, l) ↦ ⟨k, m, c, p, l⟩

end Diagnostic

end OntologyGuard

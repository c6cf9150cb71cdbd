import OntologyGuard.Rdf.Term

namespace OntologyGuard

namespace Rdf
def namespaceIri : Iri := "http://www.w3.org/1999/02/22-rdf-syntax-ns#"
def type : Iri := "http://www.w3.org/1999/02/22-rdf-syntax-ns#type"
def first : Iri := "http://www.w3.org/1999/02/22-rdf-syntax-ns#first"
def rest : Iri := "http://www.w3.org/1999/02/22-rdf-syntax-ns#rest"
def nil : Iri := "http://www.w3.org/1999/02/22-rdf-syntax-ns#nil"
end Rdf

namespace Rdfs
def namespaceIri : Iri := "http://www.w3.org/2000/01/rdf-schema#"
def subClassOf : Iri := "http://www.w3.org/2000/01/rdf-schema#subClassOf"
def resource : Iri := "http://www.w3.org/2000/01/rdf-schema#Resource"
def range : Iri := "http://www.w3.org/2000/01/rdf-schema#range"
end Rdfs

namespace Owl
def namespaceIri : Iri := "http://www.w3.org/2002/07/owl#"
def restriction : Iri := "http://www.w3.org/2002/07/owl#Restriction"
def onProperty : Iri := "http://www.w3.org/2002/07/owl#onProperty"
def onClass : Iri := "http://www.w3.org/2002/07/owl#onClass"
def onDataRange : Iri := "http://www.w3.org/2002/07/owl#onDataRange"
def minCardinality : Iri := "http://www.w3.org/2002/07/owl#minCardinality"
def maxCardinality : Iri := "http://www.w3.org/2002/07/owl#maxCardinality"
def cardinality : Iri := "http://www.w3.org/2002/07/owl#cardinality"
def minQualifiedCardinality : Iri := "http://www.w3.org/2002/07/owl#minQualifiedCardinality"
def maxQualifiedCardinality : Iri := "http://www.w3.org/2002/07/owl#maxQualifiedCardinality"
def qualifiedCardinality : Iri := "http://www.w3.org/2002/07/owl#qualifiedCardinality"
def oneOf : Iri := "http://www.w3.org/2002/07/owl#oneOf"
end Owl

namespace Xsd
def namespaceIri : Iri := "http://www.w3.org/2001/XMLSchema#"
def string : Iri := "http://www.w3.org/2001/XMLSchema#string"
def integer : Iri := "http://www.w3.org/2001/XMLSchema#integer"
def long : Iri := "http://www.w3.org/2001/XMLSchema#long"
def decimal : Iri := "http://www.w3.org/2001/XMLSchema#decimal"
def float : Iri := "http://www.w3.org/2001/XMLSchema#float"
def base64Binary : Iri := "http://www.w3.org/2001/XMLSchema#base64Binary"
end Xsd

namespace Shacl
def namespaceIri : Iri := "http://www.w3.org/ns/shacl#"
end Shacl

namespace OrderedLists
def namespaceIri : Iri := "http://purl.org/ontology/olo/core#"
end OrderedLists

namespace CyberOntology
def objectId : Iri := "https://ontology.unifiedcyberontology.org/uco/core/id"
def sharedVocabularies : Iri := "https://ontology.unifiedcyberontology.org/uco/vocabulary/"
def caseVocabularies : Iri := "https://ontology.caseontology.org/case/vocabulary/"
end CyberOntology

end OntologyGuard

namespace OntologyGuard.About

def programName : String := "owlcheck"

def version : String := "0.1.0"

def components : List String := ["core", "xsd", "owl", "validate", "store"]

end OntologyGuard.About

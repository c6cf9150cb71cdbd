import OntologyGuard.Data.OrderedMap
import OntologyGuard.Rdf.Vocabulary
import OntologyGuard.Text.Split

/-!
Namespace bindings. A qualifier such as `xsd` abbreviates a namespace, and `xsd:string` is then a
qualified name. A qualifier stands for the namespace last bound to it; a namespace may have several
qualifiers, of which one is preferred for printing.
-/

namespace OntologyGuard

structure Context where
  bindings : List (String × String) := []
  namespaces : OrderedMap String String := .empty
  preferred : OrderedMap String String := .empty
  deriving DecidableEq

namespace Context

def endsInDigit (s : String) : Bool := s.toList.getLast?.any Char.isDigit

/-- Whether a new qualifier takes over from the preferred one: an empty qualifier loses to any
other, and one that ends in a digit, as generated ones do, loses to one that does not. -/
def supersedes (new : String) : Option String → Bool
  | none => true
  | some old =>
    if old.isEmpty then true
    else if new.isEmpty then false
    else endsInDigit old || !endsInDigit new

def bind (c : Context) (qualifier iri : String) : Context where
  bindings := c.bindings ++ [(qualifier, iri)]
  namespaces := c.namespaces.insert qualifier iri
  preferred :=
    if supersedes qualifier (c.preferred.get? iri) then c.preferred.insert iri qualifier
    else c.preferred

def populate (c : Context) (bindings : List (String × String)) : Context :=
  bindings.foldl (fun c binding ↦ c.bind binding.1 binding.2) c

/-- The bindings that every context starts with. -/
def standardBindings : List (String × String) :=
  [("rdf", Rdf.namespaceIri), ("rdfs", Rdfs.namespaceIri), ("xsd", Xsd.namespaceIri),
    ("owl", Owl.namespaceIri), ("sh", Shacl.namespaceIri), ("olo", OrderedLists.namespaceIri)]

def standard : Context := populate {} standardBindings

instance : Inhabited Context := ⟨standard⟩

def ofBindings (bindings : List (String × String)) : Context := standard.populate bindings

def namespace? (c : Context) (qualifier : String) : Option String := c.namespaces.get? qualifier

def qualifier? (c : Context) (iri : String) : Option String := c.preferred.get? iri

/-- Splits a qualified name at its first colon, if what stands before is bound. -/
def splitQualified? (c : Context) (id : String) : Option (String × String) :=
  (Text.splitOnce? ':' id).filter fun parts ↦ (c.namespace? parts.1).isSome

def namespaceOf? (c : Context) (id : String) : Option String :=
  c.preferred.keys.foldl
    (fun best iri ↦
      if !iri.isEmpty && Text.startsWith id iri && best.all (·.length ≤ iri.length) then some iri
      else best)
    none

/-- Splits an identifier after the longest bound namespace that it starts with. -/
def splitIri? (c : Context) (id : String) : Option (String × String) :=
  (c.namespaceOf? id).map fun iri ↦ (iri, Text.dropLength id iri)

def qualifiedName? (c : Context) (id : String) : Option String :=
  if (c.splitQualified? id).isSome then some id
  else do
    let (iri, name) ← c.splitIri? id
    let qualifier ← c.qualifier? iri
    return qualifier ++ ":" ++ name

def expand? (c : Context) (id : String) : Option Iri :=
  match c.splitQualified? id with
  | some (qualifier, name) => (c.namespace? qualifier).map (· ++ name)
  | none => (c.splitIri? id).map fun _ ↦ id

def format (c : Context) (id : String) : String := "<" ++ (c.qualifiedName? id).getD id ++ ">"

def formatList (c : Context) (ids : List String) : String :=
  "[" ++ ", ".intercalate (ids.map c.format) ++ "]"

end Context

end OntologyGuard

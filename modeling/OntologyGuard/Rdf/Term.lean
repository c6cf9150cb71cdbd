namespace OntologyGuard

/-- An internationalised resource identifier. The order on identifiers is that of their characters. -/
abbrev Iri := String

/-- A scalar value. Without a datatype it is a plain string. The datatype may be a qualified name
that the source of the data left unexpanded. -/
structure Literal where
  lexical : String
  datatype : Option Iri := none
  deriving DecidableEq, Inhabited

inductive Term where
  | iri (iri : Iri)
  | blank (label : String)
  | literal (value : Literal)
  deriving DecidableEq, Inhabited

structure Triple where
  subject : Term
  predicate : Iri
  object : Term
  deriving DecidableEq, Inhabited

namespace Term

def isBlank : Term → Bool
  | blank _ => true
  | _ => false

def isLiteral : Term → Bool
  | literal _ => true
  | _ => false

def asIri? : Term → Option Iri
  | iri i => some i
  | _ => none

def asLiteral? : Term → Option Literal
  | literal l => some l
  | _ => none

def kindName : Term → String
  | iri _ => "IRI"
  | blank _ => "BlankNode"
  | literal _ => "Literal"

/-- The text that names a term, without the marks of a blank node or a literal. -/
def identifier : Term → String
  | iri i => i
  | blank label => label
  | literal l => l.lexical

def text : Term → String
  | iri i => i
  | blank label => "_:" ++ label
  | literal ⟨lexical, none⟩ => "\"" ++ lexical ++ "\""
  | literal ⟨lexical, some datatype⟩ => "\"" ++ lexical ++ "\"^^" ++ datatype

/-- Identifiers come before blank nodes and those before literals; of two literals with one lexical
form the one without a datatype comes first. -/
def precedes : Term → Term → Bool
  | iri a, iri b => a ≤ b
  | iri _, _ => true
  | blank a, blank b => a ≤ b
  | blank _, literal _ => true
  | literal ⟨a, d⟩, literal ⟨b, e⟩ =>
    a < b || (a == b && match d, e with
      | none, _ => true
      | some d, some e => d ≤ e
      | some _, none => false)
  | _, _ => false

end Term

def Triple.text (t : Triple) : String :=
  "(" ++ t.subject.text ++ " " ++ t.predicate ++ " " ++ t.object.text ++ ")"

end OntologyGuard

import OntologyGuard.Context

/-!
Problems found in an ontology or in data. They are values that accumulate; none of them stops the
work that found it.
-/

namespace OntologyGuard

namespace Diagnostic

inductive Kind where
  | dataError
  | constraintError
  | criticalError
  | ontologyError
  | unsupportedFeature
  | softwareBug
  deriving DecidableEq, Inhabited

namespace Kind

def all : List Kind :=
  [dataError, constraintError, criticalError, ontologyError, unsupportedFeature, softwareBug]

def index : Kind → Nat
  | dataError => 0
  | constraintError => 1
  | criticalError => 2
  | ontologyError => 3
  | unsupportedFeature => 4
  | softwareBug => 5

def label : Kind → String
  | dataError => "Data Error"
  | constraintError => "Constraint Error"
  | criticalError => "Critical Error"
  | ontologyError => "Ontology Error"
  | unsupportedFeature => "Unsupported Feature"
  | softwareBug => "Software Bug"

def name : Kind → String
  | dataError => "DataError"
  | constraintError => "ConstraintError"
  | criticalError => "CriticalError"
  | ontologyError => "OntologyError"
  | unsupportedFeature => "UnsupportedFeature"
  | softwareBug => "SoftwareBug"

def ofName? (name : String) : Option Kind := all.find? (·.name == name)

/-- Reads a name in any case and with any separators; `unsupported` is short for the feature. -/
def parse? (text : String) : Option Kind :=
  match String.ofList ((text.toList.filter Char.isAlphanum).map Char.toLower) with
  | "dataerror" => some dataError
  | "constrainterror" => some constraintError
  | "criticalerror" => some criticalError
  | "ontologyerror" => some ontologyError
  | "unsupportedfeature" | "unsupported" => some unsupportedFeature
  | "softwarebug" => some softwareBug
  | _ => none

def unknownMessage (text : String) : String := "unknown diagnostic kind: " ++ text

end Kind

end Diagnostic

structure Diagnostic where
  kind : Diagnostic.Kind
  message : String
  «class» : Option Iri := none
  property : Option Iri := none
  line : Option UInt32 := none
  deriving DecidableEq, Inhabited

namespace Diagnostic

/-- The kind, line, class and property that are known, and the message. -/
def phrases (d : Diagnostic) (c : Context) : List String :=
  [d.kind.label ++ ":"]
    ++ ((d.line.filter (· > 0)).map fun n ↦ "Line " ++ n.toNat.repr ++ ",").toList
    ++ (d.class.map fun i ↦ "Class " ++ c.format i).toList
    ++ (d.property.map fun i ↦ "Property " ++ c.format i).toList
    ++ [d.message ++ "."]

def format (d : Diagnostic) (c : Context) : String := " ".intercalate (d.phrases c)

/-- Keeps the first of equal diagnostics. -/
def distinct (ds : List Diagnostic) : List Diagnostic := ds.eraseDups

/-- Orders by line, keeping the order within a line; no line counts as line zero. -/
def sortByLine (ds : List Diagnostic) : List Diagnostic :=
  ds.mergeSort fun a b ↦ a.line.getD 0 ≤ b.line.getD 0

end Diagnostic

end OntologyGuard

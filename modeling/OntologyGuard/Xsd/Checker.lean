import OntologyGuard.Diagnostic
import OntologyGuard.Xsd.Datatype

/-!
Checking values against XML Schema types named by identifiers. A checker remembers the types it has
found, and those it has not, under both spellings of their names.
-/

namespace OntologyGuard.Xsd

structure Checker where
  known : OrderedMap String Datatype := .empty
  /-- The types that cannot be checked, with the problem as it was first reported. -/
  refused : OrderedMap String (List Diagnostic) := .empty
  deriving DecidableEq

namespace Checker

instance : Inhabited Checker := ⟨{}⟩

def qualifier : String := "xsd:"

/-- The name within the namespace, from an identifier in either spelling. -/
def localName? (id : String) : Option String :=
  if Text.startsWith id qualifier then some (Text.dropLength id qualifier)
  else if Text.startsWith id namespaceIri then some (Text.dropLength id namespaceIri)
  else none

/-- The identifiers that name the same type. -/
def spellings (id : String) : List String :=
  match localName? id with
  | some name => [qualifier ++ name, namespaceIri ++ name]
  | none => [id]

inductive Fault where
  | notInNamespace (id : String)
  | unsupported (id : String)
  | notAccepted (value : String) (type : Datatype)

def Fault.report : Fault → Diagnostic
  | notInNamespace id => { kind := .unsupportedFeature, message := "Invalid xsd type " ++ id }
  | unsupported id => { kind := .unsupportedFeature, message := "Unsupported xsd type " ++ id }
  | notAccepted value type =>
    { kind := .dataError
      message := "'" ++ value ++ "' is not a valid value of the atomic type 'xsd:"
        ++ type.localName ++ "'" }

def find (id : String) : Except Fault Datatype :=
  match localName? id with
  | none => .error (.notInNamespace id)
  | some name =>
    match Datatype.ofLocalName? name with
    | none => .error (.unsupported id)
    | some type => .ok type

def datatype (checker : Checker) (id : String) : Except Diagnostic Datatype × Checker :=
  match checker.known.get? id with
  | some type => (.ok type, checker)
  | none =>
    match find id with
    | .error fault => (.error fault.report, checker)
    | .ok type =>
      (.ok type,
        { checker with
          known := (spellings id).foldl (fun known key ↦ known.insert key type) checker.known })

/-- Checks a value. A type that cannot be found gives the same report whenever it is asked for. -/
def validate (checker : Checker) (value id : String) : List Diagnostic × Checker :=
  match checker.refused.get? id with
  | some found => (found, checker)
  | none =>
    match checker.datatype id with
    | (.error report, checker) =>
      ([report],
        { checker with
          refused := (spellings id).foldl (fun refused key ↦ refused.insert key [report])
            checker.refused })
    | (.ok type, checker) =>
      (if type.accepts value then [] else [(Fault.notAccepted value type).report], checker)

def isRefused (checker : Checker) (id : String) : Bool := (checker.refused.get? id).isSome

def knownIds (checker : Checker) : List String :=
  checker.known.keys.mergeSort fun a b ↦ a ≤ b

end Checker

end OntologyGuard.Xsd

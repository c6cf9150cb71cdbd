import OntologyGuard.Json.Basic
import OntologyGuard.Text.Numeral

/-!
Reading typed values from JSON. A record is an object in which unknown names are passed over and a
known name may stand only once, or an array of its fields in order of which trailing ones may be
left out.
-/

namespace OntologyGuard.Json

def asText? : Json → Option String
  | .string s => s
  | _ => none

def asBool? : Json → Option Bool
  | .bool b => some b
  | _ => none

def asNat? : Json → Option Nat
  | .number literal => Text.natural? literal.toList
  | _ => none

def asWord? (json : Json) : Option UInt32 :=
  (json.asNat?.filter (· < UInt32.size)).map UInt32.ofNat

def asList? {α : Type} (read : Json → Option α) : Json → Option (List α)
  | .array items => items.mapM read
  | _ => none

def asPair? {α β : Type} (first : Json → Option α) (second : Json → Option β) :
    Json → Option (α × β)
  | .array [a, b] => do return (← first a, ← second b)
  | _ => none

def asOption? {α : Type} (read : Json → Option α) : Json → Option (Option α)
  | .null => some none
  | json => (read json).map some

def asMembers? : Json → Option (List (String × Json))
  | .object members => members.mapM fun member ↦ member.1.map (·, member.2)
  | _ => none

def asName? : Json → Option String
  | .string s => s
  | .object [(name, .null)] => name
  | _ => none

structure Fields where
  positional : Bool
  present : List (String × Json)

namespace Fields

def ofJson? (names : List String) : Json → Option Fields
  | .array items =>
    if items.length ≤ names.length then some ⟨true, names.zip items⟩ else none
  | json => do
    let members ← json.asMembers?
    let known := members.filter fun member ↦ names.contains member.1
    if (known.map Prod.fst).Nodup then some ⟨false, known⟩ else none

def get? (fields : Fields) (name : String) : Option Json := fields.present.lookup name

def required? {α : Type} (fields : Fields) (name : String) (read : Json → Option α) : Option α :=
  (fields.get? name).bind read

def orDefault? {α : Type} (fields : Fields) (name : String) (default : α) (read : Json → Option α) :
    Option α :=
  match fields.get? name with
  | none => some default
  | some json => read json

def nullable? {α : Type} (fields : Fields) (name : String) (read : Json → Option α) :
    Option (Option α) :=
  match fields.get? name with
  | none => if fields.positional then none else some none
  | some json => json.asOption? read

end Fields

end OntologyGuard.Json

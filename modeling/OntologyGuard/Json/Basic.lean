/-!
Values of the JSON data format. A number keeps its literal, and an object its members in order,
repeated names included.
-/

namespace OntologyGuard

/-- A string denotes no text when its escapes leave half of a surrogate pair alone, or when it has
octets that spell no character; it is kept as `none`, since such a string may still stand where its
content is not wanted. -/
abbrev JsonText := Option String

inductive Json where
  | null
  | bool (value : Bool)
  | number (literal : String)
  | string (text : JsonText)
  | array (items : List Json)
  | object (members : List (JsonText × Json))
  deriving Inhabited

namespace Json

def text (s : String) : Json := .string (some s)

def nat (n : Nat) : Json := .number n.repr

def int (n : Int) : Json := .number n.repr

def record (members : List (String × Json)) : Json :=
  .object (members.map fun member ↦ (some member.1, member.2))

def option {α : Type} (encode : α → Json) : Option α → Json
  | none => .null
  | some a => encode a

def list {α : Type} (encode : α → Json) (items : List α) : Json := .array (items.map encode)

end Json

end OntologyGuard

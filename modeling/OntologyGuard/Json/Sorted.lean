import OntologyGuard.Json.Basic

namespace OntologyGuard.Json

def placeMember (member : JsonText × Json) :
    List (JsonText × Json) → List (JsonText × Json)
  | [] => [member]
  | head :: rest =>
    if member.1.getD "" < head.1.getD "" then member :: head :: rest
    else head :: placeMember member rest

mutual

/-- The same value with the members of all its objects sorted by name. -/
def sorted : Json → Json
  | .array items => .array (sortedItems items)
  | .object members => .object (sortedMembers members)
  | json => json

def sortedItems : List Json → List Json
  | [] => []
  | item :: rest => sorted item :: sortedItems rest

def sortedMembers : List (JsonText × Json) → List (JsonText × Json)
  | [] => []
  | (name, value) :: rest => placeMember (name, sorted value) (sortedMembers rest)

end

end OntologyGuard.Json

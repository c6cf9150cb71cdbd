import OntologyGuard.Json.Fields
import OntologyGuard.Storage.Fingerprint
import OntologyGuard.Storage.FileSystem
import OntologyGuard.Timestamp

namespace OntologyGuard

inductive StoredKind where
  | ontology
  | caseData
  deriving DecidableEq, Inhabited

namespace StoredKind

def all : List StoredKind := [ontology, caseData]

def text : StoredKind → String
  | ontology => "ontology"
  | caseData => "casedata"

def name : StoredKind → String
  | ontology => "Ontology"
  | caseData => "CaseData"

def marker (kind : StoredKind) : Bytes := Text.utf8 kind.text

def ofMarker? (bytes : Bytes) : Option StoredKind := all.find? (·.marker == bytes)

def formatVersion : StoredKind → String
  | ontology => "1.0"
  | caseData => "1.1"

end StoredKind

structure Metadata where
  version : String
  path : Option String := none
  hash : Option String := none
  manifest : Option (SortedMap String) := none
  timestamp : Timestamp := {}
  comment : Option String := none
  deriving DecidableEq

namespace Metadata

def ofKind (kind : StoredKind) (now : Timestamp) : Metadata where
  version := kind.formatVersion
  timestamp := now

def toJson (m : Metadata) : Json :=
  let files (manifest : SortedMap String) : Json :=
    .record (manifest.entries.map fun entry ↦ (entry.1, .text entry.2))
  .record [("version", .text m.version), ("path", .option .text m.path),
    ("hash", .option .text m.hash), ("manifest", .option files m.manifest),
    ("timestamp", .text m.timestamp.text), ("comment", .option .text m.comment)]

def ofJson? (json : Json) : Option Metadata := do
  let fields ← Json.Fields.ofJson?
    ["version", "path", "hash", "manifest", "timestamp", "comment"] json
  let files (json : Json) : Option (SortedMap String) := do
    let members ← json.asMembers?
    return .ofList (← members.mapM fun member ↦ member.2.asText?.map (member.1, ·))
  return {
    version := ← fields.required? "version" Json.asText?
    path := ← fields.nullable? "path" Json.asText?
    hash := ← fields.nullable? "hash" Json.asText?
    manifest := ← fields.nullable? "manifest" files
    timestamp := ← fields.required? "timestamp" fun json ↦ json.asText?.bind Timestamp.parse?
    comment := ← fields.nullable? "comment" Json.asText? }

/-- A line for each thing that is recorded, and one for each file of a manifest. -/
def describe (m : Metadata) (kind : StoredKind) : String :=
  let files (manifest : SortedMap String) : List String :=
    ("Manifest:  " ++ manifest.entries.length.repr ++ " files")
      :: manifest.entries.map fun entry ↦ "  " ++ entry.2 ++ "  " ++ entry.1
  "\n".intercalate <|
    ["Kind:      " ++ kind.text, "Version:   " ++ m.version,
      "Timestamp: " ++ m.timestamp.textWithOffset]
    ++ (m.path.map ("Source:    " ++ ·)).toList
    ++ (m.hash.map ("SHA-256:   " ++ ·)).toList
    ++ (m.comment.map ("Comment:   " ++ ·)).toList
    ++ (m.manifest.map files).getD []

end Metadata

end OntologyGuard

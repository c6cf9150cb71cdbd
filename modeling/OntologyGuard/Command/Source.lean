import OntologyGuard.Json.Document
import OntologyGuard.Json.Reader
import OntologyGuard.Storage.Walk

namespace OntologyGuard.Source

inductive Fault where
  | unreadable (path : Pathname) (cause : FileSystem.Fault)
  /-- A directory at the path or below it cannot be listed. -/
  | unlisted (path : Pathname) (cause : FileSystem.Fault)
  | invalid (path : Pathname)
  deriving DecidableEq

def Fault.message : Fault → String
  | unreadable path _ => "cannot read " ++ Text.lossy path
  | unlisted path _ => "cannot read ontology directory " ++ Text.lossy path
  | invalid path => Text.lossy path ++ " is not a valid document"

def decode {α : Type} (read : Json → Option α) (path : Pathname) (text : String) :
    Except Fault α :=
  match (Json.parse? text).bind read with
  | some document => .ok document
  | none => .error (.invalid path)

def decodeBytes {α : Type} (read : Json → Option α) (path : Pathname) (content : Bytes) :
    Except Fault α :=
  match Text.ofUtf8? content with
  | some text => decode read path text
  | none => .error (.unreadable path .invalidData)

def load {α : Type} (read : Json → Option α) (fs : FileSystem) (path : Pathname) : Except Fault α :=
  match fs.read path with
  | .ok content => decodeBytes read path content
  | .error cause => .error (.unreadable path cause)

/-- Whether the name of a file ends in `.json` after something else. -/
def isDocumentName (name : Name) : Bool :=
  (Text.utf8 ".json").isSuffixOf name && 5 < name.length

def nameOf (names : List Name) : Name := names.getLastD []

/-- Whether a walk for documents stops at something: at files by their names, and at what it cannot list. -/
def isSought : FileSystem.Walked → Bool
  | .file names => isDocumentName (nameOf names)
  | .unlisted _ _ => true

def loadDirectory (fs : FileSystem) (path : Pathname) : Except Fault OntologyDocument := do
  let root ← (fs.list path).mapError (.unlisted path)
  let sought := (fs.walk (fun _ ↦ true) path root).filter isSought
  let documents ← sought.mapM fun
    | .file names => load OntologyDocument.ofJson? fs (FileSystem.pathTo path names)
    | .unlisted _ cause => .error (.unlisted path cause)
  return .merge documents

end OntologyGuard.Source

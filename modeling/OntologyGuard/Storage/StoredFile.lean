import OntologyGuard.Binary.Ontology
import OntologyGuard.Json.Printer
import OntologyGuard.Json.Reader
import OntologyGuard.Storage.Action
import OntologyGuard.Storage.Metadata
import OntologyGuard.Storage.Walk

/-!
Files that hold a resolved ontology or a data graph: a marker of the kind, the metadata as JSON and
the value in binary form, the last two each with its length in front.
-/

namespace OntologyGuard

class Storable (α : Type) where
  kind : StoredKind
  codec : Binary.Codec α

instance : Storable Ontology where
  kind := .ontology
  codec := Ontology.codec

instance : Storable DataGraph where
  kind := .caseData
  codec := DataGraph.codec

namespace StoredFile

inductive Fault where
  | unreadable (path : Pathname) (cause : FileSystem.Fault)
  /-- A directory at the path or below it cannot be listed. -/
  | unlisted (path : Pathname) (cause : FileSystem.Fault)
  | notStored (path : Pathname)
  | wrongKind (path : Pathname) (found expected : StoredKind)
  | otherVersion (path : Pathname) (found expected : String)
  | invalidMetadata
  | invalidBody (cause : Binary.Fault)
  deriving DecidableEq

def Fault.message : Fault → String
  | unreadable path _ => "I/O error on " ++ Text.lossy path
  | unlisted path _ => "cannot walk " ++ Text.lossy path
  | notStored path => Text.lossy path ++ " is not an owlcheck file"
  | wrongKind path found expected =>
    Text.lossy path ++ " holds " ++ found.text ++ " data, expected " ++ expected.text
  | otherVersion path found expected =>
    Text.lossy path ++ " has format version " ++ found ++ ", this build reads " ++ expected
  | invalidMetadata => "metadata error"
  | invalidBody _ => "encoding error"

/-- Octets after their number. -/
def block (bytes : Bytes) : Bytes := (Binary.Codec.natural 8).write bytes.length ++ bytes

def readBlock (bytes : Bytes) : Except Binary.Fault (Bytes × Bytes) := do
  let (length, rest) ← (Binary.Codec.natural 8).read bytes
  Binary.split length rest

def encode {α : Type} [Storable α] (value : α) (metadata : Metadata) : Bytes :=
  (Storable.kind α).marker ++ block (Text.utf8 metadata.toJson.compact)
    ++ block ((Storable.codec : Binary.Codec α).write value)

def decodeKind (path : Pathname) (bytes : Bytes) : Except Fault (StoredKind × Bytes) :=
  match StoredKind.ofMarker? (bytes.take 8) with
  | some kind => .ok (kind, bytes.drop 8)
  | none => .error (.notStored path)

def decodeMetadata (path : Pathname) (bytes : Bytes) : Except Fault (Metadata × Bytes) :=
  match readBlock bytes with
  | .error _ => .error (.notStored path)
  | .ok (content, rest) =>
    match (Json.parseBytes? content).bind Metadata.ofJson? with
    | some metadata => .ok (metadata, rest)
    | none => .error .invalidMetadata

def decodeHeader (path : Pathname) (bytes : Bytes) : Except Fault (StoredKind × Metadata) := do
  let (kind, rest) ← decodeKind path bytes
  let (metadata, _) ← decodeMetadata path rest
  return (kind, metadata)

def decode {α : Type} [Storable α] (path : Pathname) (bytes : Bytes) : Except Fault (α × Metadata) := do
  let (kind, rest) ← decodeKind path bytes
  if kind ≠ Storable.kind α then throw (.wrongKind path kind (Storable.kind α))
  let (metadata, rest) ← decodeMetadata path rest
  if metadata.version ≠ kind.formatVersion then
    throw (.otherVersion path metadata.version kind.formatVersion)
  match readBlock rest with
  | .error _ => throw (.unreadable path .unexpectedEnd)
  | .ok (content, _) =>
    match (Storable.codec : Binary.Codec α).read content with
    | .ok (value, _) => return (value, metadata)
    | .error cause => throw (.invalidBody cause)

/-- The octets at a path. A directory can be opened, but nothing can be read from it. -/
def contentAt (fs : FileSystem) (path : Pathname) : Except Fault Bytes :=
  match fs.entry path with
  | .ok (.file content) => .ok content
  | .ok .sink | .ok (.folder _) => .ok []
  | .ok (.locked _) => .error (.unreadable path .permissionDenied)
  | .error cause => .error (.unreadable path cause)

def save {α : Type} [Storable α] (fs : FileSystem) (value : α) (metadata : Metadata)
    (path : Pathname) : Except Fault FileSystem :=
  match fs.write path (encode value metadata) with
  | .ok fs => .ok fs
  | .error cause => .error (.unreadable path cause)

def writeOut {α : Type} [Storable α] (value : α) (metadata : Metadata) (path : Pathname) :
    FileSystem.Action Fault Unit :=
  ExceptT.adapt (.unreadable path) do
    let file ← FileSystem.create path
    FileSystem.append file (Storable.kind α).marker
    FileSystem.append file (block (Text.utf8 metadata.toJson.compact))
    FileSystem.append file (block ((Storable.codec : Binary.Codec α).write value))

def load {α : Type} [Storable α] (fs : FileSystem) (path : Pathname) : Except Fault (α × Metadata) := do
  decode path (← contentAt fs path)

def readMarker (fs : FileSystem) (path : Pathname) : Except Fault StoredKind := do
  return (← decodeKind path (← contentAt fs path)).1

def readMetadata (fs : FileSystem) (path : Pathname) : Except Fault (StoredKind × Metadata) := do
  decodeHeader path (← contentAt fs path)

def describe (fs : FileSystem) (path : Pathname) : Except Fault String := do
  let (kind, metadata) ← readMetadata fs path
  return metadata.describe kind

def readFile (fs : FileSystem) (path : Pathname) : Except Fault Bytes :=
  (fs.read path).mapError (.unreadable path)

def visibleFiles (fs : FileSystem) (path : Pathname) : Except Fault (List (List Name)) := do
  let root ← (fs.list path).mapError (.unlisted path)
  (fs.walk Fingerprint.isVisible path root).mapM fun
    | .file names => .ok names
    | .unlisted _ cause => .error (.unlisted path cause)

/-- The fingerprint of what is at a path. The walk through a directory ends before the first file is read. -/
def fingerprint (fs : FileSystem) (path : Pathname) : Except Fault Fingerprint := do
  if fs.isFolder path then
    let files ← (← visibleFiles fs path).mapM fun names ↦
      (readFile fs (FileSystem.pathTo path names)).map fun content ↦ (names, content)
    return .ofFiles files
  else
    return .ofFile (← readFile fs path)

structure Origin where
  path : Pathname
  print : Fingerprint

/-- The source is looked for first, and hashed at the path where it was found. -/
def originOf (fs : FileSystem) (source : Pathname) : Except Fault Origin := do
  let path ← (fs.canonical source).mapError (.unreadable source)
  return { path, print := ← fingerprint fs path }

/-- Metadata for a value built from a source. A path that is no text cannot be written in them. -/
def Origin.metadata (origin : Origin) (kind : StoredKind) (now : Timestamp) : Except Fault Metadata :=
  match Text.ofUtf8? origin.path with
  | some path =>
    .ok { Metadata.ofKind kind now with
      path := some path, hash := some origin.print.hash, manifest := origin.print.manifest }
  | none => .error .invalidMetadata

end StoredFile

end OntologyGuard

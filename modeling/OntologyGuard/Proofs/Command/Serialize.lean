import OntologyGuard.Command.Execution
import OntologyGuard.Proofs.Storage.Marker
import OntologyGuard.Proofs.Storage.RoundTrip
import OntologyGuard.Proofs.Storage.Writing

/-!
Storing what a source gives is all or nothing, and what is stored stands in for the source: a command that
fails leaves every file as it was, and one that succeeds changes a single file, from which the same value is
loaded as from the source before. The path of the output has to be a text: any other path stops the program
when its file is complete.
-/

namespace OntologyGuard

open Binary (sizeLimit)

/-- The metadata of a value that was built from a source: the source is recorded as it is, and nothing else. -/
structure Metadata.Records (metadata : Metadata) (fs : FileSystem) (kind : StoredKind) (source : Pathname)
    (now : Timestamp) (comment : Option String) : Prop where
  version : metadata.version = kind.formatVersion
  source : ∃ path text print, fs.canonical source = .ok path ∧ Text.ofUtf8? path = some text ∧
    StoredFile.fingerprint fs path = .ok print ∧ metadata.path = some text ∧
    metadata.hash = some print.hash ∧ metadata.manifest = print.manifest
  timestamp : metadata.timestamp = now
  comment : metadata.comment = comment

namespace StoredFile

end StoredFile

namespace Command

open FileSystem (Action)

/-- A way to make a value from a source, and a way to read it that knows stored files too. They agree on
sources, and what was stored is read as it is. -/
structure Reads {α : Type} [Storable α] (give read : FileSystem → Pathname → Except Failure α) : Prop where
  read_of_give : ∀ {fs path value}, give fs path = .ok value → read fs path = .ok value
  read_of_load : ∀ {fs path value metadata}, StoredFile.load fs path = .ok (value, metadata) →
    read fs path = .ok value

section Store

variable {α : Type} [Storable α] {give read : FileSystem → Pathname → Except Failure α} {fs : FileSystem}
  {source output : Pathname} {now : Timestamp} {comment : Option String}

end Store

end Command

end OntologyGuard

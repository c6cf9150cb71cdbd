import OntologyGuard.Data.SortedMap
import OntologyGuard.Sha256
import OntologyGuard.Storage.FileSystem

namespace OntologyGuard

structure Fingerprint where
  hash : String
  manifest : Option (SortedMap String) := none
  deriving DecidableEq

namespace Fingerprint

/-- Names that begin with a dot are hidden, and so is what lies below them. -/
def isVisible (name : Name) : Bool := (Text.lossy name).toList.head? ≠ some '.'

/-- What a path from the directory is listed under. Paths that are no texts may share one. -/
def pathText (names : List Name) : String := Text.lossy (FileSystem.pathTo [] names)

def ofFile (content : Bytes) : Fingerprint where
  hash := Sha256.hash content

/-- The hash of each file, by the path to it. Of files with one text for their paths the last one counts. -/
def listing (files : List (List Name × Bytes)) : SortedMap String :=
  .ofList <| files.map fun file ↦ (pathText file.1, Sha256.hash file.2)

def ofFiles (files : List (List Name × Bytes)) : Fingerprint where
  hash := Sha256.hash (files.flatMap Prod.snd)
  manifest := some (listing files)

end Fingerprint

end OntologyGuard

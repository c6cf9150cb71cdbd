import OntologyGuard.Storage.FileSystem

/-!
Walks through directories, depth first, where each directory stands in its place by name. Whether a directory
can be listed is found out at the path that the walk has made for it.
-/

namespace OntologyGuard.FileSystem

/-- What a walk comes to, with the names that lead there from its start. -/
inductive Walked where
  | file (names : List Name)
  | unlisted (names : List Name) (cause : Fault)
  deriving DecidableEq

namespace Walked

def names : Walked → List Name
  | file names => names
  | unlisted names _ => names

def below (name : Name) : Walked → Walked
  | file names => file (name :: names)
  | unlisted names cause => unlisted (name :: names) cause

end Walked

def ifListed (fs : FileSystem) (path : Pathname) (below : List Walked) : List Walked :=
  match fs.list path with
  | .ok _ => below
  | .error cause => [.unlisted [] cause]

def walkLeaf (fs : FileSystem) (path : Pathname) : Leaf → List Walked
  | .file _ | .locked false => [.file []]
  | .locked true => fs.ifListed path []
  | .sink => []

/-- Walks through the entries of a directory. Those whose names do not qualify are left out with all that
is below them. -/
def walk (fs : FileSystem) (qualifies : Name → Bool) (path : Pathname) : Directory → List Walked
  | .empty => []
  | .leaf name found rest =>
    (if qualifies name then (fs.walkLeaf (join path name) found).map (.below name) else [])
    ++ fs.walk qualifies path rest
  | .folder name inner rest =>
    (if qualifies name then
      (fs.ifListed (join path name) (fs.walk qualifies (join path name) inner)).map (.below name)
      else [])
    ++ fs.walk qualifies path rest

end OntologyGuard.FileSystem

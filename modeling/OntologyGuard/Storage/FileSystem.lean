import OntologyGuard.Storage.Directory

/-!
A file system: a tree of files and a working directory in it. Paths are octets, written with slashes. Nobody
else changes the tree while a computation goes on.
-/

namespace OntologyGuard

abbrev Pathname := Bytes

structure FileSystem where
  root : Directory := .empty
  /-- The names that lead from the root to the working directory. -/
  workingDirectory : List Name := []
  /-- Where nothing can be changed, by the names from the root: files that stay as they are, and directories
  that get no new entries. -/
  readOnly : List (List Name) := []
  deriving DecidableEq, Inhabited

namespace FileSystem

inductive Fault where
  | notFound
  | permissionDenied
  | isADirectory
  | notADirectory
  | invalidData
  | unexpectedEnd
  | invalidInput
  /-- A name in the path, or the whole of it, is too long. -/
  | invalidName
  deriving DecidableEq, Inhabited

def components : Pathname → List Name
  | [] => [[]]
  | byte :: rest =>
    if byte = slash then [] :: components rest
    else
      match components rest with
      | [] => [[byte]]
      | part :: more => (byte :: part) :: more

/-- The octets of a path stay below this number. -/
def pathLimit : Nat := 4096

/-- The greatest number of octets in a name. -/
def nameLimit : Nat := 255

def checkPath (path : Pathname) : Except Fault Unit :=
  if path.isEmpty then .error .notFound
  else if path.contains 0 then .error .invalidInput
  else if pathLimit ≤ path.length then .error .invalidName
  else .ok ()

/-- Looks up a name in a directory. -/
def lookup (inner : Directory) (name : Name) : Except Fault (Option Entry) :=
  if nameLimit < name.length then .error .invalidName else .ok (inner.entry? name)

/-- Follows components from a directory whose own path is given last name first. A component that
is empty or a dot stays, two dots go up. -/
def follow (root : Directory) : List Name → List Name → Except Fault (List Name)
  | place, [] => .ok place.reverse
  | place, component :: more =>
    match root.find? place.reverse with
    | none => .error .notFound
    | some (.locked true) =>
      if component = [] then follow root place more else .error .permissionDenied
    | some (.leaf _) => .error .notADirectory
    | some (.folder inner) =>
      if component = [] ∨ component = [dot] then follow root place more
      else if component = [dot, dot] then follow root place.tail more
      else
        match lookup inner component with
        | .error fault => .error fault
        | .ok none => .error .notFound
        | .ok (some _) => follow root (component :: place) more

/-- Where a path starts, last name first. -/
def startOf (fs : FileSystem) (path : Pathname) : List Name :=
  if path.head? = some slash then [] else fs.workingDirectory.reverse

/-- The names that lead from the root to what exists. -/
def resolve (fs : FileSystem) (path : Pathname) : Except Fault (List Name) := do
  checkPath path
  follow fs.root (fs.startOf path) (components path)

def entry (fs : FileSystem) (path : Pathname) : Except Fault Entry := do
  match fs.root.find? (← fs.resolve path) with
  | some entry => return entry
  | none => throw .notFound

def isFile (fs : FileSystem) (path : Pathname) : Bool :=
  match fs.entry path with
  | .ok (.file _) | .ok (.locked false) => true
  | _ => false

def isFolder (fs : FileSystem) (path : Pathname) : Bool :=
  match fs.entry path with
  | .ok (.folder _) | .ok (.locked true) => true
  | _ => false

def list (fs : FileSystem) (path : Pathname) : Except Fault Directory := do
  match ← fs.entry path with
  | .folder inner => return inner
  | .locked true => throw .permissionDenied
  | .leaf _ => throw .notADirectory

def read (fs : FileSystem) (path : Pathname) : Except Fault Bytes := do
  match ← fs.entry path with
  | .file content => return content
  | .sink => return []
  | .locked _ => throw .permissionDenied
  | .folder _ => throw .isADirectory

def readText (fs : FileSystem) (path : Pathname) : Except Fault String := do
  match Text.ofUtf8? (← fs.read path) with
  | some text => return text
  | none => throw .invalidData

def join (path : Pathname) (name : Name) : Pathname :=
  if path.isEmpty || path.getLast? = some slash then path ++ name else path ++ slash :: name

def pathTo (path : Pathname) (names : List Name) : Pathname := names.foldl join path

/-- The path from the root, for what exists. -/
def canonical (fs : FileSystem) (path : Pathname) : Except Fault Pathname := do
  let place := pathTo [slash] (← fs.resolve path)
  checkPath place
  return place

/-- What keeps a file from being put in a directory, by what is there under its name. -/
def checkPut (fs : FileSystem) (place : List Name) (name : Name) : Option Entry → Except Fault Unit
  | some (.folder _) | some (.locked true) => .error .isADirectory
  | some (.locked false) => .error .permissionDenied
  | some (.leaf _) =>
    if fs.readOnly.contains (place ++ [name]) then .error .permissionDenied else .ok ()
  | none => if fs.readOnly.contains place then .error .permissionDenied else .ok ()

/-- The directory that a path of a new file lies in, and the name of the file. A slash at the end
says that the path is that of a directory. -/
def placeOf (fs : FileSystem) (path : Pathname) : Except Fault (List Name × Name) := do
  checkPath path
  let all := components path
  let names := (all.reverse.dropWhile (·.isEmpty)).reverse
  let name := names.getLastD []
  let place ← follow fs.root (fs.startOf path) names.dropLast
  match fs.root.find? place with
  | some (.folder inner) =>
    if names.length < all.length ∨ name = [dot] ∨ name = [dot, dot] then throw .isADirectory
    fs.checkPut place name (← lookup inner name)
    return (place, name)
  | some (.locked true) => throw .permissionDenied
  | some (.leaf _) => throw .notADirectory
  | none => throw .notFound

/-- A file that is open for writing: the names of the directory it lies in, and its own. -/
structure OpenFile where
  place : List Name
  name : Name

/-- The file system with other content in an open file. What goes into a sink leaves no trace. -/
def withContent (fs : FileSystem) (file : OpenFile) (content : Bytes) : FileSystem :=
  match fs.root.find? (file.place ++ [file.name]) with
  | some .sink => fs
  | _ => { fs with root := fs.root.putAt file.name (.file content) file.place }

def write (fs : FileSystem) (path : Pathname) (content : Bytes) : Except Fault FileSystem := do
  let (place, name) ← fs.placeOf path
  return fs.withContent { place, name } content

/-- Makes a directory below the working directory, with those above it. -/
def makeFolders (fs : FileSystem) (path : Pathname) : FileSystem :=
  let names := (components path).filter fun c ↦ c ≠ [] && c ≠ [dot]
  { fs with root := fs.root.makeFolders (fs.workingDirectory ++ names) }

/-- The names of an absolute path, where two dots take back the name before them. -/
def absolute (fs : FileSystem) (path : Pathname) : List Name :=
  let up (place : List Name) (component : Name) : List Name :=
    if component = [] ∨ component = [dot] then place
    else if component = [dot, dot] then place.tail
    else component :: place
  ((components path).foldl up (fs.startOf path)).reverse

def mount (fs : FileSystem) (path : Pathname) (entry : Entry) : FileSystem :=
  let names := fs.absolute path
  match names.getLast?, entry with
  | none, .folder inner => { fs with root := inner }
  | none, .leaf _ => fs
  | some name, entry =>
    { fs with root := (fs.root.makeFolders names.dropLast).putAt name entry names.dropLast }

end FileSystem

end OntologyGuard

import OntologyGuard.Text.Utf8

/-!
Trees of files. A directory lists its entries by name, and names are octets that need not spell a text.
Links are left out, and so are entries that may be changed and not read, or listed and not passed.
-/

namespace OntologyGuard

abbrev Name := Bytes

def slash : UInt8 := 47

def dot : UInt8 := 46

inductive Leaf where
  | file (content : Bytes)
  /-- A device that takes what is written, keeps nothing, and is empty to whoever reads it. -/
  | sink
  /-- A file or directory that may be neither read nor changed. -/
  | locked (isFolder : Bool)
  deriving DecidableEq, Inhabited

inductive Directory where
  | empty
  | leaf (name : Name) (leaf : Leaf) (rest : Directory)
  | folder (name : Name) (inner rest : Directory)
  deriving DecidableEq, Inhabited

@[match_pattern]
abbrev Directory.file (name : Name) (content : Bytes) (rest : Directory) : Directory :=
  .leaf name (.file content) rest

inductive Entry where
  | leaf (leaf : Leaf)
  | folder (inner : Directory)
  deriving DecidableEq, Inhabited

@[match_pattern]
abbrev Entry.file (content : Bytes) : Entry := .leaf (.file content)

@[match_pattern]
abbrev Entry.sink : Entry := .leaf .sink

@[match_pattern]
abbrev Entry.locked (isFolder : Bool) : Entry := .leaf (.locked isFolder)

namespace Directory

def names : Directory → List Name
  | empty => []
  | leaf name _ rest => name :: rest.names
  | folder name _ rest => name :: rest.names

/-- Every directory lists its entries by increasing name. -/
def Sorted : Directory → Prop
  | empty => True
  | leaf name _ rest => (∀ n ∈ rest.names, name < n) ∧ rest.Sorted
  | folder name inner rest => (∀ n ∈ rest.names, name < n) ∧ inner.Sorted ∧ rest.Sorted

instance decidableSorted : (root : Directory) → Decidable root.Sorted
  | empty => inferInstanceAs (Decidable True)
  | leaf name _ rest =>
    have := decidableSorted rest
    inferInstanceAs (Decidable ((∀ n ∈ rest.names, name < n) ∧ rest.Sorted))
  | folder name inner rest =>
    have := decidableSorted inner
    have := decidableSorted rest
    inferInstanceAs (Decidable ((∀ n ∈ rest.names, name < n) ∧ inner.Sorted ∧ rest.Sorted))

def entry? (name : Name) : Directory → Option Entry
  | empty => none
  | leaf n found rest => if n = name then some (.leaf found) else rest.entry? name
  | folder n inner rest => if n = name then some (.folder inner) else rest.entry? name

def cons (name : Name) (entry : Entry) (rest : Directory) : Directory :=
  match entry with
  | .leaf found => leaf name found rest
  | .folder inner => folder name inner rest

/-- Puts an entry in its place by name, instead of one that has the name already. -/
def put (name : Name) (entry : Entry) : Directory → Directory
  | empty => cons name entry empty
  | leaf n found rest =>
    if n = name then cons name entry rest
    else if name < n then cons name entry (leaf n found rest)
    else leaf n found (rest.put name entry)
  | folder n inner rest =>
    if n = name then cons name entry rest
    else if name < n then cons name entry (folder n inner rest)
    else folder n inner (rest.put name entry)

def find? (root : Directory) : List Name → Option Entry
  | [] => some (.folder root)
  | [name] => root.entry? name
  | name :: more =>
    match root.entry? name with
    | some (.folder inner) => inner.find? more
    | _ => none

def putAt (root : Directory) (name : Name) (entry : Entry) : List Name → Directory
  | [] => root.put name entry
  | next :: more =>
    match root.entry? next with
    | some (.folder inner) => root.put next (.folder (inner.putAt name entry more))
    | _ => root

/-- Makes the directories of a path that are missing; anything else in the way ends it. -/
def makeFolders (root : Directory) : List Name → Directory
  | [] => root
  | name :: more =>
    match root.entry? name with
    | none => root.put name (.folder (makeFolders empty more))
    | some (.folder inner) => root.put name (.folder (inner.makeFolders more))
    | some (.leaf _) => root

end Directory

end OntologyGuard

import OntologyGuard.Storage.FileSystem

/-!
Computations on a file system, step by step. What has been changed stays changed when a later step fails.
-/

namespace OntologyGuard.FileSystem

abbrev Action (ε α : Type) := ExceptT ε (StateM FileSystem) α

def reading {ε α : Type} (look : FileSystem → Except ε α) : Action ε α := fun fs ↦ (look fs, fs)

/-- Opens a file for writing. A file that is there already loses its content. -/
def create (path : Pathname) : Action Fault OpenFile := do
  let (place, name) ← reading (·.placeOf path)
  modify (·.withContent { place, name } [])
  return { place, name }

def OpenFile.content (file : OpenFile) (fs : FileSystem) : Except Fault Bytes :=
  match fs.root.find? (file.place ++ [file.name]) with
  | some (.file content) => .ok content
  | some .sink => .ok []
  | some (.locked _) => .error .permissionDenied
  | some (.folder _) => .error .isADirectory
  | none => .error .notFound

def append (file : OpenFile) (content : Bytes) : Action Fault Unit := do
  let before ← reading file.content
  modify (·.withContent file (before ++ content))

end OntologyGuard.FileSystem

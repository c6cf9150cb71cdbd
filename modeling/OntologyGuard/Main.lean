import OntologyGuard.About
import OntologyGuard.Command.Execution
import Std.Time.DateTime.Timestamp

/-!
The command line program. It copies what a command names into a file system in memory, runs the
command there, and writes back the file that the command made.
-/

namespace OntologyGuard.Main

partial def readEntry (path : String) : IO Entry := do
  let place := System.mkFilePath [path]
  if ← place.isDir then
    match ← place.readDir.toBaseIO with
    | .error _ => return .locked true
    | .ok children =>
      let mut inner := Directory.empty
      for child in children do
        inner := inner.put child.fileName (← readEntry child.path.toString)
      return .folder inner
  else
    match ← (IO.FS.readBinFile path).toBaseIO with
    | .error _ => return .locked false
    | .ok content => return .file content.data.toList

def mountPath (fs : FileSystem) (path : String) : IO FileSystem := do
  if ← (System.mkFilePath [path]).pathExists then return fs.mount path (← readEntry path)
  else return fs

/-- Adds the directory that a path lies in, and the path itself if it is a directory. -/
def includePlace (fs : FileSystem) (path : String) : IO FileSystem := do
  let place := System.mkFilePath [path]
  if ← place.isDir then return fs.mount path (.folder .empty)
  match place.parent with
  | none => return fs
  | some parent =>
    if parent.toString.isEmpty || (← parent.isDir) then
      return { fs with root := fs.root.makeFolders (fs.absolute path).dropLast }
    else return fs

def currentFileSystem : IO FileSystem := do
  let here := (FileSystem.components (← IO.currentDir).toString).filter fun name ↦ !name.isEmpty
  return { root := Directory.empty.makeFolders here, workingDirectory := here }

def now : IO Timestamp := do
  let nanoseconds := (← Std.Time.Timestamp.now).toNanosecondsSinceUnixEpoch.val
  let seconds := nanoseconds / 1000000000
  return {
    day := seconds / 86400
    second := (seconds % 86400).toNat
    nanosecond := (nanoseconds % 1000000000).toNat }

def usage : String :=
  "Usage: " ++ About.programName ++ " [--config FILE] [-v] <COMMAND>\n\n"
  ++ "Commands:\n"
  ++ "  validate ONTOLOGY [DATA]... [-f FORMAT] [--fail-on KINDS]\n"
  ++ "  serialize SOURCE -o OUTPUT [-k KIND] [--comment TEXT]\n"
  ++ "  describe FILE\n"
  ++ "  show ONTOLOGY [-c CLASS] [-f FORMAT]\n"

def answerFault : Arguments.Fault → IO UInt32
  | .versionRequested => do
    IO.println (About.programName ++ " " ++ About.version)
    return 0
  | .helpRequested => do
    IO.print usage
    return 0
  | _ => do
    IO.eprint usage
    return 2

def fail (messages : List String) : IO UInt32 := do
  IO.eprintln ("Error: " ++ ": ".intercalate messages)
  return 1

def keep (fs : FileSystem) (command : Command) : IO Unit := do
  match command.output? with
  | none => return
  | some path =>
    match fs.read path with
    | .ok content => IO.FS.writeBinFile (Text.lossy path) ⟨content.toArray⟩
    | .error _ => return

def run (line : CommandLine) : IO UInt32 := do
  let mut fs ← currentFileSystem
  for path in line.config.toList ++ line.command.inputs do
    fs ← mountPath fs (Text.lossy path)
  for path in line.command.output?.toList do
    fs ← includePlace fs (Text.lossy path)
  match Config.loadOrDefault fs line.config with
  | .error fault => fail [fault.message]
  | .ok config =>
    match Command.run config (← now) fs line.command with
    | .error failure => fail (failure.tasks ++ [failure.fault.message])
    | .ok (outcome, files) =>
      keep files line.command
      IO.print outcome.output
      return if outcome.success then 0 else 1

end OntologyGuard.Main

def main (arguments : List String) : IO UInt32 :=
  match OntologyGuard.CommandLine.parse arguments with
  | .error fault => OntologyGuard.Main.answerFault fault
  | .ok line => OntologyGuard.Main.run line

import OntologyGuard.Command.Line
import OntologyGuard.Command.Source
import OntologyGuard.Config
import OntologyGuard.Json.Ontology
import OntologyGuard.Json.Sorted
import OntologyGuard.Storage.StoredFile

namespace OntologyGuard

namespace Command

inductive Fault where
  | stored (fault : StoredFile.Fault)
  | source (fault : Source.Fault)
  | unknownClass (name : String)
  /-- A path that is no text stands in the data of a result. The program stops there. -/
  | unwritable (path : Pathname)
  deriving DecidableEq

def Fault.message : Fault → String
  | stored fault => fault.message
  | source fault => fault.message
  | unknownClass name => "class " ++ name ++ " is not in the ontology"
  | unwritable _ => "path contains invalid UTF-8 characters"

/-- A fault, and what was being done when it arose, the widest task first. -/
structure Failure where
  fault : Fault
  tasks : List String := []
  deriving DecidableEq

structure Outcome where
  /-- Whether no problem arose that makes the command fail. -/
  success : Bool
  output : String
  data : Option Json := none

def storedResult {α : Type} (result : Except StoredFile.Fault α) : Except Failure α :=
  result.mapError fun fault ↦ { fault := .stored fault }

def sourceResult {α : Type} (tasks : List String) (result : Except Source.Fault α) :
    Except Failure α :=
  result.mapError fun fault ↦ { fault := .source fault, tasks }

def during {α : Type} (task : String) (result : Except Failure α) : Except Failure α :=
  result.mapError fun failure ↦ { failure with tasks := task :: failure.tasks }

def loadDocuments (fs : FileSystem) (path : Pathname) : Except Failure OntologyDocument :=
  if fs.isFolder path then sourceResult [] (Source.loadDirectory fs path)
  else
    sourceResult ["cannot read ontology " ++ Text.lossy path]
      (Source.load OntologyDocument.ofJson? fs path)

def resolveDocuments (config : Config) (fs : FileSystem) (path : Pathname) :
    Except Failure Ontology :=
  (loadDocuments fs path).map (Ontology.resolve config.resolver)

def isStored (fs : FileSystem) (path : Pathname) (kind : StoredKind) : Bool :=
  match StoredFile.readMarker fs path with
  | .ok found => found = kind
  | .error _ => false

/-- A stored ontology as it is, or the documents at a path resolved. -/
def loadOntology (config : Config) (fs : FileSystem) (path : Pathname) : Except Failure Ontology :=
  if fs.isFile path && isStored fs path .ontology then
    storedResult ((StoredFile.load (α := Ontology) fs path).map Prod.fst)
  else resolveDocuments config fs path

def readGraph (fs : FileSystem) (path : Pathname) : Except Failure DataGraph :=
  sourceResult [] (Source.load DataGraph.ofJson? fs path)

def loadData (fs : FileSystem) (path : Pathname) : Except Failure DataGraph :=
  if isStored fs path .caseData then
    storedResult ((StoredFile.load (α := DataGraph) fs path).map Prod.fst)
  else during ("cannot read data " ++ Text.lossy path) (readGraph fs path)

def render (format : OutputFormat) (text : String) (data : Json) : String :=
  match format with
  | .text => text
  | .json => data.sorted.compact
  | .indentedJson => data.sorted.indented

def validateFile (config : Config) (fs : FileSystem) (ontology : Ontology) (path : Pathname) :
    Except Failure (Pathname × Report) :=
  during ("cannot validate " ++ Text.lossy path) do
    let graph ← loadData fs path
    let validator : Validator := { ontology, config := config.validation }
    return (path, (validator.validate graph).1)

def reportsText (ontology : Ontology) (reports : List (Pathname × Report)) : String :=
  let context := ontology.context
  String.join <|
    (ontology.diagnostics.map fun d ↦ d.format context ++ "\n")
    ++ reports.map fun (path, report) ↦ "== " ++ Text.lossy path ++ " ==\n" ++ report.text context

/-- A path as it stands in data. -/
def pathData (path : Pathname) : Except Failure Json :=
  match Text.ofUtf8? path with
  | some text => .ok (.text text)
  | none => .error { fault := .unwritable path }

def reportsData (path : Pathname) (ontology : Ontology) (reports : List (Pathname × Report)) :
    Except Failure Json := do
  let ontologyPath ← pathData path
  let data ← reports.mapM fun (path, report) ↦ do
    return .record [("path", ← pathData path), ("report", report.toJson)]
  return .record [
    ("ontology", .record [("path", ontologyPath),
      ("diagnostics", .list Diagnostic.toJson ontology.diagnostics)]),
    ("data", .list id data)]

def runValidate (config : Config) (fs : FileSystem) (path : Pathname) (data : List Pathname)
    (format : OutputFormat) (failOn : List Diagnostic.Kind) : Except Failure Outcome := do
  let ontology ← loadOntology config fs path
  let reports ← data.mapM (validateFile config fs ontology)
  let failed := ontology.diagnostics.any (failOn.contains ·.kind)
    || reports.any fun (_, report) ↦ report.hasAny failOn
  let data ← reportsData path ontology reports
  return {
    success := !failed
    output := render format (reportsText ontology reports) data
    data := some data }

/-- Stores what a source gives. The source is hashed before it is read, and the output is not touched
before there is something to store. -/
def store {α : Type} [Storable α] (give : FileSystem → Pathname → Except Failure α) (now : Timestamp)
    (source output : Pathname) (comment : Option String) : FileSystem.Action Failure Unit := do
  let origin ← FileSystem.reading fun fs ↦ storedResult (StoredFile.originOf fs source)
  let value ← FileSystem.reading (give · source)
  let metadata ← FileSystem.reading fun _ ↦ storedResult (origin.metadata (Storable.kind α) now)
  ExceptT.adapt (fun fault ↦ { fault := .stored fault })
    (StoredFile.writeOut value { metadata with comment } output)

/-- The path of the output becomes data only when the output is complete. -/
def runSerialize (config : Config) (now : Timestamp) (source output : Pathname) (kind : StoredKind)
    (comment : Option String) : FileSystem.Action Failure Outcome := do
  match kind with
  | .ontology => store (resolveDocuments config) now source output comment
  | .caseData => store readGraph now source output comment
  let path ← FileSystem.reading fun _ ↦ pathData output
  return {
    success := true
    output := "Stored " ++ kind.text ++ " from " ++ Text.lossy source ++ " in " ++ Text.lossy output ++ "\n"
    data := some (.record [("kind", .text kind.name), ("output", path)]) }

def runDescribe (fs : FileSystem) (file : Pathname) : Except Failure Outcome := do
  let text ← storedResult (StoredFile.describe fs file)
  return { success := true, output := text ++ "\n" }

/-- The lines of a text. A line end may have a carriage return before it. -/
def lines (text : String) : List String :=
  let parts := Arguments.separate '\n' text.toList
  let ended := parts.dropLast.map fun line ↦
    if line.getLast? = some '\r' then line.dropLast else line
  let last := parts.getLastD []
  (if last.isEmpty then ended else ended ++ [last]).map String.ofList

def selectClasses (ontology : Ontology) («class» : Option String) :
    Except Failure (List (Iri × ClassDefinition)) :=
  match «class» with
  | none => .ok ontology.definitions.entries
  | some name =>
    let iri := (ontology.context.expand? name).getD name
    match ontology.get? iri with
    | some definition => .ok [(iri, definition)]
    | none => .error { fault := .unknownClass name }

def classesText (context : Context) (classes : List (Iri × ClassDefinition)) : String :=
  String.join <| classes.flatMap fun (iri, definition) ↦
    (context.format iri ++ "\n")
      :: (lines (definition.describe context)).map fun line ↦ "    " ++ line ++ "\n"

def classesData (classes : List (Iri × ClassDefinition)) : Json :=
  .list (fun (iri, definition) ↦
    .record [("class", .text iri), ("definition", definition.toJson)]) classes

def runShow (config : Config) (fs : FileSystem) (path : Pathname) («class» : Option String)
    (format : OutputFormat) : Except Failure Outcome := do
  let ontology ← loadOntology config fs path
  let classes ← selectClasses ontology «class»
  let data := classesData classes
  return {
    success := true
    output := render format (classesText ontology.context classes) data
    data := some data }

def execute (config : Config) (now : Timestamp) : Command → FileSystem.Action Failure Outcome
  | .validate ontology data format failOn =>
    FileSystem.reading (runValidate config · ontology data format failOn)
  | .serialize source output kind comment => runSerialize config now source output kind comment
  | .describe file => FileSystem.reading (runDescribe · file)
  | .show ontology «class» format => FileSystem.reading (runShow config · ontology «class» format)

def run (config : Config) (now : Timestamp) (fs : FileSystem) (command : Command) :
    Except Failure (Outcome × FileSystem) :=
  match execute config now command fs with
  | (.ok outcome, fs) => .ok (outcome, fs)
  | (.error failure, _) => .error failure

end Command

end OntologyGuard

import OntologyGuard.Command.Arguments
import OntologyGuard.Diagnostic
import OntologyGuard.Storage.Metadata

namespace OntologyGuard

inductive OutputFormat where
  | text
  | json
  | indentedJson
  deriving DecidableEq, Inhabited

def OutputFormat.ofName? : String → Option OutputFormat
  | "text" => some text
  | "json" => some json
  | "json-pretty" => some indentedJson
  | _ => none

def StoredKind.ofName? : String → Option StoredKind
  | "ontology" => some ontology
  | "casedata" => some caseData
  | _ => none

inductive Command where
  /-- Validates data against an ontology; problems of some kinds make it fail. -/
  | validate (ontology : Pathname) (data : List Pathname) (format : OutputFormat)
      (failOn : List Diagnostic.Kind)
  | serialize (source output : Pathname) (kind : StoredKind) (comment : Option String)
  | describe (file : Pathname)
  | «show» (ontology : Pathname) («class» : Option String) (format : OutputFormat)
  deriving DecidableEq, Inhabited

namespace Command

def inputs : Command → List Pathname
  | validate ontology data _ _ => ontology :: data
  | serialize source _ _ _ => [source]
  | describe file => [file]
  | «show» ontology _ _ => [ontology]

def output? : Command → Option Pathname
  | serialize _ output _ _ => some output
  | _ => none

end Command

/-- A command with the options that all commands share. -/
structure CommandLine where
  config : Option Pathname := none
  verbose : Bool := false
  command : Command
  deriving DecidableEq, Inhabited

namespace CommandLine

open Arguments (Fault Form Parameter Grammar Reading)

def path (name : String) (short : Option Char) (form : Form) : Parameter :=
  { name, short, form, check := fun value ↦ if value.isEmpty then some .invalidValue else none }

def format : Parameter where
  name := "format"
  short := some 'f'
  check value := if (OutputFormat.ofName? value).isSome then none else some .invalidValue

def failOn : Parameter where
  name := "fail-on"
  form := .several (some ',')
  check value := if (Diagnostic.Kind.parse? value).isSome then none else some .unreadableValue

def kind : Parameter where
  name := "kind"
  short := some 'k'
  check value := if (StoredKind.ofName? value).isSome then none else some .invalidValue

/-- The options that may stand before and after the name of a command. -/
def shared : List Parameter :=
  [path "config" none .single, { name := "verbose", short := some 'v', form := .switch },
    { name := "help", short := some 'h', form := .request .helpRequested }]

def mainGrammar : Grammar where
  options := shared ++ [{ name := "version", short := some 'V', form := .request .versionRequested }]
  subcommands := ["validate", "serialize", "describe", "show", "help"]

def validateGrammar : Grammar where
  options := shared ++ [format, failOn]
  positionals := [path "ontology" none .single, path "data" none (.several none)]
  required := ["ontology"]

def serializeGrammar : Grammar where
  options := shared ++ [path "output" (some 'o') .single, kind, { name := "comment" }]
  positionals := [path "source" none .single]
  required := ["source", "output"]

def describeGrammar : Grammar where
  options := shared
  positionals := [path "file" none .single]
  required := ["file"]

def showGrammar : Grammar where
  options := shared ++ [{ name := "class", short := some 'c' }, format]
  positionals := [path "ontology" none .single]
  required := ["ontology"]

def grammarOf : String → Grammar
  | "validate" => validateGrammar
  | "serialize" => serializeGrammar
  | "describe" => describeGrammar
  | _ => showGrammar

def formatOf (r : Reading) : OutputFormat :=
  ((r.value? "format").bind OutputFormat.ofName?).getD .text

def commandOf (r : Reading) (name : String) : Command :=
  let path (name : String) : Pathname := (r.value? name).getD ""
  let values (name : String) : List String := (r.values? name).getD []
  match name with
  | "validate" =>
    .validate (path "ontology") ((values "data").map Text.utf8) (formatOf r)
      ((values "fail-on").filterMap Diagnostic.Kind.parse?)
  | "serialize" =>
    .serialize (path "source") (path "output")
      (((r.value? "kind").bind StoredKind.ofName?).getD .ontology) (r.value? "comment")
  | "describe" => .describe (path "file")
  | _ => .show (path "ontology") (r.value? "class") (formatOf r)

def helpOn : List String → Fault
  | [] => .helpRequested
  | [name] => if mainGrammar.subcommands.contains name then .helpRequested else .unknownSubcommand
  | _ => .unknownSubcommand

/-- Reads the arguments after the program's name, which are texts here. -/
def parse (arguments : List String) : Except Fault CommandLine := do
  match ← mainGrammar.readAll false {} arguments with
  | (main, none) =>
    let main ← main.settle
    throw (if main.given.isEmpty then .nothingGiven else .missingSubcommand)
  | (main, some (name, rest)) =>
    if name = "help" then throw (helpOn rest)
    let grammar := grammarOf name
    let (own, _) ← grammar.readAll false {} rest
    let own ← grammar.finish own
    let main ← main.settle
    return {
      config := ((own.value? "config").or (main.value? "config")).map Text.utf8
      verbose := (own.values? "verbose").isSome || (main.values? "verbose").isSome
      command := commandOf own name }

end CommandLine

end OntologyGuard

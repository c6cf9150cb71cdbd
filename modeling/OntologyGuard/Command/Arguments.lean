/-!
Reading the arguments of a command: options with a long or a short name, and positional arguments.
The value of an option follows it as the next argument, or is attached with an equals sign or, after
a short name, without one. After two hyphens all arguments are positional.
-/

namespace OntologyGuard.Arguments

/-- Why arguments are not accepted, or what they ask for instead of a command. -/
inductive Fault where
  | helpRequested
  | versionRequested
  | nothingGiven
  | missingSubcommand
  | unknownSubcommand
  | unknownArgument
  | invalidValue
  | unreadableValue
  | unexpectedValue
  | repeated
  | missingArgument
  deriving DecidableEq, Inhabited

inductive Form where
  | request (fault : Fault)
  | switch
  | single
  /-- May be repeated, and a value may be a list with a separator. -/
  | several (separator : Option Char)
  deriving DecidableEq, Inhabited

def Form.takesValue : Form → Bool
  | single | several _ => true
  | _ => false

structure Parameter where
  name : String
  short : Option Char := none
  form : Form := .single
  check : String → Option Fault := fun _ ↦ none

structure Grammar where
  options : List Parameter
  positionals : List Parameter := []
  required : List String := []
  subcommands : List String := []

structure Reading where
  given : List (String × List String) := []
  pending : Option (Parameter × List String) := none
  /-- Whether the pending parameter is an option without its value yet. -/
  awaiting : Bool := false
  positionals : Nat := 0

def Reading.values? (r : Reading) (name : String) : Option (List String) := r.given.lookup name

def Reading.value? (r : Reading) (name : String) : Option String :=
  (r.values? name).bind List.head?

def separate (separator : Char) : List Char → List (List Char)
  | [] => [[]]
  | c :: rest =>
    if c = separator then [] :: separate separator rest
    else
      match separate separator rest with
      | [] => [[c]]
      | part :: parts => (c :: part) :: parts

def Parameter.split (p : Parameter) (value : String) : List String :=
  match p.form with
  | .several (some separator) => (separate separator value.toList).map String.ofList
  | _ => [value]

def Reading.store (r : Reading) (p : Parameter) (values : List String) : Except Fault Reading :=
  let values := values.flatMap p.split
  let add (old : List String) : Except Fault Reading :=
    match values.findSome? p.check with
    | some fault => .error fault
    | none =>
      let others := r.given.filter fun entry ↦ entry.1 ≠ p.name
      .ok { r with given := others ++ [(p.name, old ++ values)] }
  match p.form with
  | .request fault => .error fault
  | .switch => if (r.values? p.name).isSome then .error .repeated else add []
  | .single =>
    if values.isEmpty then .error .invalidValue
    else if (r.values? p.name).isSome then .error .repeated
    else add []
  | .several _ =>
    if values.isEmpty then .error .invalidValue else add ((r.values? p.name).getD [])

def Reading.settle (r : Reading) : Except Fault Reading :=
  match r.pending with
  | none => .ok r
  | some (p, values) => { r with pending := none, awaiting := false }.store p values

def Reading.await (r : Reading) (p : Parameter) : Except Fault Reading := do
  return { ← r.settle with pending := some (p, []), awaiting := true }

def Reading.complete (r : Reading) (p : Parameter) (values : List String) :
    Except Fault Reading := do
  (← r.settle).store p values

/-- An option with a long name, and perhaps a value after an equals sign. -/
def Grammar.readLong (g : Grammar) (r : Reading) (text : List Char) : Except Fault Reading :=
  let name := String.ofList (text.takeWhile (· ≠ '='))
  let attached := match text.dropWhile (· ≠ '=') with
    | [] => none
    | _ :: value => some (String.ofList value)
  match g.options.find? (·.name == name) with
  | none => .error .unknownArgument
  | some p =>
    match p.form.takesValue, attached with
    | true, some value => r.complete p [value]
    | true, none => r.await p
    | false, some _ => .error .unexpectedValue
    | false, none => r.complete p []

def Grammar.readShort (g : Grammar) (r : Reading) : List Char → Except Fault Reading
  | [] => .ok r
  | c :: rest =>
    match g.options.find? (·.short == some c) with
    | none => .error .unknownArgument
    | some p =>
      if p.form.takesValue then
        match rest with
        | [] => r.await p
        | '=' :: value => r.complete p [String.ofList value]
        | value => r.complete p [String.ofList value]
      else do
        g.readShort (← r.complete p []) rest

def Grammar.readPositional (g : Grammar) (r : Reading) (onlyPositionals : Bool) (text : String) :
    Except Fault Reading :=
  match g.positionals[r.positionals]? with
  | none =>
    if g.subcommands.isEmpty || (onlyPositionals && g.subcommands.contains text) then
      .error .unknownArgument
    else .error .unknownSubcommand
  | some p =>
    match p.form, r.pending with
    | .several _, some (q, values) =>
      if q.name = p.name then .ok { r with pending := some (p, values ++ [text]) }
      else do return { ← r.settle with pending := some (p, [text]) }
    | .several _, none => .ok { r with pending := some (p, [text]) }
    | _, _ => do
      let r ← r.settle
      return { r with pending := some (p, [text]), positionals := r.positionals + 1 }

/-- Reads arguments up to the name of a subcommand, which is given with what follows it. -/
def Grammar.readAll (g : Grammar) :
    Bool → Reading → List String → Except Fault (Reading × Option (String × List String))
  | _, r, [] => .ok (r, none)
  | onlyPositionals, r, text :: rest =>
    if onlyPositionals then do g.readAll true (← g.readPositional r true text) rest
    else if !r.awaiting && g.subcommands.contains text then .ok (r, some (text, rest))
    else
      match text.toList with
      | ['-', '-'] => g.readAll true { r with awaiting := false } rest
      | '-' :: '-' :: long => do g.readAll false (← g.readLong r long) rest
      | '-' :: c :: more => do g.readAll false (← g.readShort r (c :: more)) rest
      | _ =>
        match r.awaiting, r.pending with
        | true, some (p, values) =>
          g.readAll false { r with pending := some (p, values ++ [text]), awaiting := false } rest
        | _, _ => do g.readAll false (← g.readPositional r false text) rest

def Grammar.finish (g : Grammar) (r : Reading) : Except Fault Reading := do
  let r ← r.settle
  if g.required.all fun name ↦ (r.values? name).isSome then return r else throw .missingArgument

end OntologyGuard.Arguments

/-!
Values of the TOML configuration format, and how a document is put together from its lines. A table
can be written in several places, but each of its keys, and each header, only once.
-/

namespace OntologyGuard

inductive Toml.Origin where
  | inline
  | header
  | passing
  | dotted
  deriving DecidableEq, Inhabited

inductive Toml where
  | string (text : String)
  | integer (value : Int)
  | boolean (value : Bool)
  | float (literal : String)
  | dateTime (literal : String)
  | array (items : List Toml)
  | table (origin : Toml.Origin) (members : List (String × Toml))
  /-- Tables under one header of double brackets, last first. -/
  | tables (items : List (List (String × Toml)))
  deriving Inhabited

namespace Toml

abbrev Members := List (String × Toml)

def replace (key : String) (value : Toml) (members : Members) : Members :=
  members.map fun member ↦ if member.1 = key then (key, value) else member

def addNew (key : String) (value : Toml) (members : Members) : Option Members :=
  if (members.lookup key).isSome then none else some (members ++ [(key, value)])

/-- Sets a key below a path of dotted keys. The path may lead only through tables that no header
names, and must end in one that dotted keys made. -/
def setDotted (key : String) (value : Toml) : List String → Members → Option Members
  | [], members => addNew key value members
  | step :: more, members =>
    match members.lookup step with
    | none => do return members ++ [(step, .table .dotted (← setDotted key value more []))]
    | some (.table origin inner) =>
      if origin = .dotted ∨ (origin = .passing ∧ more ≠ []) then do
        return replace step (.table origin (← setDotted key value more inner)) members
      else none
    | some (.tables (last :: before)) =>
      if more = [] then none
      else do return replace step (.tables ((← setDotted key value more last) :: before)) members
    | some _ => none

/-- Changes the members of the table at the end of a path of header names, where `make` gives the
entry for the last name from the one that is there. -/
def atHeader (make : Option Toml → Option Toml) : List String → Members → Option Members
  | [], _ => none
  | [key], members =>
    match members.lookup key with
    | none => (make none).map fun value ↦ members ++ [(key, value)]
    | some old => (make (some old)).map fun value ↦ replace key value members
  | step :: more, members =>
    match members.lookup step with
    | none => do return members ++ [(step, .table .passing (← atHeader make more []))]
    | some (.table origin inner) =>
      if origin = .inline then none
      else do return replace step (.table origin (← atHeader make more inner)) members
    | some (.tables (last :: before)) => do
      return replace step (.tables ((← atHeader make more last) :: before)) members
    | some _ => none

/-- A header opens a table that is new or has only been passed through. -/
def openTable : Option Toml → Option Toml
  | none => some (.table .header [])
  | some (.table .passing inner) => some (.table .header inner)
  | some _ => none

/-- A header of double brackets opens one more table of a list of tables. -/
def openItem : Option Toml → Option Toml
  | none => some (.tables [[]])
  | some (.tables items) => some (.tables ([] :: items))
  | some _ => none

def setIn (path : List String) (key : String) (value : Toml) : Option Toml → Option Toml
  | some (.table origin inner) => (setDotted key value path inner).map (.table origin)
  | some (.tables (last :: before)) =>
    (setDotted key value path last).map fun members ↦ .tables (members :: before)
  | _ => none

inductive Statement where
  | blank
  | openTable (path : List String)
  | openItem (path : List String)
  | set (path : List String) (key : String) (value : Toml)

/-- The members of the document so far, and the path of the last header. -/
structure Draft where
  members : Members := []
  header : List String := []

def Draft.add (draft : Draft) : Statement → Option Draft
  | .blank => some draft
  | .openTable path =>
    (atHeader Toml.openTable path draft.members).map fun members ↦ { members, header := path }
  | .openItem path =>
    (atHeader Toml.openItem path draft.members).map fun members ↦ { members, header := path }
  | .set path key value =>
    (if draft.header.isEmpty then setDotted key value path draft.members
      else atHeader (setIn path key value) draft.header draft.members).map
      fun members ↦ { draft with members }

def ofStatements (statements : List Statement) : Option Toml := do
  let draft ← statements.foldlM Draft.add {}
  return .table .header draft.members

def inlineTable (settings : List (List String × String × Toml)) : Option Toml := do
  let members ← settings.foldlM (fun members (path, key, value) ↦ setDotted key value path members) []
  return .table .inline members

end Toml

end OntologyGuard

import OntologyGuard.Ontology.Resolution
import OntologyGuard.Storage.FileSystem
import OntologyGuard.Toml.Reader
import OntologyGuard.Validation.Validator

/-!
The settings of the program and their configuration file. What the file leaves out keeps its
default, and what it does not know it passes over.
-/

namespace OntologyGuard

structure Config where
  resolver : ResolverConfig := {}
  validation : ValidationConfig := {}
  deriving DecidableEq, Inhabited

namespace Toml

def asText? : Toml → Option String
  | string s => some s
  | _ => none

def asNat? : Toml → Option Nat
  | integer n => if 0 ≤ n then some n.toNat else none
  | _ => none

def asItems? : Toml → Option (List Toml)
  | array items => some items
  | tables items => some (items.reverse.map (table .header))
  | _ => none

def asList? {α : Type} (read : Toml → Option α) (value : Toml) : Option (List α) :=
  value.asItems?.bind (·.mapM read)

def asPair? (value : Toml) : Option (String × String) :=
  match value.asItems? with
  | some (a :: b :: _) => do return (← a.asText?, ← b.asText?)
  | _ => none

/-- A field of a record, which is a table or lists its fields in order. -/
def field? (names : List String) (name : String) : Toml → Option Toml
  | table _ members => members.lookup name
  | value => (value.asItems?.map names.zip).bind (·.lookup name)

/-- Tables and arrays are records, and so is a date, which has none of the fields asked for. -/
def isRecord : Toml → Bool
  | table _ _ | dateTime _ => true
  | value => value.asItems?.isSome

def fieldOr? {α : Type} (names : List String) (name : String) (default : α)
    (read : Toml → Option α) (value : Toml) : Option α :=
  match value.field? names name with
  | none => some default
  | some field => read field

end Toml

def ResolverConfig.ofToml? (value : Toml) : Option ResolverConfig := do
  let default : ResolverConfig := {}
  let names := ["vocabulary_namespaces", "numeric_widening", "max_passes"]
  if !value.isRecord then none
  return {
    vocabularyNamespaces := ← value.fieldOr? names "vocabulary_namespaces"
      default.vocabularyNamespaces (Toml.asList? Toml.asText?)
    numericWidening := ← value.fieldOr? names "numeric_widening" default.numericWidening
      (Toml.asList? Toml.asPair?)
    maxPasses := ← value.fieldOr? names "max_passes" none fun field ↦ field.asNat?.map some }

def ValidationConfig.ofToml? (value : Toml) : Option ValidationConfig := do
  let default : ValidationConfig := {}
  let names := ["identity_property", "blacklisted_datatypes"]
  if !value.isRecord then none
  return {
    identityProperty := ← value.fieldOr? names "identity_property" default.identityProperty
      fun field ↦ field.asText?.map some
    ignoredDatatypes := ← value.fieldOr? names "blacklisted_datatypes" default.ignoredDatatypes
      (Toml.asList? Toml.asText?) }

namespace Config

def ofToml? (value : Toml) : Option Config := do
  let names := ["resolver", "validation"]
  return {
    resolver := ← value.fieldOr? names "resolver" {} ResolverConfig.ofToml?
    validation := ← value.fieldOr? names "validation" {} ValidationConfig.ofToml? }

inductive Fault where
  | unreadable (path : Pathname) (cause : FileSystem.Fault)
  | invalid (path : Pathname)
  deriving DecidableEq

def Fault.message : Fault → String
  | unreadable path _ => "cannot read config " ++ Text.lossy path
  | invalid path => "invalid config " ++ Text.lossy path

def load (fs : FileSystem) (path : Pathname) : Except Fault Config :=
  match fs.readText path with
  | .error cause => .error (.unreadable path cause)
  | .ok text =>
    match (Toml.parse? text).bind ofToml? with
    | none => .error (.invalid path)
    | some config => .ok config

def loadOrDefault (fs : FileSystem) : Option Pathname → Except Fault Config
  | none => .ok {}
  | some path => load fs path

end Config

end OntologyGuard

import OntologyGuard.Constraint.Property
import OntologyGuard.Data.OrderedMap

namespace OntologyGuard

structure ClassConstraints where
  «class» : Iri
  properties : OrderedMap Iri PropertyConstraints := .empty
  deriving DecidableEq, Inhabited

namespace ClassConstraints

def get? (c : ClassConstraints) (property : Iri) : Option PropertyConstraints :=
  c.properties.get? property

def set (c : ClassConstraints) (property : Iri) (constraints : PropertyConstraints) :
    ClassConstraints :=
  { c with properties := c.properties.insert property constraints }

def required (c : ClassConstraints) : List Iri :=
  (c.properties.entries.filter fun entry ↦ entry.2.min.any (0 < ·)).map Prod.fst

def forbidden (c : ClassConstraints) : List Iri :=
  (c.properties.entries.filter fun entry ↦ entry.2.max = some 0).map Prod.fst

def relabel (c : ClassConstraints) («class» : Iri) : ClassConstraints where
  «class» := «class»
  properties := c.properties.mapValues fun _ constraints ↦ constraints.relabel «class»

def describe (c : ClassConstraints) (context : Context) : String :=
  let line (property : Iri) (state : String) : String :=
    "Class " ++ context.format c.class ++ ": Property " ++ context.format property ++ " is " ++ state
  let lines := c.properties.values.map (·.describe context)
    ++ c.required.map (line · "required") ++ c.forbidden.map (line · "forbidden")
  if lines.isEmpty then "Empty" else "\n".intercalate lines

def summary (c : ClassConstraints) : String :=
  if c.properties.isEmpty then "<Empty>"
  else "\n".intercalate (c.properties.values.map (·.summary))

end ClassConstraints

end OntologyGuard

import OntologyGuard.Constraint.Facet
import OntologyGuard.Diagnostic

/-!
The bounds and the range that a class sets for one property. Facets fill the fields that are unset;
a fact that contradicts a field is reported and leaves it as it was.
-/

namespace OntologyGuard

structure PropertyConstraints where
  «class» : Option Iri := none
  property : Option Iri := none
  min : Option UInt32 := none
  max : Option UInt32 := none
  range : Option Iri := none
  /-- Whether the cardinality facets are qualified, once there is one. -/
  qualified : Option Bool := none
  deriving DecidableEq, Inhabited

namespace PropertyConstraints

/-- Why a fact does not fit the constraints that are already there. -/
inductive Conflict where
  | repeatedRange
  | repeatedExact
  | repeatedMin
  | repeatedMax
  | minAboveMax
  | maxBelowMin
  | mixedQualification (qualified : Bool) (bound : CardinalityBound)
  | noRange
  | needlessRange
  | tighterMin (own inherited : UInt32) (origin : String)
  | tighterMax (own inherited : UInt32) (origin : String)
  | otherRange (own inherited : Iri) (origin : String)
  | crossing (origin : String)
  deriving DecidableEq

def Conflict.message : Conflict → String
  | repeatedRange => "multiple ranges specified"
  | repeatedExact => "multiple cardinality values specified"
  | repeatedMin => "multiple min_cardinality values specified"
  | repeatedMax => "multiple max_cardinality values specified"
  | minAboveMax => "min_cardinality exceeds max_cardinality"
  | maxBelowMin => "max_cardinality is less than min_cardinality"
  | mixedQualification true bound =>
    "qualified " ++ bound.name ++ " specified for an unqualified constraint"
  | mixedQualification false bound =>
    "unqualified " ++ bound.name ++ " specified for a qualified constraint"
  | noRange => "qualified constraint has no range"
  | needlessRange => "unqualified constraint has range"
  | tighterMin own inherited origin =>
    "cannot merge min_cardinality " ++ own.toNat.repr ++ " with " ++ inherited.toNat.repr
      ++ " from " ++ origin
  | tighterMax own inherited origin =>
    "cannot merge max_cardinality " ++ own.toNat.repr ++ " with " ++ inherited.toNat.repr
      ++ " from " ++ origin
  | otherRange own inherited origin =>
    "cannot merge value_range " ++ own ++ " with " ++ inherited ++ " from " ++ origin
  | crossing origin =>
    "cannot merge cardinalities from " ++ origin
      ++ " because min_cardinality exceeds max_cardinality"

def unset («class» property : Iri) : PropertyConstraints where
  «class» := some «class»
  property := some property

def report (c : PropertyConstraints) (conflict : Conflict) : Diagnostic where
  kind := .ontologyError
  message := "constraint violation: " ++ conflict.message
  «class» := c.class
  property := c.property

def plain (c : PropertyConstraints) : PropertyConstraints := { c with qualified := none }

/-- Whether two constraints require the same of the same class and property. -/
def agrees (c d : PropertyConstraints) : Bool := c.plain = d.plain

/-- Notes whether cardinalities are qualified; the first facet decides. -/
def qualify (c : PropertyConstraints) (qualified : Bool) (bound : CardinalityBound) :
    PropertyConstraints × List Diagnostic :=
  match c.qualified with
  | none => ({ c with qualified := some qualified }, [])
  | some existing =>
    if existing = qualified then (c, [])
    else (c, [c.report (.mixedQualification qualified bound)])

def setMin (c : PropertyConstraints) (n : UInt32) : PropertyConstraints × List Diagnostic :=
  match c.min with
  | some existing => if existing = n then (c, []) else (c, [c.report .repeatedMin])
  | none =>
    if c.max.any (· < n) then (c, [c.report .minAboveMax]) else ({ c with min := some n }, [])

def setMax (c : PropertyConstraints) (n : UInt32) : PropertyConstraints × List Diagnostic :=
  match c.max with
  | some existing => if existing = n then (c, []) else (c, [c.report .repeatedMax])
  | none =>
    if c.min.any (n < ·) then (c, [c.report .maxBelowMin]) else ({ c with max := some n }, [])

/-- Sets both bounds, unless one of them has another value. -/
def setExact (c : PropertyConstraints) (n : UInt32) : PropertyConstraints × List Diagnostic :=
  if c.min.any (· ≠ n) ∨ c.max.any (· ≠ n) then (c, [c.report .repeatedExact])
  else ((c.setMin n).1.setMax n).map id ((c.setMin n).2 ++ ·)

def setBound (c : PropertyConstraints) (n : UInt32) :
    CardinalityBound → PropertyConstraints × List Diagnostic
  | .min => c.setMin n
  | .max => c.setMax n
  | .exact => c.setExact n

/-- The first range stays. -/
def setRange (c : PropertyConstraints) (range : Iri) : PropertyConstraints × List Diagnostic :=
  match c.range with
  | some _ => (c, [c.report .repeatedRange])
  | none => ({ c with range := some range }, [])

def apply (c : PropertyConstraints) : Facet → PropertyConstraints × List Diagnostic
  | .cardinality bound qualified n =>
    let (noted, mixed) := c.qualify qualified bound
    (noted.setBound n bound).map id (mixed ++ ·)
  | .range iri => c.setRange iri

def applyAll (c : PropertyConstraints) (facets : List Facet) :
    PropertyConstraints × List Diagnostic :=
  facets.foldl (fun state facet ↦ (state.1.apply facet).map id (state.2 ++ ·)) (c, [])

def ofFacets («class» property : Iri) (facets : List Facet) :
    PropertyConstraints × List Diagnostic :=
  (unset «class» property).applyAll facets

/-- What can be judged only when all facets are in: a range belongs to qualified cardinalities. -/
def checkQualification (c : PropertyConstraints) : List Diagnostic :=
  match c.qualified, c.range with
  | some true, none => [c.report .noRange]
  | some false, some _ => [c.report .needlessRange]
  | _, _ => []

def originOf (parent : PropertyConstraints) : String := parent.class.getD "parent"

/-- The fields in which a parent asks for more than a child's own value gives. -/
def conflicts (c parent : PropertyConstraints) : List Conflict :=
  (match c.min, parent.min with
    | some own, some inherited =>
      if own < inherited then [.tighterMin own inherited parent.originOf] else []
    | _, _ => [])
  ++ (match c.max, parent.max with
    | some own, some inherited =>
      if inherited < own then [.tighterMax own inherited parent.originOf] else []
    | _, _ => [])
  ++ (match c.range, parent.range with
    | some own, some inherited =>
      if inherited ≠ own then [.otherRange own inherited parent.originOf] else []
    | _, _ => [])

def fill (c parent : PropertyConstraints) : PropertyConstraints where
  «class» := c.class
  property := c.property
  min := c.min.or parent.min
  max := c.max.or parent.max
  range := c.range.or parent.range

def crossed (c : PropertyConstraints) : Bool :=
  match c.min, c.max with
  | some min, some max => max < min
  | _, _ => false

/-- Combines a child's constraints with its parent's. What the child sets stays; unset fields take
the parent's value, but not a bound that would cross the child's other one. A parent that asks for
more than the result gives is reported. -/
def mergeParent (c parent : PropertyConstraints) : PropertyConstraints × List Diagnostic :=
  let merged := c.fill parent
  let found := (c.conflicts parent).map c.report
  if (merged.min ≠ c.min ∨ merged.max ≠ c.max) ∧ merged.crossed then
    ({ merged with min := c.min, max := c.max }, found ++ [c.report (.crossing parent.originOf)])
  else (merged, found)

def relabel (c : PropertyConstraints) («class» : Iri) : PropertyConstraints :=
  { c with «class» := some «class» }

def values (n : UInt32) : String := if n = 1 then "value" else "values"

def cardinalityText (min max : Option UInt32) : String :=
  let low := min.getD 0
  match max with
  | none =>
    if low = 0 then "may have any number of values"
    else "must have at least " ++ low.toNat.repr ++ " " ++ values low
  | some max =>
    if max = 0 then "may have no values"
    else if low = 0 then "may have at most " ++ max.toNat.repr ++ " " ++ values max
    else if low = max then "must have exactly " ++ low.toNat.repr ++ " " ++ values low
    else "must have between " ++ low.toNat.repr ++ " and " ++ max.toNat.repr ++ " values"

def describe (c : PropertyConstraints) (context : Context) : String :=
  " ".intercalate <|
    (c.class.map fun i ↦ "Class " ++ context.format i).toList
    ++ [match c.property with
        | some i => "Property " ++ context.format i
        | none => "Property"]
    ++ [cardinalityText c.min c.max]
    ++ (c.range.map fun i ↦ "of type " ++ context.format i).toList

def summary (c : PropertyConstraints) : String :=
  let number (n : Option UInt32) : String := (n.map (·.toNat.repr)).getD "?"
  "<" ++ c.class.getD "None" ++ " " ++ c.property.getD "DATATYPE" ++ " [" ++ number c.min ++ "-"
    ++ number c.max ++ "] " ++ c.range.getD "?" ++ ">"

end PropertyConstraints

end OntologyGuard

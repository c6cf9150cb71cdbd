import OntologyGuard.Text.DecimalDigit
import OntologyGuard.Text.Numeral

/-!
The written forms of numbers. Digits may be those of any script.
-/

namespace OntologyGuard.Xsd

open Text (isDecimalDigit)

def skipDigits? : List Char → Option (List Char)
  | c :: rest => if isDecimalDigit c then some (rest.dropWhile isDecimalDigit) else none
  | [] => none

def skipSign : List Char → List Char
  | '+' :: rest => rest
  | '-' :: rest => rest
  | cs => cs

def isIntegerForm (cs : List Char) : Bool := skipDigits? (skipSign cs) = some []

def isNegative (cs : List Char) : Bool := cs.head? = some '-'

def integerValue? (cs : List Char) : Option Int :=
  (Text.natural? (skipSign cs)).map fun n : Nat ↦ if isNegative cs then -(n : Int) else n

/-- The least number that fits in 128 bits together with its sign. -/
def leastWide : Int := -170141183460469231731687303715884105728

/-- The greatest number that fits in 128 bits together with its sign. -/
def greatestWide : Int := 170141183460469231731687303715884105727

def wideInteger? (cs : List Char) : Option Int :=
  (integerValue? cs).filter fun n ↦ leastWide ≤ n && n ≤ greatestWide

/-- Whether a number lies between two bounds of which each may be absent. A text with more digits than
fit, or with digits of another script, has no value here; it passes where the side of its sign has no
bound. -/
def isIntegerBetween (low high : Option Int) (cs : List Char) : Bool :=
  isIntegerForm cs &&
    match wideInteger? cs with
    | some n => low.all (· ≤ n) && high.all (n ≤ ·)
    | none => if isNegative cs then low.isNone else high.isNone

/-- What follows digits with an optional fraction, or a fraction alone. -/
def skipMantissa? : List Char → Option (List Char)
  | '.' :: rest => skipDigits? rest
  | cs =>
    (skipDigits? cs).map fun
      | '.' :: rest => rest.dropWhile isDecimalDigit
      | rest => rest

def isDecimal (cs : List Char) : Bool := skipMantissa? (skipSign cs) = some []

def skipExponent? : List Char → Option (List Char)
  | 'e' :: rest => skipDigits? (skipSign rest)
  | 'E' :: rest => skipDigits? (skipSign rest)
  | cs => some cs

def isFloat (cs : List Char) : Bool :=
  (skipMantissa? (skipSign cs)).bind skipExponent? = some []
    || skipSign cs = ['I', 'N', 'F'] || cs = ['N', 'a', 'N']

end OntologyGuard.Xsd

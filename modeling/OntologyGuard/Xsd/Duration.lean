import OntologyGuard.Xsd.Temporal

namespace OntologyGuard.Xsd

/-- What follows a number with the given letter, or the whole text where there is none. -/
def skipPart (letter : Char) (cs : List Char) : List Char :=
  ((skipDigits? cs).bind (skip? letter)).getD cs

def skipSeconds (cs : List Char) : List Char :=
  (((skipDigits? cs).map skipFraction).bind (skip? 'S')).getD cs

def skipTimeParts (cs : List Char) : List Char :=
  match cs with
  | 'T' :: rest => skipSeconds (skipPart 'M' (skipPart 'H' rest))
  | _ => cs

def hasDurationParts (cs : List Char) : Bool :=
  match (match cs with | '-' :: rest => rest | cs => cs) with
  | 'P' :: rest => skipTimeParts (skipPart 'D' (skipPart 'M' (skipPart 'Y' rest))) = []
  | _ => false

/-- Neither the whole nor the part after the T may be empty, so neither mark comes last. -/
def isDuration (cs : List Char) : Bool :=
  hasDurationParts cs && cs.getLast? ≠ some 'P' && cs.getLast? ≠ some 'T'

end OntologyGuard.Xsd

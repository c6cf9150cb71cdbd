namespace OntologyGuard.Text

def digitsValue (digits : List Char) : Nat :=
  digits.foldl (fun n c ↦ n * 10 + (c.toNat - '0'.toNat)) 0

def natural? (cs : List Char) : Option Nat :=
  if !cs.isEmpty && cs.all Char.isDigit then some (digitsValue cs) else none

/-- Reads a number that fits in 32 bits, with an optional plus sign. -/
def word? (cs : List Char) : Option UInt32 :=
  let digits := match cs with
    | '+' :: rest => rest
    | cs => cs
  ((natural? digits).filter (· < UInt32.size)).map UInt32.ofNat

end OntologyGuard.Text

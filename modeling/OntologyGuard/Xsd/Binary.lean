import OntologyGuard.Text.Blank

namespace OntologyGuard.Xsd

def isHexDigit (c : Char) : Bool :=
  c.isDigit || ('a' ≤ c && c ≤ 'f') || ('A' ≤ c && c ≤ 'F')

def isHexBinary : List Char → Bool
  | [] => true
  | [_] => false
  | high :: low :: rest => isHexDigit high && isHexDigit low && isHexBinary rest

def sextet? (c : Char) : Option Nat :=
  if 'A' ≤ c ∧ c ≤ 'Z' then some (c.toNat - 'A'.toNat)
  else if 'a' ≤ c ∧ c ≤ 'z' then some (c.toNat - 'a'.toNat + 26)
  else if c.isDigit then some (c.toNat - '0'.toNat + 52)
  else if c = '+' then some 62
  else if c = '/' then some 63
  else none

/-- Groups of four digits; the last may end in one or two equals signs, and then the bits that it
does not use are zero. -/
def isPaddedBase64 : List Char → Bool
  | [] => true
  | [a, b, '=', '='] => (sextet? a).isSome && (sextet? b).any (· % 16 = 0)
  | [a, b, c, '='] => (sextet? a).isSome && (sextet? b).isSome && (sextet? c).any (· % 4 = 0)
  | a :: b :: c :: d :: rest =>
    (sextet? a).isSome && (sextet? b).isSome && (sextet? c).isSome && (sextet? d).isSome
      && isPaddedBase64 rest
  | _ => false

/-- Blanks may stand anywhere. -/
def isBase64Binary (cs : List Char) : Bool := isPaddedBase64 (cs.filter fun c ↦ !Text.isBlank c)

end OntologyGuard.Xsd

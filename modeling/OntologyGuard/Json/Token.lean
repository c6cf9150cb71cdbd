import OntologyGuard.Json.Basic

/-!
The words of a JSON text. The scanner looks at one character at a time and remembers in its state
what it has seen of the current word. Octets that spell no character may stand only in strings.
-/

namespace OntologyGuard.Json

inductive Token where
  | openArray
  | closeArray
  | openObject
  | closeObject
  | comma
  | colon
  | null
  | bool (value : Bool)
  | number (literal : String)
  | string (text : JsonText)

namespace Token

def isSpace (c : Char) : Bool := c = ' ' || c = '\n' || c = '\t' || c = '\r'

def isNumberPart (c : Char) : Bool := c.isDigit || c = '-' || c = '+' || c = '.' || c = 'e' || c = 'E'

def digits? (cs : List Char) : Option (List Char) :=
  match cs with
  | c :: rest => if c.isDigit then some (rest.dropWhile Char.isDigit) else none
  | [] => none

def integerPart? : List Char → Option (List Char)
  | '0' :: rest => some rest
  | cs => digits? cs

def fractionPart? : List Char → Option (List Char)
  | '.' :: rest => digits? rest
  | cs => some cs

def exponentDigits? : List Char → Option (List Char)
  | '+' :: rest => digits? rest
  | '-' :: rest => digits? rest
  | cs => digits? cs

def exponentPart? : List Char → Option (List Char)
  | 'e' :: rest => exponentDigits? rest
  | 'E' :: rest => exponentDigits? rest
  | cs => some cs

def unsigned : List Char → List Char
  | '-' :: rest => rest
  | cs => cs

/-- The grammar of a number: a sign, an integer, a fraction and an exponent. -/
def isNumber (cs : List Char) : Bool :=
  ((integerPart? (unsigned cs)).bind fractionPart?).bind exponentPart? == some []

def isHighSurrogate (n : Nat) : Bool := 0xD800 ≤ n && n < 0xDC00

def isLowSurrogate (n : Nat) : Bool := 0xDC00 ≤ n && n < 0xE000

/-- The text of code units, where two escapes may spell one character as a surrogate pair. A unit is
`none` where an octet spells no character. -/
def joinUnits : List (Option Nat) → List Char → JsonText
  | [], seen => some (String.ofList seen.reverse)
  | none :: _, _ => none
  | [some unit], seen =>
    if isHighSurrogate unit || isLowSurrogate unit then none
    else some (String.ofList (Char.ofNat unit :: seen).reverse)
  | some _ :: none :: _, _ => none
  | some unit :: some next :: rest, seen =>
    if isHighSurrogate unit then
      if isLowSurrogate next then
        joinUnits rest (Char.ofNat (0x10000 + (unit - 0xD800) * 0x400 + (next - 0xDC00)) :: seen)
      else none
    else if isLowSurrogate unit then none
    else joinUnits (some next :: rest) (Char.ofNat unit :: seen)

def hexDigit? (c : Char) : Option Nat :=
  if '0' ≤ c ∧ c ≤ '9' then some (c.toNat - '0'.toNat)
  else if 'a' ≤ c ∧ c ≤ 'f' then some (c.toNat - 'a'.toNat + 10)
  else if 'A' ≤ c ∧ c ≤ 'F' then some (c.toNat - 'A'.toNat + 10)
  else none

def escape? : Char → Option Char
  | '"' => some '"'
  | '\\' => some '\\'
  | '/' => some '/'
  | 'b' => some '\x08'
  | 'f' => some '\x0c'
  | 'n' => some '\n'
  | 'r' => some '\r'
  | 't' => some '\t'
  | _ => none

/-- What the scanner has seen of the current word, last character first. -/
inductive State where
  | between
  | word (seen : List Char)
  | number (seen : List Char)
  | string (units : List (Option Nat))
  | escaped (units : List (Option Nat))
  | hex (units : List (Option Nat)) (value digits : Nat)

def finish? : State → Option (List Token)
  | .between => some []
  | .word seen =>
    match String.ofList seen.reverse with
    | "null" => some [.null]
    | "true" => some [.bool true]
    | "false" => some [.bool false]
    | _ => none
  | .number seen =>
    if isNumber seen.reverse then some [.number (String.ofList seen.reverse)] else none
  | _ => none

def start? (c : Char) : Option (State × List Token) :=
  if isSpace c then some (.between, [])
  else if c = '"' then some (.string [], [])
  else if c = '[' then some (.between, [.openArray])
  else if c = ']' then some (.between, [.closeArray])
  else if c = '\x7b' then some (.between, [.openObject])
  else if c = '\x7d' then some (.between, [.closeObject])
  else if c = ',' then some (.between, [.comma])
  else if c = ':' then some (.between, [.colon])
  else if c.isDigit || c = '-' then some (.number [c], [])
  else if c.isLower then some (.word [c], [])
  else none

def step? (state : State) (c : Char) : Option (State × List Token) :=
  match state with
  | .between => start? c
  | .word seen =>
    if c.isLower then some (.word (c :: seen), [])
    else do
      let before ← finish? (.word seen)
      let (state, after) ← start? c
      return (state, before ++ after)
  | .number seen =>
    if isNumberPart c then some (.number (c :: seen), [])
    else do
      let before ← finish? (.number seen)
      let (state, after) ← start? c
      return (state, before ++ after)
  | .string units =>
    if c = '"' then some (.between, [.string (joinUnits units.reverse [])])
    else if c = '\\' then some (.escaped units, [])
    else if c.toNat < 0x20 then none
    else some (.string (some c.toNat :: units), [])
  | .escaped units =>
    if c = 'u' then some (.hex units 0 0, [])
    else (escape? c).map fun e ↦ (.string (some e.toNat :: units), [])
  | .hex units value digits => do
    let d ← hexDigit? c
    let value := value * 16 + d
    return if digits = 3 then (.string (some value :: units), [])
      else (.hex units value (digits + 1), [])

def skip? : State → Option State
  | .string units => some (.string (none :: units))
  | _ => none

/-- The tokens of a text, given the state in which it begins and the tokens already found, last
first. -/
def scanFrom : List (Option Char) → State → List Token → Option (List Token)
  | [], state, found => (finish? state).map fun last ↦ (last.reverse ++ found).reverse
  | none :: rest, state, found =>
    match skip? state with
    | none => none
    | some state => scanFrom rest state found
  | some c :: rest, state, found =>
    match step? state c with
    | none => none
    | some (state, new) => scanFrom rest state (new.reverse ++ found)

def scan? (cs : List (Option Char)) : Option (List Token) := scanFrom cs .between []

end Token

end OntologyGuard.Json

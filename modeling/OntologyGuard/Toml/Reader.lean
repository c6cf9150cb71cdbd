import OntologyGuard.Calendar
import OntologyGuard.Text.Numeral
import OntologyGuard.Toml.Basic

namespace OntologyGuard.Toml

abbrev Parser := StateT (List Char) Option

namespace Parser

def run {α : Type} (parser : Parser α) (cs : List Char) : Option (α × List Char) := parser cs

def satisfy (p : Char → Bool) : Parser Char := fun
  | c :: rest => if p c then some (c, rest) else none
  | [] => none

def char (c : Char) : Parser Unit := do let _ ← satisfy (· = c)

def literal (s : String) : Parser Unit := fun cs ↦
  if s.toList.isPrefixOf cs then some ((), cs.drop s.toList.length) else none

def ahead (c : Char) : Parser Unit := fun cs ↦
  if cs.head? = some c then some ((), cs) else none

def atEnd : Parser Unit := fun
  | [] => some ((), [])
  | _ :: _ => none

def takeWhile (p : Char → Bool) : Parser (List Char) := fun cs ↦
  some (cs.takeWhile p, cs.dropWhile p)

def skipWhile (p : Char → Bool) : Parser Unit := do let _ ← takeWhile p

def repeated {α : Type} (parser : Parser α) : Nat → List Char → List α × List Char
  | 0, cs => ([], cs)
  | n + 1, cs =>
    match parser.run cs with
    | none => ([], cs)
    | some (a, rest) =>
      let (more, rest) := repeated parser n rest
      (a :: more, rest)

/-- Repeats a parser that takes at least one character each time it succeeds. -/
def many {α : Type} (parser : Parser α) : Parser (List α) :=
  fun cs ↦ some (repeated parser cs.length cs)

def takeWhile1 (p : Char → Bool) : Parser (List Char) := do
  return (← satisfy p) :: (← takeWhile p)

def skipMany {α : Type} (parser : Parser α) : Parser Unit := do let _ ← many parser

def passed {α : Type} (parser : Parser α) : Parser (List Char) := fun cs ↦
  (parser.run cs).map fun (_, rest) ↦ (cs.take (cs.length - rest.length), rest)

def check (condition : Bool) : Parser Unit := if condition then pure () else failure

def isSpace (c : Char) : Bool := c = ' ' || c = '\t'

def space : Parser Unit := skipWhile isSpace

def newLine : Parser Unit := char '\n' <|> literal "\r\n"

/-- Neither a control character, the tab apart, nor the delete character. -/
def isPlain (c : Char) : Bool := c = '\t' || (0x20 ≤ c.toNat && c.toNat ≠ 0x7F)

def comment : Parser Unit := do
  char '#'
  skipWhile isPlain

def blank : Parser Unit := do let _ ← satisfy isSpace

def filler : Parser Unit := skipMany (blank <|> newLine <|> comment)

def hexValue? (c : Char) : Option Nat :=
  if c.isDigit then some (c.toNat - '0'.toNat)
  else if 'a' ≤ c ∧ c ≤ 'f' then some (c.toNat - 'a'.toNat + 10)
  else if 'A' ≤ c ∧ c ≤ 'F' then some (c.toNat - 'A'.toNat + 10)
  else none

def hexDigit : Parser Nat := fun
  | c :: rest => (hexValue? c).map (·, rest)
  | [] => none

def codePoint : Nat → Nat → Parser Char
  | 0, value => if value.isValidChar then pure (Char.ofNat value) else failure
  | digits + 1, value => do codePoint digits (value * 16 + (← hexDigit))

def escape : Parser Char := do
  char '\\'
  match ← satisfy fun _ ↦ true with
  | 'b' => return '\x08'
  | 't' => return '\t'
  | 'n' => return '\n'
  | 'f' => return '\x0c'
  | 'r' => return '\r'
  | '"' => return '"'
  | '\\' => return '\\'
  | 'u' => codePoint 4 0
  | 'U' => codePoint 8 0
  | _ => failure

def basicChar : Parser Char := satisfy (fun c ↦ isPlain c && c ≠ '"' && c ≠ '\\') <|> escape

def basicString : Parser String := do
  char '"'
  let cs ← many basicChar
  char '"'
  return String.ofList cs

def literalString : Parser String := do
  char '\''
  let cs ← takeWhile fun c ↦ isPlain c && c ≠ '\''
  char '\''
  return String.ofList cs

/-- A line end, which counts as one character however it is written. -/
def lineBreak : Parser Char := do
  newLine
  return '\n'

/-- Quotes in a string of several lines: up to two, if more content or the end follows. -/
def innerQuotes (quote : Char) : Parser (List Char) := fun cs ↦
  let count := (cs.takeWhile (· = quote)).length
  if count = 0 ∨ count = 3 ∨ 6 ≤ count then none
  else
    let kept := if count < 3 then count else count - 3
    some (List.replicate kept quote, cs.drop kept)

/-- A backslash at the end of a line, with all blanks and line ends that follow. -/
def continuation : Parser Unit := do
  char '\\'
  space
  newLine
  skipMany (blank <|> newLine)

def one (parser : Parser Char) : Parser (List Char) := do return [← parser]

def longBasicString : Parser String := do
  literal "\"\"\""
  let _ ← optional newLine
  let parts ← many
    ((do continuation; return []) <|> one basicChar <|> one lineBreak <|> innerQuotes '"')
  literal "\"\"\""
  return String.ofList parts.flatten

def longLiteralString : Parser String := do
  literal "'''"
  let _ ← optional newLine
  let parts ← many
    (one (satisfy fun c ↦ isPlain c && c ≠ '\'') <|> one lineBreak <|> innerQuotes '\'')
  literal "'''"
  return String.ofList parts.flatten

def isBareKeyChar (c : Char) : Bool := c.isAlphanum || c = '-' || c = '_'

def simpleKey : Parser String :=
  (do return String.ofList (← takeWhile1 isBareKeyChar)) <|> basicString <|> literalString

/-- Longer dotted keys and deeper nesting are refused. -/
def depthLimit : Nat := 79

def key : Parser (List String) := do
  let first ← simpleKey
  let more ← many do
    space
    char '.'
    space
    simpleKey
  check (more.length < depthLimit)
  return first :: more

def digits (isDigit : Char → Bool) : Parser (List Char) := do
  let first ← satisfy isDigit
  let more ← many (satisfy isDigit <|> do
    char '_'
    satisfy isDigit)
  return first :: more

def sign : Parser (Option Char) := optional (satisfy fun c ↦ c = '+' || c = '-')

def decimalDigits : Parser (List Char) := do
  let cs ← digits Char.isDigit
  check (cs.length = 1 || cs.head? ≠ some '0')
  return cs

def fitsInteger (n : Int) : Bool := Int64.minValue.toInt ≤ n && n ≤ Int64.maxValue.toInt

def decimalInteger : Parser Int := do
  let negative := (← sign) = some '-'
  let magnitude := Text.digitsValue (← decimalDigits)
  return if negative then -magnitude else magnitude

def basedInteger (mark : String) (base : Nat) : Parser Int := do
  literal mark
  let cs ← digits fun c ↦ (hexValue? c).any (· < base)
  return (cs.foldl (fun n c ↦ n * base + (hexValue? c).getD 0) 0 : Nat)

def integer : Parser Int := do
  let n ← basedInteger "0x" 16 <|> basedInteger "0o" 8 <|> basedInteger "0b" 2 <|> decimalInteger
  check (fitsInteger n)
  return n

def exponent : Parser Int := do
  let _ ← satisfy fun c ↦ c = 'e' || c = 'E'
  let negative := (← sign) = some '-'
  let magnitude := Text.digitsValue (← digits Char.isDigit)
  return if negative then -magnitude else magnitude

/-- The least number that rounds to no finite double: half a unit in the last place above the
greatest one. -/
def infinityBound : Nat := Nat.pow 2 1024 - Nat.pow 2 970

/-- Whether digits times a power of ten round to infinity. The number of digits decides all but the
close cases. -/
def isInfinite (cs : List Char) (power : Int) : Bool :=
  let significant := cs.dropWhile (· = '0')
  let size := significant.length + power
  let value := Text.digitsValue significant
  if significant.isEmpty || size < 300 then false
  else if 310 < size then true
  else if power < 0 then infinityBound * Nat.pow 10 power.natAbs ≤ value
  else infinityBound ≤ value * Nat.pow 10 power.toNat

/-- Digits with a fraction, an exponent or both, as digits and a power of ten. -/
def scientific : Parser (List Char × Int) := do
  let whole ← decimalDigits
  (do return (whole, ← exponent)) <|> do
    char '.'
    let fraction ← digits Char.isDigit
    let power ← optional exponent
    return (whole ++ fraction, power.getD 0 - fraction.length)

/-- A number that is too great is refused, but not one that is too small. -/
def float : Parser Unit := do
  let sign ← sign
  literal "inf" <|> literal "nan" <|> do
    let (cs, power) ← scientific
    check (sign = some '-' || !isInfinite cs power)

def fixed : Nat → Nat → Parser Nat
  | 0, value => pure value
  | width + 1, value => do
    let c ← satisfy Char.isDigit
    fixed width (value * 10 + (c.toNat - '0'.toNat))

def date : Parser Unit := do
  let year ← fixed 4 0
  char '-'
  let month ← fixed 2 0
  char '-'
  let day ← fixed 2 0
  check (Calendar.isDate year month day)

def time : Parser Unit := do
  let hour ← fixed 2 0
  char ':'
  let minute ← fixed 2 0
  char ':'
  let second ← fixed 2 0
  check (hour < 24 && minute < 60 && second ≤ 60)
  let _ ← optional do
    char '.'
    takeWhile1 Char.isDigit

def zone : Parser Unit := do
  (do let _ ← satisfy fun c ↦ c = 'Z' || c = 'z') <|> do
    let _ ← satisfy fun c ↦ c = '+' || c = '-'
    let hour ← fixed 2 0
    char ':'
    let minute ← fixed 2 0
    check (hour < 24 && minute < 60)

def dateTime : Parser Unit :=
  (do
    date
    let _ ← optional do
      let _ ← satisfy fun c ↦ c = 'T' || c = 't' || c = ' '
      time
      optional zone) <|> time

def boolean : Parser Bool :=
  (do literal "true"; return true) <|> do literal "false"; return false

def scalar : Parser Toml :=
  (do return .string (← longBasicString)) <|> (do return .string (← longLiteralString))
    <|> (do return .string (← basicString)) <|> (do return .string (← literalString))
    <|> (do return .boolean (← boolean))
    <|> (do return .dateTime (String.ofList (← passed dateTime)))
    <|> (do return .float (String.ofList (← passed float)))
    <|> do return .integer (← integer)

def setting (value : Parser Toml) : Parser (List String × String × Toml) := do
  let path ← key
  space
  char '='
  space
  return (path.dropLast, path.getLastD "", ← value)

def array (value : Parser Toml) : Parser Toml := do
  char '['
  filler
  let items ← many do
    let item ← value
    filler
    (do char ','; filler) <|> ahead ']'
    return item
  char ']'
  return .array items

def inlineTableOf (value : Parser Toml) : Parser Toml := do
  char '\x7b'
  space
  let first ← optional (setting value)
  let more ← many do
    space
    char ','
    space
    setting value
  space
  char '\x7d'
  check (first.isSome || more.isEmpty)
  match inlineTable (first.toList ++ more) with
  | some result => return result
  | none => failure

def value : Nat → Parser Toml
  | 0 => scalar
  | depth + 1 => scalar <|> array (value depth) <|> inlineTableOf (value depth)

def header : Parser Statement :=
  (do
    literal "[["
    space
    let path ← key
    space
    literal "]]"
    return .openItem path) <|> do
    char '['
    space
    let path ← key
    space
    char ']'
    return .openTable path

def statement : Parser Statement :=
  header <|> (do
    let (path, key, value) ← setting (value depthLimit)
    return .set path key value) <|> pure .blank

def line : Parser Statement := do
  space
  let statement ← statement
  space
  let _ ← optional comment
  return statement

def document : Parser (List Statement) := do
  let _ ← optional (char '\uFEFF')
  let first ← line
  let more ← many do
    newLine
    line
  atEnd
  return first :: more

end Parser

def parse? (text : String) : Option Toml := do
  let (statements, _) ← Parser.document.run text.toList
  ofStatements statements

end OntologyGuard.Toml

import OntologyGuard.Json.Basic

namespace OntologyGuard.Json

def hexDigit (n : Nat) : Char :=
  if n < 10 then Char.ofNat ('0'.toNat + n) else Char.ofNat ('a'.toNat + (n - 10))

/-- Quotes, backslashes and control characters are escaped, all else stands for itself. -/
def escapeChar (c : Char) : List Char :=
  if c = '"' then ['\\', '"']
  else if c = '\\' then ['\\', '\\']
  else if c = '\x08' then ['\\', 'b']
  else if c = '\x0c' then ['\\', 'f']
  else if c = '\n' then ['\\', 'n']
  else if c = '\r' then ['\\', 'r']
  else if c = '\t' then ['\\', 't']
  else if c.toNat < 0x20 then ['\\', 'u', '0', '0', hexDigit (c.toNat / 16), hexDigit (c.toNat % 16)]
  else [c]

def quote (s : String) : List Char := '"' :: s.toList.flatMap escapeChar ++ ['"']

/-- A string without a text has no printed form of its own; it prints as the empty string. -/
def quoteText (s : JsonText) : List Char := quote (s.getD "")

mutual

def compactChars : Json → List Char
  | .null => "null".toList
  | .bool true => "true".toList
  | .bool false => "false".toList
  | .number literal => literal.toList
  | .string s => quoteText s
  | .array items => '[' :: compactItems items ++ [']']
  | .object members => '\x7b' :: compactMembers members ++ ['\x7d']

def compactItems : List Json → List Char
  | [] => []
  | [item] => compactChars item
  | item :: next :: rest => compactChars item ++ ',' :: compactItems (next :: rest)

def compactMembers : List (JsonText × Json) → List Char
  | [] => []
  | [(name, value)] => quoteText name ++ ':' :: compactChars value
  | (name, value) :: next :: rest =>
    quoteText name ++ ':' :: compactChars value ++ ',' :: compactMembers (next :: rest)

end

def compact (json : Json) : String := String.ofList json.compactChars

def newLine (depth : Nat) : List Char := '\n' :: List.replicate (2 * depth) ' '

mutual

def indentedChars (depth : Nat) : Json → List Char
  | .null => "null".toList
  | .bool true => "true".toList
  | .bool false => "false".toList
  | .number literal => literal.toList
  | .string s => quoteText s
  | .array [] => ['[', ']']
  | .array (item :: rest) =>
    '[' :: newLine (depth + 1) ++ indentedItems (depth + 1) (item :: rest) ++ newLine depth ++ [']']
  | .object [] => ['\x7b', '\x7d']
  | .object (member :: rest) =>
    '\x7b' :: newLine (depth + 1) ++ indentedMembers (depth + 1) (member :: rest)
      ++ newLine depth ++ ['\x7d']

def indentedItems (depth : Nat) : List Json → List Char
  | [] => []
  | [item] => indentedChars depth item
  | item :: next :: rest =>
    indentedChars depth item ++ ',' :: newLine depth ++ indentedItems depth (next :: rest)

def indentedMembers (depth : Nat) : List (JsonText × Json) → List Char
  | [] => []
  | [(name, value)] => quoteText name ++ ':' :: ' ' :: indentedChars depth value
  | (name, value) :: next :: rest =>
    quoteText name ++ ':' :: ' ' :: indentedChars depth value ++ ',' :: newLine depth
      ++ indentedMembers depth (next :: rest)

end

/-- The text with one item or member to a line, indented by two spaces for each level. -/
def indented (json : Json) : String := String.ofList (json.indentedChars 0)

end OntologyGuard.Json

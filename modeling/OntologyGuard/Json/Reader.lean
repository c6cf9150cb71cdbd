import OntologyGuard.Json.Token
import OntologyGuard.Text.Utf8

/-!
Reading a JSON value from its tokens. Open arrays and objects are kept on an explicit stack, so
nesting may be of any depth.
-/

namespace OntologyGuard.Json

namespace Reader

/-- An array or object that is still open; its content is last first. -/
inductive Frame where
  | array (items : List Json)
  | object (members : List (JsonText × Json)) (name : JsonText)

inductive Expecting where
  | value
  | itemOrClose
  | memberOrClose (members : List (JsonText × Json))
  | member (members : List (JsonText × Json))
  | colon (members : List (JsonText × Json)) (name : JsonText)
  /-- A comma or the end of the innermost array or object. -/
  | more
  | nothing (result : Json)

def absorb (value : Json) : List Frame → Expecting × List Frame
  | [] => (.nothing value, [])
  | .array items :: frames => (.more, .array (value :: items) :: frames)
  | .object members name :: frames => (.more, .object ((name, value) :: members) none :: frames)

def startValue? (token : Token) (frames : List Frame) : Option (Expecting × List Frame) :=
  match token with
  | .null => some (absorb .null frames)
  | .bool b => some (absorb (.bool b) frames)
  | .number n => some (absorb (.number n) frames)
  | .string s => some (absorb (.string s) frames)
  | .openArray => some (.itemOrClose, .array [] :: frames)
  | .openObject => some (.memberOrClose [], frames)
  | _ => none

def step? (token : Token) (expecting : Expecting) (frames : List Frame) :
    Option (Expecting × List Frame) :=
  match expecting, token, frames with
  | .value, token, frames => startValue? token frames
  | .itemOrClose, .closeArray, .array items :: frames =>
    some (absorb (.array items.reverse) frames)
  | .itemOrClose, token, frames => startValue? token frames
  | .memberOrClose members, .closeObject, frames =>
    some (absorb (.object members.reverse) frames)
  | .memberOrClose members, .string name, frames => some (.colon members name, frames)
  | .member members, .string name, frames => some (.colon members name, frames)
  | .colon members name, .colon, frames => some (.value, .object members name :: frames)
  | .more, .comma, .array items :: frames => some (.value, .array items :: frames)
  | .more, .comma, .object members _ :: frames => some (.member members, frames)
  | .more, .closeArray, .array items :: frames => some (absorb (.array items.reverse) frames)
  | .more, .closeObject, .object members _ :: frames =>
    some (absorb (.object members.reverse) frames)
  | _, _, _ => none

def run : List Token → Expecting → List Frame → Option Json
  | [], .nothing result, [] => some result
  | [], _, _ => none
  | token :: rest, expecting, frames =>
    match step? token expecting frames with
    | none => none
    | some (expecting, frames) => run rest expecting frames

end Reader

/-- The one value that characters spell, with nothing but blanks around it. -/
def ofChars? (cs : List (Option Char)) : Option Json :=
  (Token.scan? cs).bind fun tokens ↦ Reader.run tokens .value []

def parse? (text : String) : Option Json := ofChars? (text.toList.map some)

/-- The value in octets. A string in it need not be well formed to be passed over. -/
def parseBytes? (bytes : Bytes) : Option Json := ofChars? (Text.chars bytes)

theorem parseBytes?_utf8 (s : String) : parseBytes? (Text.utf8 s) = parse? s := by
  rw [parseBytes?, parse?, Text.chars_utf8]

end OntologyGuard.Json

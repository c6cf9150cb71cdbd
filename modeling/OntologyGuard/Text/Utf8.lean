namespace OntologyGuard

abbrev Bytes := List UInt8

namespace Text

def utf8 (s : String) : Bytes := s.toByteArray.data.toList

instance : Coe String Bytes := ⟨utf8⟩

def ofUtf8? (bytes : Bytes) : Option String := String.fromUTF8? ⟨bytes.toArray⟩

theorem ofUtf8?_utf8 (s : String) : ofUtf8? (utf8 s) = some s := by
  have h : (⟨(utf8 s).toArray⟩ : ByteArray) = s.toByteArray := by simp [utf8]
  simp only [ofUtf8?, h, String.fromUTF8?, s.isValidUTF8, dite_true]
  rfl

/-- The character that the first octets spell, and how many octets it has. -/
def firstChar? (bytes : Bytes) : Option (Char × Nat) :=
  [1, 2, 3, 4].findSome? fun size ↦
    match (ofUtf8? (bytes.take size)).map String.toList with
    | some [c] => some (c, size)
    | _ => none

/-- The characters that octets spell, with `none` for each octet that belongs to no character. The
first argument is the number of octets to pass over. -/
def readableChars : Nat → Bytes → List (Option Char)
  | _, [] => []
  | passed + 1, _ :: rest => readableChars passed rest
  | 0, byte :: rest =>
    match firstChar? (byte :: rest) with
    | some (c, size) => some c :: readableChars (size - 1) rest
    | none => none :: readableChars 0 rest

/-- The characters of a text in octets, with `none` for what is not well formed. -/
def chars (bytes : Bytes) : List (Option Char) :=
  match ofUtf8? bytes with
  | some text => text.toList.map some
  | none => readableChars 0 bytes

theorem chars_utf8 (s : String) : chars (utf8 s) = s.toList.map some := by
  simp [chars, ofUtf8?_utf8]

def isContinuation (byte : UInt8) : Bool := byte.toNat / 64 == 2

/-- Whether the first octet of a character of three octets or four can stand before the second. -/
def startsLong (first second : UInt8) : Bool :=
  match first.toNat with
  | 0xE0 => isContinuation second && 0xA0 ≤ second.toNat
  | 0xED => isContinuation second && second.toNat < 0xA0
  | 0xF0 => isContinuation second && 0x90 ≤ second.toNat
  | 0xF4 => isContinuation second && second.toNat < 0x90
  | n => isContinuation second && 0xE0 ≤ n && n < 0xF4

/-- How many of the first octets could begin a character, where they begin none. -/
def brokenLength : Bytes → Nat
  | first :: second :: rest =>
    if !startsLong first second then 1
    else if 0xF0 ≤ first.toNat && rest.head?.any isContinuation then 3
    else 2
  | _ => 1

/-- The characters that octets spell, with one replacement character for each stretch that could begin
a character and does not. The first argument is the number of octets to pass over. -/
def replacedChars : Nat → Bytes → List Char
  | _, [] => []
  | passed + 1, _ :: rest => replacedChars passed rest
  | 0, byte :: rest =>
    match firstChar? (byte :: rest) with
    | some (c, size) => c :: replacedChars (size - 1) rest
    | none => '\uFFFD' :: replacedChars (brokenLength (byte :: rest) - 1) rest

/-- The text in octets, with replacement characters for what is not well formed. -/
def lossy (bytes : Bytes) : String :=
  match ofUtf8? bytes with
  | some text => text
  | none => String.ofList (replacedChars 0 bytes)

@[simp] theorem lossy_utf8 (s : String) : lossy (utf8 s) = s := by
  simp [lossy, ofUtf8?_utf8]

end Text

end OntologyGuard

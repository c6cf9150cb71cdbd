import OntologyGuard.Data.OrderedMap
import OntologyGuard.Text.Utf8

/-!
The binary form of values: words are little-endian, lists and texts begin with their length in eight
octets, an optional value with one octet, and the case of a choice is a word of four octets. Reading
takes a value off the front of the octets.
-/

namespace OntologyGuard.Binary

inductive Fault where
  | endOfInput
  | invalidOption
  | invalidBool
  | invalidUtf8
  | unknownCase
  deriving DecidableEq, Inhabited

structure Codec (α : Type) where
  write : α → Bytes
  read : Bytes → Except Fault (α × Bytes)

def littleEndian : Nat → Nat → Bytes
  | 0, _ => []
  | width + 1, n => UInt8.ofNat (n % 256) :: littleEndian width (n / 256)

def ofLittleEndian (bytes : Bytes) : Nat := bytes.foldr (fun b n ↦ b.toNat + 256 * n) 0

def split (n : Nat) (bytes : Bytes) : Except Fault (Bytes × Bytes) :=
  if n ≤ bytes.length then .ok (bytes.splitAt n) else .error .endOfInput

def readMany {α : Type} (read : Bytes → Except Fault (α × Bytes)) :
    Nat → Bytes → Except Fault (List α × Bytes)
  | 0, bytes => .ok ([], bytes)
  | n + 1, bytes => do
    let (a, bytes) ← read bytes
    let (rest, bytes) ← readMany read n bytes
    return (a :: rest, bytes)

namespace Codec

variable {α β : Type}

def natural (width : Nat) : Codec Nat where
  write n := littleEndian width n
  read bytes := do
    let (word, rest) ← split width bytes
    return (ofLittleEndian word, rest)

def map (codec : Codec α) (view : β → α) (make : α → β) : Codec β where
  write b := codec.write (view b)
  read bytes := (codec.read bytes).map fun (a, rest) ↦ (make a, rest)

def word : Codec UInt32 := (natural 4).map UInt32.toNat UInt32.ofNat

def text : Codec String where
  write s := (natural 8).write (Text.utf8 s).length ++ Text.utf8 s
  read bytes := do
    let (length, rest) ← (natural 8).read bytes
    let (content, rest) ← split length rest
    match Text.ofUtf8? content with
    | some s => return (s, rest)
    | none => throw .invalidUtf8

def flag (fault : Fault) : Codec Bool where
  write b := [if b then 1 else 0]
  read
    | [] => .error .endOfInput
    | b :: rest => if b = 0 then .ok (false, rest) else if b = 1 then .ok (true, rest) else .error fault

def bool : Codec Bool := flag .invalidBool

def option (codec : Codec α) : Codec (Option α) where
  write
    | none => (flag .invalidOption).write false
    | some a => (flag .invalidOption).write true ++ codec.write a
  read bytes := do
    let (present, rest) ← (flag .invalidOption).read bytes
    if present then
      let (a, rest) ← codec.read rest
      return (some a, rest)
    else return (none, rest)

def pair (first : Codec α) (second : Codec β) : Codec (α × β) where
  write p := first.write p.1 ++ second.write p.2
  read bytes := do
    let (a, rest) ← first.read bytes
    let (b, rest) ← second.read rest
    return ((a, b), rest)

def list (codec : Codec α) : Codec (List α) where
  write items := (natural 8).write items.length ++ items.flatMap codec.write
  read bytes := do
    let (length, rest) ← (natural 8).read bytes
    readMany codec.read length rest

/-- The entries in order; where a key is repeated, the last value counts. -/
def orderedMap [DecidableEq α] (key : Codec α) (value : Codec β) : Codec (OrderedMap α β) :=
  (list (key.pair value)).map OrderedMap.entries OrderedMap.ofList

def choice (number : α → Nat) (content : α → Bytes)
    (cases : List (Bytes → Except Fault (α × Bytes))) : Codec α where
  write a := (natural 4).write (number a) ++ content a
  read bytes := do
    let (n, rest) ← (natural 4).read bytes
    match cases[n]? with
    | some read => read rest
    | none => throw .unknownCase

def reading (codec : Codec α) (wrap : α → β) : Bytes → Except Fault (β × Bytes) :=
  fun bytes ↦ (codec.read bytes).map fun (a, rest) ↦ (wrap a, rest)

def constant (b : β) : Bytes → Except Fault (β × Bytes) := fun bytes ↦ .ok (b, bytes)

end Codec

end OntologyGuard.Binary

import OntologyGuard.Calendar
import OntologyGuard.Text.Blank
import OntologyGuard.Text.Numeral

/-!
Points in time and their written form, a date and a time with a zone as in RFC 3339. Reading is
lenient about blanks and leading zeros; the written form is always in universal time.
-/

namespace OntologyGuard

structure Timestamp where
  day : Int := 0
  second : Nat := 0
  /-- From a thousand million on in a leap second, which follows the second. -/
  nanosecond : Nat := 0
  deriving DecidableEq, Inhabited

namespace Timestamp

def padded (width n : Nat) : String :=
  let digits := n.repr
  String.ofList (List.replicate (width - digits.length) '0') ++ digits

/-- Four digits, or a sign and at least four digits outside the years 0 to 9999. -/
def yearText (year : Int) : String :=
  if 0 ≤ year ∧ year ≤ 9999 then padded 4 year.toNat
  else (if year < 0 then "-" else "+") ++ padded 4 year.natAbs

def fractionText (nanosecond : Nat) : String :=
  if nanosecond = 0 then ""
  else if nanosecond % 1000000 = 0 then "." ++ padded 3 (nanosecond / 1000000)
  else if nanosecond % 1000 = 0 then "." ++ padded 6 (nanosecond / 1000)
  else "." ++ padded 9 nanosecond

/-- The written form with a given text for the zone of universal time. -/
def textWith (zone : String) (t : Timestamp) : String :=
  let date := Calendar.ofDayNumber t.day
  let leap := t.nanosecond / 1000000000
  yearText date.year ++ "-" ++ padded 2 date.month ++ "-" ++ padded 2 date.day ++ "T"
    ++ padded 2 (t.second / 3600) ++ ":" ++ padded 2 (t.second / 60 % 60) ++ ":"
    ++ padded 2 (t.second % 60 + leap) ++ fractionText (t.nanosecond % 1000000000) ++ zone

def text (t : Timestamp) : String := t.textWith "Z"

def textWithOffset (t : Timestamp) : String := t.textWith "+00:00"

abbrev Reader (α : Type) := List Char → Option (α × List Char)

def skipBlanks (cs : List Char) : List Char := cs.dropWhile Text.isBlank

def digits (limit : Nat) : Reader Nat := fun cs ↦
  let found := (cs.take limit).takeWhile Char.isDigit
  if found.isEmpty then none else some (Text.digitsValue found, cs.drop found.length)

def field (low high : Nat) : Reader Nat := fun cs ↦
  (digits 2 (skipBlanks cs)).filter fun (n, _) ↦ low ≤ n && n ≤ high

def year : Reader Int := fun cs ↦
  match skipBlanks cs with
  | '-' :: rest => (digits rest.length rest).map fun (n, rest) ↦ (-n, rest)
  | '+' :: rest => (digits rest.length rest).map fun (n, rest) ↦ (n, rest)
  | cs => (digits 4 cs).map fun (n, rest) ↦ (n, rest)

def mark (c : Char) (cs : List Char) : Option (List Char) :=
  match skipBlanks cs with
  | head :: rest => if head = c then some rest else none
  | [] => none

def separator : List Char → Option (List Char)
  | 'T' :: rest | 't' :: rest | ' ' :: rest => some rest
  | _ => none

/-- Nanoseconds after a point; digits from the tenth on are passed over. -/
def fraction : Reader Nat := fun cs ↦
  match cs with
  | '.' :: rest =>
    (digits 9 rest).map fun (n, more) ↦
      (n * Nat.pow 10 (9 - (rest.length - more.length)), more.dropWhile Char.isDigit)
  | _ => some (0, cs)

/-- Hours and minutes of two digits each, with colons and blanks between them or not, as minutes. -/
def offset : Reader Nat
  | a :: b :: rest =>
    if a.isDigit && b.isDigit then
      match rest.dropWhile fun c ↦ c = ':' || Text.isBlank c with
      | c :: d :: rest =>
        if c.isDigit && d.isDigit && c < '6' then
          some (Text.digitsValue [a, b] * 60 + Text.digitsValue [c, d], rest)
        else none
      | _ => none
    else none
  | _ => none

def zone : Reader Int
  | 'Z' :: rest | 'z' :: rest => some (0, rest)
  | '+' :: rest => (offset rest).map fun (n, rest) ↦ (n, rest)
  | '-' :: rest | '−' :: rest => (offset rest).map fun (n, rest) ↦ (-n, rest)
  | a :: b :: c :: rest =>
    if String.ofList ([a, b, c].map Char.toLower) = "utc" then some (0, rest) else none
  | _ => none

def shift (date : Calendar.Date) (second nanosecond : Nat) (ahead : Int) : Option Timestamp :=
  let total := Calendar.dayNumber date * 86400 + second - ahead * 60
  let result : Timestamp :=
    { day := total / 86400, second := (total % 86400).toNat, nanosecond }
  if Calendar.isSupportedYear (Calendar.ofDayNumber result.day).year then some result else none

def parse? (text : String) : Option Timestamp := do
  let (year, rest) ← year text.toList
  let (month, rest) ← (mark '-' rest).bind (field 1 12)
  let (day, rest) ← (mark '-' rest).bind (field 1 31)
  let (hour, rest) ← (separator rest).bind (field 0 23)
  let (minute, rest) ← (mark ':' rest).bind (field 0 59)
  let (second, rest) ← (mark ':' rest).bind (field 0 60)
  let (nanosecond, rest) ← fraction rest
  let (ahead, rest) ← zone (skipBlanks rest)
  if !(skipBlanks rest).isEmpty || 1440 ≤ ahead.natAbs || !Calendar.isDate year month day then none
  else
    let leap := second = 60
    shift ⟨year, month, day⟩ (hour * 3600 + minute * 60 + (if leap then 59 else second))
      (nanosecond + if leap then 1000000000 else 0) ahead

end Timestamp

end OntologyGuard

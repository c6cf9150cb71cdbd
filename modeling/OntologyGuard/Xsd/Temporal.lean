import OntologyGuard.Calendar
import OntologyGuard.Xsd.Numeral

/-!
The written forms of dates, times and their time zones. A reader takes a form off the front of a
text and gives the digits of its fields with the rest; whether the fields denote a date or a time of
day is judged on their numbers, which only ASCII digits have.
-/

namespace OntologyGuard.Xsd

open Text (isDecimalDigit)

def pair? : List Char → Option (List Char × List Char)
  | a :: b :: rest => if isDecimalDigit a && isDecimalDigit b then some ([a, b], rest) else none
  | _ => none

def skip? (mark : Char) : List Char → Option (List Char)
  | c :: rest => if c = mark then some rest else none
  | [] => none

def longNumber? (cs : List Char) : Option (List Char × List Char) :=
  let digits := cs.takeWhile isDecimalDigit
  if 4 ≤ digits.length then some (digits, cs.dropWhile isDecimalDigit) else none

def year? : List Char → Option (List Char × List Char)
  | '-' :: rest => (longNumber? rest).map fun (digits, rest) ↦ ('-' :: digits, rest)
  | cs => longNumber? cs

def month? (cs : List Char) : Option (List Char × List Char) := (skip? '-' cs).bind pair?

structure DateFields where
  year : List Char
  month : List Char
  day : List Char

def date? (cs : List Char) : Option (DateFields × List Char) := do
  let (year, rest) ← year? cs
  let (month, rest) ← month? rest
  let (day, rest) ← month? rest
  return (⟨year, month, day⟩, rest)

structure TimeFields where
  hour : List Char
  minute : List Char
  second : List Char

def skipFraction (cs : List Char) : List Char :=
  match cs with
  | '.' :: rest => (skipDigits? rest).getD cs
  | _ => cs

def time? (cs : List Char) : Option (TimeFields × List Char) := do
  let (hour, rest) ← pair? cs
  let (minute, rest) ← (skip? ':' rest).bind pair?
  let (second, rest) ← (skip? ':' rest).bind pair?
  return (⟨hour, minute, second⟩, skipFraction rest)

inductive ZoneFields where
  | absent
  | utc
  | offset (hours minutes : List Char)

def zone? : List Char → Option ZoneFields
  | [] => some .absent
  | ['Z'] => some .utc
  | sign :: rest =>
    if sign = '+' ∨ sign = '-' then do
      let (hours, rest) ← pair? rest
      let (minutes, rest) ← (skip? ':' rest).bind pair?
      if rest.isEmpty then some (.offset hours minutes) else none
    else none

def DateFields.isValid (d : DateFields) : Bool :=
  match integerValue? d.year, Text.natural? d.month, Text.natural? d.day with
  | some year, some month, some day => Calendar.isDate year month day
  | _, _, _ => false

def isValidMonth (month : List Char) : Bool :=
  (Text.natural? month).any fun n ↦ 1 ≤ n && n ≤ 12

def TimeFields.isValid (t : TimeFields) : Bool :=
  match Text.natural? t.hour, Text.natural? t.minute, Text.natural? t.second with
  | some hour, some minute, some second =>
    if hour = 24 then minute = 0 && second = 0 else hour < 24 && minute < 60 && second < 60
  | _, _, _ => false

/-- An offset of at most fourteen hours; digits that have no number pass. -/
def ZoneFields.isValid : ZoneFields → Bool
  | offset hours minutes =>
    match Text.natural? hours, Text.natural? minutes with
    | some hours, some minutes => minutes < 60 && (hours < 14 || (hours = 14 && minutes = 0))
    | _, _ => true
  | _ => true

def ZoneFields.isPresent : ZoneFields → Bool
  | absent => false
  | _ => true

def isValidZone (cs : List Char) : Bool := (zone? cs).any ZoneFields.isValid

def isCalendarDate (cs : List Char) : Bool :=
  (date? cs).any fun (date, rest) ↦ date.isValid && isValidZone rest

def isTimeOfDay (cs : List Char) : Bool :=
  (time? cs).any fun (time, rest) ↦ time.isValid && isValidZone rest

/-- A date and a time around the letter T, with a time zone if one is required. -/
def isDateTime (zoneRequired : Bool) (cs : List Char) : Bool :=
  (date? cs).any fun (date, rest) ↦
    ((skip? 'T' rest).bind time?).any fun (time, rest) ↦
      date.isValid && time.isValid
        && (zone? rest).any fun zone ↦ zone.isValid && (zone.isPresent || !zoneRequired)

def isYear (cs : List Char) : Bool := (year? cs).any fun (_, rest) ↦ isValidZone rest

def isYearMonth (cs : List Char) : Bool :=
  (year? cs).any fun (_, rest) ↦
    (month? rest).any fun (month, rest) ↦ isValidMonth month && isValidZone rest

end OntologyGuard.Xsd

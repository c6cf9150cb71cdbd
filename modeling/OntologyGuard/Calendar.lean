/-!
The Gregorian calendar, extended to all years from -262143 to 262142.
-/

namespace OntologyGuard.Calendar

def isLeapYear (year : Int) : Bool := year % 4 = 0 && (year % 100 ≠ 0 || year % 400 = 0)

def daysInMonth (year : Int) (month : Nat) : Nat :=
  if month = 2 then (if isLeapYear year then 29 else 28)
  else if month = 4 ∨ month = 6 ∨ month = 9 ∨ month = 11 then 30
  else 31

def isSupportedYear (year : Int) : Bool := -262143 ≤ year && year ≤ 262142

def isDate (year : Int) (month day : Nat) : Bool :=
  isSupportedYear year && 1 ≤ month && month ≤ 12 && 1 ≤ day && day ≤ daysInMonth year month

structure Date where
  year : Int
  month : Nat
  day : Nat
  deriving DecidableEq, Inhabited

/-- The days before a month, counted from the first of March. -/
def daysBeforeMonth (month : Nat) : Int := (153 * ((month + 9) % 12) + 2) / 5

/-- Days since the first of January 1970. Years begin in March, so that a leap day comes last. -/
def dayNumber (d : Date) : Int :=
  let year := if d.month ≤ 2 then d.year - 1 else d.year
  365 * year + year / 4 - year / 100 + year / 400 + daysBeforeMonth d.month + d.day - 1 - 719468

/-- The date that is a number of days after the first of January 1970. -/
def ofDayNumber (n : Int) : Date :=
  let days := n + 719468
  let era := days / 146097
  let dayOfEra := days % 146097
  let yearOfEra := (dayOfEra - dayOfEra / 1460 + dayOfEra / 36524 - dayOfEra / 146096) / 365
  let dayOfYear := dayOfEra - (365 * yearOfEra + yearOfEra / 4 - yearOfEra / 100)
  let marchMonth := (5 * dayOfYear + 2) / 153
  let month := ((marchMonth + 2) % 12 + 1).toNat
  { year := yearOfEra + era * 400 + if month ≤ 2 then 1 else 0
    month
    day := (dayOfYear - (153 * marchMonth + 2) / 5 + 1).toNat }

end OntologyGuard.Calendar

import Mathlib.Data.List.TakeWhile
import OntologyGuard.Proofs.Text.DecimalDigit
import OntologyGuard.Xsd.Temporal

namespace OntologyGuard.Xsd

open Text (isDecimalDigit)

structure Number (cs : List Char) : Prop where
  ne_nil : cs ≠ []
  isDigit : ∀ c ∈ cs, isDecimalDigit c = true

inductive Pair : List Char → Prop where
  | digits {a b : Char} (ha : isDecimalDigit a = true) (hb : isDecimalDigit b = true) : Pair [a, b]

inductive Year : List Char → Prop where
  | unsigned {digits : List Char} (hlength : 4 ≤ digits.length)
      (hdigits : ∀ c ∈ digits, isDecimalDigit c = true) : Year digits
  | negative {digits : List Char} (hlength : 4 ≤ digits.length)
      (hdigits : ∀ c ∈ digits, isDecimalDigit c = true) : Year ('-' :: digits)

inductive Fraction : List Char → Prop where
  | absent : Fraction []
  | digits {digits : List Char} (hne : digits ≠ []) (hdigits : ∀ c ∈ digits, isDecimalDigit c = true) :
      Fraction ('.' :: digits)

inductive Zone : List Char → Prop where
  | utc : Zone ['Z']
  | offset {sign : Char} {hours minutes : List Char} (hsign : sign = '+' ∨ sign = '-') (hhours : Pair hours)
      (hminutes : Pair minutes) : Zone (sign :: (hours ++ ':' :: minutes))

def DateFields.text (d : DateFields) : List Char := d.year ++ '-' :: (d.month ++ '-' :: d.day)

structure DateFields.WellFormed (d : DateFields) : Prop where
  year : Year d.year
  month : Pair d.month
  day : Pair d.day

def TimeFields.text (t : TimeFields) : List Char := t.hour ++ ':' :: (t.minute ++ ':' :: t.second)

structure TimeFields.WellFormed (t : TimeFields) : Prop where
  hour : Pair t.hour
  minute : Pair t.minute
  second : Pair t.second

variable {cs rest taken : List Char} {mark : Char}

theorem Pair.isDigit (h : Pair taken) : ∀ c ∈ taken, isDecimalDigit c = true := by
  cases h with
  | digits ha hb => simp [ha, hb]

theorem skip?_eq_some_iff : skip? mark cs = some rest ↔ cs = mark :: rest := by
  cases cs with
  | nil => simp [skip?]
  | cons c cs => by_cases h : c = mark <;> simp [skip?, h]

theorem pair?_eq_some_iff : pair? cs = some (taken, rest) ↔ cs = taken ++ rest ∧ Pair taken := by
  constructor
  · intro h
    unfold pair? at h
    split at h
    next a b more =>
      split at h
      next hdigits =>
        obtain ⟨rfl, rfl⟩ := Prod.mk.inj (Option.some.inj h)
        rw [Bool.and_eq_true] at hdigits
        exact ⟨rfl, .digits hdigits.1 hdigits.2⟩
      next => cases h
    next => cases h
  · intro ⟨hcs, hpair⟩
    cases hpair with
    | digits ha hb => simp [hcs, pair?, ha, hb]

theorem month?_eq_some_iff : month? cs = some (taken, rest) ↔ cs = '-' :: (taken ++ rest) ∧ Pair taken := by
  simp only [month?, Option.bind_eq_some_iff, skip?_eq_some_iff, pair?_eq_some_iff]
  constructor
  · intro ⟨_, hcs, hrest, hpair⟩
    exact ⟨hcs.trans (congrArg _ hrest), hpair⟩
  · intro ⟨hcs, hpair⟩
    exact ⟨_, hcs, rfl, hpair⟩

theorem span_eq_iff {p : Char → Bool} : cs.takeWhile p = taken ∧ cs.dropWhile p = rest ↔
    cs = taken ++ rest ∧ (∀ c ∈ taken, p c = true) ∧ ∀ c ∈ rest.head?, p c = false := by
  constructor
  · rintro ⟨rfl, rfl⟩
    refine ⟨List.takeWhile_append_dropWhile.symm, fun c hc ↦ List.mem_takeWhile_imp hc, ?_⟩
    intro c hc
    have hnot := List.head?_dropWhile_not p cs
    rw [hc] at hnot
    simpa using hnot
  · rintro ⟨rfl, htaken, hrest⟩
    rw [List.takeWhile_append_of_pos htaken, List.dropWhile_append_of_pos htaken]
    cases rest with
    | nil => simp
    | cons c more => simp [hrest c rfl]

theorem longNumber?_eq_some_iff : longNumber? cs = some (taken, rest) ↔ cs = taken ++ rest ∧
    4 ≤ taken.length ∧ (∀ c ∈ taken, isDecimalDigit c = true) ∧ ∀ c ∈ rest.head?, isDecimalDigit c = false := by
  constructor
  · intro h
    unfold longNumber? at h
    dsimp only at h
    split at h
    next hlength =>
      obtain ⟨htake, hdrop⟩ := Prod.mk.inj (Option.some.inj h)
      obtain ⟨hcs, hdigits, hend⟩ := span_eq_iff.1 ⟨htake, hdrop⟩
      exact ⟨hcs, htake ▸ hlength, hdigits, hend⟩
    next => cases h
  · intro ⟨hcs, hlength, hdigits, hend⟩
    obtain ⟨htake, hdrop⟩ := span_eq_iff.2 ⟨hcs, hdigits, hend⟩
    rw [longNumber?, htake, hdrop, if_pos hlength]

theorem year?_eq_some_iff : year? cs = some (taken, rest) ↔
    cs = taken ++ rest ∧ Year taken ∧ ∀ c ∈ rest.head?, isDecimalDigit c = false := by
  unfold year?
  split
  next unsigned =>
    simp only [Option.map_eq_some_iff, Prod.exists, longNumber?_eq_some_iff, Prod.mk.injEq]
    constructor
    · intro ⟨digits, _, ⟨hcs, hlength, hdigits, hend⟩, htaken, hrest⟩
      subst htaken hrest hcs
      exact ⟨rfl, .negative hlength hdigits, hend⟩
    · intro ⟨hcs, hyear, hend⟩
      cases hyear with
      | negative hlength hdigits =>
        exact ⟨_, rest, ⟨(List.cons.inj hcs).2, hlength, hdigits, hend⟩, rfl, rfl⟩
      | unsigned hlength hdigits =>
        obtain ⟨d, digits, rfl⟩ := List.exists_cons_of_length_pos (Nat.zero_lt_of_lt hlength)
        have hd := hdigits d List.mem_cons_self
        rw [← (List.cons.inj hcs).1] at hd
        exact absurd hd (by decide)
  next hminus =>
    rw [longNumber?_eq_some_iff]
    constructor
    · intro ⟨hcs, hlength, hdigits, hend⟩
      exact ⟨hcs, .unsigned hlength hdigits, hend⟩
    · intro ⟨hcs, hyear, hend⟩
      cases hyear with
      | negative => exact absurd hcs (hminus _)
      | unsigned hlength hdigits => exact ⟨hcs, hlength, hdigits, hend⟩

theorem skipDigits?_eq_some_iff : skipDigits? cs = some rest ↔
    ∃ digits, cs = digits ++ rest ∧ Number digits ∧ ∀ c ∈ rest.head?, isDecimalDigit c = false := by
  have hspan : skipDigits? cs =
      if cs.takeWhile isDecimalDigit = [] then none else some (cs.dropWhile isDecimalDigit) := by
    cases cs with
    | nil => rfl
    | cons c more => by_cases hc : isDecimalDigit c = true <;> simp [skipDigits?, hc]
  rw [hspan]
  constructor
  · intro h
    split at h
    next => cases h
    next hne =>
      obtain ⟨hcs, hdigits, hend⟩ := span_eq_iff.1 ⟨rfl, Option.some.inj h⟩
      exact ⟨_, hcs, ⟨hne, hdigits⟩, hend⟩
  · intro ⟨digits, hcs, hnumber, hend⟩
    obtain ⟨htake, hdrop⟩ := span_eq_iff.2 ⟨hcs, hnumber.isDigit, hend⟩
    rw [htake, hdrop, if_neg hnumber.ne_nil]

theorem date?_eq_some_iff {d : DateFields} :
    date? cs = some (d, rest) ↔ cs = d.text ++ rest ∧ d.WellFormed := by
  simp only [date?, Option.bind_eq_bind, Option.bind_eq_some_iff, Prod.exists, year?_eq_some_iff,
    month?_eq_some_iff]
  constructor
  · intro ⟨year, _, ⟨hyear, hyear', _⟩, month, _, ⟨hmonth, hmonth'⟩, day, _, ⟨hday, hday'⟩, hd⟩
    obtain ⟨rfl, rfl⟩ := Prod.mk.inj (Option.some.inj hd)
    refine ⟨?_, hyear', hmonth', hday'⟩
    simp [DateFields.text, hyear, hmonth, hday]
  · intro ⟨hcs, hyear, hmonth, hday⟩
    refine ⟨d.year, _, ⟨?_, hyear, ?_⟩, d.month, _, ⟨rfl, hmonth⟩, d.day, rest, ⟨rfl, hday⟩, rfl⟩
    · simp [DateFields.text, hcs]
    · simp; decide

theorem fraction_skipFraction (cs : List Char) : ∃ taken, cs = taken ++ skipFraction cs ∧ Fraction taken := by
  unfold skipFraction
  split
  next more =>
    cases hmore : skipDigits? more with
    | none => exact ⟨[], rfl, .absent⟩
    | some rest =>
      obtain ⟨digits, hcs, hnumber, -⟩ := skipDigits?_eq_some_iff.1 hmore
      exact ⟨'.' :: digits, congrArg _ hcs, .digits hnumber.ne_nil hnumber.isDigit⟩
  next => exact ⟨[], rfl, .absent⟩

theorem exists_fraction_of_time? {t : TimeFields} (h : time? cs = some (t, rest)) :
    ∃ fraction, cs = t.text ++ (fraction ++ rest) ∧ t.WellFormed ∧ Fraction fraction := by
  simp only [time?, Option.bind_eq_bind, Option.bind_eq_some_iff, Prod.exists, skip?_eq_some_iff,
    pair?_eq_some_iff] at h
  obtain ⟨hour, _, ⟨hcs, hhour⟩, minute, _, ⟨_, hmark, hcs', hminute⟩, second, after,
    ⟨_, hmark', hcs'', hsecond⟩, ht⟩ := h
  obtain ⟨rfl, rfl⟩ := Prod.mk.inj (Option.some.inj ht)
  obtain ⟨fraction, hafter, hfraction⟩ := fraction_skipFraction after
  refine ⟨fraction, ?_, ⟨hhour, hminute, hsecond⟩, hfraction⟩
  rw [← hafter]
  simp [TimeFields.text, hcs, hmark, hcs', hmark', hcs'']

theorem zone?_eq_some {zone : ZoneFields} (h : zone? cs = some zone) :
    zone.isPresent = false ∧ cs = [] ∨ zone.isPresent = true ∧ Zone cs := by
  unfold zone? at h
  split at h
  next =>
    obtain rfl := Option.some.inj h
    exact .inl ⟨rfl, rfl⟩
  next =>
    obtain rfl := Option.some.inj h
    exact .inr ⟨rfl, .utc⟩
  next sign more _ =>
    split at h
    next hsign =>
      simp only [Option.bind_eq_bind, Option.bind_eq_some_iff, Prod.exists, skip?_eq_some_iff,
        pair?_eq_some_iff] at h
      obtain ⟨hours, _, ⟨hmore, hhours⟩, minutes, rest, ⟨_, hmark, hcs, hminutes⟩, hzone⟩ := h
      split at hzone
      next hrest =>
        obtain rfl := Option.some.inj hzone
        obtain rfl := List.isEmpty_iff.1 hrest
        rw [hmore, hmark, hcs, List.append_nil]
        exact .inr ⟨rfl, .offset hsign hhours hminutes⟩
      next => cases hzone
    next => cases h

theorem isValidZone_iff : isValidZone cs = true ↔ ∃ zone, zone? cs = some zone ∧ zone.isValid = true := by
  rw [isValidZone, Option.any_eq_true]

theorem isCalendarDate_iff : isCalendarDate cs = true ↔ ∃ date rest, date? cs = some (date, rest) ∧
    date.isValid = true ∧ ∃ zone, zone? rest = some zone ∧ zone.isValid = true := by
  simp only [isCalendarDate, Option.any_eq_true, Prod.exists, Bool.and_eq_true, isValidZone_iff]

theorem isTimeOfDay_iff : isTimeOfDay cs = true ↔ ∃ time rest, time? cs = some (time, rest) ∧
    time.isValid = true ∧ ∃ zone, zone? rest = some zone ∧ zone.isValid = true := by
  simp only [isTimeOfDay, Option.any_eq_true, Prod.exists, Bool.and_eq_true, isValidZone_iff]

theorem isDateTime_iff {zoneRequired : Bool} : isDateTime zoneRequired cs = true ↔
    ∃ date after, date? cs = some (date, 'T' :: after) ∧ date.isValid = true ∧
      ∃ time rest, time? after = some (time, rest) ∧ time.isValid = true ∧
        ∃ zone, zone? rest = some zone ∧ zone.isValid = true ∧
          (zoneRequired = true → zone.isPresent = true) := by
  have hrequired (zone : ZoneFields) : (zone.isPresent || !zoneRequired) = true ↔
      (zoneRequired = true → zone.isPresent = true) := by
    cases zoneRequired <;> simp
  simp only [isDateTime, Option.any_eq_true, Prod.exists, Bool.and_eq_true, Option.bind_eq_some_iff,
    skip?_eq_some_iff, hrequired]
  constructor
  · intro ⟨date, _, hdate, time, rest, ⟨after, hmark, htime⟩, ⟨hvalid, hvalid'⟩, hzone⟩
    exact ⟨date, after, hmark ▸ hdate, hvalid, time, rest, htime, hvalid', hzone⟩
  · intro ⟨date, after, hdate, hvalid, time, rest, htime, hvalid', hzone⟩
    exact ⟨date, _, hdate, time, rest, ⟨after, rfl, htime⟩, ⟨hvalid, hvalid'⟩, hzone⟩

end OntologyGuard.Xsd

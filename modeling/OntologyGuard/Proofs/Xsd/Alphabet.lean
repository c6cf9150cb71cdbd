import OntologyGuard.Proofs.Xsd.Integer
import OntologyGuard.Proofs.Xsd.Temporal
import OntologyGuard.Xsd.Duration

namespace OntologyGuard.Xsd

open Text (isBlank isDecimalDigit strip)

variable {cs mid rest taken : List Char} {c mark : Char}

def Plain (c : Char) : Prop := c.toNat < 128 ∨ isDecimalDigit c = true

instance (c : Char) : Decidable (Plain c) := inferInstanceAs (Decidable (_ ∨ _))

def PlainText (cs : List Char) : Prop := ∀ c ∈ cs, Plain c

instance (cs : List Char) : Decidable (PlainText cs) := List.decidableBAll Plain cs

namespace PlainText

theorem of_digits (h : ∀ c ∈ cs, isDecimalDigit c = true) : PlainText cs := fun c hc ↦ .inr (h c hc)

theorem cons (hc : Plain c) (h : PlainText cs) : PlainText (c :: cs) := List.forall_mem_cons.2 ⟨hc, h⟩

theorem append (h : PlainText taken) (h' : PlainText rest) : PlainText (taken ++ rest) :=
  List.forall_mem_append.2 ⟨h, h'⟩

end PlainText

def PlainUntil (cs rest : List Char) : Prop := ∃ taken, cs = taken ++ rest ∧ PlainText taken

namespace PlainUntil

theorem refl (cs : List Char) : PlainUntil cs cs := ⟨[], rfl, by decide⟩

theorem trans (h : PlainUntil cs mid) (h' : PlainUntil mid rest) : PlainUntil cs rest := by
  obtain ⟨taken, rfl, htaken⟩ := h
  obtain ⟨taken', rfl, htaken'⟩ := h'
  exact ⟨taken ++ taken', (List.append_assoc ..).symm, htaken.append htaken'⟩

theorem cons (hc : Plain c) (cs : List Char) : PlainUntil (c :: cs) cs := ⟨[c], rfl, .cons hc (by decide)⟩

theorem whole (h : PlainText cs) : PlainUntil cs [] := ⟨cs, (List.append_nil cs).symm, h⟩

theorem plain (h : PlainUntil cs []) : PlainText cs := by
  obtain ⟨taken, rfl, htaken⟩ := h
  rwa [List.append_nil]

end PlainUntil

theorem plainUntil_skipSign (cs : List Char) : PlainUntil cs (skipSign cs) := by
  obtain ⟨rest, rfl, hskip, -⟩ | ⟨rest, rfl, hskip, -⟩ | ⟨hskip, -⟩ := sign_cases cs <;> rw [hskip]
  · exact .cons (by decide) rest
  · exact .cons (by decide) rest
  · exact .refl cs

theorem plainUntil_of_skipDigits? (h : skipDigits? cs = some rest) : PlainUntil cs rest := by
  obtain ⟨digits, hcs, hnumber, -⟩ := skipDigits?_eq_some_iff.1 h
  exact ⟨digits, hcs, .of_digits hnumber.isDigit⟩

theorem plainUntil_dropWhile (cs : List Char) : PlainUntil cs (cs.dropWhile isDecimalDigit) :=
  ⟨cs.takeWhile isDecimalDigit, List.takeWhile_append_dropWhile.symm,
    .of_digits fun _ hc ↦ List.mem_takeWhile_imp hc⟩

theorem plainUntil_of_skipMantissa? (h : skipMantissa? cs = some rest) : PlainUntil cs rest := by
  unfold skipMantissa? at h
  split at h
  next more => exact (PlainUntil.cons (by decide) more).trans (plainUntil_of_skipDigits? h)
  next =>
    obtain ⟨after, hafter, hrest⟩ := Option.map_eq_some_iff.1 h
    refine (plainUntil_of_skipDigits? hafter).trans ?_
    split at hrest
    next more => exact hrest ▸ (PlainUntil.cons (by decide) more).trans (plainUntil_dropWhile more)
    next => exact hrest ▸ .refl _

theorem plainUntil_of_skipExponent? (h : skipExponent? cs = some rest) : PlainUntil cs rest := by
  unfold skipExponent? at h
  split at h
  next more =>
    exact (PlainUntil.cons (by decide) more).trans ((plainUntil_skipSign more).trans (plainUntil_of_skipDigits? h))
  next more =>
    exact (PlainUntil.cons (by decide) more).trans ((plainUntil_skipSign more).trans (plainUntil_of_skipDigits? h))
  next => exact Option.some.inj h ▸ .refl _

theorem plainUntil_of_isIntegerForm (h : isIntegerForm cs = true) : PlainUntil cs [] :=
  (plainUntil_skipSign cs).trans (plainUntil_of_skipDigits? (of_decide_eq_true h))

theorem plainUntil_of_isDecimal (h : isDecimal cs = true) : PlainUntil cs [] :=
  (plainUntil_skipSign cs).trans (plainUntil_of_skipMantissa? (of_decide_eq_true h))

theorem plainUntil_of_isFloat (h : isFloat cs = true) : PlainUntil cs [] := by
  simp only [isFloat, Bool.or_eq_true, decide_eq_true_eq] at h
  obtain (h | h) | h := h
  · obtain ⟨after, hafter, hexponent⟩ := Option.bind_eq_some_iff.1 h
    exact ((plainUntil_skipSign cs).trans (plainUntil_of_skipMantissa? hafter)).trans
      (plainUntil_of_skipExponent? hexponent)
  · refine (plainUntil_skipSign cs).trans (.whole ?_)
    rw [h]
    decide
  · refine .whole ?_
    rw [h]
    decide

theorem Pair.plain (h : Pair cs) : PlainText cs := .of_digits h.isDigit

theorem Year.plain (h : Year cs) : PlainText cs := by
  cases h with
  | unsigned _ hdigits => exact .of_digits hdigits
  | negative _ hdigits => exact .cons (by decide) (.of_digits hdigits)

theorem Fraction.plain (h : Fraction cs) : PlainText cs := by
  cases h with
  | absent => decide
  | digits _ hdigits => exact .cons (by decide) (.of_digits hdigits)

theorem Zone.plain (h : Zone cs) : PlainText cs := by
  cases h with
  | utc => decide
  | @offset sign hours minutes hsign hhours hminutes =>
    have hmark : Plain sign := by rcases hsign with rfl | rfl <;> decide
    exact .cons hmark (hhours.plain.append (.cons (by decide) hminutes.plain))

theorem DateFields.WellFormed.plain {d : DateFields} (h : d.WellFormed) : PlainText d.text :=
  h.year.plain.append (.cons (by decide) (h.month.plain.append (.cons (by decide) h.day.plain)))

theorem TimeFields.WellFormed.plain {t : TimeFields} (h : t.WellFormed) : PlainText t.text :=
  h.hour.plain.append (.cons (by decide) (h.minute.plain.append (.cons (by decide) h.second.plain)))

theorem plainUntil_of_year? (h : year? cs = some (taken, rest)) : PlainUntil cs rest := by
  obtain ⟨hcs, hyear, -⟩ := year?_eq_some_iff.1 h
  exact ⟨taken, hcs, hyear.plain⟩

theorem plainUntil_of_month? (h : month? cs = some (taken, rest)) : PlainUntil cs rest := by
  obtain ⟨hcs, hmonth⟩ := month?_eq_some_iff.1 h
  exact ⟨'-' :: taken, hcs, .cons (by decide) hmonth.plain⟩

theorem plainUntil_of_date? {d : DateFields} (h : date? cs = some (d, rest)) : PlainUntil cs rest := by
  obtain ⟨hcs, hfields⟩ := date?_eq_some_iff.1 h
  exact ⟨d.text, hcs, hfields.plain⟩

theorem plainUntil_of_time? {t : TimeFields} (h : time? cs = some (t, rest)) : PlainUntil cs rest := by
  obtain ⟨fraction, hcs, hfields, hfraction⟩ := exists_fraction_of_time? h
  exact ⟨t.text ++ fraction, by rw [hcs, List.append_assoc], hfields.plain.append hfraction.plain⟩

theorem plainUntil_of_zone? {zone : ZoneFields} (h : zone? cs = some zone) : PlainUntil cs [] := by
  obtain ⟨-, rfl⟩ | ⟨-, hzone⟩ := zone?_eq_some h
  · exact .refl []
  · exact .whole hzone.plain

theorem plainUntil_of_isValidZone (h : isValidZone cs = true) : PlainUntil cs [] := by
  obtain ⟨zone, hzone, -⟩ := isValidZone_iff.1 h
  exact plainUntil_of_zone? hzone

theorem plainUntil_of_isCalendarDate (h : isCalendarDate cs = true) : PlainUntil cs [] := by
  obtain ⟨d, rest, hdate, -, zone, hzone, -⟩ := isCalendarDate_iff.1 h
  exact (plainUntil_of_date? hdate).trans (plainUntil_of_zone? hzone)

theorem plainUntil_of_isTimeOfDay (h : isTimeOfDay cs = true) : PlainUntil cs [] := by
  obtain ⟨t, rest, htime, -, zone, hzone, -⟩ := isTimeOfDay_iff.1 h
  exact (plainUntil_of_time? htime).trans (plainUntil_of_zone? hzone)

theorem plainUntil_of_isDateTime {zoneRequired : Bool} (h : isDateTime zoneRequired cs = true) :
    PlainUntil cs [] := by
  obtain ⟨d, after, hdate, -, t, rest, htime, -, zone, hzone, -⟩ := isDateTime_iff.1 h
  exact (plainUntil_of_date? hdate).trans
    ((PlainUntil.cons (by decide) after).trans ((plainUntil_of_time? htime).trans (plainUntil_of_zone? hzone)))

theorem plainUntil_of_isYear (h : isYear cs = true) : PlainUntil cs [] := by
  simp only [isYear, Option.any_eq_true, Prod.exists] at h
  obtain ⟨year, rest, hyear, hzone⟩ := h
  exact (plainUntil_of_year? hyear).trans (plainUntil_of_isValidZone hzone)

theorem plainUntil_of_isYearMonth (h : isYearMonth cs = true) : PlainUntil cs [] := by
  simp only [isYearMonth, Option.any_eq_true, Prod.exists, Bool.and_eq_true] at h
  obtain ⟨year, mid, hyear, month, rest, hmonth, -, hzone⟩ := h
  exact (plainUntil_of_year? hyear).trans ((plainUntil_of_month? hmonth).trans (plainUntil_of_isValidZone hzone))

theorem plainUntil_getD {after : Option (List Char)} (h : ∀ rest, after = some rest → PlainUntil cs rest) :
    PlainUntil cs (after.getD cs) := by
  cases after with
  | none => exact .refl cs
  | some rest => exact h rest rfl

theorem plainUntil_of_skip? (hmark : Plain mark) (h : skip? mark cs = some rest) : PlainUntil cs rest :=
  skip?_eq_some_iff.1 h ▸ .cons hmark rest

theorem plainUntil_skipFraction (cs : List Char) : PlainUntil cs (skipFraction cs) := by
  obtain ⟨taken, hcs, hfraction⟩ := fraction_skipFraction cs
  exact ⟨taken, hcs, hfraction.plain⟩

theorem plainUntil_skipPart (hmark : Plain mark) (cs : List Char) : PlainUntil cs (skipPart mark cs) := by
  refine plainUntil_getD fun rest h ↦ ?_
  obtain ⟨after, hafter, hrest⟩ := Option.bind_eq_some_iff.1 h
  exact (plainUntil_of_skipDigits? hafter).trans (plainUntil_of_skip? hmark hrest)

theorem plainUntil_skipSeconds (cs : List Char) : PlainUntil cs (skipSeconds cs) := by
  refine plainUntil_getD fun rest h ↦ ?_
  obtain ⟨after, hafter, hrest⟩ := Option.bind_eq_some_iff.1 h
  obtain ⟨whole, hwhole, rfl⟩ := Option.map_eq_some_iff.1 hafter
  exact ((plainUntil_of_skipDigits? hwhole).trans (plainUntil_skipFraction whole)).trans
    (plainUntil_of_skip? (by decide) hrest)

theorem plainUntil_skipTimeParts (cs : List Char) : PlainUntil cs (skipTimeParts cs) := by
  unfold skipTimeParts
  split
  next more =>
    exact (PlainUntil.cons (by decide) more).trans ((plainUntil_skipPart (by decide) more).trans
      ((plainUntil_skipPart (by decide) _).trans (plainUntil_skipSeconds _)))
  next => exact .refl cs

theorem plainUntil_of_isDuration (h : isDuration cs = true) : PlainUntil cs [] := by
  simp only [isDuration, Bool.and_eq_true] at h
  have hparts := h.1.1
  unfold hasDurationParts at hparts
  split at hparts
  next more hmore =>
    have hsign : PlainUntil cs ('P' :: more) := by
      split at hmore <;> subst hmore
      · exact .cons (by decide) _
      · exact .refl _
    have hdate : PlainUntil more (skipPart 'D' (skipPart 'M' (skipPart 'Y' more))) :=
      (plainUntil_skipPart (by decide) more).trans
        ((plainUntil_skipPart (by decide) _).trans (plainUntil_skipPart (by decide) _))
    have hend := hdate.trans (plainUntil_skipTimeParts _)
    rw [of_decide_eq_true hparts] at hend
    exact hsign.trans ((PlainUntil.cons (by decide) more).trans hend)
  next => cases hparts

theorem plainUntil_of_isIntegerBetween {low high : Option Int} (h : isIntegerBetween low high cs = true) :
    PlainUntil cs [] :=
  plainUntil_of_isIntegerForm (Bool.and_eq_true_iff.1 h).1

namespace Datatype

variable {type : Datatype}

def isQuantity : Datatype → Bool
  | decimal | float | double => true
  | integer | nonNegativeInteger | positiveInteger | nonPositiveInteger | negativeInteger => true
  | long | int | short | byte => true
  | unsignedLong | unsignedInt | unsignedShort | unsignedByte => true
  | dateTime | dateTimeStamp | date | time | gYear | gYearMonth | duration => true
  | _ => false

theorem plain_of_acceptsTrimmed (htype : type.isQuantity = true) (h : type.acceptsTrimmed cs = true) :
    PlainText cs := by
  refine PlainUntil.plain ?_
  cases type <;> cases htype
  case decimal => exact plainUntil_of_isDecimal h
  case float => exact plainUntil_of_isFloat h
  case double => exact plainUntil_of_isFloat h
  case dateTime => exact plainUntil_of_isDateTime h
  case dateTimeStamp => exact plainUntil_of_isDateTime h
  case date => exact plainUntil_of_isCalendarDate h
  case time => exact plainUntil_of_isTimeOfDay h
  case gYear => exact plainUntil_of_isYear h
  case gYearMonth => exact plainUntil_of_isYearMonth h
  case duration => exact plainUntil_of_isDuration h
  all_goals exact plainUntil_of_isIntegerBetween h

end Datatype

end OntologyGuard.Xsd

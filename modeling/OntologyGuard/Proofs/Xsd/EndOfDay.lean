import Mathlib.Algebra.Order.Field.Basic
import Mathlib.Data.Rat.Cast.Order
import Mathlib.Tactic.Linarith
import OntologyGuard.Proofs.Text.Numeral
import OntologyGuard.Proofs.Text.Trim
import OntologyGuard.Proofs.Xsd.Temporal
import OntologyGuard.Xsd.Datatype

namespace OntologyGuard.Xsd

open Text (digitsValue isDecimalDigit)

variable {cs after fraction : List Char} {t : TimeFields} {zoneRequired : Bool}

def fractionValue (fraction : List Char) : ℚ := digitsValue fraction.tail / 10 ^ fraction.tail.length

theorem fractionValue_nonneg (fraction : List Char) : 0 ≤ fractionValue fraction := by
  unfold fractionValue
  positivity

theorem fractionValue_lt_one (h : ∀ c ∈ fraction.tail, c.isDigit = true) : fractionValue fraction < 1 := by
  rw [fractionValue, div_lt_one (by positivity)]
  exact_mod_cast Text.digitsValue_lt h

theorem fractionValue_eq_zero_iff (h : ∀ c ∈ fraction.tail, c.isDigit = true) :
    fractionValue fraction = 0 ↔ ∀ c ∈ fraction.tail, c = '0' := by
  rw [fractionValue, div_eq_zero_iff, or_iff_left (by positivity), Nat.cast_eq_zero,
    Text.digitsValue_eq_zero_iff h]

theorem Fraction.isDigit (h : Fraction fraction) : ∀ c ∈ fraction.tail, isDecimalDigit c = true := by
  cases h with
  | absent => simp
  | digits _ hdigits => exact hdigits

namespace TimeFields

def wholeSeconds (t : TimeFields) : Nat :=
  (digitsValue t.hour * 60 + digitsValue t.minute) * 60 + digitsValue t.second

/-- The seconds from the start of the day, which ends at 86400. -/
def secondOfDay (t : TimeFields) (fraction : List Char) : ℚ := t.wholeSeconds + fractionValue fraction

theorem isValid_cases (h : t.isValid = true) :
    digitsValue t.hour = 24 ∧ digitsValue t.minute = 0 ∧ digitsValue t.second = 0 ∨
      digitsValue t.hour < 24 ∧ digitsValue t.minute < 60 ∧ digitsValue t.second < 60 := by
  unfold isValid at h
  split at h
  next hhour hminute hsecond =>
    rw [(Text.Numeral.of_natural? hhour).value, (Text.Numeral.of_natural? hminute).value,
      (Text.Numeral.of_natural? hsecond).value]
    split at h
    next hend =>
      rw [Bool.and_eq_true, decide_eq_true_eq, decide_eq_true_eq] at h
      exact .inl ⟨hend, h⟩
    next =>
      simp only [Bool.and_eq_true, decide_eq_true_eq] at h
      exact .inr ⟨h.1.1, h.1.2, h.2⟩
  next => cases h

theorem wholeSeconds_cases (h : t.isValid = true) :
    digitsValue t.hour = 24 ∧ t.wholeSeconds = 86400 ∨ digitsValue t.hour < 24 ∧ t.wholeSeconds < 86400 := by
  rw [wholeSeconds]
  obtain hend | hbefore := isValid_cases h
  · exact .inl (by omega)
  · exact .inr (by omega)

theorem secondOfDay_lt (h : t.isValid = true) (hfraction : ∀ c ∈ fraction.tail, c.isDigit = true) :
    t.secondOfDay fraction < 86401 := by
  have hle : t.wholeSeconds ≤ 86400 := by
    have hcases := wholeSeconds_cases h
    omega
  have hwhole : (t.wholeSeconds : ℚ) ≤ 86400 := by exact_mod_cast hle
  have hpart := fractionValue_lt_one hfraction
  rw [secondOfDay]
  linarith

theorem secondOfDay_le_iff (h : t.isValid = true) (hfraction : ∀ c ∈ fraction.tail, c.isDigit = true) :
    t.secondOfDay fraction ≤ 86400 ↔ (digitsValue t.hour = 24 → ∀ c ∈ fraction.tail, c = '0') := by
  rw [← fractionValue_eq_zero_iff hfraction, secondOfDay]
  obtain ⟨hhour, hend⟩ | ⟨hhour, hbefore⟩ := wholeSeconds_cases h
  · have hnonneg := fractionValue_nonneg fraction
    rw [hend, Nat.cast_ofNat]
    constructor
    · intro hle _
      linarith
    · intro hzero
      rw [hzero hhour, add_zero]
  · -- a second is left, and no fraction fills it
    have hwhole : (t.wholeSeconds : ℚ) + 1 ≤ 86400 := by exact_mod_cast hbefore
    have hpart := fractionValue_lt_one hfraction
    refine iff_of_true ?_ fun hend ↦ absurd hend (Nat.ne_of_lt hhour)
    linarith

def midnight : TimeFields := ⟨['2', '4'], ['0', '0'], ['0', '0']⟩

theorem wellFormed_midnight : midnight.WellFormed := ⟨.digits rfl rfl, .digits rfl rfl, .digits rfl rfl⟩

end TimeFields

theorem time?_text (h : t.WellFormed) (rest : List Char) :
    time? (t.text ++ rest) = some (t, skipFraction rest) := by
  simp only [time?, Option.bind_eq_bind, Option.bind_eq_some_iff, Prod.exists, skip?_eq_some_iff,
    pair?_eq_some_iff]
  refine ⟨t.hour, _, ⟨?_, h.hour⟩, t.minute, _, ⟨_, rfl, rfl, h.minute⟩, t.second, rest, ⟨_, rfl, rfl, h.second⟩,
    rfl⟩
  simp [TimeFields.text]

/-- A text with the fields and the fraction of a time of day, and a time zone if it has one. -/
structure ClockText (cs : List Char) (t : TimeFields) (fraction : List Char) : Prop where
  fields : t.WellFormed
  isFraction : Fraction fraction
  text_eq : ∃ zone, cs = t.text ++ (fraction ++ zone) ∧ (zone = [] ∨ Zone zone)

namespace ClockText

theorem isValid (h : ClockText cs t fraction) (htime : isTimeOfDay cs = true) : t.isValid = true := by
  obtain ⟨zone, rfl, -⟩ := h.text_eq
  obtain ⟨found, rest, hfound, hvalid, -⟩ := isTimeOfDay_iff.1 htime
  obtain ⟨rfl, -⟩ := Prod.mk.inj (Option.some.inj ((time?_text h.fields _).symm.trans hfound))
  exact hvalid

theorem subset (h : ClockText cs t fraction) : fraction ⊆ cs := by
  obtain ⟨zone, rfl, -⟩ := h.text_eq
  intro c hc
  simp [hc]

end ClockText

theorem exists_clockText (h : isTimeOfDay cs = true) : ∃ t fraction, ClockText cs t fraction := by
  obtain ⟨t, zone, htime, -, fields, hzone, -⟩ := isTimeOfDay_iff.1 h
  obtain ⟨fraction, hcs, hfields, hfraction⟩ := exists_fraction_of_time? htime
  exact ⟨t, fraction, hfields, hfraction, zone, hcs, (zone?_eq_some hzone).imp And.right And.right⟩

theorem isTimeOfDay_of_isDateTime {d : DateFields} (hdate : d.WellFormed)
    (h : isDateTime zoneRequired (d.text ++ 'T' :: after) = true) : isTimeOfDay after = true := by
  obtain ⟨found, _, hfound, -, t, rest, htime, hvalid, zone, hzone, hvalid', -⟩ := isDateTime_iff.1 h
  have hpair := Option.some.inj ((date?_eq_some_iff.2 ⟨rfl, hdate⟩).symm.trans hfound)
  obtain rfl := (List.cons.inj (Prod.mk.inj hpair).2).2
  exact isTimeOfDay_iff.2 ⟨t, rest, htime, hvalid, zone, hzone, hvalid'⟩

theorem exists_date_of_isDateTime (h : isDateTime zoneRequired cs = true) :
    ∃ (d : DateFields) (after : List Char), cs = d.text ++ 'T' :: after ∧ d.WellFormed ∧
      isTimeOfDay after = true := by
  obtain ⟨d, after, hdate, -⟩ := isDateTime_iff.1 h
  obtain ⟨rfl, hfields⟩ := date?_eq_some_iff.1 hdate
  exact ⟨d, after, rfl, hfields, isTimeOfDay_of_isDateTime hfields h⟩

namespace Datatype

variable {type : Datatype} {s : String}

/-- The time of day in a text of a type: the text itself, or what follows the date. -/
inductive SpellsTime (cs : List Char) (t : TimeFields) (fraction : List Char) : Datatype → Prop where
  | alone (h : ClockText cs t fraction) : SpellsTime cs t fraction time
  | afterDate {type : Datatype} {d : DateFields} {after : List Char}
      (htype : type = dateTime ∨ type = dateTimeStamp) (hcs : cs = d.text ++ 'T' :: after) (hdate : d.WellFormed)
      (h : ClockText after t fraction) : SpellsTime cs t fraction type

namespace SpellsTime

theorem isValid (h : SpellsTime cs t fraction type) (haccepts : type.acceptsTrimmed cs = true) :
    t.isValid = true := by
  cases h with
  | alone h => exact h.isValid haccepts
  | afterDate htype hcs hdate h =>
    subst hcs
    rcases htype with rfl | rfl
    · exact h.isValid (isTimeOfDay_of_isDateTime hdate haccepts)
    · exact h.isValid (isTimeOfDay_of_isDateTime hdate haccepts)

theorem isDigit (h : SpellsTime cs t fraction type) (hascii : ∀ c ∈ cs, isDecimalDigit c = true → c.toNat < 128) :
    ∀ c ∈ fraction.tail, c.isDigit = true := by
  have hfraction : Fraction fraction ∧ fraction ⊆ cs := by
    cases h with
    | alone h => exact ⟨h.isFraction, h.subset⟩
    | afterDate _ hcs _ h => exact ⟨h.isFraction, fun c hc ↦ by simp [hcs, h.subset hc]⟩
  intro c hc
  have hdigit := hfraction.1.isDigit c hc
  exact Text.isDigit_of_isDecimalDigit (hascii c (hfraction.2 (List.mem_of_mem_tail hc)) hdigit) hdigit

end SpellsTime

theorem exists_spellsTime (htype : type = time ∨ type = dateTime ∨ type = dateTimeStamp)
    (h : type.acceptsTrimmed cs = true) : ∃ t fraction, SpellsTime cs t fraction type := by
  have hdateTime {zoneRequired : Bool} (htype : type = dateTime ∨ type = dateTimeStamp)
      (h : isDateTime zoneRequired cs = true) : ∃ t fraction, SpellsTime cs t fraction type := by
    obtain ⟨d, after, hcs, hdate, htime⟩ := exists_date_of_isDateTime h
    obtain ⟨t, fraction, ht⟩ := exists_clockText htime
    exact ⟨t, fraction, .afterDate htype hcs hdate ht⟩
  rcases htype with rfl | rfl | rfl
  · obtain ⟨t, fraction, ht⟩ := exists_clockText h
    exact ⟨t, fraction, .alone ht⟩
  · exact hdateTime (.inl rfl) h
  · exact hdateTime (.inr rfl) h

/-- Every accepted text spells a time of day, whose minutes and seconds are zero at the hour 24. It is within the
day unless a fraction that is not zero follows the end of the day, and then it is less than a second late. -/
theorem withinDay_iff (htype : type = time ∨ type = dateTime ∨ type = dateTimeStamp) (h : type.accepts s = true)
    (hascii : ∀ c ∈ s.toList, isDecimalDigit c = true → c.toNat < 128) :
    (∃ t fraction, SpellsTime (Text.trim s.toList) t fraction type) ∧
    ∀ t fraction, SpellsTime (Text.trim s.toList) t fraction type →
      (digitsValue t.hour = 24 → digitsValue t.minute = 0 ∧ digitsValue t.second = 0) ∧
      t.secondOfDay fraction < 86401 ∧
      (t.secondOfDay fraction ≤ 86400 ↔ (digitsValue t.hour = 24 → ∀ c ∈ fraction.tail, c = '0')) := by
  refine ⟨exists_spellsTime htype h, fun t fraction ht ↦ ?_⟩
  have hvalid := ht.isValid h
  have hdigits := ht.isDigit fun c hc ↦ hascii c (Text.mem_of_mem_strip hc)
  refine ⟨fun hend ↦ ?_, t.secondOfDay_lt hvalid hdigits, t.secondOfDay_le_iff hvalid hdigits⟩
  obtain hzeros | hbefore := TimeFields.isValid_cases hvalid
  · exact hzeros.2
  · omega

theorem withinDay_midnight :
    let s := " 24:00:00.0Z"
    (time = time ∨ time = dateTime ∨ time = dateTimeStamp) ∧ time.accepts s = true ∧
      (∀ c ∈ s.toList, isDecimalDigit c = true → c.toNat < 128) ∧
      SpellsTime (Text.trim s.toList) .midnight ['.', '0'] time ∧
      TimeFields.midnight.secondOfDay ['.', '0'] ≤ 86400 := by
  intro s
  have htype : time = time ∨ time = dateTime ∨ time = dateTimeStamp := .inl rfl
  have haccepts : time.accepts s = true := by decide +kernel
  have hascii : Text.IsAscii s.toList := by decide +kernel
  have hdigits : ∀ c ∈ s.toList, isDecimalDigit c = true → c.toNat < 128 := fun c hc _ ↦ hascii c hc
  have hspells : SpellsTime (Text.trim s.toList) .midnight ['.', '0'] time :=
    .alone ⟨TimeFields.wellFormed_midnight, .digits (by simp) (List.all_eq_true.1 rfl), ['Z'], by decide +kernel,
      .inr .utc⟩
  obtain ⟨-, -, hwithin⟩ := (withinDay_iff htype haccepts hdigits).2 _ _ hspells
  exact ⟨htype, haccepts, hdigits, hspells, hwithin.2 fun _ ↦ by simp⟩

/-- Half a second, and a thousandth of a second, after the end of the day. -/
theorem accepts_past_midnight :
    let half := "24:00:00.5"
    let s := "2021-02-28T24:00:00.001Z"
    (time.accepts half = true ∧ Text.IsAscii half.toList ∧
      SpellsTime (Text.trim half.toList) .midnight ['.', '5'] time ∧
      86400 < TimeFields.midnight.secondOfDay ['.', '5']) ∧
    (dateTime.accepts s = true ∧ dateTimeStamp.accepts s = true ∧ Text.IsAscii s.toList ∧
      (∀ type, type = dateTime ∨ type = dateTimeStamp →
        SpellsTime (Text.trim s.toList) .midnight ['.', '0', '0', '1'] type) ∧
      86400 < TimeFields.midnight.secondOfDay ['.', '0', '0', '1']) := by
  intro half s
  have hhalf : SpellsTime (Text.trim half.toList) .midnight ['.', '5'] time :=
    .alone ⟨TimeFields.wellFormed_midnight, .digits (by simp) (List.all_eq_true.1 rfl), [], by decide +kernel,
      .inl rfl⟩
  have hdate : (DateFields.mk ['2', '0', '2', '1'] ['0', '2'] ['2', '8']).WellFormed :=
    ⟨.unsigned (by simp) (List.all_eq_true.1 rfl), .digits rfl rfl, .digits rfl rfl⟩
  have htime : ClockText (TimeFields.midnight.text ++ (['.', '0', '0', '1'] ++ ['Z'])) .midnight
      ['.', '0', '0', '1'] :=
    ⟨TimeFields.wellFormed_midnight, .digits (by simp) (List.all_eq_true.1 rfl), ['Z'], rfl, .inr .utc⟩
  refine ⟨⟨by decide +kernel, by decide +kernel, hhalf, by decide +kernel⟩, by decide +kernel, by decide +kernel,
    by decide +kernel, fun type htype ↦ .afterDate htype ?_ hdate htime, by decide +kernel⟩
  decide +kernel

end Datatype

end OntologyGuard.Xsd

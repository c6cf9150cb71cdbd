import OntologyGuard.Proofs.Text.Trim
import OntologyGuard.Proofs.Xsd.Temporal
import OntologyGuard.Xsd.Datatype

namespace OntologyGuard.Xsd

open Text (isBlank isDecimalDigit Trimmed)

variable {cs fraction before before' digits digits' : List Char} {mark mark' : Char}

theorem append_mark_inj (hmark : isDecimalDigit mark = false) (hdigits : ∀ c ∈ digits, isDecimalDigit c = true)
    (hmark' : isDecimalDigit mark' = false) (hdigits' : ∀ c ∈ digits', isDecimalDigit c = true)
    (h : before ++ mark :: digits = before' ++ mark' :: digits') :
    before = before' ∧ mark = mark' ∧ digits = digits' := by
  have hspan : (before ++ mark :: digits).reverse.takeWhile isDecimalDigit = digits.reverse ∧
      (before ++ mark :: digits).reverse.dropWhile isDecimalDigit = mark :: before.reverse :=
    span_eq_iff.2 ⟨by simp, fun c hc ↦ hdigits c (List.mem_reverse.1 hc), by simpa using hmark⟩
  have hspan' : (before' ++ mark' :: digits').reverse.takeWhile isDecimalDigit = digits'.reverse ∧
      (before' ++ mark' :: digits').reverse.dropWhile isDecimalDigit = mark' :: before'.reverse :=
    span_eq_iff.2 ⟨by simp, fun c hc ↦ hdigits' c (List.mem_reverse.1 hc), by simpa using hmark'⟩
  rw [h] at hspan
  obtain ⟨hmarks, hbefore⟩ := List.cons.inj (hspan.2.symm.trans hspan'.2)
  exact ⟨List.reverse_injective hbefore, hmarks, List.reverse_injective (hspan.1.symm.trans hspan'.1)⟩

def EndsInZone (cs : List Char) : Prop := ∃ body zone, cs = body ++ zone ∧ Zone zone

theorem EndsInZone.mark_cases (h : EndsInZone (before ++ mark :: digits)) (hmark : isDecimalDigit mark = false)
    (hdigits : ∀ c ∈ digits, isDecimalDigit c = true) :
    mark = 'Z' ∨ mark = ':' ∧ ∃ body sign hours, before = body ++ sign :: hours ∧
      (sign = '+' ∨ sign = '-') ∧ ∀ c ∈ hours, isDecimalDigit c = true := by
  obtain ⟨body, zone, hcs, hzone⟩ := h
  cases hzone with
  | utc => exact .inl (append_mark_inj hmark hdigits (by decide) (by simp) hcs).2.1
  | @offset sign hours minutes hsign hhours hminutes =>
    have hsplit : body ++ sign :: (hours ++ ':' :: minutes) = (body ++ sign :: hours) ++ ':' :: minutes := by simp
    obtain ⟨hbefore, hcolon, -⟩ := append_mark_inj hmark hdigits (by decide) hminutes.isDigit (hcs.trans hsplit)
    exact .inr ⟨hcolon, body, sign, hours, hbefore, hsign, hhours.isDigit⟩

theorem DateFields.WellFormed.not_endsInZone {d : DateFields} (h : d.WellFormed) : ¬ EndsInZone d.text := by
  intro hzone
  have hsplit : d.text = (d.year ++ '-' :: d.month) ++ '-' :: d.day := by simp [DateFields.text]
  rw [hsplit] at hzone
  obtain hmark | ⟨hmark, -⟩ := hzone.mark_cases (by decide) h.day.isDigit
  · exact absurd hmark (by decide)
  · exact absurd hmark (by decide)

theorem TimeFields.WellFormed.not_endsInZone {t : TimeFields} (h : t.WellFormed) (hfraction : Fraction fraction) :
    ¬ EndsInZone (t.text ++ fraction) := by
  intro hzone
  cases hfraction with
  | absent =>
    -- the colon before the seconds is no colon of a zone, as the mark before it is no sign
    have hsplit : t.text ++ [] = (t.hour ++ ':' :: t.minute) ++ ':' :: t.second := by simp [TimeFields.text]
    rw [hsplit] at hzone
    obtain hmark | ⟨-, body, sign, hours, hbefore, hsign, hhours⟩ := hzone.mark_cases (by decide) h.second.isDigit
    · exact absurd hmark (by decide)
    · have hdigit : isDecimalDigit sign = false := by rcases hsign with rfl | rfl <;> decide
      obtain ⟨-, rfl, -⟩ := append_mark_inj (by decide) h.minute.isDigit hdigit hhours hbefore
      exact absurd hsign (by decide)
  | digits _ hdigits =>
    obtain hmark | ⟨hmark, -⟩ := hzone.mark_cases (by decide) hdigits
    · exact absurd hmark (by decide)
    · exact absurd hmark (by decide)

theorem endsInZone_iff_of_time? {t : TimeFields} {zone : ZoneFields} {rest : List Char}
    (htime : time? cs = some (t, rest)) (hzone : zone? rest = some zone) :
    EndsInZone cs ↔ zone.isPresent = true := by
  obtain ⟨fraction, hcs, hfields, hfraction⟩ := exists_fraction_of_time? htime
  obtain ⟨habsent, hrest⟩ | ⟨hpresent, htext⟩ := zone?_eq_some hzone
  · rw [habsent, hcs, hrest, List.append_nil]
    exact iff_of_false (hfields.not_endsInZone hfraction) Bool.false_ne_true
  · exact iff_of_true ⟨t.text ++ fraction, rest, by rw [hcs, List.append_assoc], htext⟩ hpresent

theorem isCalendarDate_iff_fields : isCalendarDate cs = true ∧ ¬ EndsInZone cs ↔
    ∃ d : DateFields, cs = d.text ∧ d.WellFormed ∧ d.isValid = true := by
  constructor
  · intro ⟨h, hplain⟩
    obtain ⟨d, rest, hdate, hvalid, zone, hzone, -⟩ := isCalendarDate_iff.1 h
    obtain ⟨hcs, hfields⟩ := date?_eq_some_iff.1 hdate
    obtain ⟨-, rfl⟩ | ⟨-, htext⟩ := zone?_eq_some hzone
    · exact ⟨d, by rw [hcs, List.append_nil], hfields, hvalid⟩
    · exact absurd ⟨d.text, rest, hcs, htext⟩ hplain
  · intro ⟨d, hcs, hfields, hvalid⟩
    have hdate : date? cs = some (d, []) := date?_eq_some_iff.2 ⟨by rw [hcs, List.append_nil], hfields⟩
    exact ⟨isCalendarDate_iff.2 ⟨d, [], hdate, hvalid, .absent, rfl, rfl⟩, hcs ▸ hfields.not_endsInZone⟩

theorem isDateTime_iff_joined {zoneRequired : Bool} : isDateTime zoneRequired cs = true ↔
    ∃ date time, cs = date ++ 'T' :: time ∧ (isCalendarDate date = true ∧ ¬ EndsInZone date) ∧
      isTimeOfDay time = true ∧ (zoneRequired = true → EndsInZone time) := by
  constructor
  · intro h
    obtain ⟨d, after, hdate, hvalid, t, rest, htime, hvalid', zone, hzone, hvalid'', hrequired⟩ :=
      isDateTime_iff.1 h
    obtain ⟨hcs, hfields⟩ := date?_eq_some_iff.1 hdate
    refine ⟨d.text, after, hcs, isCalendarDate_iff_fields.2 ⟨d, rfl, hfields, hvalid⟩, ?_, ?_⟩
    · exact isTimeOfDay_iff.2 ⟨t, rest, htime, hvalid', zone, hzone, hvalid''⟩
    · exact fun h ↦ (endsInZone_iff_of_time? htime hzone).2 (hrequired h)
  · intro ⟨date, time, hcs, hdate, htime, hrequired⟩
    obtain ⟨d, rfl, hfields, hvalid⟩ := isCalendarDate_iff_fields.1 hdate
    obtain ⟨t, rest, htime, hvalid', zone, hzone, hvalid''⟩ := isTimeOfDay_iff.1 htime
    refine isDateTime_iff.2 ⟨d, time, date?_eq_some_iff.2 ⟨hcs, hfields⟩, hvalid, t, rest, htime, hvalid', zone,
      hzone, hvalid'', fun h ↦ ?_⟩
    exact (endsInZone_iff_of_time? htime hzone).1 (hrequired h)

theorem DateFields.WellFormed.isBlank_getLast {d : DateFields} (h : d.WellFormed) :
    ∀ c ∈ d.text.getLast?, isBlank c = false := by
  obtain ⟨year, month, day⟩ := d
  obtain ⟨-, -, hday⟩ := h
  cases hday with
  | @digits a b _ hb =>
    intro c hc
    obtain rfl : b = c := by simpa [DateFields.text, List.getLast?_cons] using hc
    exact Text.isBlank_of_isDecimalDigit hb

theorem isBlank_head_of_isTimeOfDay (h : isTimeOfDay cs = true) : ∀ c ∈ cs.head?, isBlank c = false := by
  obtain ⟨⟨hour, minute, second⟩, rest, htime, -⟩ := isTimeOfDay_iff.1 h
  obtain ⟨fraction, rfl, ⟨hhour, -, -⟩, -⟩ := exists_fraction_of_time? htime
  cases hhour with
  | @digits a b ha _ =>
    intro c hc
    obtain rfl : a = c := by simpa [TimeFields.text] using hc
    exact Text.isBlank_of_isDecimalDigit ha

/-- A date without a time zone and a time of day with the letter T between them. -/
structure Joined (text date time : String) : Prop where
  text_eq : text = date ++ "T" ++ time
  trimmed_date : Trimmed date.toList
  trimmed_time : Trimmed time.toList
  date_accepts : Datatype.date.accepts date = true
  date_plain : ¬ EndsInZone date.toList
  time_accepts : Datatype.time.accepts time = true

theorem accepts_of_trimmed {type : Datatype} {text : String} (h : Trimmed text.toList) :
    type.accepts text = type.acceptsTrimmed text.toList := by
  rw [Datatype.accepts, h.trim_eq]

theorem isDateTime_iff_exists_joined {zoneRequired : Bool} {text : String} (htext : Trimmed text.toList) :
    isDateTime zoneRequired text.toList = true ↔
      ∃ date time, Joined text date time ∧ (zoneRequired = true → EndsInZone time.toList) := by
  rw [isDateTime_iff_joined]
  constructor
  · intro ⟨date, time, hcs, hdate, htime, hrequired⟩
    obtain ⟨d, rfl, hfields, -⟩ := isCalendarDate_iff_fields.1 hdate
    have hjoin : text.toList = (d.text ++ ['T']) ++ time := by rw [hcs, List.append_assoc, List.singleton_append]
    have hleft : Trimmed (String.ofList d.text).toList := by
      rw [String.toList_ofList]
      exact (hcs ▸ htext).left hfields.isBlank_getLast
    have hright : Trimmed (String.ofList time).toList := by
      rw [String.toList_ofList]
      exact (hjoin ▸ htext).right (isBlank_head_of_isTimeOfDay htime)
    refine ⟨.ofList d.text, .ofList time, ⟨?_, hleft, hright, ?_, ?_, ?_⟩, ?_⟩
    · rw [← String.toList_inj, hjoin]
      simp
    · rw [accepts_of_trimmed hleft, String.toList_ofList]
      exact hdate.1
    · rw [String.toList_ofList]
      exact hdate.2
    · rw [accepts_of_trimmed hright, String.toList_ofList]
      exact htime
    · rw [String.toList_ofList]
      exact hrequired
  · intro ⟨date, time, h, hrequired⟩
    have hdate := h.date_accepts
    have htime := h.time_accepts
    rw [accepts_of_trimmed h.trimmed_date] at hdate
    rw [accepts_of_trimmed h.trimmed_time] at htime
    exact ⟨date.toList, time.toList, by simp [h.text_eq], ⟨hdate, h.date_plain⟩, htime, hrequired⟩

/-- A date with a time of day is a date and a time of day that are joined by the letter T, and a time stamp is
one whose time of day ends in a time zone. -/
theorem accepts_dateTime_iff_joined {text : String} (htext : Trimmed text.toList) :
    (Datatype.dateTime.accepts text = true ↔ ∃ date time, Joined text date time) ∧
      (Datatype.dateTimeStamp.accepts text = true ↔
        ∃ date time, Joined text date time ∧ EndsInZone time.toList) := by
  rw [accepts_of_trimmed htext, accepts_of_trimmed htext]
  constructor
  · exact (isDateTime_iff_exists_joined htext).trans (by simp)
  · exact (isDateTime_iff_exists_joined htext).trans (by simp)

/-- The leap day of a year before the common era, which ends at the hour 24 in a zone that is written like the
tail of a date, and a day that no calendar has. -/
theorem exists_joined_leapDay :
    let leapDay := "-0004-02-29T24:00:00.000-05:30"
    let noDay := "2023-02-29T12:00:00"
    Trimmed leapDay.toList ∧ Trimmed noDay.toList ∧
      (∃ date time, Joined leapDay date time ∧ EndsInZone time.toList) ∧
      ¬ ∃ date time, Joined noDay date time := by
  intro leapDay noDay
  have hleapDay : Trimmed leapDay.toList := by decide +kernel
  have hnoDay : Trimmed noDay.toList := by decide +kernel
  have haccepts : Datatype.dateTimeStamp.accepts leapDay = true := by decide +kernel
  have hrefuses : Datatype.dateTime.accepts noDay = false := by decide +kernel
  refine ⟨hleapDay, hnoDay, (accepts_dateTime_iff_joined hleapDay).2.1 haccepts, fun hjoined ↦ ?_⟩
  rw [(accepts_dateTime_iff_joined hnoDay).1.2 hjoined] at hrefuses
  cases hrefuses

end OntologyGuard.Xsd

import OntologyGuard.Proofs.Xsd.Temporal
import OntologyGuard.Xsd.Datatype

/-!
The grammar of durations. The reader passes over parts that may all be left out and then looks at the last
character alone; that is enough to refuse exactly the durations without a part, and those with a T and no part
after it.
-/

namespace OntologyGuard.Xsd

open Text (isDecimalDigit)

variable {cs rest digits amount : List Char} {letter : Char} {letters : List Char} {p : Option (List Char)}

inductive Seconds : List Char → Prop where
  | amount {whole fraction : List Char} (hwhole : Number whole) (hfraction : Fraction fraction) :
      Seconds (whole ++ fraction)

/-- A part that may be left out: an amount with the letter of its unit. -/
def part (letter : Char) : Option (List Char) → List Char
  | none => []
  | some amount => amount ++ [letter]

structure TimeSpan where
  hours : Option (List Char)
  minutes : Option (List Char)
  seconds : Option (List Char)

/-- The parts of a written duration, each with the digits of its amount. -/
structure Duration where
  negative : Bool
  years : Option (List Char)
  months : Option (List Char)
  days : Option (List Char)
  time : Option TimeSpan

def TimeSpan.text (t : TimeSpan) : List Char :=
  part 'H' t.hours ++ (part 'M' t.minutes ++ part 'S' t.seconds)

def timeText : Option TimeSpan → List Char
  | none => []
  | some t => 'T' :: t.text

def Duration.text (d : Duration) : List Char :=
  (if d.negative then ['-'] else []) ++
    'P' :: (part 'Y' d.years ++ (part 'M' d.months ++ (part 'D' d.days ++ timeText d.time)))

structure TimeSpan.HasNumbers (t : TimeSpan) : Prop where
  hours : ∀ amount ∈ t.hours, Number amount
  minutes : ∀ amount ∈ t.minutes, Number amount
  seconds : ∀ amount ∈ t.seconds, Seconds amount

structure Duration.HasNumbers (d : Duration) : Prop where
  years : ∀ amount ∈ d.years, Number amount
  months : ∀ amount ∈ d.months, Number amount
  days : ∀ amount ∈ d.days, Number amount
  time : ∀ t ∈ d.time, t.HasNumbers

def TimeSpan.IsEmpty (t : TimeSpan) : Prop := t.hours = none ∧ t.minutes = none ∧ t.seconds = none

def Duration.IsEmpty (d : Duration) : Prop :=
  d.years = none ∧ d.months = none ∧ d.days = none ∧ ∀ t ∈ d.time, t.IsEmpty

theorem skipPart_eq_self (h : ∀ digits rest, Number digits → cs ≠ digits ++ letter :: rest) :
    skipPart letter cs = cs := by
  have hnone : (skipDigits? cs).bind (skip? letter) = none := by
    refine Option.eq_none_iff_forall_ne_some.2 fun rest hrest ↦ ?_
    obtain ⟨after, hafter, hmark⟩ := Option.bind_eq_some_iff.1 hrest
    obtain ⟨digits, hcs, hnumber, -⟩ := skipDigits?_eq_some_iff.1 hafter
    exact h digits rest hnumber (skip?_eq_some_iff.1 hmark ▸ hcs)
  rw [skipPart, hnone, Option.getD_none]

/-- The first character after the digits at the front of a text, if there is one, is one of the letters. -/
def MarkIn (letters cs : List Char) : Prop := ∀ c ∈ (cs.dropWhile isDecimalDigit).head?, c ∈ letters

theorem dropWhile_number (hnumber : Number digits) (hletter : isDecimalDigit letter = false) (rest : List Char) :
    (digits ++ letter :: rest).dropWhile isDecimalDigit = letter :: rest :=
  (span_eq_iff.2 ⟨rfl, hnumber.isDigit, by simpa using hletter⟩).2

theorem markIn_number (hnumber : Number digits) (hletter : isDecimalDigit letter = false)
    (hmem : letter ∈ letters) (rest : List Char) : MarkIn letters (digits ++ letter :: rest) := by
  rw [MarkIn, dropWhile_number hnumber hletter]
  rintro _ ⟨⟩
  exact hmem

theorem MarkIn.part (hrest : MarkIn letters rest) (hletter : isDecimalDigit letter = false)
    (hp : ∀ amount ∈ p, Number amount) : MarkIn (letter :: letters) (part letter p ++ rest) := by
  cases p with
  | none => exact fun c hc ↦ List.mem_cons_of_mem _ (hrest c hc)
  | some amount =>
    rw [Xsd.part, List.append_assoc, List.singleton_append]
    exact markIn_number (hp amount rfl) hletter List.mem_cons_self rest

theorem markIn_seconds (hp : ∀ amount ∈ p, Seconds amount) : MarkIn ['.', 'S'] (part 'S' p) := by
  cases p with
  | none => simp [part, MarkIn]
  | some amount =>
    cases hp amount rfl with
    | @amount whole fraction hwhole hfraction =>
      rw [part, List.append_assoc]
      cases hfraction with
      | absent => exact markIn_number hwhole (by decide) (by decide) []
      | @digits digits => exact markIn_number hwhole (by decide) (by decide) (digits ++ ['S'])

theorem skipPart_part (hp : ∀ amount ∈ p, Number amount) (hletter : isDecimalDigit letter = false)
    (hrest : MarkIn letters rest) (hnot : letter ∉ letters) : skipPart letter (part letter p ++ rest) = rest := by
  cases p with
  | none =>
    refine skipPart_eq_self fun digits after hnumber hcs ↦ hnot ?_
    rw [part, List.nil_append] at hcs
    rw [MarkIn, hcs, dropWhile_number hnumber hletter] at hrest
    exact hrest letter rfl
  | some amount =>
    have hdigits : skipDigits? (part letter (some amount) ++ rest) = some (letter :: rest) :=
      skipDigits?_eq_some_iff.2 ⟨amount, by simp [part], hp amount rfl, by simpa using hletter⟩
    rw [skipPart, hdigits, Option.bind_some, skip?_eq_some_iff.2 rfl, Option.getD_some]

theorem exists_part (letter : Char) (cs : List Char) :
    ∃ p, cs = part letter p ++ skipPart letter cs ∧ ∀ amount ∈ p, Number amount := by
  cases hskip : (skipDigits? cs).bind (skip? letter) with
  | none => exact ⟨none, by rw [skipPart, hskip]; rfl, by simp⟩
  | some rest =>
    obtain ⟨after, hafter, hmark⟩ := Option.bind_eq_some_iff.1 hskip
    obtain ⟨digits, hcs, hnumber, -⟩ := skipDigits?_eq_some_iff.1 hafter
    refine ⟨some digits, ?_, by simpa using hnumber⟩
    rw [skipPart, hskip, Option.getD_some, hcs, skip?_eq_some_iff.1 hmark]
    simp [part]

theorem skipFraction_append (hfraction : Fraction amount)
    (hrest : ∀ c ∈ rest.head?, c ≠ '.' ∧ isDecimalDigit c = false) : skipFraction (amount ++ rest) = rest := by
  cases hfraction with
  | absent =>
    rw [List.nil_append]
    unfold skipFraction
    split
    next more => exact absurd rfl (hrest '.' rfl).1
    next => rfl
  | @digits digits hne hdigits =>
    have hskip : skipDigits? (digits ++ rest) = some rest :=
      skipDigits?_eq_some_iff.2 ⟨digits, rfl, ⟨hne, hdigits⟩, fun c hc ↦ (hrest c hc).2⟩
    rw [List.cons_append, skipFraction, hskip, Option.getD_some]

theorem skipSeconds_part (hp : ∀ amount ∈ p, Seconds amount) : skipSeconds (part 'S' p) = [] := by
  cases p with
  | none => rfl
  | some amount =>
    cases hp amount rfl with
    | @amount whole fraction hwhole hfraction =>
      have hend : ∀ c ∈ (fraction ++ ['S']).head?, isDecimalDigit c = false := by
        cases hfraction <;> simp <;> decide
      have hdigits : skipDigits? (part 'S' (some (whole ++ fraction))) = some (fraction ++ ['S']) :=
        skipDigits?_eq_some_iff.2 ⟨whole, by simp [part], hwhole, hend⟩
      have hfraction' : skipFraction (fraction ++ ['S']) = ['S'] :=
        skipFraction_append hfraction (by simp; decide)
      rw [skipSeconds, hdigits, Option.map_some, hfraction']
      rfl

theorem exists_seconds (h : skipSeconds cs = []) : ∃ p, cs = part 'S' p ∧ ∀ amount ∈ p, Seconds amount := by
  unfold skipSeconds at h
  cases hskip : ((skipDigits? cs).map skipFraction).bind (skip? 'S') with
  | none =>
    rw [hskip, Option.getD_none] at h
    exact ⟨none, h, by simp⟩
  | some rest =>
    rw [hskip, Option.getD_some] at h
    obtain ⟨_, hmap, hmark⟩ := Option.bind_eq_some_iff.1 hskip
    obtain ⟨after, hafter, rfl⟩ := Option.map_eq_some_iff.1 hmap
    obtain ⟨whole, hcs, hwhole, -⟩ := skipDigits?_eq_some_iff.1 hafter
    obtain ⟨fraction, hfraction, hfraction'⟩ := fraction_skipFraction after
    refine ⟨some (whole ++ fraction), ?_, ?_⟩
    · rw [hcs, hfraction, skip?_eq_some_iff.1 hmark, h]
      simp [part]
    · rintro _ ⟨⟩
      exact .amount hwhole hfraction'

theorem markIn_timeText (time : Option TimeSpan) : MarkIn ['T'] (timeText time) := by
  cases time with
  | none => simp [timeText, MarkIn]
  | some t =>
    rw [timeText, MarkIn, List.dropWhile_cons_of_neg (by decide)]
    simp

theorem skipTimeParts_timeText {time : Option TimeSpan} (h : ∀ t ∈ time, t.HasNumbers) :
    skipTimeParts (timeText time) = [] := by
  cases time with
  | none => rfl
  | some t =>
    obtain ⟨hhours, hminutes, hseconds⟩ := h t rfl
    have hmark := markIn_seconds hseconds
    rw [timeText, skipTimeParts, TimeSpan.text,
      skipPart_part hhours (by decide) (hmark.part (by decide) hminutes) (by decide),
      skipPart_part hminutes (by decide) hmark (by decide), skipSeconds_part hseconds]

theorem exists_time (h : skipTimeParts cs = []) : ∃ time, cs = timeText time ∧ ∀ t ∈ time, t.HasNumbers := by
  unfold skipTimeParts at h
  split at h
  next rest =>
    obtain ⟨hours, hrest, hhours⟩ := exists_part 'H' rest
    obtain ⟨minutes, hafter, hminutes⟩ := exists_part 'M' (skipPart 'H' rest)
    obtain ⟨seconds, hend, hseconds⟩ := exists_seconds h
    refine ⟨some ⟨hours, minutes, seconds⟩, ?_, ?_⟩
    · rw [timeText, TimeSpan.text, ← hend, ← hafter, ← hrest]
    · rintro _ ⟨⟩
      exact ⟨hhours, hminutes, hseconds⟩
  next => exact ⟨none, h, by simp⟩

theorem hasDurationParts_iff : hasDurationParts cs = true ↔ ∃ d : Duration, cs = d.text ∧ d.HasNumbers := by
  constructor
  · intro h
    unfold hasDurationParts at h
    split at h
    next rest hsign =>
      obtain ⟨years, hyears, hyears'⟩ := exists_part 'Y' rest
      obtain ⟨months, hmonths, hmonths'⟩ := exists_part 'M' (skipPart 'Y' rest)
      obtain ⟨days, hdays, hdays'⟩ := exists_part 'D' (skipPart 'M' (skipPart 'Y' rest))
      obtain ⟨time, htime, htime'⟩ := exists_time (of_decide_eq_true h)
      have hrest : part 'Y' years ++ (part 'M' months ++ (part 'D' days ++ timeText time)) = rest := by
        rw [← htime, ← hdays, ← hmonths, ← hyears]
      have hnumbers (negative : Bool) : (Duration.mk negative years months days time).HasNumbers :=
        ⟨hyears', hmonths', hdays', htime'⟩
      split at hsign
      next => exact ⟨_, by simp [Duration.text, hsign, hrest], hnumbers true⟩
      next => exact ⟨_, by simp [Duration.text, hsign, hrest], hnumbers false⟩
    next => cases h
  · intro ⟨d, hcs, hyears, hmonths, hdays, htime⟩
    have htimes := markIn_timeText d.time
    have hafter := htimes.part (by decide : isDecimalDigit 'D' = false) hdays
    have hend : skipTimeParts (skipPart 'D' (skipPart 'M' (skipPart 'Y'
        (part 'Y' d.years ++ (part 'M' d.months ++ (part 'D' d.days ++ timeText d.time)))))) = [] := by
      rw [skipPart_part hyears (by decide) (hafter.part (by decide) hmonths) (by decide),
        skipPart_part hmonths (by decide) hafter (by decide), skipPart_part hdays (by decide) htimes (by decide),
        skipTimeParts_timeText htime]
    subst hcs
    unfold Duration.text hasDurationParts
    cases d.negative <;> simp [hend]

@[simp] theorem getLast?_part (letter : Char) (p : Option (List Char)) :
    (part letter p).getLast? = p.map fun _ ↦ letter := by
  cases p <;> simp [part]

theorem TimeSpan.getLast?_text (t : TimeSpan) : t.text.getLast? =
    (t.seconds.map fun _ ↦ 'S').or ((t.minutes.map fun _ ↦ 'M').or (t.hours.map fun _ ↦ 'H')) := by
  simp [TimeSpan.text, List.getLast?_append, Option.or_assoc]

theorem TimeSpan.getLast?_text_getD (t : TimeSpan) :
    (t.text.getLast?.getD 'T' = 'T' ↔ t.IsEmpty) ∧ t.text.getLast?.getD 'T' ≠ 'P' := by
  obtain ⟨hours, minutes, seconds⟩ := t
  rw [getLast?_text, IsEmpty]
  cases seconds <;> cases minutes <;> cases hours <;> simp

theorem getLast?_timeText (time : Option TimeSpan) :
    (timeText time).getLast? = time.map fun t ↦ t.text.getLast?.getD 'T' := by
  cases time <;> simp [timeText, List.getLast?_cons]

theorem Duration.getLast?_text (d : Duration) : d.text.getLast? =
    some (((d.time.map fun t ↦ t.text.getLast?.getD 'T').or ((d.days.map fun _ ↦ 'D').or
      ((d.months.map fun _ ↦ 'M').or (d.years.map fun _ ↦ 'Y')))).getD 'P') := by
  simp [Duration.text, List.getLast?_append, List.getLast?_cons, getLast?_timeText, Option.or_assoc]

theorem Duration.getLast?_text_ne_iff (d : Duration) :
    d.text.getLast? ≠ some 'P' ∧ d.text.getLast? ≠ some 'T' ↔ ¬ d.IsEmpty ∧ ∀ t ∈ d.time, ¬ t.IsEmpty := by
  obtain ⟨negative, years, months, days, time⟩ := d
  rw [getLast?_text, IsEmpty]
  cases time with
  | none => cases days <;> cases months <;> cases years <;> simp
  | some t =>
    obtain ⟨hempty, hnotP⟩ := t.getLast?_text_getD
    simp only [Option.map_some, Option.some_or, Option.getD_some, ne_eq, Option.some.injEq, Option.mem_def,
      forall_eq', hnotP, hempty]
    constructor
    · exact fun ⟨_, ht⟩ ↦ ⟨fun hall ↦ ht hall.2.2.2, ht⟩
    · exact fun ⟨_, ht⟩ ↦ ⟨not_false, ht⟩

theorem isDuration_iff : isDuration cs = true ↔
    ∃ d : Duration, cs = d.text ∧ d.HasNumbers ∧ ¬ d.IsEmpty ∧ ∀ t ∈ d.time, ¬ t.IsEmpty := by
  have hlast : isDuration cs = true ↔
      hasDurationParts cs = true ∧ cs.getLast? ≠ some 'P' ∧ cs.getLast? ≠ some 'T' := by
    simp [isDuration, and_assoc]
  rw [hlast, hasDurationParts_iff]
  constructor
  · rintro ⟨⟨d, rfl, hnumbers⟩, hend⟩
    exact ⟨d, rfl, hnumbers, d.getLast?_text_ne_iff.1 hend⟩
  · rintro ⟨d, rfl, hnumbers, hparts⟩
    exact ⟨⟨d, rfl, hnumbers⟩, d.getLast?_text_ne_iff.2 hparts⟩

/-- The durations are the texts with an optional minus sign, the letter P and the parts in their order, where one
part at least is present, and one after the T if there is a T. -/
theorem Datatype.accepts_duration_iff (value : String) : Datatype.duration.accepts value = true ↔
    ∃ d : Duration, Text.trim value.toList = d.text ∧ d.HasNumbers ∧ ¬ d.IsEmpty ∧
      ∀ t ∈ d.time, ¬ t.IsEmpty :=
  isDuration_iff

end OntologyGuard.Xsd

import OntologyGuard.Proofs.Calendar
import OntologyGuard.Proofs.Text.Numeral
import OntologyGuard.Timestamp

namespace OntologyGuard.Timestamp

open Text (Numeral)

variable {cs rest : List Char} {n : Nat}

theorem toList_padded (width n : Nat) : (padded width n).toList =
    List.replicate (width - (Nat.toDigits 10 n).length) '0' ++ Nat.toDigits 10 n := by
  rw [padded, String.toList_append, String.toList_ofList, Nat.toList_repr, ← String.length_toList,
    Nat.toList_repr]

theorem numeral_padded (width n : Nat) : Numeral (padded width n).toList n := by
  rw [toList_padded]
  refine ⟨?_, ?_, ?_⟩
  · simp [Nat.toDigits_ne_nil]
  · intro c hc
    rcases List.mem_append.1 hc with hzero | hdigit
    · rw [(List.mem_replicate.1 hzero).2]
      rfl
    · exact Nat.isDigit_of_mem_toDigits (by decide) (by decide) hdigit
  · rw [Text.digitsValue_eq, Nat.ofDigitChars_append, Nat.ofDigitChars_replicate_zero, Nat.mul_zero,
      Nat.ofDigitChars_ten_toDigits]

theorem length_padded {width : Nat} (hwidth : 0 < width) (h : n < 10 ^ width) :
    (padded width n).toList.length = width := by
  have hle : (Nat.toDigits 10 n).length ≤ width := (Nat.length_toDigits_le_iff (by decide) hwidth).2 h
  rw [toList_padded, List.length_append, List.length_replicate]
  omega

theorem digits_append {limit : Nat} (h : Numeral cs n) (hlength : cs.length ≤ limit)
    (hend : cs.length = limit ∨ ∀ c ∈ rest.head?, c.isDigit = false) :
    digits limit (cs ++ rest) = some (n, rest) := by
  have hafter : ((rest.take (limit - cs.length)).takeWhile Char.isDigit) = [] := by
    rcases hend with heq | hnot
    · simp [heq]
    · cases rest with
      | nil => simp
      | cons c more =>
        have hc : c.isDigit = false := hnot c rfl
        cases limit - cs.length <;> simp [hc]
  have hfound : ((cs ++ rest).take limit).takeWhile Char.isDigit = cs := by
    rw [List.take_append, List.take_of_length_le hlength, List.takeWhile_append_of_pos h.isDigit,
      hafter, List.append_nil]
  have hne : cs.isEmpty = false := List.isEmpty_eq_false_iff.2 h.ne_nil
  simp [digits, hfound, hne, h.value]

theorem skipBlanks_cons {c : Char} (h : Text.isBlank c = false) (rest : List Char) :
    skipBlanks (c :: rest) = c :: rest :=
  List.dropWhile_cons_of_neg (Bool.eq_false_iff.1 h)

theorem skipBlanks_append (h : Numeral cs n) (rest : List Char) :
    skipBlanks (cs ++ rest) = cs ++ rest := by
  obtain ⟨hne, hdigit, -⟩ := h
  cases cs with
  | nil => exact absurd rfl hne
  | cons c more => exact skipBlanks_cons (Text.isBlank_of_isDigit (hdigit c List.mem_cons_self)) _

theorem field_padded {low high : Nat} (hlow : low ≤ n) (hhigh : n ≤ high) (hlimit : high < 100)
    (rest : List Char) : field low high ((padded 2 n).toList ++ rest) = some (n, rest) := by
  have hnumeral := numeral_padded 2 n
  have hlength : (padded 2 n).toList.length = 2 := length_padded (by decide) (by omega)
  have hread : digits 2 ((padded 2 n).toList ++ rest) = some (n, rest) :=
    digits_append hnumeral (Nat.le_of_eq hlength) (.inl hlength)
  simp [field, skipBlanks_append hnumeral, hread, hlow, hhigh]

theorem year_digits (h : Numeral cs n) (rest : List Char) :
    year (cs ++ rest) = (digits 4 (cs ++ rest)).map fun (n, rest) ↦ ((n : Int), rest) := by
  rw [year, skipBlanks_append h]
  obtain ⟨hne, hdigit, -⟩ := h
  cases cs with
  | nil => exact absurd rfl hne
  | cons c more =>
    have hc := hdigit c List.mem_cons_self
    split
    · next heq =>
      obtain ⟨rfl, -⟩ := List.cons.inj heq
      cases hc
    · next heq =>
      obtain ⟨rfl, -⟩ := List.cons.inj heq
      cases hc
    · rfl

theorem year_yearText (y : Int) (hrest : ∀ c ∈ rest.head?, c.isDigit = false) :
    year ((yearText y).toList ++ rest) = some (y, rest) := by
  unfold yearText
  split
  · next h =>
    have hnumeral := numeral_padded 4 y.toNat
    have hlength : (padded 4 y.toNat).toList.length = 4 := length_padded (by decide) (by omega)
    have hread : digits 4 ((padded 4 y.toNat).toList ++ rest) = some (y.toNat, rest) :=
      digits_append hnumeral (Nat.le_of_eq hlength) (.inl hlength)
    simp [year_digits hnumeral, hread, h.1]
  · have hread : digits ((padded 4 y.natAbs).toList.length + rest.length)
        ((padded 4 y.natAbs).toList ++ rest) = some (y.natAbs, rest) :=
      digits_append (numeral_padded 4 y.natAbs) (Nat.le_add_right _ _) (.inr hrest)
    split
    · next hneg =>
      have hvalue : -|y| = y := by rw [abs_of_neg hneg, neg_neg]
      have hsign := skipBlanks_cons (show Text.isBlank '-' = false by decide)
      simp [year, hsign, hread, hvalue]
    · next hpos =>
      have hvalue : |y| = y := abs_of_nonneg (not_lt.1 hpos)
      have hsign := skipBlanks_cons (show Text.isBlank '+' = false by decide)
      simp [year, hsign, hread, hvalue]

theorem mark_cons {c : Char} (h : Text.isBlank c = false) (rest : List Char) :
    mark c (c :: rest) = some rest := by
  simp [mark, skipBlanks_cons h]

theorem fraction_padded (width : Nat) (hwidth : 0 < width) (hlimit : width ≤ 9) (h : n < 10 ^ width)
    (hrest : ∀ c ∈ rest.head?, c.isDigit = false) :
    fraction (("." ++ padded width n).toList ++ rest) = some (n * 10 ^ (9 - width), rest) := by
  have hlength : (padded width n).toList.length = width := length_padded hwidth h
  have hread : digits 9 ((padded width n).toList ++ rest) = some (n, rest) :=
    digits_append (numeral_padded width n) (by omega) (.inr hrest)
  have hafter : rest.dropWhile Char.isDigit = rest := by
    cases rest with
    | nil => rfl
    | cons c more => simp [hrest c rfl]
  simp [fraction, hread, hafter, hlength]

theorem fraction_fractionText (h : n < 1000000000) (hrest : ∀ c ∈ rest.head?, c.isDigit = false)
    (hpoint : rest.head? ≠ some '.') :
    fraction ((fractionText n).toList ++ rest) = some (n, rest) := by
  unfold fractionText
  split
  · next hzero =>
    have hnone : fraction rest = some (0, rest) := by
      unfold fraction
      split
      · exact absurd rfl hpoint
      · rfl
    simpa [hzero] using hnone
  · split
    · next hmilli =>
      have hsmall : n / 1000000 < 10 ^ 3 := by omega
      have hvalue : n / 1000000 * 10 ^ 6 = n := by omega
      have hread := fraction_padded 3 (by decide) (by decide) hsmall hrest
      rwa [hvalue] at hread
    · split
      · next hmicro =>
        have hsmall : n / 1000 < 10 ^ 6 := by omega
        have hvalue : n / 1000 * 10 ^ 3 = n := by omega
        have hread := fraction_padded 6 (by decide) (by decide) hsmall hrest
        rwa [hvalue] at hread
      · have hread := fraction_padded 9 (by decide) (by decide) h hrest
        rwa [Nat.sub_self, Nat.pow_zero, Nat.mul_one] at hread

/-- The points in time that there are: in a year of the calendar, at a second of the day, and with a leap
second only behind the last second of a minute. -/
structure IsInstant (t : Timestamp) : Prop where
  year : Calendar.isSupportedYear (Calendar.ofDayNumber t.day).year = true
  second : t.second < 86400
  nanosecond : t.nanosecond < 1000000000 ∨ t.nanosecond < 2000000000 ∧ t.second % 60 = 59

theorem shift_dayNumber {t : Timestamp} (h : t.IsInstant) :
    shift (Calendar.ofDayNumber t.day) t.second t.nanosecond 0 = some t := by
  have hsecond := h.second
  have hday : (t.day * 86400 + t.second) / 86400 = t.day := by omega
  have hrest : ((t.second : Int) % 86400).toNat = t.second := by omega
  simp [shift, Calendar.dayNumber_ofDayNumber, hday, hrest, h.year]

theorem parse?_fields {text : String} {date : Calendar.Date} {hour minute second nanosecond : Nat}
    (hdate : Calendar.isDate date.year date.month date.day = true) (hhour : hour ≤ 23)
    (hminute : minute ≤ 59) (hsecond : second ≤ 60) (hnanosecond : nanosecond < 1000000000)
    (htext : text.toList = (yearText date.year).toList ++ '-' :: ((padded 2 date.month).toList ++
      '-' :: ((padded 2 date.day).toList ++ 'T' :: ((padded 2 hour).toList ++
      ':' :: ((padded 2 minute).toList ++ ':' :: ((padded 2 second).toList ++
      ((fractionText nanosecond).toList ++ ['Z']))))))) :
    parse? text = shift date (hour * 3600 + minute * 60 + if second = 60 then 59 else second)
      (nanosecond + if second = 60 then 1000000000 else 0) 0 := by
  obtain ⟨hmonth, hday⟩ := Calendar.bounds_of_isDate hdate
  have hdash := mark_cons (show Text.isBlank '-' = false by decide)
  have hcolon := mark_cons (show Text.isBlank ':' = false by decide)
  have hseparator (rest : List Char) : separator ('T' :: rest) = some rest := rfl
  have readMonth := field_padded hmonth.1 hmonth.2 (by decide)
  have readDay := field_padded hday.1 hday.2 (by decide)
  have readHour := field_padded (Nat.zero_le hour) hhour (by decide)
  have readMinute := field_padded (Nat.zero_le minute) hminute (by decide)
  have readSecond := field_padded (Nat.zero_le second) hsecond (by decide)
  have readFraction : fraction ((fractionText nanosecond).toList ++ ['Z']) =
      some (nanosecond, ['Z']) :=
    fraction_fractionText hnanosecond (by simp) (by simp)
  have readZone : zone (skipBlanks ['Z']) = some (0, []) := rfl
  have hend : skipBlanks [] = [] := rfl
  rw [parse?, htext, year_yearText _ (by simp)]
  simp only [Option.bind_eq_bind, Option.bind_some, hdash, hcolon, hseparator, readMonth, readDay,
    readHour, readMinute, readSecond, readFraction, readZone, hend, hdate]
  simp

theorem toList_text (t : Timestamp) : t.text.toList =
    let date := Calendar.ofDayNumber t.day
    (yearText date.year).toList ++ '-' :: ((padded 2 date.month).toList ++
      '-' :: ((padded 2 date.day).toList ++ 'T' :: ((padded 2 (t.second / 3600)).toList ++
      ':' :: ((padded 2 (t.second / 60 % 60)).toList ++
      ':' :: ((padded 2 (t.second % 60 + t.nanosecond / 1000000000)).toList ++
      ((fractionText (t.nanosecond % 1000000000)).toList ++ ['Z'])))))) := by
  simp [text, textWith]

theorem parse?_text {t : Timestamp} (h : t.IsInstant) : parse? t.text = some t := by
  have hhour : t.second / 3600 ≤ 23 := by
    have hsecond := h.second
    omega
  have hsecond : t.second % 60 + t.nanosecond / 1000000000 ≤ 60 := by
    have hnanosecond := h.nanosecond
    omega
  have hread := parse?_fields (Calendar.isDate_ofDayNumber h.year) hhour
    (Nat.le_of_lt_succ (Nat.mod_lt _ (by decide))) hsecond (Nat.mod_lt _ (by decide)) (toList_text t)
  have htime : t.second / 3600 * 3600 + t.second / 60 % 60 * 60 +
      (if t.second % 60 + t.nanosecond / 1000000000 = 60 then 59
        else t.second % 60 + t.nanosecond / 1000000000) = t.second := by
    have hnanosecond := h.nanosecond
    split <;> omega
  have hfraction : t.nanosecond % 1000000000 +
      (if t.second % 60 + t.nanosecond / 1000000000 = 60 then 1000000000 else 0) = t.nanosecond := by
    have hnanosecond := h.nanosecond
    split <;> omega
  rw [hread, htime, hfraction, shift_dayNumber h]

end OntologyGuard.Timestamp
